import Playfield.Record.Tape
import Playfield.Rule

/-!
# Packed records

A rule is packed into a record of whole bytes, for given kind counts:

    trigger (4 bits), argument (4)
    symmetry (4), number of clauses (4)
    for each clause
      column (4), row (4)
      demands on the backgrounds
      demands on the sprites
      facing (4), number of commands (4)
    for each command of each clause
      instruction (8), argument (8)

The kind counts are not part of the record. Idle clauses are left out, so that decoding gives the
rule without them. A record is decoded as a whole or refused.
-/
namespace Playfield.Record

/-- The number of bytes before the first clause. -/
def headerLength : Nat := 2

/-- The number of bytes of a command. -/
def commandLength : Nat := 2

/-- The number of bytes of a clause without its commands. -/
def clauseLength (kinds : Kinds) : Checked Nat := do
  let backgrounds ← Demands.checkedLength kinds.backgrounds
  let sprites ← Demands.checkedLength kinds.sprites
  return 2 + backgrounds + sprites

/-- The number of bytes of a clause with its commands. -/
def fullLength {δ : Type} (kinds : Kinds) (c : Clause δ) : Checked Nat :=
  return (← clauseLength kinds) + commandLength * c.commands.length

/-- The number of bytes of the record of a rule. -/
def size {δ : Type} [Packed δ] (rule : Rule δ) (kinds : Kinds) : Checked Nat := do
  let lengths ← rule.busy.mapM (fullLength kinds)
  unsigned .full (lengths.foldr (· + ·) headerLength)

/-! ### Writing -/

section

variable {δ : Type} [Packed δ]

/-- The limits that a clause keeps. -/
def checkClause (kinds : Kinds) (c : Clause δ) : Checked Unit :=
  if !c.cell.inWindow then .error (.clauseOutside c.cell.col c.cell.row)
  else if !c.fits kinds then
    .error (.clauseMisfit c.cell.col c.cell.row (Packed.len c.backgrounds) (Packed.len c.sprites) kinds.backgrounds
      kinds.sprites)
  else if Clause.maxCommands < c.commands.length then
    .error (.tooManyCommands c.cell.col c.cell.row c.commands.length)
  else .ok ()

/-- Writes a clause without its commands. -/
def writeClause (t : Tape) (c : Clause δ) : Checked Tape := do
  let t ← t.writeField c.cell.col 4
  let t ← t.writeField c.cell.row 4
  let t ← t.writeBytes (Packed.bytes c.backgrounds)
  let t ← t.writeBytes (Packed.bytes c.sprites)
  let t ← t.writeField (code c.facing) 4
  t.writeField (.ofNat c.commands.length) 4

/-- Checks a clause and writes it without its commands. -/
def packClause (kinds : Kinds) (t : Tape) (c : Clause δ) : Checked Tape := do
  checkClause kinds c
  writeClause t c

/-- Writes a command. -/
def writeCommand (t : Tape) (k : Command) : Checked Tape := do
  let t ← t.writeField (code k.inst) 8
  t.writeField k.arg 8

/-- The record of a rule. The rule must keep the limits of the format: 15 clauses that are not
    idle, each in the window, sized for the kind counts and with at most four commands. -/
def encode (rule : Rule δ) (kinds : Kinds) : Checked (List UInt8) :=
  let clauses := rule.busy
  if Rule.maxClauses < clauses.length then .error (.tooManyClauses clauses.length Rule.maxClauses)
  else do
    let length ← size rule kinds
    Tape.checkLength length
    let t ← (Tape.blank length).writeField (code rule.trigger) 4
    let t ← t.writeField rule.arg 4
    let t ← t.writeField (code rule.symmetry) 4
    let t ← t.writeField (.ofNat clauses.length) 4
    let t ← clauses.foldlM (packClause kinds) t
    let t ← (clauses.flatMap Clause.commands).foldlM writeCommand t
    if t.exhausted then return t.bytes else throw .unfilledRecord

end

/-! ### Reading -/

/-- A computation that reads a record from a tape. -/
abbrev Reading := StateT Tape (Except (Failure RecordError))

/-- Refuses the record. -/
def refuse {α : Type} (reason : RecordError) : Reading α := throw (.refused reason)

/-- Reads a field. -/
def readField (width : Nat) : Reading UInt8 := Tape.readField width

/-- Reads whole bytes. -/
def readBytes (count : Nat) : Reading (List UInt8) := Tape.readBytes count

/-- Reads a field that holds the code of a word. -/
def readWord {α : Type} [Vocabulary α] (field : RecordField) (width : Nat) : Reading α := do
  let b ← readField width
  match ofCode? b with
  | some a => return a
  | none => refuse (.invalid field b)

/-- Reads the demands on `len` kinds. -/
def readDemands (len : Nat) : Reading Demands := do
  let bytes ← readBytes (← Demands.checkedLength len)
  Demands.ofBytes bytes len

/-- A clause that waits for its commands, and their number. -/
structure Head where
  clause : Clause
  count : Nat
  deriving DecidableEq, Repr

/-- Reads the cell of a clause, which must lie in the window and be new. -/
def readCell (before : List Head) : Reading Cell := do
  let col ← readField 4
  let row ← readField 4
  let cell : Cell := ⟨col, row⟩
  if !cell.inWindow then refuse (.cellOutside col row)
  else if before.any fun h => h.clause.cell == cell then refuse (.duplicateClause col row)
  else return cell

/-- Reads the number of commands of a clause. -/
def readCount : Reading Nat := do
  let count ← readField 4
  if Clause.maxCommands < count.toNat then refuse (.invalid .commandCount count) else return count.toNat

/-- Reads a clause without its commands. -/
def readHead (kinds : Kinds) (before : List Head) : Reading Head := do
  let cell ← readCell before
  let backgrounds ← readDemands kinds.backgrounds
  let sprites ← readDemands kinds.sprites
  let facing ← readWord .facing 4
  let count ← readCount
  return ⟨⟨cell, backgrounds, sprites, facing, []⟩, count⟩

/-- Reads a number of clauses after those already read. -/
def readHeads (kinds : Kinds) : Nat → List Head → Reading (List Head)
  | 0, before => return before
  | n + 1, before => do
    let head ← readHead kinds before
    readHeads kinds n (before ++ [head])

/-- Reads a number of commands. -/
def readCommands : Nat → Reading (List Command)
  | 0 => return []
  | n + 1 => do
    let inst ← readWord .instruction 8
    let arg ← readField 8
    return ⟨inst, arg⟩ :: (← readCommands n)

/-- Reads the commands that a clause waits for. -/
def finish (h : Head) : Reading Clause := do
  let commands ← readCommands h.count
  return { h.clause with commands := commands }

/-- Reads a rule. -/
def readRule (kinds : Kinds) : Reading Rule := do
  let trigger ← readWord .trigger 4
  let arg ← readField 4
  let symmetry ← readWord .symmetry 4
  let count ← readField 4
  let heads ← readHeads kinds count.toNat []
  let clauses ← heads.mapM finish
  return ⟨trigger, arg, clauses, symmetry⟩

/-- The rule of a record. Nothing may follow it. -/
def decode (bytes : List UInt8) (kinds : Kinds) : Except (Failure RecordError) Rule := do
  let (rule, t) ← (readRule kinds).run (.ofBytes bytes)
  if t.exhausted then return rule else throw (.refused (.trailing t.remaining))

end Playfield.Record
