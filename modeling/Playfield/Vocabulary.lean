/-!
# Vocabularies

A vocabulary is a finite type whose values are written two ways: in packed records as a code, in
saved documents as a name. The code of a word is its place in the vocabulary.
-/
namespace Playfield

/-- A finite type whose values, in their order, are coded `0, 1, 2, …` and have names. -/
class Vocabulary (α : Type) where
  /-- Every word, in code order. -/
  words : List α
  /-- The code of a word. -/
  code : α → UInt8
  /-- The name of a word. -/
  name : α → String
  /-- The code of a word is its place. -/
  words_code : ∀ a, words[(code a).toNat]? = some a
  /-- The places are coded in order. -/
  codes : words.map (fun a => (code a).toNat) = List.range words.length

export Vocabulary (code name)

variable {α : Type} [Vocabulary α]

/-- The word with a code. -/
def ofCode? (b : UInt8) : Option α := (Vocabulary.words : List α)[b.toNat]?

/-- The word with a name. -/
def ofName? (s : String) : Option α := (Vocabulary.words : List α).find? fun a => name a == s

@[simp] theorem ofCode?_code (a : α) : ofCode? (code a) = some a := Vocabulary.words_code a

/-- A code is read as the one word that has it. -/
theorem ofCode?_eq_some_iff {b : UInt8} {a : α} : ofCode? b = some a ↔ b = code a := by
  constructor
  · intro found
    obtain ⟨inside, here⟩ := List.getElem?_eq_some_iff.mp found
    have coded : (code a).toNat = b.toNat := by
      have at_b := congrArg (·[b.toNat]?) (Vocabulary.codes (α := α))
      simpa [inside, here] using at_b
    exact UInt8.toNat_inj.mp coded.symm
  · rintro rfl
    exact ofCode?_code a

/-- A code has no word exactly if it is that of none. -/
theorem ofCode?_eq_none_iff {b : UInt8} : (ofCode? b : Option α) = none ↔ ∀ a : α, b ≠ code a := by
  rw [Option.eq_none_iff_forall_ne_some]
  exact forall_congr' fun a => not_congr ofCode?_eq_some_iff

theorem code_inj {a b : α} (same : code a = code b) : a = b := by
  have := ofCode?_code a
  rw [same, ofCode?_code] at this
  exact (Option.some.inj this).symm

end Playfield
