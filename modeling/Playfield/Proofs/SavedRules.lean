import Mathlib.Data.List.Forall2
import Playfield.Proofs.Mending
import Playfield.Saved

/-!
# Rules in documents

What is read from a document of the shape of rules is a rule with raw demands, whatever these are, and every such rule whose
kinds can be counted is read from one. The rules of the library, whose tables of demands are well formed, are only some of them.
-/
namespace Playfield

theorem Document.length_of_fields? {names : List String} {d : Document} {ds : List Document} (found : d.fields? names = some ds) :
    ds.length = names.length := by
  cases d with
  | record fields =>
    cases found
    exact List.length_map _
  | list items =>
    obtain ⟨same, kept⟩ := Option.ite_none_right_eq_some.mp found
    cases kept
    exact same
  | null | bool | int | fraction | text => cases found

/-! ### Normal forms -/

namespace Shape

variable {n : Document}

/-- The normal forms of the documents of a shape. -/
def Normal (s : Shape) (n : Document) : Prop := ∃ d, s.normalise? d = some n

theorem normal_int_iff {low high : Int} : (int low high).Normal n ↔ ∃ z, (low ≤ z ∧ z ≤ high) ∧ .int z = n := by
  constructor
  · rintro ⟨d, normal⟩
    cases d with
    | int z =>
      rw [normalise?] at normal
      obtain ⟨inside, same⟩ := Option.ite_none_right_eq_some.mp normal
      exact ⟨z, inside, Option.some.inj same⟩
    | null | bool | fraction | text | list | record => simp [normalise?] at normal
  · rintro ⟨z, inside, rfl⟩
    exact ⟨.int z, by rw [normalise?, if_pos inside]⟩

theorem normal_word_iff {names : List String} : (word names).Normal n ↔ ∃ s ∈ names, .text s = n := by
  constructor
  · rintro ⟨d, normal⟩
    have named {s : String} (taken : (if s ∈ names then some (Document.text s) else none) = some n) :
        ∃ s ∈ names, .text s = n := by
      obtain ⟨known, same⟩ := Option.ite_none_right_eq_some.mp taken
      exact ⟨s, known, Option.some.inj same⟩
    cases d with
    | text s =>
      rw [normalise?] at normal
      exact named normal
    | record fields =>
      rcases fields with _ | ⟨⟨s, value⟩, _ | _⟩
      · simp [normalise?] at normal
      · cases value with
        | null =>
          rw [normalise?] at normal
          exact named normal
        | bool | int | fraction | text | list | record => simp [normalise?] at normal
      · simp [normalise?] at normal
    | null | bool | int | fraction | list => simp [normalise?] at normal
  · rintro ⟨s, known, rfl⟩
    exact ⟨.text s, by rw [normalise?, if_pos known]⟩

theorem normal_items_iff {item : Shape} {ns : List Document} :
    (∃ ds : List Document, ds.mapM item.normalise? = some ns) ↔ ∀ m ∈ ns, item.Normal m := by
  induction ns with
  | nil => exact ⟨fun _ => by simp, fun _ => ⟨[], rfl⟩⟩
  | cons m rest ih =>
    rw [List.forall_mem_cons, ← ih]
    constructor
    · rintro ⟨_ | ⟨d, ds⟩, mapped⟩
      · cases mapped
      · rw [List.mapM_cons] at mapped
        obtain ⟨_, first, mapped⟩ := Option.bind_eq_some_iff.mp mapped
        obtain ⟨_, later, done⟩ := Option.bind_eq_some_iff.mp mapped
        cases done
        exact ⟨⟨d, first⟩, ds, later⟩
    · rintro ⟨⟨d, first⟩, ds, later⟩
      exact ⟨d :: ds, by rw [List.mapM_cons, first, later]; rfl⟩

theorem normal_list_iff {item : Shape} : (list item).Normal n ↔ ∃ ns, (∀ m ∈ ns, item.Normal m) ∧ .list ns = n := by
  constructor
  · rintro ⟨d, normal⟩
    cases d with
    | list ds =>
      rw [normalise?] at normal
      obtain ⟨ns, mapped, same⟩ := Option.map_eq_some_iff.mp normal
      exact ⟨ns, normal_items_iff.mp ⟨ds, mapped⟩, same⟩
    | null | bool | int | fraction | text | record => simp [normalise?] at normal
  · rintro ⟨ns, each, rfl⟩
    obtain ⟨ds, mapped⟩ := normal_items_iff.mpr each
    exact ⟨.list ds, by rw [normalise?, mapped]; rfl⟩

theorem normal_fields_iff {fields : List (String × Shape)} {parts : List (String × Document)} :
    (∃ ds, ds.length = fields.length ∧ normaliseFields? fields ds = some parts) ↔
      List.Forall₂ (fun f p => f.1 = p.1 ∧ f.2.Normal p.2) fields parts := by
  induction fields generalizing parts with
  | nil =>
    rw [List.forall₂_nil_left_iff]
    constructor
    · rintro ⟨ds, _, normal⟩
      simpa [normaliseFields?, eq_comm] using normal
    · rintro rfl
      exact ⟨[], rfl, rfl⟩
  | cons f rest ih =>
    obtain ⟨name, shape⟩ := f
    rw [List.forall₂_cons_left_iff]
    constructor
    · rintro ⟨_ | ⟨d, ds⟩, length, normal⟩
      · cases length
      · rw [normaliseFields?] at normal
        obtain ⟨p, first, normal⟩ := Option.bind_eq_some_iff.mp normal
        obtain ⟨others, later, done⟩ := Option.bind_eq_some_iff.mp normal
        cases done
        rw [normaliseField?] at first
        obtain ⟨m, here, rfl⟩ := Option.map_eq_some_iff.mp first
        exact ⟨_, _, ⟨rfl, d, here⟩, ih.mp ⟨ds, Nat.succ.inj length, later⟩, rfl⟩
    · rintro ⟨⟨_, m⟩, others, ⟨rfl, d, here⟩, later, rfl⟩
      obtain ⟨ds, length, later⟩ := ih.mpr later
      refine ⟨d :: ds, congrArg Nat.succ length, ?_⟩
      rw [normaliseFields?, normaliseField?, here, later]
      rfl

theorem normal_record_iff {fields : List (String × Shape)} : (record fields).Normal n ↔
    ∃ parts, List.Forall₂ (fun f p => f.1 = p.1 ∧ f.2.Normal p.2) fields parts ∧ .record parts = n := by
  constructor
  · rintro ⟨d, normal⟩
    rw [normalise?] at normal
    obtain ⟨ds, found, normal⟩ := Option.bind_eq_some_iff.mp normal
    obtain ⟨parts, mapped, same⟩ := Option.map_eq_some_iff.mp normal
    have length := Document.length_of_fields? found
    rw [List.length_map] at length
    exact ⟨parts, normal_fields_iff.mp ⟨ds, length, mapped⟩, same⟩
  · rintro ⟨parts, each, rfl⟩
    obtain ⟨ds, length, mapped⟩ := normal_fields_iff.mpr each
    have found : (Document.list ds).fields? (fields.map Prod.fst) = some ds := by
      rw [Document.fields?, if_pos (by rw [List.length_map, length])]
    -- A list of the parts stands for the record, so the names need not be looked up.
    refine ⟨.list ds, ?_⟩
    rw [normalise?, found]
    show Document.record <$> normaliseFields? fields ds = _
    rw [mapped]
    rfl

/-- The parts of a record are normal forms under the names of the fields, one by one. -/
theorem exists_parts_cons {f : String × Shape} {fields : List (String × Shape)} {P : List (String × Document) → Prop} :
    (∃ parts, List.Forall₂ (fun f p => f.1 = p.1 ∧ f.2.Normal p.2) (f :: fields) parts ∧ P parts) ↔
      ∃ m, f.2.Normal m ∧
        ∃ parts, List.Forall₂ (fun f p => f.1 = p.1 ∧ f.2.Normal p.2) fields parts ∧ P ((f.1, m) :: parts) := by
  obtain ⟨name, shape⟩ := f
  constructor
  · rintro ⟨parts, each, holds⟩
    obtain ⟨⟨_, m⟩, others, ⟨rfl, here⟩, later, rfl⟩ := List.forall₂_cons_left_iff.mp each
    exact ⟨m, here, others, later, holds⟩
  · rintro ⟨m, here, others, later, holds⟩
    exact ⟨(name, m) :: others, .cons ⟨rfl, here⟩ later, holds⟩

theorem exists_parts_nil {P : List (String × Document) → Prop} :
    (∃ parts, List.Forall₂ (fun f p => f.1 = p.1 ∧ f.2.Normal p.2) ([] : List (String × Shape)) parts ∧ P parts) ↔ P [] := by
  simp

end Shape

/-! ### Values -/

namespace Savable

/-- The normal forms of the shape of a type are the documents in which the fitting values are saved. -/
def Covers (α : Type) [Savable α] (fits : α → Prop) : Prop := ∀ n, (shape α).Normal n ↔ ∃ a, fits a ∧ save a = n

theorem covers_word {α : Type} [Vocabulary α] : Covers α fun _ => True := by
  intro n
  rw [show (shape α) = .word ((Vocabulary.words : List α).map name) from rfl, Shape.normal_word_iff]
  constructor
  · rintro ⟨s, known, same⟩
    obtain ⟨a, _, rfl⟩ := List.mem_map.mp known
    exact ⟨a, trivial, same⟩
  · rintro ⟨a, _, same⟩
    exact ⟨name a, List.mem_map_of_mem (List.mem_of_getElem? (Vocabulary.words_code a)), same⟩

theorem covers_byte : Covers UInt8 fun _ => True := by
  intro n
  rw [show shape UInt8 = .int 0 255 from rfl, Shape.normal_int_iff]
  constructor
  · rintro ⟨z, ⟨low, high⟩, same⟩
    refine ⟨.ofNat z.toNat, trivial, ?_⟩
    show Document.int _ = n
    rw [← same, UInt8.toNat_ofNat']
    congr 1
    omega
  · rintro ⟨b, _, same⟩
    have := b.toNat_lt
    exact ⟨b.toNat, ⟨by omega, by omega⟩, same⟩

theorem covers_list {α : Type} [Savable α] {fits : α → Prop} (covers : Covers α fits) :
    Covers (List α) fun as => ∀ a ∈ as, fits a := by
  intro n
  rw [show shape (List α) = .list (shape α) from rfl, Shape.normal_list_iff]
  constructor
  · rintro ⟨ns, each, rfl⟩
    suffices found : ∃ as : List α, (∀ a ∈ as, fits a) ∧ as.map save = ns by
      obtain ⟨as, fitting, same⟩ := found
      exact ⟨as, fitting, congrArg Document.list same⟩
    induction ns with
    | nil => exact ⟨[], by simp, rfl⟩
    | cons m rest ih =>
      obtain ⟨here, each⟩ := List.forall_mem_cons.mp each
      obtain ⟨a, fitting, same⟩ := (covers m).mp here
      obtain ⟨as, others, sames⟩ := ih each
      exact ⟨a :: as, List.forall_mem_cons.mpr ⟨fitting, others⟩, by rw [List.map_cons, same, sames]⟩
  · rintro ⟨as, fitting, rfl⟩
    refine ⟨as.map save, fun m member => ?_, rfl⟩
    obtain ⟨a, inside, same⟩ := List.mem_map.mp member
    exact (covers m).mpr ⟨a, fitting a inside, same⟩

theorem covers_cell : Covers Cell fun _ => True := by
  intro n
  have byte (n : Document) := covers_byte n
  rw [show shape Cell = .record [("col", shape UInt8), ("row", shape UInt8)] from rfl, Shape.normal_record_iff]
  simp only [Shape.exists_parts_cons, Shape.exists_parts_nil, byte]
  constructor
  · rintro ⟨_, ⟨col, _, rfl⟩, _, ⟨row, _, rfl⟩, same⟩
    exact ⟨⟨col, row⟩, trivial, same⟩
  · rintro ⟨c, _, same⟩
    exact ⟨_, ⟨c.col, trivial, rfl⟩, _, ⟨c.row, trivial, rfl⟩, same⟩

theorem covers_command : Covers Command fun _ => True := by
  intro n
  have byte (n : Document) := covers_byte n
  have inst (n : Document) := (covers_word (α := Instruction)) n
  rw [show shape Command = .record [("inst", shape Instruction), ("arg", shape UInt8)] from rfl, Shape.normal_record_iff]
  simp only [Shape.exists_parts_cons, Shape.exists_parts_nil, byte, inst]
  constructor
  · rintro ⟨_, ⟨inst, _, rfl⟩, _, ⟨arg, _, rfl⟩, same⟩
    exact ⟨⟨inst, arg⟩, trivial, same⟩
  · rintro ⟨c, _, same⟩
    exact ⟨_, ⟨c.inst, trivial, rfl⟩, _, ⟨c.arg, trivial, rfl⟩, same⟩

/-- Nothing is asked of the bytes of a table. -/
theorem covers_raw : Covers RawDemands fun d => d.len < Word.full.size := by
  intro n
  have bytes (n : Document) := covers_list covers_byte n
  have count (n : Document) : Shape.count.Normal n ↔ ∃ len : Nat, len < Word.full.size ∧ .int len = n := by
    rw [show Shape.count = .int 0 (Word.full.size - 1) from rfl, Shape.normal_int_iff]
    constructor
    · rintro ⟨z, ⟨low, high⟩, same⟩
      exact ⟨z.toNat, by omega, by rw [← same, Int.toNat_of_nonneg low]⟩
    · rintro ⟨len, small, same⟩
      exact ⟨len, ⟨by omega, by omega⟩, same⟩
  rw [show shape RawDemands = .record [("len", .count), ("bytes", shape (List UInt8))] from rfl, Shape.normal_record_iff]
  simp only [Shape.exists_parts_cons, Shape.exists_parts_nil, count, bytes]
  constructor
  · rintro ⟨_, ⟨len, small, rfl⟩, _, ⟨bytes, _, rfl⟩, same⟩
    exact ⟨⟨len, bytes⟩, small, same⟩
  · rintro ⟨d, small, same⟩
    exact ⟨_, ⟨d.len, small, rfl⟩, _, ⟨d.bytes, fun _ _ => trivial, rfl⟩, same⟩

variable {δ : Type} [Savable δ] {fits : δ → Prop}

theorem covers_clause (covers : Covers δ fits) : Covers (Clause δ) fun c => fits c.backgrounds ∧ fits c.sprites := by
  intro n
  have cell (n : Document) := covers_cell n
  have table (n : Document) := covers n
  have facing (n : Document) := (covers_word (α := Facing)) n
  have commands (n : Document) := covers_list covers_command n
  rw [show shape (Clause δ) = .record [("coord", shape Cell), ("background", shape δ), ("sprites", shape δ),
    ("direction", shape Facing), ("commands", shape (List Command))] from rfl, Shape.normal_record_iff]
  simp only [Shape.exists_parts_cons, Shape.exists_parts_nil, cell, table, facing, commands]
  constructor
  · rintro ⟨_, ⟨cell, _, rfl⟩, _, ⟨backgrounds, first, rfl⟩, _, ⟨sprites, second, rfl⟩, _, ⟨facing, _, rfl⟩,
      _, ⟨commands, _, rfl⟩, same⟩
    exact ⟨⟨cell, backgrounds, sprites, facing, commands⟩, ⟨first, second⟩, same⟩
  · rintro ⟨c, ⟨first, second⟩, same⟩
    exact ⟨_, ⟨c.cell, trivial, rfl⟩, _, ⟨c.backgrounds, first, rfl⟩, _, ⟨c.sprites, second, rfl⟩, _,
      ⟨c.facing, trivial, rfl⟩, _, ⟨c.commands, fun _ _ => trivial, rfl⟩, same⟩

theorem covers_rule (covers : Covers δ fits) :
    Covers (Rule δ) fun r => ∀ c ∈ r.clauses, fits c.backgrounds ∧ fits c.sprites := by
  intro n
  have trigger (n : Document) := (covers_word (α := Trigger)) n
  have byte (n : Document) := covers_byte n
  have clauses (n : Document) := covers_list (covers_clause covers) n
  have symmetry (n : Document) := (covers_word (α := Symmetry)) n
  rw [show shape (Rule δ) = .record [("rule_type", shape Trigger), ("rule_arg", shape UInt8),
    ("when_dos", shape (List (Clause δ))), ("symmetry", shape Symmetry)] from rfl, Shape.normal_record_iff]
  simp only [Shape.exists_parts_cons, Shape.exists_parts_nil, trigger, byte, clauses, symmetry]
  constructor
  · rintro ⟨_, ⟨trigger, _, rfl⟩, _, ⟨arg, _, rfl⟩, _, ⟨clauses, counted, rfl⟩, _, ⟨symmetry, _, rfl⟩, same⟩
    exact ⟨⟨trigger, arg, clauses, symmetry⟩, counted, same⟩
  · rintro ⟨r, counted, same⟩
    exact ⟨_, ⟨r.trigger, trivial, rfl⟩, _, ⟨r.arg, trivial, rfl⟩, _, ⟨r.clauses, counted, rfl⟩, _,
      ⟨r.symmetry, trivial, rfl⟩, same⟩

/-- Whatever is read from a document of the shape of rules is a rule with raw demands on kinds that can be counted, and every
    such rule is read from one. -/
theorem normal_rule_iff {n : Document} : (shape Rule).Normal n ↔
    ∃ r : Rule RawDemands, (∀ c ∈ r.clauses, c.backgrounds.len < Word.full.size ∧ c.sprites.len < Word.full.size) ∧ save r = n :=
  covers_rule covers_raw n

/-! ### Tables that are not well formed -/

theorem raw_of_save_eq {d : Demands} {e : RawDemands} (same : save d = save e) : d.raw = e := by
  obtain ⟨len, bytes⟩ := e
  have fields := Document.record.inj same
  simp only [List.cons.injEq, Prod.mk.injEq, true_and, and_true, Document.int.injEq] at fields
  obtain ⟨count, saved⟩ := fields
  have byte_inj : Function.Injective (save : UInt8 → Document) := fun a b same =>
    UInt8.toNat_inj.mp (Int.ofNat.inj (Document.int.inj same))
  have kept : d.raw.bytes = bytes := List.map_injective_iff.mpr byte_inj (Document.list.inj saved)
  have counted : d.raw.len = len := Int.ofNat.inj count
  rw [← kept, ← counted]

/-- A rule with a table that is not well formed is saved as no rule of the library is. -/
theorem save_ne_of_misshapen {r : Rule RawDemands} {c : Clause RawDemands} (member : c ∈ r.clauses)
    (misshapen : ¬(Packed.Sized c.backgrounds ∧ Packed.Padded c.backgrounds) ∨
      ¬(Packed.Sized c.sprites ∧ Packed.Padded c.sprites)) (q : Rule) : save q ≠ save r := by
  intro same
  have shaped {d : Demands} {e : RawDemands} (same : save d = save e) : Packed.Sized e ∧ Packed.Padded e := by
    cases raw_of_save_eq same
    exact ⟨d.sized, d.padded⟩
  have rules := Document.record.inj same
  simp only [List.cons.injEq, Prod.mk.injEq, true_and, and_true] at rules
  have listed : save c ∈ q.clauses.map save := by
    rw [Document.list.inj rules.2.2.1]
    exact List.mem_map_of_mem member
  obtain ⟨own, _, saved⟩ := List.mem_map.mp listed
  have parts := Document.record.inj saved
  simp only [List.cons.injEq, Prod.mk.injEq, true_and, and_true] at parts
  rcases misshapen with backgrounds | sprites
  · exact backgrounds (shaped parts.2.1)
  · exact sprites (shaped parts.2.2.1)

end Savable
end Playfield
