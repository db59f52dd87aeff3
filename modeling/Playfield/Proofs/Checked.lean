import Playfield.Fault

/-!
# Checked computations

What a chain of computations that may fail has done when it comes to a value.
-/
namespace Playfield

variable {ε α β : Type}

theorem bind_eq_ok {x : Except ε α} {f : α → Except ε β} {b : β} :
    (x >>= f) = .ok b ↔ ∃ a, x = .ok a ∧ f a = .ok b := by
  cases x with
  | error cause => simp [bind, Except.bind]
  | ok a => simp [bind, Except.bind]

@[simp] theorem ok_bind (a : α) (f : α → Except ε β) : (Except.ok a >>= f) = f a := rfl

@[simp] theorem map_ok (f : α → β) (a : α) : f <$> (Except.ok a : Except ε α) = .ok (f a) := rfl

@[simp] theorem pure_eq_ok {a b : α} : (pure a : Except ε α) = .ok b ↔ a = b := by
  constructor
  · intro same
    cases same
    rfl
  · intro same
    rw [same]
    rfl

theorem unsigned_eq_ok_iff {w : Word} {n m : Nat} : unsigned w n = .ok m ↔ n < w.size ∧ n = m := by
  rw [unsigned]
  by_cases fits : n < w.size
  · simp [fits]
  · simp [fits]

theorem signed_eq_ok_iff {w : Word} {n m : Int} :
    signed w n = .ok m ↔ (-(w.reach : Int) ≤ n ∧ n < w.reach) ∧ n = m := by
  rw [signed]
  by_cases fits : -(w.reach : Int) ≤ n ∧ n < w.reach
  · simp [fits]
  · simp [fits]

/-! ### Lists of computations -/

theorem mem_mapM_eq_ok {f : α → Except ε β} {l : List α} {images : List β} (mapped : l.mapM f = .ok images) :
    ∀ a ∈ l, ∃ b, f a = .ok b := by
  induction l generalizing images with
  | nil => simp
  | cons a rest ih =>
    rw [List.mapM_cons] at mapped
    obtain ⟨b, first, mapped⟩ := bind_eq_ok.mp mapped
    obtain ⟨others, later, _⟩ := bind_eq_ok.mp mapped
    intro c member
    rcases List.mem_cons.mp member with rfl | inside
    · exact ⟨b, first⟩
    · exact ih later c inside

/-- The images of a list are the values of its members. -/
theorem mem_mapM_iff {f : α → Except ε β} {l : List α} {images : List β} (mapped : l.mapM f = .ok images) {b : β} :
    b ∈ images ↔ ∃ a ∈ l, f a = .ok b := by
  induction l generalizing images with
  | nil =>
    cases pure_eq_ok.mp mapped
    simp
  | cons a rest ih =>
    rw [List.mapM_cons] at mapped
    obtain ⟨c, first, mapped⟩ := bind_eq_ok.mp mapped
    obtain ⟨others, later, done⟩ := bind_eq_ok.mp mapped
    cases pure_eq_ok.mp done
    rw [List.mem_cons, ih later]
    simp [first, eq_comm]

/-- A list each member of which comes to a value is mapped. -/
theorem exists_mapM_eq_ok {f : α → Except ε β} {l : List α} (each : ∀ a ∈ l, ∃ b, f a = .ok b) :
    ∃ images, l.mapM f = .ok images := by
  induction l with
  | nil => exact ⟨[], rfl⟩
  | cons a rest ih =>
    obtain ⟨b, first⟩ := each a List.mem_cons_self
    obtain ⟨others, later⟩ := ih fun c member => each c (List.mem_cons_of_mem _ member)
    rw [List.mapM_cons, first, ok_bind, later]
    exact ⟨b :: others, rfl⟩

/-- A list is mapped member by member. -/
theorem mapM_eq_ok_map {f : α → Except ε β} {g : α → β} {l : List α} (each : ∀ a ∈ l, f a = .ok (g a)) :
    l.mapM f = .ok (l.map g) := by
  induction l with
  | nil => rfl
  | cons a rest ih =>
    obtain ⟨here, each⟩ := List.forall_mem_cons.mp each
    rw [List.mapM_cons, here, ok_bind, ih each]
    rfl

/-- A list is sifted member by member. -/
theorem filterM_eq_ok_filter {f : α → Except ε Bool} {keep : α → Bool} {l : List α} (each : ∀ a ∈ l, f a = .ok (keep a)) :
    l.filterM f = .ok (l.filter keep) := by
  have kept (before : List α) : l.filterAuxM f before = .ok ((l.filter keep).reverse ++ before) := by
    induction l generalizing before with
    | nil => rfl
    | cons a rest ih =>
      obtain ⟨here, each⟩ := List.forall_mem_cons.mp each
      rw [List.filterAuxM, here, ok_bind, ih each]
      cases keeps : keep a <;> simp [keeps]
  rw [List.filterM, kept []]
  simp [pure, Except.pure]

/-- What is done with each value can be done with all of them at the end. -/
theorem mapM_map_eq {γ : Type} (f : α → Except ε β) (g : β → γ) (l : List α) :
    l.mapM (fun a => g <$> f a) = List.map g <$> l.mapM f := by
  induction l with
  | nil => rfl
  | cons a rest ih =>
    rw [List.mapM_cons, List.mapM_cons, ih]
    cases f a with
    | error cause => rfl
    | ok b => cases rest.mapM f <;> rfl

/-- A request that can only fault is answered as part of one that can also refuse. -/
@[simp] theorem lift_ok {ε : Type} (a : α) : (liftM (Except.ok a : Checked α) : Except (Failure ε) α) = .ok a := rfl

end Playfield
