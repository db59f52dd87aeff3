import Mathlib.Data.List.Forall2
import Playfield.Proofs.Checked

/-!
# Computations alike

Two computations are alike if both fail for the same cause or both come to values that stand in a
relation. To compare two programs step by step it is enough to know this of what they call. The
same holds of two programs that agree unless the first fails for one of certain causes.
-/
namespace Playfield

variable {ε α β γ δ : Type} {R : α → β → Prop} {S : γ → δ → Prop}

/-- Two computations that fail for the same cause, or come to related values. -/
inductive Alike (R : α → β → Prop) : Except ε α → Except ε β → Prop
  | ok {a : α} {b : β} : R a b → Alike R (.ok a) (.ok b)
  | error (cause : ε) : Alike R (.error cause) (.error cause)

namespace Alike

variable {x : Except ε α} {y : Except ε β}

theorem refl {r : α → α → Prop} (same : ∀ a, r a a) (x : Except ε α) : Alike r x x := by
  cases x with
  | error cause => exact .error cause
  | ok a => exact .ok (same a)

/-- What is done next with related values is alike. -/
theorem bind {f : α → Except ε γ} {g : β → Except ε δ} (first : Alike R x y)
    (next : ∀ a b, R a b → Alike S (f a) (g b)) : Alike S (x >>= f) (y >>= g) := by
  cases first with
  | error cause => exact .error cause
  | ok related => exact next _ _ related

theorem map {f : α → γ} {g : β → δ} (first : Alike R x y) (next : ∀ a b, R a b → S (f a) (g b)) :
    Alike S (f <$> x) (g <$> y) := by
  cases first with
  | error cause => exact .error cause
  | ok related => exact .ok (next _ _ related)

/-- Lists that are related member by member are mapped alike. -/
theorem mapM {f : α → Except ε γ} {g : β → Except ε δ} {l : List α} {m : List β}
    (members : List.Forall₂ R l m) (each : ∀ a b, R a b → Alike S (f a) (g b)) :
    Alike (List.Forall₂ S) (l.mapM f) (m.mapM g) := by
  induction members with
  | nil => exact .ok .nil
  | cons related _ ih =>
    rw [List.mapM_cons, List.mapM_cons]
    refine (each _ _ related).bind ?_
    intro c d first
    refine ih.bind ?_
    intro cs ds others
    exact .ok (.cons first others)

end Alike

/-- Of lists that are related place by place, what is there is related place by place. -/
theorem forall₂_reduceOption {l : List (Option α)} {m : List (Option β)}
    (places : List.Forall₂ (Option.Rel R) l m) : List.Forall₂ R l.reduceOption m.reduceOption :=
  List.rel_filterMap (fun _ _ place => place) places

/-! ### Agreement up to some faults -/

/-- The first of two computations comes to the same as the second, or fails for one of certain causes. -/
def Follows (may : Fault → Prop) (x y : Checked α) : Prop := x = y ∨ ∃ cause, may cause ∧ x = .error cause

namespace Follows

variable {may other : Fault → Prop} {x y : Checked α}

theorem refl (x : Checked α) : Follows may x x := .inl rfl

theorem of_eq (same : x = y) : Follows may x y := .inl same

/-- Where no cause is left the two agree. -/
theorem eq (follows : Follows may x y) (never : ∀ cause, ¬may cause) : x = y :=
  follows.resolve_right fun ⟨cause, lost, _⟩ => never cause lost

theorem imp (follows : Follows may x y) (weaker : ∀ cause, may cause → other cause) : Follows other x y :=
  follows.imp_right fun ⟨cause, lost, failed⟩ => ⟨cause, weaker cause lost, failed⟩

theorem bind {f g : α → Checked β} (first : Follows may x y)
    (next : ∀ a, x = .ok a → y = .ok a → Follows may (f a) (g a)) : Follows may (x >>= f) (y >>= g) := by
  rcases first with rfl | ⟨cause, lost, rfl⟩
  · cases x with
    | error cause => exact .inl rfl
    | ok a => exact next a rfl rfl
  · exact .inr ⟨cause, lost, rfl⟩

/-- What is done next with a value that is certain. -/
theorem bind_ok {a : α} {f : α → Checked β} {z : Checked β} (first : Follows may x (.ok a)) (next : Follows may (f a) z) :
    Follows may (x >>= f) z := by
  rcases first with rfl | ⟨cause, lost, rfl⟩
  · exact next
  · exact .inr ⟨cause, lost, rfl⟩

theorem map (f : α → β) (follows : Follows may x y) : Follows may (f <$> x) (f <$> y) := by
  rcases follows with rfl | ⟨cause, lost, rfl⟩
  · exact .inl rfl
  · exact .inr ⟨cause, lost, rfl⟩

theorem mapM {f g : α → Checked β} {l : List α} (each : ∀ a ∈ l, Follows may (f a) (g a)) :
    Follows may (l.mapM f) (l.mapM g) := by
  induction l with
  | nil => exact .inl rfl
  | cons a rest ih =>
    obtain ⟨here, later⟩ := List.forall_mem_cons.mp each
    rw [List.mapM_cons, List.mapM_cons]
    exact here.bind fun b _ _ => (ih later).bind fun bs _ _ => .inl rfl

end Follows

/-- Two computations agree, unless some room is lacking and the first overflows. -/
def Unless (lacking : Prop) (x y : Checked α) : Prop := x = y ∨ lacking ∧ x = .error .overflow

namespace Unless

variable {lacking : Prop} {x y : Checked α}

theorem iff_follows : Unless lacking x y ↔ Follows (fun cause => lacking ∧ cause = .overflow) x y := by
  rw [Unless, Follows]
  simp

theorem refl (x : Checked α) : Unless lacking x x := .inl rfl

theorem eq (agree : Unless False x y) : x = y := agree.resolve_right fun lost => lost.1

theorem imp {other : Prop} (agree : Unless lacking x y) (weaker : lacking → other) : Unless other x y :=
  agree.imp_right fun lost => ⟨weaker lost.1, lost.2⟩

theorem bind {f g : α → Checked β} (first : Unless lacking x y)
    (next : ∀ a, x = .ok a → Unless lacking (f a) (g a)) : Unless lacking (x >>= f) (y >>= g) :=
  iff_follows.mpr ((iff_follows.mp first).bind fun a came _ => iff_follows.mp (next a came))

theorem map (f : α → β) (agree : Unless lacking x y) : Unless lacking (f <$> x) (f <$> y) :=
  iff_follows.mpr ((iff_follows.mp agree).map f)

theorem mapM {f g : α → Checked β} {l : List α} (each : ∀ a ∈ l, Unless lacking (f a) (g a)) :
    Unless lacking (l.mapM f) (l.mapM g) :=
  iff_follows.mpr (.mapM fun a member => iff_follows.mp (each a member))

end Unless

end Playfield
