import Mathlib.Init
import Rehearsal.Chain.Basic

namespace Rehearsal

/-! What it takes for a sequence of steps that may fail to succeed. -/

variable {ε α β : Type}

theorem bind_eq_ok {x : Except ε α} {f : α → Except ε β} {b : β} :
    (x >>= f) = .ok b ↔ ∃ a, x = .ok a ∧ f a = .ok b := by
  cases x with
  | error e => simp [bind, Except.bind]
  | ok a => simp [bind, Except.bind]

theorem bind_eq_error {x : Except ε α} {f : α → Except ε β} {e : ε} :
    (x >>= f) = .error e ↔ x = .error e ∨ ∃ a, x = .ok a ∧ f a = .error e := by
  cases x with
  | error e => simp [bind, Except.bind]
  | ok a => simp [bind, Except.bind]

theorem pure_eq_ok {a b : α} : (pure a : Except ε α) = .ok b ↔ a = b := by
  simp [pure, Except.pure]

theorem map_eq_ok {x : Except ε α} {f : α → β} {b : β} :
    (f <$> x) = .ok b ↔ ∃ a, x = .ok a ∧ f a = b := by
  cases x with
  | error e => simp [Functor.map, Except.map]
  | ok a => simp [Functor.map, Except.map]

theorem map_eq_error {x : Except ε α} {f : α → β} {e : ε} :
    (f <$> x) = .error e ↔ x = .error e := by
  cases x with
  | error e => simp [Functor.map, Except.map]
  | ok a => simp [Functor.map, Except.map]

theorem Except.map_eq_ok {x : Except ε α} {f : α → β} {b : β} :
    x.map f = .ok b ↔ ∃ a, x = .ok a ∧ f a = b :=
  Rehearsal.map_eq_ok

theorem Except.mapError_eq_ok {ε' : Type} {x : Except ε α} {f : ε → ε'} {a : α} :
    x.mapError f = .ok a ↔ x = .ok a := by
  cases x with
  | error e =>
      constructor
      · intro failed
        cases failed
      · intro failed
        cases failed
  | ok b =>
      constructor
      · intro same
        cases same
        rfl
      · intro same
        cases same
        rfl

theorem toOption_eq_some {x : Except ε α} {a : α} : x.toOption = some a ↔ x = .ok a := by
  cases x with
  | error e => simp [Except.toOption]
  | ok b => simp [Except.toOption]

theorem ok_bind (a : α) (f : α → Except ε β) : (.ok a >>= f) = f a := rfl

/-! What such a sequence can fail with. -/

def FailsWith (p : ε → Prop) (x : Except ε α) : Prop :=
  ∀ e, x = .error e → p e

namespace FailsWith

variable {p : ε → Prop}

theorem ok (a : α) : FailsWith p (.ok a : Except ε α) := by
  intro e failed
  contradiction

theorem error {e : ε} (holds : p e) : FailsWith p (.error e : Except ε α) := by
  intro other failed
  cases failed
  exact holds

theorem bind {x : Except ε α} {f : α → Except ε β} (first : FailsWith p x)
    (rest : ∀ a, FailsWith p (f a)) : FailsWith p (x >>= f) := by
  intro e failed
  cases x with
  | error other =>
      cases failed
      exact first e rfl
  | ok a => exact rest a e failed

theorem map {x : Except ε α} (first : FailsWith p x) (f : α → β) : FailsWith p (f <$> x) := by
  intro e failed
  cases x with
  | error other =>
      cases failed
      exact first e rfl
  | ok a => contradiction

end FailsWith

/-! A sequence that succeeds wherever another one does, with the same result. -/

def SucceedsAlike (x y : Except ε α) : Prop :=
  ∀ a, x = .ok a → y = .ok a

namespace SucceedsAlike

theorem refl (x : Except ε α) : SucceedsAlike x x :=
  fun _ succeeded => succeeded

theorem bind {x y : Except ε α} {f g : α → Except ε β} (first : SucceedsAlike x y)
    (rest : ∀ a, x = .ok a → SucceedsAlike (f a) (g a)) : SucceedsAlike (x >>= f) (y >>= g) := by
  intro b succeeded
  obtain ⟨a, firstResult, restResult⟩ := bind_eq_ok.mp succeeded
  exact bind_eq_ok.mpr ⟨a, first a firstResult, rest a firstResult b restResult⟩

end SucceedsAlike

/-! Sequences that both fail, or both succeed with the same result. -/

def EndAlike (x y : Except ε α) : Prop :=
  ∀ a, x = .ok a ↔ y = .ok a

namespace EndAlike

variable {x y : Except ε α}

theorem of_eq (same : x = y) : EndAlike x y := by
  intro a
  rw [same]

theorem of_errors {e f : ε} (first : x = .error e) (second : y = .error f) : EndAlike x y := by
  intro a
  rw [first, second]
  exact iff_of_false nofun nofun

theorem map (alike : EndAlike x y) (f : α → β) : EndAlike (f <$> x) (f <$> y) := by
  intro b
  rw [map_eq_ok, map_eq_ok]
  simp only [alike _]

end EndAlike

end Rehearsal
