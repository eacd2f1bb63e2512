import Mathlib.Logic.Basic

set_option autoImplicit false

/-! The `Except` monad of code that returns early on an error: how a sequence
of calls and guards in `do` notation evaluates once the result of each call is
known, and what a successful sequence says of its parts. -/

namespace Except

variable {ε α β : Type}

@[simp] theorem ok_bind (a : α) (f : α → Except ε β) : (Except.ok a >>= f) = f a := rfl

@[simp] theorem error_bind (e : ε) (f : α → Except ε β) : (Except.error e >>= f) = .error e := rfl

@[simp] theorem throw_eq_error (e : ε) : (throw e : Except ε α) = .error e := rfl

@[simp] theorem pure_eq_ok (a : α) : (pure a : Except ε α) = .ok a := rfl

@[simp] theorem mapError_ok {ε' : Type} (a : α) (f : ε → ε') : (Except.ok a : Except ε α).mapError f = .ok a :=
  rfl

@[simp] theorem mapError_error {ε' : Type} (e : ε) (f : ε → ε') :
    (Except.error e : Except ε α).mapError f = .error (f e) :=
  rfl

theorem bind_eq_ok {x : Except ε α} {f : α → Except ε β} {b : β} :
    x >>= f = .ok b ↔ ∃ a, x = .ok a ∧ f a = .ok b := by
  cases x <;> simp

theorem map_eq_ok {x : Except ε α} {f : α → β} {b : β} :
    x.map f = .ok b ↔ ∃ a, x = .ok a ∧ f a = b := by
  cases x <;> simp [Except.map]

theorem mapError_eq_ok {ε' : Type} {x : Except ε α} {f : ε → ε'} {a : α} :
    x.mapError f = .ok a ↔ x = .ok a := by
  cases x <;> simp

end Except
