import Mathlib.Logic.Basic

set_option autoImplicit false

/-! Loops `for cond { body }` whose body cannot panic, run on fuel. A run ends in
the first state where the condition fails, and is `none` only when the fuel runs
out first. An invariant the body keeps holds where the loop ends (the invariant
rule). A function with such a loop ends in one of three ways: it returns, it
panics, or its loop has not ended within the fuel. A body may also return from
the function with an error (`tryRun`); a measure its steps lower bounds the fuel
such a loop needs (the measure rule). A loop `for { body }` that only `break`
or `return` leave is `forever`, with the same two rules. -/

/-- How a call of a function with loops and panics ends. -/
inductive Outcome (α : Type) where
  | returns (value : α)
  | panics
  | outOfFuel
deriving DecidableEq, Repr

namespace Loop

variable {σ : Type} (cond : σ → Bool) (body : σ → σ)

/-- The state in which `cond` first fails, or `none` when the fuel runs out
before. -/
def run : Nat → σ → Option σ
  | 0, _ => none
  | fuel + 1, s => if cond s then run fuel (body s) else some s

variable {cond body}

theorem run_exit {fuel : Nat} {s : σ} (stop : cond s = false) :
    run cond body (fuel + 1) s = some s := by
  simp [run, stop]

theorem run_continue {fuel : Nat} {s : σ} (go : cond s = true) :
    run cond body (fuel + 1) s = run cond body fuel (body s) := by
  simp [run, go]

theorem run_invariant {Inv : σ → Prop} (preserved : ∀ s, Inv s → cond s = true → Inv (body s)) :
    ∀ {fuel : Nat} {s t : σ}, Inv s → run cond body fuel s = some t → Inv t ∧ cond t = false
  | 0, _, _, _, ran => by simp [run] at ran
  | fuel + 1, s, t, holds, ran => by
    cases go : cond s with
    | false =>
      rw [run_exit go, Option.some_inj] at ran
      exact ran ▸ ⟨holds, go⟩
    | true =>
      rw [run_continue go] at ran
      exact run_invariant preserved (preserved s holds go) ran

section Try

variable {ε : Type} (cond : σ → Bool) (step : σ → Except ε σ)

/-- A loop whose body may return early with an error: the error, the state in
which `cond` first fails, or `none` when the fuel runs out before. -/
def tryRun : Nat → σ → Option (Except ε σ)
  | 0, _ => none
  | fuel + 1, s =>
    if cond s then
      match step s with
      | .error e => some (.error e)
      | .ok s' => tryRun fuel s'
    else some (.ok s)

/-- The states a loop passes through from `s`: `s` itself, and those after each
step that goes on. -/
inductive Reaches : σ → σ → Prop
  | refl (s : σ) : Reaches s s
  | step {s s' t : σ} : cond s = true → step s = .ok s' → Reaches s' t → Reaches s t

variable {cond step}

theorem tryRun_spec {Inv : σ → Prop}
    (preserved : ∀ s s', Inv s → cond s = true → step s = .ok s' → Inv s') :
    ∀ {fuel : Nat} {s : σ} {r : Except ε σ}, Inv s → tryRun cond step fuel s = some r →
      (∃ t, r = .ok t ∧ Inv t ∧ cond t = false) ∨
        ∃ t e, r = .error e ∧ Inv t ∧ cond t = true ∧ step t = .error e
  | 0, _, _, _, ran => by simp [tryRun] at ran
  | fuel + 1, s, r, holds, ran => by
    cases go : cond s with
    | false =>
      simp only [tryRun, go, Bool.false_eq_true, if_false, Option.some.injEq] at ran
      exact Or.inl ⟨s, ran.symm, holds, go⟩
    | true =>
      simp only [tryRun, go, if_true] at ran
      cases stepped : step s with
      | error e =>
        rw [stepped, Option.some.injEq] at ran
        exact Or.inr ⟨s, e, ran.symm, holds, go, stepped⟩
      | ok s' =>
        rw [stepped] at ran
        exact tryRun_spec preserved (preserved s s' holds go stepped) ran

theorem tryRun_error_reaches :
    ∀ {fuel : Nat} {s : σ} {e : ε}, tryRun cond step fuel s = some (.error e) →
      ∃ t, Reaches cond step s t ∧ cond t = true ∧ step t = .error e
  | 0, _, _, ran => by simp [tryRun] at ran
  | fuel + 1, s, e, ran => by
    cases go : cond s with
    | false => simp [tryRun, go] at ran
    | true =>
      simp only [tryRun, go, if_true] at ran
      cases stepped : step s with
      | error e' =>
        rw [stepped, Option.some.injEq, Except.error.injEq] at ran
        exact ⟨s, .refl s, go, ran ▸ stepped⟩
      | ok s' =>
        rw [stepped] at ran
        obtain ⟨t, reaches, going, failed⟩ := tryRun_error_reaches ran
        exact ⟨t, .step go stepped reaches, going, failed⟩

theorem Reaches.invariant {Inv : σ → Prop}
    (preserved : ∀ s s', Inv s → cond s = true → step s = .ok s' → Inv s') {s t : σ}
    (reaches : Reaches cond step s t) (holds : Inv s) : Inv t := by
  induction reaches with
  | refl => exact holds
  | step go stepped _ ih => exact ih (preserved _ _ holds go stepped)

theorem tryRun_isSome {Inv : σ → Prop} (μ : σ → Nat)
    (preserved : ∀ s s', Inv s → cond s = true → step s = .ok s' → Inv s' ∧ μ s' < μ s) :
    ∀ {fuel : Nat} {s : σ}, Inv s → μ s < fuel → (tryRun cond step fuel s).isSome
  | 0, _, _, enough => absurd enough (Nat.not_lt_zero _)
  | fuel + 1, s, holds, enough => by
    cases go : cond s with
    | false => simp [tryRun, go]
    | true =>
      simp only [tryRun, go, if_true]
      cases stepped : step s with
      | error e => rfl
      | ok s' =>
        obtain ⟨holds', lower⟩ := preserved s s' holds go stepped
        exact tryRun_isSome μ preserved holds' (by omega)

end Try

section Forever

variable {α : Type} (body : σ → σ ⊕ α)

/-- A loop `for { body }` that only `break` or `return` leave: the
body either goes round again from a new state or leaves with the result of the
function. The result, or `none` when the fuel runs out first. -/
def forever : Nat → σ → Option α
  | 0, _ => none
  | fuel + 1, s =>
    match body s with
    | .inl s' => forever fuel s'
    | .inr a => some a

variable {body}

theorem forever_spec {Inv : σ → Prop} (preserved : ∀ s s', Inv s → body s = .inl s' → Inv s') :
    ∀ {fuel : Nat} {s : σ} {a : α}, Inv s → forever body fuel s = some a → ∃ t, Inv t ∧ body t = .inr a
  | 0, _, _, _, ran => by simp [forever] at ran
  | fuel + 1, s, a, holds, ran => by
    simp only [forever] at ran
    cases next : body s with
    | inl s' =>
      rw [next] at ran
      exact forever_spec preserved (preserved s s' holds next) ran
    | inr b =>
      rw [next, Option.some.injEq] at ran
      exact ⟨s, holds, ran ▸ next⟩

theorem forever_isSome {Inv : σ → Prop} (μ : σ → Nat)
    (preserved : ∀ s s', Inv s → body s = .inl s' → Inv s' ∧ μ s' < μ s) :
    ∀ {fuel : Nat} {s : σ}, Inv s → μ s < fuel → (forever body fuel s).isSome
  | 0, _, _, enough => absurd enough (Nat.not_lt_zero _)
  | fuel + 1, s, holds, enough => by
    simp only [forever]
    cases next : body s with
    | inl s' =>
      obtain ⟨holds', lower⟩ := preserved s s' holds next
      exact forever_isSome μ preserved holds' (by omega)
    | inr a => rfl

end Forever

end Loop
