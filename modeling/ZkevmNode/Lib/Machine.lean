import Mathlib.Logic.Basic

set_option autoImplicit false

/-! Runs of a machine whose step, on a state and an input, may panic. A run
feeds the inputs one after another and stops at the first panic; a loop of the
code whose body may panic is such a run, its body being the step. An invariant
that every allowed input keeps without panicking holds after every run of
allowed inputs, and such a run never panics. -/

namespace Machine

variable {σ ι : Type}

/-- The state after the inputs, or `none` at the first panic. -/
def run (step : σ → ι → Option σ) (s : σ) (is : List ι) : Option σ := is.foldlM step s

variable {step : σ → ι → Option σ}

@[simp] theorem run_nil (s : σ) : run step s [] = some s := rfl

theorem run_cons (s : σ) (i : ι) (is : List ι) :
    run step s (i :: is) = (step s i).bind fun s => run step s is := rfl

theorem run_append (s : σ) (is js : List ι) :
    run step s (is ++ js) = (run step s is).bind fun s => run step s js :=
  List.foldlM_append

theorem run_invariant {Inv : σ → Prop} {allowed : ι → Prop}
    (preserved : ∀ s i, Inv s → allowed i → ∃ s', step s i = some s' ∧ Inv s') :
    ∀ (is : List ι) (s : σ), Inv s → (∀ i ∈ is, allowed i) →
      ∃ s', run step s is = some s' ∧ Inv s'
  | [], s, holds, _ => ⟨s, rfl, holds⟩
  | i :: is, s, holds, all => by
    obtain ⟨s', stepped, holds'⟩ := preserved s i holds (all i (by simp))
    rw [run_cons, stepped, Option.bind_some]
    exact run_invariant preserved is s' holds' fun i member => all i (by simp [member])

theorem run_preserves {Inv : σ → Prop} (preserved : ∀ s i s', Inv s → step s i = some s' → Inv s') :
    ∀ (is : List ι) {s t : σ}, Inv s → run step s is = some t → Inv t
  | [], s, t, holds, ran => by
    rw [run_nil, Option.some_inj] at ran
    exact ran ▸ holds
  | i :: is, s, t, holds, ran => by
    rw [run_cons] at ran
    cases stepped : step s i with
    | none => rw [stepped, Option.bind_none] at ran; cases ran
    | some s' =>
      rw [stepped, Option.bind_some] at ran
      exact run_preserves preserved is (preserved s i s' holds stepped) ran

theorem run_length_le {Inv : σ → Prop} (μ : σ → Nat)
    (preserved : ∀ s i s', Inv s → step s i = some s' → Inv s' ∧ μ s' < μ s) :
    ∀ (is : List ι) {s t : σ}, Inv s → run step s is = some t → is.length + μ t ≤ μ s
  | [], s, t, _, ran => by
    rw [run_nil, Option.some_inj] at ran
    simp [ran]
  | i :: is, s, t, holds, ran => by
    rw [run_cons] at ran
    cases stepped : step s i with
    | none => rw [stepped, Option.bind_none] at ran; cases ran
    | some s' =>
      rw [stepped, Option.bind_some] at ran
      obtain ⟨holds', lower⟩ := preserved s i s' holds stepped
      have rest := run_length_le μ preserved is holds' ran
      simp only [List.length_cons]
      omega

end Machine
