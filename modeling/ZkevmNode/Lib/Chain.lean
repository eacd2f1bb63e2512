import Mathlib.Data.List.Induction

set_option autoImplicit false

/-! A compression function chained over a list of blocks from an initial value,
each call able to fail: the value so far is compressed with the next block. When
the compression is injective on what it returns and never returns the initial
value, the chain is injective: its result determines the blocks. Without the
second condition a chain that passes through the initial value collides with
its own suffix. -/

namespace Chain

variable {β γ ε : Type} (compress : β → γ → Except ε γ)

/-- The chain from `iv` over `blocks`. -/
def run (iv : γ) (blocks : List β) : Except ε γ :=
  blocks.foldlM (fun h b => compress b h) iv

variable {compress}

@[simp] theorem run_nil (iv : γ) : run compress iv [] = .ok iv := rfl

theorem run_cons (iv : γ) (b : β) (blocks : List β) :
    run compress iv (b :: blocks) = compress b iv >>= fun h => run compress h blocks := rfl

theorem run_append_singleton (iv : γ) (blocks : List β) (b : β) :
    run compress iv (blocks ++ [b]) = run compress iv blocks >>= compress b := by
  simp only [run, List.foldlM_append, List.foldlM_cons, List.foldlM_nil, bind_pure]

theorem run_append_singleton_eq_ok {iv : γ} {blocks : List β} {b : β} {out : γ}
    (ran : run compress iv (blocks ++ [b]) = .ok out) :
    ∃ h, run compress iv blocks = .ok h ∧ compress b h = .ok out := by
  rw [run_append_singleton] at ran
  cases before : run compress iv blocks with
  | error e =>
    rw [before] at ran
    cases ran
  | ok h => exact ⟨h, rfl, by rw [before] at ran; exact ran⟩

variable {iv : γ}
  (injective : ∀ b b' h h' out, compress b h = .ok out → compress b' h' = .ok out → b = b' ∧ h = h')
  (avoids : ∀ b h, compress b h ≠ .ok iv)
include injective avoids

theorem run_injective :
    ∀ (blocks blocks' : List β) {out : γ}, run compress iv blocks = .ok out →
      run compress iv blocks' = .ok out → blocks = blocks' := by
  intro blocks
  induction blocks using List.reverseRecOn with
  | nil =>
    intro blocks' out ran ran'
    rw [run_nil, Except.ok.injEq] at ran
    subst ran
    rcases List.eq_nil_or_concat blocks' with rfl | ⟨rest', b', rfl⟩
    · rfl
    · rw [List.concat_eq_append] at ran'
      obtain ⟨h', -, last'⟩ := run_append_singleton_eq_ok ran'
      exact absurd last' (avoids b' h')
  | append_singleton rest b ih =>
    intro blocks' out ran ran'
    obtain ⟨h, before, last⟩ := run_append_singleton_eq_ok ran
    rcases List.eq_nil_or_concat blocks' with rfl | ⟨rest', b', rfl⟩
    · rw [run_nil, Except.ok.injEq] at ran'
      subst ran'
      exact absurd last (avoids b h)
    · rw [List.concat_eq_append] at ran' ⊢
      obtain ⟨h', before', last'⟩ := run_append_singleton_eq_ok ran'
      obtain ⟨rfl, rfl⟩ := injective b b' h h' out last last'
      rw [ih rest' before before']

end Chain
