import Mathlib.Logic.Basic

set_option autoImplicit false

/-! Computations that make calls with effects, in order, and may end early, as
the body of a loop whose `continue` ends the round with the effects made so
far; and Hoare triples over the state the effects act on, with one rule for
each operation of the monad. -/

/-- The effects, in order, and the value to go on with, or `none` after an early
end. -/
structure Emit (ε α : Type) where
  effects : List ε
  result : Option α

namespace Emit

variable {ε α β : Type}

/-- Sequencing: the second computation runs only when the first goes on. -/
def bind (x : Emit ε α) (f : α → Emit ε β) : Emit ε β :=
  match x.result with
  | none => ⟨x.effects, none⟩
  | some a => ⟨x.effects ++ (f a).effects, (f a).result⟩

instance : Monad (Emit ε) where
  pure a := ⟨[], some a⟩
  bind := bind

/-- One effect. -/
def emit (e : ε) : Emit ε Unit := ⟨[e], some ()⟩

/-- An early end: a loop body's `continue`. -/
def stop : Emit ε α := ⟨[], none⟩

/-- The value of a call that may fail, or an early end on its error: the
`if err != nil { continue }` after a call. -/
def orStop {δ : Type} : Except δ α → Emit ε α
  | .ok a => pure a
  | .error _ => stop

theorem bind_eq (x : Emit ε α) (f : α → Emit ε β) : x >>= f = bind x f := rfl

section Triple

variable {σ : Type} (apply : σ → ε → σ)

/-- The state after the effects, applied in order. -/
def final (s : σ) (effects : List ε) : σ := effects.foldl apply s

/-- Each effect is allowed by `ok` in the state it is applied to. -/
def Allowed (ok : σ → ε → Prop) : σ → List ε → Prop
  | _, [] => True
  | s, e :: es => ok s e ∧ Allowed ok (apply s e) es

/-- The Hoare triple: from every state satisfying `pre`, the computation's
effects are allowed where they are applied, and when it goes on with `a`, `post a`
holds of the state after its effects. -/
def Triple (ok : σ → ε → Prop) (pre : σ → Prop) (x : Emit ε α) (post : α → σ → Prop) : Prop :=
  ∀ s, pre s → Allowed apply ok s x.effects ∧
    ∀ a, x.result = some a → post a (final apply s x.effects)

variable {apply} {ok : σ → ε → Prop}

@[simp] theorem final_nil (s : σ) : final apply s [] = s := rfl

@[simp] theorem final_cons (s : σ) (e : ε) (es : List ε) :
    final apply s (e :: es) = final apply (apply s e) es := rfl

theorem final_append (s : σ) (es fs : List ε) :
    final apply s (es ++ fs) = final apply (final apply s es) fs :=
  List.foldl_append

@[simp] theorem allowed_nil (s : σ) : Allowed apply ok s [] := trivial

@[simp] theorem allowed_cons {s : σ} {e : ε} {es : List ε} :
    Allowed apply ok s (e :: es) ↔ ok s e ∧ Allowed apply ok (apply s e) es := Iff.rfl

theorem allowed_append : ∀ {s : σ} {es fs : List ε},
    Allowed apply ok s (es ++ fs) ↔ Allowed apply ok s es ∧ Allowed apply ok (final apply s es) fs
  | s, [], fs => by simp
  | s, e :: es, fs => by
    rw [List.cons_append, allowed_cons, allowed_cons, allowed_append, final_cons, and_assoc]

theorem Allowed.forall_mem {P : ε → Prop} (holds : ∀ s e, ok s e → P e) :
    ∀ {s : σ} {es : List ε}, Allowed apply ok s es → ∀ e ∈ es, P e
  | _, [], _ => fun _ member => by cases member
  | s, e :: _, ⟨first, rest⟩ => fun e' member => by
    rcases List.mem_cons.mp member with same | later
    · exact same ▸ holds s e first
    · exact Allowed.forall_mem holds rest e' later

theorem Allowed.mono {ok' : σ → ε → Prop} (weaker : ∀ s e, ok s e → ok' s e) :
    ∀ {s : σ} {es : List ε}, Allowed apply ok s es → Allowed apply ok' s es
  | _, [], _ => trivial
  | s, e :: _, ⟨first, rest⟩ => ⟨weaker s e first, Allowed.mono weaker rest⟩

namespace Triple

variable {pre : σ → Prop} {post : α → σ → Prop}

theorem pure {a : α} (holds : ∀ s, pre s → post a s) :
    Triple apply ok pre (Pure.pure a) post :=
  fun s before => ⟨trivial, fun b result => by
    cases result
    exact holds s before⟩

theorem stop : Triple apply ok pre (stop : Emit ε α) post :=
  fun _ _ => ⟨trivial, fun _ result => by cases result⟩

theorem emit {e : ε} {post : Unit → σ → Prop} (allowed : ∀ s, pre s → ok s e ∧ post () (apply s e)) :
    Triple apply ok pre (Emit.emit e) post :=
  fun s before => ⟨⟨(allowed s before).1, trivial⟩, fun _ _ => (allowed s before).2⟩

theorem orStop_bind {δ : Type} {x : Except δ α} {f : α → Emit ε β} {post : β → σ → Prop}
    (rest : ∀ a, x = .ok a → Triple apply ok pre (f a) post) :
    Triple apply ok pre (Emit.orStop x >>= f) post := by
  cases x with
  | error d => exact Triple.stop
  | ok a => exact rest a rfl

theorem bind {x : Emit ε α} {mid : α → σ → Prop} {f : α → Emit ε β} {post : β → σ → Prop}
    (first : Triple apply ok pre x mid) (rest : ∀ a, Triple apply ok (mid a) (f a) post) :
    Triple apply ok pre (x >>= f) post := by
  intro s before
  obtain ⟨allowed, goes⟩ := first s before
  rw [bind_eq]
  unfold Emit.bind
  cases result : x.result with
  | none => exact ⟨allowed, fun _ ended => by cases ended⟩
  | some a =>
    obtain ⟨allowed', goes'⟩ := rest a _ (goes a result)
    refine ⟨allowed_append.mpr ⟨allowed, allowed'⟩, fun b ended => ?_⟩
    rw [final_append]
    exact goes' b ended

theorem mono {x : Emit ε α} {pre' : σ → Prop} {post' : α → σ → Prop}
    (triple : Triple apply ok pre x post) (stronger : ∀ s, pre' s → pre s)
    (weaker : ∀ a s, post a s → post' a s) : Triple apply ok pre' x post' :=
  fun s before =>
    have ⟨allowed, goes⟩ := triple s (stronger s before)
    ⟨allowed, fun a result => weaker a _ (goes a result)⟩

theorem ite {c : Prop} [Decidable c] {x y : Emit ε α} (yes : c → Triple apply ok pre x post)
    (no : ¬c → Triple apply ok pre y post) : Triple apply ok pre (if c then x else y) post := by
  by_cases holds : c
  · rw [if_pos holds]
    exact yes holds
  · rw [if_neg holds]
    exact no holds

theorem assume {x : Emit ε α} {P : Prop} (implied : ∀ s, pre s → P)
    (triple : P → Triple apply ok pre x post) : Triple apply ok pre x post :=
  fun s before => triple (implied s before) s before

theorem assume_and {x : Emit ε α} {P : Prop} (triple : P → Triple apply ok pre x post) :
    Triple apply ok (fun s => pre s ∧ P) x post :=
  fun s before => triple before.2 s before.1

end Triple

end Triple

end Emit
