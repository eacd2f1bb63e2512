import Mathlib.Data.List.AList

set_option autoImplicit false

/-! Go maps. A `map[K]V` is an association list with distinct keys; a `range`
loop visits its entries in the order of the list, which stands for the order
Go picks, and the results stated about the loops below hold for every order.
An entry deleted before the loop reaches it is not visited, and a value the loop
reads is the one stored when it gets there. -/

namespace Go

/-- A Go `map[K]V`. -/
abbrev Map (K V : Type) := AList fun _ : K => V

section Loops

variable {K V : Type} [DecidableEq K]

/-- One round of the `range` loop that collects each value satisfying `p` and
deletes it under the key `keyOf v` computed from the value; a key deleted
earlier in the loop is skipped. -/
def rangeDeleteStep (p : V → Bool) (keyOf : V → K) (acc : List V × Map K V) (k : K) :
    List V × Map K V :=
  match acc.2.lookup k with
  | some v => if p v then (acc.1 ++ [v], acc.2.erase (keyOf v)) else acc
  | none => acc

/-- The loop over all of `m`. -/
def rangeDelete (p : V → Bool) (keyOf : V → K) (m : Map K V) : List V × Map K V :=
  m.keys.foldl (rangeDeleteStep p keyOf) ([], m)

variable {p : V → Bool} {keyOf : V → K}

/-- Where the loop stands in `m` with the keys `rest` still to visit: the keys
visited have lost their values satisfying `p`, which `found` holds, and the
others are as in `m`. -/
structure RangeDeleteInv (p : V → Bool) (m : Map K V) (rest : List K)
    (state : List V × Map K V) : Prop where
  ahead : ∀ k ∈ rest, state.2.lookup k = m.lookup k
  behind : ∀ k ∉ rest, state.2.lookup k = (m.lookup k).filter fun v => !p v
  found : ∀ v, v ∈ state.1 ↔ ∃ k ∉ rest, m.lookup k = some v ∧ p v = true

theorem RangeDeleteInv.skip {m : Map K V} {k : K} {rest : List K} {state : List V × Map K V}
    (inv : RangeDeleteInv p m (k :: rest) state) (kept : ∀ v, m.lookup k = some v → p v = false) :
    RangeDeleteInv p m rest state := by
  have here : state.2.lookup k = m.lookup k := inv.ahead k (by simp)
  refine ⟨fun k' member => inv.ahead k' (by simp [member]), fun k' outside => ?_, fun v => ?_⟩
  · by_cases same : k' = k
    · subst same
      cases stored : m.lookup k' with
      | none => simp [here, stored]
      | some v =>
        rw [here, stored, Option.filter_some]
        simp [kept v stored]
    · exact inv.behind k' (by simp [same, outside])
  · rw [inv.found]
    constructor
    · rintro ⟨k', outside, value, holds⟩
      exact ⟨k', fun member => outside (by simp [member]), value, holds⟩
    · rintro ⟨k', outside, value, holds⟩
      have other : k' ≠ k := by
        rintro rfl
        simp [kept v value] at holds
      exact ⟨k', by simp [other, outside], value, holds⟩

theorem RangeDeleteInv.step {m : Map K V} (keyed : ∀ k v, m.lookup k = some v → keyOf v = k)
    {k : K} {rest : List K} (fresh : k ∉ rest) {found : List V} {cur : Map K V}
    (inv : RangeDeleteInv p m (k :: rest) (found, cur)) :
    RangeDeleteInv p m rest (rangeDeleteStep p keyOf (found, cur) k) := by
  have here : cur.lookup k = m.lookup k := inv.ahead k (by simp)
  have ahead : ∀ k' ∈ rest, k' ≠ k := fun k' member same => fresh (same ▸ member)
  unfold rangeDeleteStep
  simp only
  rw [here]
  cases stored : m.lookup k with
  | none => exact inv.skip (by simp [stored])
  | some v =>
    have own : keyOf v = k := keyed k v stored
    by_cases satisfies : p v = true
    · -- the value is collected and its own key, the visited one, erased
      simp only [satisfies, if_true, own]
      refine ⟨fun k' member => ?_, fun k' outside => ?_, fun v' => ?_⟩
      · rw [AList.lookup_erase_ne (ahead k' member)]
        exact inv.ahead k' (by simp [member])
      · by_cases same : k' = k
        · subst same
          rw [AList.lookup_erase, stored, Option.filter_some]
          simp [satisfies]
        · rw [AList.lookup_erase_ne same]
          exact inv.behind k' (by simp [same, outside])
      · rw [List.mem_append, inv.found, List.mem_singleton]
        constructor
        · rintro (⟨k', outside, value, holds⟩ | rfl)
          · exact ⟨k', fun member => outside (by simp [member]), value, holds⟩
          · exact ⟨k, fresh, stored, satisfies⟩
        · rintro ⟨k', outside, value, holds⟩
          by_cases same : k' = k
          · subst same
            rw [stored] at value
            exact .inr (Option.some_inj.mp value).symm
          · exact .inl ⟨k', by simp [same, outside], value, holds⟩
    · simp only [satisfies, Bool.false_eq_true, if_false]
      exact inv.skip (by simp [stored, satisfies])

theorem RangeDeleteInv.run {m : Map K V} (keyed : ∀ k v, m.lookup k = some v → keyOf v = k) :
    ∀ (rest : List K) (state : List V × Map K V), rest.Nodup → RangeDeleteInv p m rest state →
      RangeDeleteInv p m [] (rest.foldl (rangeDeleteStep p keyOf) state)
  | [], _, _, inv => inv
  | k :: rest, (found, cur), distinct, inv => by
    obtain ⟨fresh, distinct⟩ := List.nodup_cons.mp distinct
    exact RangeDeleteInv.run keyed rest _ distinct (inv.step keyed fresh)

theorem rangeDelete_spec {m : Map K V} (keyed : ∀ k v, m.lookup k = some v → keyOf v = k) :
    (∀ k, (rangeDelete p keyOf m).2.lookup k = (m.lookup k).filter fun v => !p v) ∧
      ∀ v, v ∈ (rangeDelete p keyOf m).1 ↔ ∃ k, m.lookup k = some v ∧ p v = true := by
  have start : RangeDeleteInv p m m.keys ([], m) := by
    refine ⟨fun k _ => rfl, fun k outside => ?_, fun v => ?_⟩
    · rw [AList.lookup_eq_none.mpr (fun member => outside (AList.mem_keys.mp member))]
      rfl
    · simp only [List.not_mem_nil, false_iff, not_exists, not_and]
      intro k outside value
      exact absurd (AList.mem_keys.mp (AList.lookup_isSome.mp (by simp [value]))) outside
  have done := RangeDeleteInv.run keyed m.keys ([], m) m.keys_nodup start
  exact ⟨fun k => done.behind k (by simp), fun v => (done.found v).trans (by simp)⟩

theorem lookup_insert_eq_some {m : Map K V} {k k' : K} {v v' : V} :
    (m.insert k v).lookup k' = some v' ↔ k' = k ∧ v' = v ∨ k' ≠ k ∧ m.lookup k' = some v' := by
  by_cases same : k' = k
  · subst same
    simp [eq_comm]
  · simp [AList.lookup_insert_ne same, same]

theorem lookup_erase_eq_some {m : Map K V} {k k' : K} {v : V} :
    (m.erase k).lookup k' = some v ↔ k' ≠ k ∧ m.lookup k' = some v := by
  by_cases same : k' = k
  · subst same
    simp
  · simp [AList.lookup_erase_ne same, same]

theorem lookup_foldl_erase (vs : List V) (m : Map K V) (k : K) :
    (vs.foldl (fun m v => m.erase (keyOf v)) m).lookup k =
      if k ∈ vs.map keyOf then none else m.lookup k := by
  induction vs generalizing m with
  | nil => simp
  | cons v vs ih =>
    rw [List.foldl_cons, ih]
    by_cases same : k = keyOf v
    · subst same
      simp
    · simp [AList.lookup_erase_ne same, same]

theorem lookup_foldl_erase_filter {m : Map K V} (keyed : ∀ k v, m.lookup k = some v → keyOf v = k)
    (q : (Σ _ : K, V) → Bool) (g : (Σ _ : K, V) → V) (sameKey : ∀ entry, keyOf (g entry) = keyOf entry.2)
    (k : K) :
    (((m.entries.filter q).map g).foldl (fun m v => m.erase (keyOf v)) m).lookup k =
      (m.lookup k).filter fun v => !q ⟨k, v⟩ := by
  have listed : k ∈ ((m.entries.filter q).map g).map keyOf ↔
      ∃ v, m.lookup k = some v ∧ q ⟨k, v⟩ = true := by
    simp only [List.map_map, List.mem_map, List.mem_filter, Function.comp_apply, sameKey]
    constructor
    · rintro ⟨entry, ⟨member, holds⟩, rfl⟩
      have stored : m.lookup entry.1 = some entry.2 := AList.mem_lookup_iff.mpr member
      rw [keyed _ _ stored]
      exact ⟨entry.2, stored, holds⟩
    · rintro ⟨v, stored, holds⟩
      exact ⟨⟨k, v⟩, ⟨AList.mem_lookup_iff.mp stored, holds⟩, keyed k v stored⟩
  rw [lookup_foldl_erase]
  cases stored : m.lookup k with
  | none => simp
  | some v =>
    by_cases holds : q ⟨k, v⟩ = true
    · rw [if_pos (listed.mpr ⟨v, stored, holds⟩), Option.filter_some]
      simp [holds]
    · have unlisted : ¬ ∃ v', m.lookup k = some v' ∧ q ⟨k, v'⟩ = true := by
        rintro ⟨v', stored', holds'⟩
        rw [stored, Option.some_inj] at stored'
        exact holds (stored' ▸ holds')
      rw [if_neg (fun member => unlisted (listed.mp member)), Option.filter_some]
      simp [holds]

end Loops

end Go
