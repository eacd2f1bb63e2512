import ZkevmNode.Sequencer.Worker
import ZkevmNode.State.Resources
import ZkevmNode.Lib.Machine
import Mathlib

set_option autoImplicit false

/-! `Worker.GetBestFittingTx` (`sequencer/worker.go`): `nGoRoutines` goroutines
scan the efficiency list, goroutine `n` the indices `n`, `n + nGoRoutines`, ...,
each with its own copy of the remaining resources, sharing `foundAt` and `tx`
under `foundMutex`. The atomic steps of a goroutine are the read of `foundAt`
under the read lock, and the `Sub` of a candidate with the update under the
write lock (the `Sub` touches only the goroutine's copy). An interleaving is
any list of goroutine numbers. -/

namespace ZkevmNode.Sequencer

open State

/-- Where a scanning goroutine stands. -/
inductive Scan where
  /-- At the top of the loop body for index `i`, about to read `foundAt`. -/
  | check (i : Nat)
  /-- Past the read of `foundAt`, about to take the candidate at `i`. -/
  | fit (i : Nat)
  | done
deriving DecidableEq, Repr

/-- A goroutine: where it stands and its copy of the resources. -/
structure Goroutine where
  scan : Scan
  bresources : State.BatchResources
deriving DecidableEq, Repr

/-- The locals of `GetBestFittingTx` and its goroutines; `foundAt = -1` is
`none`. -/
structure Search (T : Type) where
  goroutines : List Goroutine
  foundAt : Option Nat
  tx : Option T
deriving DecidableEq, Repr

/-- The index a goroutine is at. -/
def Scan.index : Scan → Option Nat
  | .check i | .fit i => some i
  | .done => none

section Steps

variable {T : Type} (sorted : List T) (resourcesOf : T → State.BatchResources) (nGoRoutines : Nat)

/-- The goroutines as they start: goroutine `n` at index `n` if the loop
condition holds there, each with a copy of `resources`. -/
def Search.start (resources : State.BatchResources) : Search T :=
  ⟨(List.range nGoRoutines).map fun n => ⟨if n < sorted.length then .check n else .done, resources⟩,
    none, none⟩

/-- Goroutine `n` now at `g`. -/
def Search.setGoroutine (s : Search T) (n : Nat) (g : Goroutine) : Search T :=
  { s with goroutines := s.goroutines.set n g }

/-- One atomic step of goroutine `n`, `none` when it has returned. -/
def Search.step (s : Search T) (n : Nat) : Option (Search T) :=
  match s.goroutines[n]? with
  | none => none
  | some ⟨.done, _⟩ => none
  | some ⟨.check i, bresources⟩ =>
    -- `foundAt != -1 && i > foundAt`
    if s.foundAt.any (· < i) then some (s.setGoroutine n ⟨.done, bresources⟩)
    else some (s.setGoroutine n ⟨.fit i, bresources⟩)
  | some ⟨.fit i, bresources⟩ =>
    -- `getByIndex` panics out of range; the loop condition keeps `i` in range
    match sorted[i]? with
    | none => none
    | some txCandidate =>
      let (bresources, err) := bresources.sub (resourcesOf txCandidate)
      match err with
      | some _ =>
        let next := if i + nGoRoutines < sorted.length then Scan.check (i + nGoRoutines) else .done
        some (s.setGoroutine n ⟨next, bresources⟩)
      | none =>
        -- `foundAt == -1 || foundAt > i`
        let s := if s.foundAt.all (i < ·) then { s with foundAt := some i, tx := some txCandidate } else s
        some (s.setGoroutine n ⟨.done, bresources⟩)

/-- Every goroutine has returned, so `wg.Wait()` does. -/
def Search.Finished (s : Search T) : Prop := ∀ g ∈ s.goroutines, g.scan = .done

end Steps

/-- `Worker.GetBestFittingTx` over the interleaving `schedule`: the tracker it
returns, once every goroutine has returned, and `none` while some has not or
when `schedule` steps a goroutine that has. The tracker's `BatchResources` are
its counters and its size `txBytes`. -/
def Worker.getBestFittingTx {H A E : Type} (txBytes : TxTracker H A E ZKCounters → UInt64)
    (nGoRoutines : Nat) (w : Worker H A E ZKCounters) (resources : State.BatchResources) (schedule : List Nat) :
    Option (Option (TxTracker H A E ZKCounters)) :=
  let sorted := w.efficiencyList.sorted
  match Machine.run (Search.step sorted (fun tx => ⟨tx.zkCounters, txBytes tx⟩) nGoRoutines)
      (Search.start sorted nGoRoutines resources) schedule with
  | some s => if s.goroutines.all (·.scan = .done) then some s.tx else none
  | none => none

section Frame

variable {T : Type}

@[simp] theorem Search.setGoroutine_goroutines (s : Search T) (n : Nat) (g : Goroutine) :
    (s.setGoroutine n g).goroutines = s.goroutines.set n g := rfl

end Frame

section Inversion

variable {T : Type} {sorted : List T} {resourcesOf : T → State.BatchResources} {nGoRoutines : Nat}

theorem Search.step_eq_some {s s' : Search T} {n : Nat}
    (stepped : s.step sorted resourcesOf nGoRoutines n = some s') :
    ∃ g, s.goroutines[n]? = some g ∧
      ((∃ i, g.scan = .check i ∧ s.foundAt.any (· < i) = true ∧
          s' = s.setGoroutine n ⟨.done, g.bresources⟩) ∨
        (∃ i, g.scan = .check i ∧ s.foundAt.any (· < i) = false ∧
          s' = s.setGoroutine n ⟨.fit i, g.bresources⟩) ∨
        (∃ i c, g.scan = .fit i ∧ sorted[i]? = some c ∧ (g.bresources.sub (resourcesOf c)).2.isSome ∧
          s' = s.setGoroutine n
            ⟨if i + nGoRoutines < sorted.length then .check (i + nGoRoutines) else .done,
              (g.bresources.sub (resourcesOf c)).1⟩) ∨
        (∃ i c, g.scan = .fit i ∧ sorted[i]? = some c ∧ (g.bresources.sub (resourcesOf c)).2 = none ∧
          s' = (if s.foundAt.all (i < ·) then { s with foundAt := some i, tx := some c } else s).setGoroutine n
            ⟨.done, (g.bresources.sub (resourcesOf c)).1⟩)) := by
  unfold Search.step at stepped
  rcases here : s.goroutines[n]? with _ | ⟨scan, bresources⟩
  · simp [here] at stepped
  refine ⟨⟨scan, bresources⟩, rfl, ?_⟩
  rw [here] at stepped
  cases scan with
  | done => cases stepped
  | check i =>
    dsimp only at stepped
    by_cases pruned : s.foundAt.any (· < i) = true
    · rw [if_pos pruned, Option.some_inj] at stepped
      exact .inl ⟨i, rfl, pruned, stepped.symm⟩
    · rw [if_neg pruned, Option.some_inj] at stepped
      exact .inr (.inl ⟨i, rfl, by simpa using pruned, stepped.symm⟩)
  | fit i =>
    dsimp only at stepped
    rcases candidate : sorted[i]? with _ | c
    · rw [candidate] at stepped
      cases stepped
    rw [candidate] at stepped
    dsimp only at stepped
    rcases subtracted : bresources.sub (resourcesOf c) with ⟨bresources', _ | err⟩
    · rw [subtracted, Option.some_inj] at stepped
      exact .inr (.inr (.inr ⟨i, c, rfl, candidate, by rw [subtracted], by rw [subtracted, stepped]⟩))
    · rw [subtracted, Option.some_inj] at stepped
      exact .inr (.inr (.inl ⟨i, c, rfl, candidate, by rw [subtracted]; rfl, by rw [subtracted, stepped]⟩))

end Inversion

section Frame2

variable {T : Type} {sorted : List T} {resourcesOf : T → State.BatchResources} {nGoRoutines : Nat}

end Frame2

theorem add_le_of_mod_eq {i j stride : Nat} (below : i < j) (same : i % stride = j % stride) :
    i + stride ≤ j := by
  have divides : stride ∣ j - i := Nat.dvd_of_mod_eq_zero (Nat.sub_mod_eq_zero_of_mod_eq same.symm)
  have apart := Nat.le_of_dvd (by omega) divides
  omega

section Invariant

variable {T : Type} (sorted : List T) (resourcesOf : T → State.BatchResources) (nGoRoutines : Nat)
  (resources : State.BatchResources)

/-- What holds in every state of an interleaving of the goroutines that scan
`sorted` for `resources`: a goroutine that has not returned keeps its copy
unchanged and stands at an index of the list; `foundAt` is a fitting index and
`tx` its candidate; and for every fitting index `j`, `foundAt` is at or below
`j` already, or the goroutine whose stride holds `j` has not passed it. -/
structure Search.Inv (s : Search T) : Prop where
  length : s.goroutines.length = nGoRoutines
  copies : ∀ g ∈ s.goroutines, g.scan ≠ .done → g.bresources = resources
  inRange : ∀ g ∈ s.goroutines, ∀ i, g.scan.index = some i → i < sorted.length
  found : ∀ k, s.foundAt = some k →
    ∃ c, sorted[k]? = some c ∧ (resources.sub (resourcesOf c)).2 = none ∧ s.tx = some c
  notFound : s.foundAt = none → s.tx = none
  owner : ∀ j c, sorted[j]? = some c → (resources.sub (resourcesOf c)).2 = none →
    (∃ k, s.foundAt = some k ∧ k ≤ j) ∨
      ∃ g i, s.goroutines[j % nGoRoutines]? = some g ∧ g.scan.index = some i ∧ i ≤ j ∧
        i % nGoRoutines = j % nGoRoutines

theorem Search.start_inv (cpus : 0 < nGoRoutines) :
    (Search.start sorted nGoRoutines resources : Search T).Inv sorted resourcesOf nGoRoutines resources where
  length := by simp [Search.start]
  copies g member _ := by
    obtain ⟨n, -, rfl⟩ := List.mem_map.mp member
    rfl
  inRange g member i index := by
    obtain ⟨n, -, rfl⟩ := List.mem_map.mp member
    split at index
    · rename_i inside
      cases index
      exact inside
    · cases index
  found _ found := by cases found
  notFound _ := rfl
  owner j c candidate _ := by
    have inside : j < sorted.length := (List.getElem?_eq_some_iff.mp candidate).1
    have first : j % nGoRoutines < sorted.length := lt_of_le_of_lt (Nat.mod_le j nGoRoutines) inside
    refine .inr ⟨⟨.check (j % nGoRoutines), resources⟩, j % nGoRoutines, ?_, rfl, Nat.mod_le j nGoRoutines,
      Nat.mod_mod j nGoRoutines⟩
    simp [Search.start, List.getElem?_range (Nat.mod_lt j cpus), first]

variable {sorted resourcesOf nGoRoutines resources}

theorem Search.Inv.setGoroutine {s : Search T} {n : Nat} {g g' : Goroutine}
    (holds : s.Inv sorted resourcesOf nGoRoutines resources) (here : s.goroutines[n]? = some g)
    (copy : g'.scan ≠ .done → g'.bresources = resources)
    (inside : ∀ i, g'.scan.index = some i → i < sorted.length)
    (owned : ∀ j c i, sorted[j]? = some c → (resources.sub (resourcesOf c)).2 = none →
      j % nGoRoutines = n → g.scan.index = some i → i ≤ j → i % nGoRoutines = j % nGoRoutines →
      (∃ k, s.foundAt = some k ∧ k ≤ j) ∨
        ∃ i', g'.scan.index = some i' ∧ i' ≤ j ∧ i' % nGoRoutines = j % nGoRoutines) :
    (s.setGoroutine n g').Inv sorted resourcesOf nGoRoutines resources where
  length := by simp [holds.length]
  copies h member := (List.mem_or_eq_of_mem_set member).elim (holds.copies h) (fun same => same ▸ copy)
  inRange h member := (List.mem_or_eq_of_mem_set member).elim (holds.inRange h) (fun same => same ▸ inside)
  found := holds.found
  notFound := holds.notFound
  owner j c candidate fits := by
    rcases holds.owner j c candidate fits with lower | ⟨g₀, i, placed, index, below, same⟩
    · exact .inl lower
    by_cases mine : j % nGoRoutines = n
    · rw [mine, here, Option.some_inj] at placed
      subst placed
      rcases owned j c i candidate fits mine index below same with lower | ⟨i', index', below', same'⟩
      · exact .inl lower
      · have stored : (s.goroutines.set n g')[n]? = some g' := by
          simp [List.getElem?_set_self', here]
        exact .inr ⟨g', i', by simp only [Search.setGoroutine_goroutines, mine, stored], index', below', same'⟩
    · exact .inr ⟨g₀, i, by simpa [List.getElem?_set_ne (Ne.symm mine)] using placed, index, below, same⟩

theorem Search.Inv.record {s : Search T} {i : Nat} {c : T}
    (holds : s.Inv sorted resourcesOf nGoRoutines resources) (candidate : sorted[i]? = some c)
    (fits : (resources.sub (resourcesOf c)).2 = none) :
    (if s.foundAt.all (i < ·) then { s with foundAt := some i, tx := some c } else s).Inv
        sorted resourcesOf nGoRoutines resources ∧
      ∃ k, (if s.foundAt.all (i < ·) then { s with foundAt := some i, tx := some c } else s).foundAt = some k ∧
        k ≤ i := by
  split
  · rename_i above
    refine ⟨⟨holds.length, holds.copies, holds.inRange, ?_, nofun, ?_⟩, i, rfl, le_rfl⟩
    · intro k recorded
      cases recorded
      exact ⟨c, candidate, fits, rfl⟩
    · intro j c' candidate' fits'
      rcases holds.owner j c' candidate' fits' with ⟨k, found, below⟩ | placed
      · rw [found] at above
        exact .inl ⟨i, rfl, by simp at above; omega⟩
      · exact .inr placed
  · rename_i lower
    cases found : s.foundAt with
    | none => rw [found] at lower; simp at lower
    | some k =>
      rw [found] at lower
      exact ⟨holds, k, rfl, by simp at lower; omega⟩

theorem Search.Inv.step {s s' : Search T} {n : Nat} (holds : s.Inv sorted resourcesOf nGoRoutines resources)
    (stepped : s.step sorted resourcesOf nGoRoutines n = some s') :
    s'.Inv sorted resourcesOf nGoRoutines resources := by
  obtain ⟨g, here, moved⟩ := Search.step_eq_some stepped
  have member : g ∈ s.goroutines := List.mem_of_getElem? here
  rcases moved with ⟨i, standing, pruned, rfl⟩ | ⟨i, standing, kept, rfl⟩ |
    ⟨i, c, standing, candidate, failed, rfl⟩ | ⟨i, c, standing, candidate, fitted, rfl⟩
  · -- past `foundAt`: the goroutine returns, and `foundAt` covers its stride from `i` on
    refine holds.setGoroutine here nofun (by simp [Scan.index]) ?_
    intro j c i' _ _ _ index below _
    rw [standing, Scan.index, Option.some_inj] at index
    subst index
    obtain ⟨k, found, lower⟩ : ∃ k, s.foundAt = some k ∧ k < i := by
      cases found : s.foundAt with
      | none => rw [found] at pruned; cases pruned
      | some k => rw [found] at pruned; exact ⟨k, rfl, by simpa using pruned⟩
    exact .inl ⟨k, found, by omega⟩
  · -- on to the candidate at the same index
    refine holds.setGoroutine here (fun _ => holds.copies g member (by simp [standing]))
      (fun i' index => holds.inRange g member i' (by simpa [standing, Scan.index] using index)) ?_
    intro j c i' _ _ _ index below same
    exact .inr ⟨i', by simpa [standing, Scan.index] using index, below, same⟩
  · -- a failed `Sub` leaves the copy as it was, and the goroutine moves one stride on
    have copy : g.bresources = resources := holds.copies g member (by simp [standing])
    have unchanged : (g.bresources.sub (resourcesOf c)).1 = g.bresources := State.BatchResources.sub_of_isSome failed
    refine holds.setGoroutine here (fun _ => unchanged.trans copy) ?_ ?_
    · intro i' index
      split at index
      · rename_i ahead
        cases index
        exact ahead
      · cases index
    · intro j c' i' candidate' fits _ index below same
      rw [standing, Scan.index, Option.some_inj] at index
      subst index
      -- the index of the failed candidate is not the fitting `j`
      have before : i < j := by
        refine lt_of_le_of_ne below fun equal => ?_
        subst equal
        rw [candidate, Option.some_inj] at candidate'
        subst candidate'
        rw [copy, fits] at failed
        cases failed
      have apart := add_le_of_mod_eq before same
      have inside : j < sorted.length := (List.getElem?_eq_some_iff.mp candidate').1
      refine .inr ⟨i + nGoRoutines, ?_, apart, by rw [Nat.add_mod_right, same]⟩
      simp [Scan.index, show i + nGoRoutines < sorted.length by omega]
  · -- a successful `Sub`: the candidate is recorded unless `foundAt` is lower, and the goroutine returns
    have copy : g.bresources = resources := holds.copies g member (by simp [standing])
    rw [copy] at fitted
    obtain ⟨recorded, k, found, lower⟩ := holds.record candidate fitted
    refine recorded.setGoroutine (by split <;> exact here) nofun (by simp [Scan.index]) ?_
    intro j c' i' _ _ _ index below _
    rw [standing, Scan.index, Option.some_inj] at index
    subst index
    exact .inl ⟨k, found, by omega⟩

theorem Search.run_inv (cpus : 0 < nGoRoutines) {schedule : List Nat} {s : Search T}
    (ran : Machine.run (Search.step sorted resourcesOf nGoRoutines)
      (Search.start sorted nGoRoutines resources) schedule = some s) :
    s.Inv sorted resourcesOf nGoRoutines resources :=
  Machine.run_preserves (fun _ _ _ holds stepped => holds.step stepped) schedule
    (Search.start_inv sorted resourcesOf nGoRoutines resources cpus) ran

theorem Search.Inv.tx_of_finished {s : Search T} (holds : s.Inv sorted resourcesOf nGoRoutines resources)
    (finished : s.Finished) :
    s.tx = sorted.find? fun c => (resources.sub (resourcesOf c)).2.isNone := by
  -- with every goroutine returned, `foundAt` covers every fitting index
  have covered : ∀ j c, sorted[j]? = some c → (resources.sub (resourcesOf c)).2 = none →
      ∃ k, s.foundAt = some k ∧ k ≤ j := by
    intro j c candidate fits
    rcases holds.owner j c candidate fits with lower | ⟨g, i, placed, index, -, -⟩
    · exact lower
    · rw [finished g (List.mem_of_getElem? placed)] at index
      cases index
  cases found : s.foundAt with
  | none =>
    rw [holds.notFound found, eq_comm, List.find?_eq_none]
    intro c member fits
    obtain ⟨j, inside, candidate⟩ := List.getElem_of_mem member
    obtain ⟨k, found', -⟩ := covered j c (by simp [← candidate]) (by simpa using fits)
    rw [found] at found'
    cases found'
  | some k =>
    obtain ⟨c, candidate, fits, tx⟩ := holds.found k found
    obtain ⟨inside, stored⟩ := List.getElem?_eq_some_iff.mp candidate
    rw [tx, eq_comm, List.find?_eq_some_iff_getElem]
    refine ⟨by simp [fits], k, inside, stored, fun j below => ?_⟩
    -- an earlier fitting candidate would be covered by `foundAt`, below `k`
    by_contra earlier
    obtain ⟨k', found', lower⟩ := covered j sorted[j] (by simp) (by simpa using earlier)
    rw [found, Option.some_inj] at found'
    omega

theorem Search.Inv.step_isSome {s : Search T} {n : Nat} {g : Goroutine}
    (holds : s.Inv sorted resourcesOf nGoRoutines resources) (here : s.goroutines[n]? = some g)
    (running : g.scan ≠ .done) : (s.step sorted resourcesOf nGoRoutines n).isSome := by
  have member : g ∈ s.goroutines := List.mem_of_getElem? here
  obtain ⟨scan, bresources⟩ := g
  unfold Search.step
  rw [here]
  cases scan with
  | done => exact absurd rfl running
  | check i =>
    dsimp only
    split <;> rfl
  | fit i =>
    have inside := holds.inRange _ member i rfl
    obtain ⟨c, candidate⟩ : ∃ c, sorted[i]? = some c := ⟨sorted[i], by simp [inside]⟩
    dsimp only
    rw [candidate]
    dsimp only
    rcases bresources.sub (resourcesOf c) with ⟨_, _ | _⟩ <;> rfl

theorem Search.Inv.finished_of_stuck {s : Search T} (holds : s.Inv sorted resourcesOf nGoRoutines resources)
    (stuck : ∀ n, s.step sorted resourcesOf nGoRoutines n = none) : s.Finished := by
  intro g member
  obtain ⟨n, inside, here⟩ := List.getElem_of_mem member
  have stored : s.goroutines[n]? = some g := by simp [← here]
  by_contra running
  have enabled := holds.step_isSome stored running
  rw [stuck n] at enabled
  cases enabled

end Invariant

section Termination

variable {T : Type} {sorted : List T} {resourcesOf : T → State.BatchResources} {nGoRoutines : Nat}
  {resources : State.BatchResources}

/-- At most how many atomic steps a goroutine has left, over a list of
`length` candidates. -/
def Scan.rank (length : Nat) : Scan → Nat
  | .check i => 2 * (length - i) + 2
  | .fit i => 2 * (length - i) + 1
  | .done => 0

/-- At most how many atomic steps the goroutines have left. -/
def Search.rank (length : Nat) (s : Search T) : Nat := (s.goroutines.map fun g => g.scan.rank length).sum

theorem sum_map_set {α : Type} (f : α → Nat) :
    ∀ (l : List α) (n : Nat) (a b : α), l[n]? = some a → ((l.set n b).map f).sum + f a = (l.map f).sum + f b
  | [], _, _, _, stored => by simp at stored
  | x :: l, 0, a, b, stored => by
    simp only [List.getElem?_cons_zero, Option.some_inj] at stored
    subst stored
    simp only [List.set_cons_zero, List.map_cons, List.sum_cons]
    omega
  | x :: l, n + 1, a, b, stored => by
    simp only [List.getElem?_cons_succ] at stored
    have rest := sum_map_set f l n a b stored
    simp only [List.set_cons_succ, List.map_cons, List.sum_cons]
    omega

theorem Search.rank_setGoroutine {s : Search T} {n : Nat} {g g' : Goroutine} (length : Nat)
    (here : s.goroutines[n]? = some g) (lower : g'.scan.rank length < g.scan.rank length) :
    (s.setGoroutine n g').rank length < s.rank length := by
  have moved := sum_map_set (fun g => g.scan.rank length) s.goroutines n g g' here
  unfold Search.rank
  simp only [Search.setGoroutine_goroutines]
  omega

theorem Search.Inv.rank_step (cpus : 0 < nGoRoutines) {s s' : Search T} {n : Nat}
    (holds : s.Inv sorted resourcesOf nGoRoutines resources)
    (stepped : s.step sorted resourcesOf nGoRoutines n = some s') :
    s'.rank sorted.length < s.rank sorted.length := by
  obtain ⟨g, here, moved⟩ := Search.step_eq_some stepped
  have member : g ∈ s.goroutines := List.mem_of_getElem? here
  rcases moved with ⟨i, standing, -, rfl⟩ | ⟨i, standing, -, rfl⟩ |
    ⟨i, c, standing, -, -, rfl⟩ | ⟨i, c, standing, -, -, rfl⟩
  · exact Search.rank_setGoroutine _ here (by simp [standing, Scan.rank])
  · exact Search.rank_setGoroutine _ here (by simp [standing, Scan.rank])
  · have inside := holds.inRange g member i (by simp [standing, Scan.index])
    refine Search.rank_setGoroutine _ here ?_
    rw [standing]
    split <;> simp only [Scan.rank] <;> omega
  · have same : (if s.foundAt.all (i < ·) then { s with foundAt := some i, tx := some c } else s).rank
        sorted.length = s.rank sorted.length := by
      split <;> rfl
    rw [← same]
    exact Search.rank_setGoroutine _ (by split <;> exact here) (by simp [standing, Scan.rank])

theorem Search.start_rank_le (sorted : List T) (nGoRoutines : Nat) (resources : State.BatchResources) :
    (Search.start sorted nGoRoutines resources : Search T).rank sorted.length ≤
      nGoRoutines * (2 * sorted.length + 2) := by
  have each : ∀ r ∈ (Search.start sorted nGoRoutines resources : Search T).goroutines.map
      (fun g => g.scan.rank sorted.length), r ≤ 2 * sorted.length + 2 := by
    intro r member
    simp only [Search.start, List.map_map, List.mem_map, List.mem_range, Function.comp] at member
    obtain ⟨n, -, rfl⟩ := member
    split <;> simp only [Scan.rank] <;> omega
  have bound := List.sum_le_card_nsmul _ _ each
  simpa [Search.rank, Search.start] using bound

theorem Search.run_finishes (cpus : 0 < nGoRoutines) {schedule : List Nat} {s : Search T}
    (ran : Machine.run (Search.step sorted resourcesOf nGoRoutines)
      (Search.start sorted nGoRoutines resources) schedule = some s) :
    schedule.length ≤ nGoRoutines * (2 * sorted.length + 2) ∧
      ((∀ n, s.step sorted resourcesOf nGoRoutines n = none) → s.Finished) := by
  have steps := Machine.run_length_le (Search.rank sorted.length)
    (fun (s : Search T) _ _ (holds : s.Inv sorted resourcesOf nGoRoutines resources) stepped =>
      ⟨holds.step stepped, holds.rank_step cpus stepped⟩)
    schedule (Search.start_inv sorted resourcesOf nGoRoutines resources cpus) ran
  have start := Search.start_rank_le sorted nGoRoutines resources
  exact ⟨by omega, (Search.run_inv cpus ran).finished_of_stuck⟩

end Termination

/-- Over every interleaving of its `nGoRoutines` goroutines, `GetBestFittingTx`
returns the first tracker of the efficiency list whose resources fit, and `nil`
when none does. Every interleaving takes a bounded number of steps, and one that
cannot go on has returned that tracker. -/
theorem getBestFittingTx_first_fit {H A E : Type} (txBytes : TxTracker H A E ZKCounters → UInt64)
    (nGoRoutines : Nat) (cpus : 0 < nGoRoutines) (w : Worker H A E ZKCounters) (resources : State.BatchResources)
    (schedule : List Nat) :
    (∀ tx, w.getBestFittingTx txBytes nGoRoutines resources schedule = some tx →
      tx = w.efficiencyList.sorted.find? fun t => (resources.sub ⟨t.zkCounters, txBytes t⟩).2.isNone) ∧
    ∀ s, Machine.run (Search.step w.efficiencyList.sorted (fun tx => ⟨tx.zkCounters, txBytes tx⟩) nGoRoutines)
        (Search.start w.efficiencyList.sorted nGoRoutines resources) schedule = some s →
      schedule.length ≤ nGoRoutines * (2 * w.efficiencyList.sorted.length + 2) ∧
      ((∀ n, s.step w.efficiencyList.sorted (fun tx => ⟨tx.zkCounters, txBytes tx⟩) nGoRoutines n = none) →
        w.getBestFittingTx txBytes nGoRoutines resources schedule =
          some (w.efficiencyList.sorted.find? fun t => (resources.sub ⟨t.zkCounters, txBytes t⟩).2.isNone)) := by
  refine ⟨fun tx returned => ?_, fun s ran => ?_⟩
  · unfold Worker.getBestFittingTx at returned
    dsimp only at returned
    split at returned
    · rename_i s ran
      split at returned
      · rename_i all
        rw [Option.some_inj] at returned
        subst returned
        have finished : s.Finished := fun g member => by simpa using List.all_eq_true.mp all g member
        exact (Search.run_inv cpus ran).tx_of_finished finished
      · cases returned
    · cases returned
  · -- a maximal interleaving has every goroutine returned, and then the result is the first fit
    obtain ⟨bounded, finishes⟩ := Search.run_finishes cpus ran
    refine ⟨bounded, fun stuck => ?_⟩
    have finished := finishes stuck
    have all : (s.goroutines.all fun g => g.scan = .done) = true :=
      List.all_eq_true.mpr fun g member => by simpa using finished g member
    unfold Worker.getBestFittingTx
    simp only [ran, all, if_true, (Search.run_inv cpus ran).tx_of_finished finished]

/-- A tracker whose counters use `gasUsed` gas. -/
def fittingTracker (hash gasUsed : Nat) : TxTracker Nat Nat Nat ZKCounters :=
  ⟨hash, 0, hash, 1, 1, ⟨gasUsed.toUInt64, 0, 0, 0, 0, 0, 0, 0⟩, 10 - hash, none⟩

def fittingWorker : Worker Nat Nat Nat ZKCounters :=
  ⟨∅, ⟨∅, [fittingTracker 0 9, fittingTracker 1 3, fittingTracker 2 2, fittingTracker 3 1]⟩⟩

def remainingSample : State.BatchResources := ⟨⟨5, 1, 1, 1, 1, 1, 1, 1⟩, 100⟩

/-- Goroutine `0` scans indices `0` and `2` and records `2`; goroutine `1` then
reads `foundAt`, is not past it at index `1`, and records `1` over it. -/
theorem getBestFittingTx_first_fit_sample :
    fittingWorker.getBestFittingTx (fun _ => 10) 2 remainingSample [0, 0, 0, 0, 1, 1] =
        some (some (fittingTracker 1 3)) ∧
      some (fittingTracker 1 3) = fittingWorker.efficiencyList.sorted.find?
        fun t => (remainingSample.sub ⟨t.zkCounters, 10⟩).2.isNone :=
  ⟨by decide, (getBestFittingTx_first_fit (fun _ => 10) 2 (by decide) fittingWorker remainingSample
    [0, 0, 0, 0, 1, 1]).1 _ (by decide)⟩

end ZkevmNode.Sequencer
