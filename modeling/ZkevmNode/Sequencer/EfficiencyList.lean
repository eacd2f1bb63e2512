import ZkevmNode.Go.Sort
import ZkevmNode.Go.Map
import ZkevmNode.Lib.Descending
import ZkevmNode.Lib.Machine
import Mathlib.Data.Prod.Lex

set_option autoImplicit false

/-! `sequencer/txtracker.go` and `sequencer/efficiencylist.go`: the transactions
the sequencer's worker holds, and the list of the ready ones sorted by
efficiency, most efficient first, that `GetBestFittingTx` scans. The list is a
map from hash to tracker and a slice kept sorted by binary search. Pointers to
trackers are modelled by the trackers themselves; the hash and the sender are
their strings, of types `H` and `A`, and the efficiency, a `float64`, is of a
linearly ordered type `E`. -/

namespace ZkevmNode.Sequencer

open Go

/-- `runtime.ErrIntrinsicInvalidNonce`, the error of a transaction whose nonce
is behind its sender's. -/
inductive TxError where
  | intrinsicInvalidNonce
  deriving DecidableEq, Repr

/-- The text of the error. -/
def TxError.text : TxError → String
  | .intrinsicInvalidNonce => "nonce intrinsic error"

/-- The fields of `TxTracker` the worker reads and writes: `zkCounters` is the
part of `BatchResources` that `UpdateTx` replaces. -/
structure TxTracker (H A E Z : Type) where
  hashStr : H
  fromStr : A
  nonce : Nat
  gasPrice : Nat
  cost : Nat
  zkCounters : Z
  efficiency : E
  failedReason : Option String
  deriving DecidableEq, Repr

section Tracker

variable {H A E Z : Type}

/-- `updateZKCounters`: the new counters, and the efficiency
`calculateEfficiency` computes from them with the worker's constraints and
weights. -/
def TxTracker.updateZKCounters (calculateEfficiency : TxTracker H A E Z → E)
    (tx : TxTracker H A E Z) (counters : Z) : TxTracker H A E Z :=
  let tx := { tx with zkCounters := counters }
  { tx with efficiency := calculateEfficiency tx }

@[simp] theorem TxTracker.updateZKCounters_hashStr (calculateEfficiency : TxTracker H A E Z → E)
    (tx : TxTracker H A E Z) (counters : Z) :
    (tx.updateZKCounters calculateEfficiency counters).hashStr = tx.hashStr := rfl

@[simp] theorem TxTracker.updateZKCounters_nonce (calculateEfficiency : TxTracker H A E Z → E)
    (tx : TxTracker H A E Z) (counters : Z) :
    (tx.updateZKCounters calculateEfficiency counters).nonce = tx.nonce := rfl

@[simp] theorem TxTracker.updateZKCounters_cost (calculateEfficiency : TxTracker H A E Z → E)
    (tx : TxTracker H A E Z) (counters : Z) :
    (tx.updateZKCounters calculateEfficiency counters).cost = tx.cost := rfl

end Tracker

/-- `efficiencyList`: the ready trackers by hash, and the same trackers sorted. -/
structure EfficiencyList (H A E Z : Type) where
  list : Map H (TxTracker H A E Z)
  sorted : List (TxTracker H A E Z)

section List

variable {H A E Z : Type} [LinearOrder H] [LinearOrder E]

/-- `newEfficiencyList`. -/
def newEfficiencyList : EfficiencyList H A E Z := ⟨∅, []⟩

/-- `isGreaterThan`: a higher efficiency, or the same one and a hash at least as
large. -/
def isGreaterThan (tx1 tx2 : TxTracker H A E Z) : Bool :=
  if tx1.efficiency > tx2.efficiency then true
  else if tx1.efficiency = tx2.efficiency then decide (tx1.hashStr ≥ tx2.hashStr)
  else false

/-- The closure `sort.Search` calls in `addSort` and `delete`: the slice element
at `i` looked up again in the map, where a missing hash gives a nil tracker
whose efficiency `isGreaterThan` cannot read. -/
def EfficiencyList.isGreaterThanAt (e : EfficiencyList H A E Z) (tx : TxTracker H A E Z)
    (i : Nat) : Option Bool := do
  let s ← e.sorted[i]?
  let stored ← e.list.lookup s.hashStr
  pure (isGreaterThan tx stored)

/-- `addSort`: the tracker goes in at the first index whose tracker it is
greater than. -/
def EfficiencyList.addSort (e : EfficiencyList H A E Z) (tx : TxTracker H A E Z) :
    Option (EfficiencyList H A E Z) := do
  let i ← search e.sorted.length (e.isGreaterThanAt tx)
  pure { e with sorted := e.sorted.insertIdx i tx }

/-- `add`: a tracker whose hash is not in the map yet. -/
def EfficiencyList.add (e : EfficiencyList H A E Z) (tx : TxTracker H A E Z) :
    Option (Bool × EfficiencyList H A E Z) :=
  if tx.hashStr ∈ e.list then some (false, e)
  else (fun e => (true, e)) <$> EfficiencyList.addSort { e with list := e.list.insert tx.hashStr tx } tx

/-- `delete`: the tracker stored under the hash is searched for in the slice;
the slice element at the index found is read before the index is compared with
the length, so an index past the end panics. -/
def EfficiencyList.delete (e : EfficiencyList H A E Z) (tx : TxTracker H A E Z) :
    Option (Bool × EfficiencyList H A E Z) :=
  match e.list.lookup tx.hashStr with
  | none => some (false, e)
  | some tx => do
    let i ← search e.sorted.length (e.isGreaterThanAt tx)
    let found ← e.sorted[i]?
    if found.hashStr ≠ tx.hashStr then some (false, e)
    else some (true, { list := e.list.erase tx.hashStr, sorted := e.sorted.eraseIdx i })

/-- `if prevReadyTx != nil { efficiencyList.delete(prevReadyTx) }`. -/
def EfficiencyList.deletePrev (e : EfficiencyList H A E Z) :
    Option (TxTracker H A E Z) → Option (EfficiencyList H A E Z)
  | some tx => Prod.snd <$> e.delete tx
  | none => some e

/-- `if newReadyTx != nil { efficiencyList.add(newReadyTx) }`. -/
def EfficiencyList.addNew (e : EfficiencyList H A E Z) :
    Option (TxTracker H A E Z) → Option (EfficiencyList H A E Z)
  | some tx => Prod.snd <$> e.add tx
  | none => some e

/-- What the worker does with the previous and the new ready transaction an
address queue reports: the previous one leaves the list and the new one enters
it. -/
def EfficiencyList.update (e : EfficiencyList H A E Z)
    (prevReadyTx newReadyTx : Option (TxTracker H A E Z)) : Option (EfficiencyList H A E Z) :=
  (e.deletePrev prevReadyTx).bind fun e => e.addNew newReadyTx

/-- The order of the slice: efficiency, then hash. -/
def rankKey (tx : TxTracker H A E Z) : E ×ₗ H := toLex (tx.efficiency, tx.hashStr)

theorem isGreaterThan_eq (tx1 tx2 : TxTracker H A E Z) :
    isGreaterThan tx1 tx2 = decide (rankKey tx2 ≤ rankKey tx1) := by
  rw [rankKey, rankKey]
  unfold isGreaterThan
  rcases lt_trichotomy tx2.efficiency tx1.efficiency with greater | same | less
  · simp [Prod.Lex.toLex_le_toLex, greater]
  · simp [Prod.Lex.toLex_le_toLex, same]
  · simp [Prod.Lex.toLex_le_toLex, lt_asymm less, ne_of_lt less, ne_of_gt less]

/-- The list is sound: every tracker sits under its own hash, the slice is
strictly decreasing, and it holds exactly the trackers of the map. -/
structure EfficiencyList.Valid (e : EfficiencyList H A E Z) : Prop where
  keyed : ∀ h tx, e.list.lookup h = some tx → tx.hashStr = h
  descending : e.sorted.Pairwise fun a b => rankKey b < rankKey a
  sorted_iff : ∀ tx, tx ∈ e.sorted ↔ e.list.lookup tx.hashStr = some tx

theorem newEfficiencyList_valid : (newEfficiencyList : EfficiencyList H A E Z).Valid :=
  ⟨by simp [newEfficiencyList], by simp [newEfficiencyList], by simp [newEfficiencyList]⟩

theorem isGreaterThanAt_eq {e : EfficiencyList H A E Z}
    (stored : ∀ s ∈ e.sorted, e.list.lookup s.hashStr = some s) (tx : TxTracker H A E Z)
    {i : Nat} (fits : i < e.sorted.length) :
    e.isGreaterThanAt tx i = some (decide (rankKey e.sorted[i] ≤ rankKey tx)) := by
  simp only [EfficiencyList.isGreaterThanAt, List.getElem?_eq_getElem fits, Option.bind_eq_bind,
    Option.bind_some]
  rw [stored _ (List.getElem_mem fits), Option.bind_some, isGreaterThan_eq]
  rfl

theorem search_isGreaterThanAt {e : EfficiencyList H A E Z}
    (stored : ∀ s ∈ e.sorted, e.list.lookup s.hashStr = some s)
    (descending : e.sorted.Pairwise fun a b => rankKey b < rankKey a) (tx : TxTracker H A E Z) :
    search e.sorted.length (e.isGreaterThanAt tx) = some (Descending.rank rankKey e.sorted tx) := by
  apply search_eq (Descending.rank_le_length _ _)
  · intro k below
    have fits : k < e.sorted.length := lt_of_lt_of_le below (Descending.rank_le_length _ _)
    rw [isGreaterThanAt_eq stored tx fits]
    simpa [Descending.le_iff_rank_le descending tx k fits] using below
  · intro k above fits
    rw [isGreaterThanAt_eq stored tx fits]
    simpa [Descending.le_iff_rank_le descending tx k fits] using above

theorem EfficiencyList.Valid.stored {e : EfficiencyList H A E Z} (valid : e.Valid) :
    ∀ s ∈ e.sorted, e.list.lookup s.hashStr = some s :=
  fun s member => (valid.sorted_iff s).mp member

theorem EfficiencyList.Valid.hashStr_ne {e : EfficiencyList H A E Z} (valid : e.Valid)
    {tx : TxTracker H A E Z} (fresh : tx.hashStr ∉ e.list) : ∀ s ∈ e.sorted, s.hashStr ≠ tx.hashStr := by
  have absent : e.list.lookup tx.hashStr = none := AList.lookup_eq_none.mpr fresh
  intro s member same
  rw [← same, valid.stored s member] at absent
  cases absent

theorem EfficiencyList.Valid.add_eq {e : EfficiencyList H A E Z} (valid : e.Valid) {tx : TxTracker H A E Z}
    (fresh : tx.hashStr ∉ e.list) :
    e.add tx = some (true,
      ⟨e.list.insert tx.hashStr tx, e.sorted.insertIdx (Descending.rank rankKey e.sorted tx) tx⟩) := by
  let inserted : EfficiencyList H A E Z := { e with list := e.list.insert tx.hashStr tx }
  -- the search looks up only trackers of the slice, which the insertion leaves
  have stored : ∀ s ∈ inserted.sorted, inserted.list.lookup s.hashStr = some s := by
    intro s member
    rw [AList.lookup_insert_ne (valid.hashStr_ne fresh s member)]
    exact valid.stored s member
  have searched := search_isGreaterThanAt stored valid.descending tx
  simp only [EfficiencyList.add, fresh, if_false, EfficiencyList.addSort]
  rw [searched]
  rfl

theorem EfficiencyList.Valid.add {e : EfficiencyList H A E Z} (valid : e.Valid) {tx : TxTracker H A E Z}
    (fresh : tx.hashStr ∉ e.list) :
    ∃ e', e.add tx = some (true, e') ∧ e'.list = e.list.insert tx.hashStr tx ∧ e'.Valid := by
  have other := valid.hashStr_ne fresh
  refine ⟨_, valid.add_eq fresh, rfl, ?_⟩
  refine ⟨fun h s found => ?_, ?_, fun s => ?_⟩
  · by_cases same : h = tx.hashStr
    · subst same
      rw [AList.lookup_insert] at found
      cases found
      rfl
    · rw [AList.lookup_insert_ne same] at found
      exact valid.keyed h s found
  · apply Descending.pairwise_insertIdx_rank valid.descending
    intro s member same
    exact other s member (congrArg (fun key => (ofLex key).2) same)
  · dsimp only
    rw [List.mem_insertIdx (Descending.rank_le_length _ _)]
    by_cases same : s.hashStr = tx.hashStr
    · rw [same, AList.lookup_insert]
      constructor
      · rintro (rfl | member)
        · rfl
        · exact absurd same (other s member)
      · intro equal
        exact .inl (Option.some_inj.mp equal).symm
    · rw [AList.lookup_insert_ne same, ← valid.sorted_iff]
      constructor
      · rintro (rfl | member)
        · exact absurd rfl same
        · exact member
      · exact .inr

theorem add_of_mem {e : EfficiencyList H A E Z} {tx : TxTracker H A E Z} (present : tx.hashStr ∈ e.list) :
    e.add tx = some (false, e) := by
  simp [EfficiencyList.add, present]

theorem EfficiencyList.Valid.delete_eq [DecidableEq (TxTracker H A E Z)] {e : EfficiencyList H A E Z}
    (valid : e.Valid) {tx t : TxTracker H A E Z} (found : e.list.lookup tx.hashStr = some t) :
    e.delete tx = some (true, ⟨e.list.erase tx.hashStr, e.sorted.erase t⟩) := by
  have own : t.hashStr = tx.hashStr := valid.keyed _ t found
  have member : t ∈ e.sorted := (valid.sorted_iff t).mpr (own ▸ found)
  obtain ⟨fits, at_rank⟩ := Descending.getElem_rank valid.descending member
  have searched := search_isGreaterThanAt valid.stored valid.descending t
  have erased := Descending.eraseIdx_rank valid.descending member
  simp only [EfficiencyList.delete, found, searched, Option.bind_eq_bind, Option.bind_some,
    List.getElem?_eq_getElem fits, at_rank, ne_eq, not_true_eq_false, if_false, erased, own]

theorem EfficiencyList.Valid.delete {e : EfficiencyList H A E Z} (valid : e.Valid) {tx t : TxTracker H A E Z}
    (found : e.list.lookup tx.hashStr = some t) :
    ∃ e', e.delete tx = some (true, e') ∧ e'.list = e.list.erase tx.hashStr ∧ e'.Valid := by
  classical
  have own : t.hashStr = tx.hashStr := valid.keyed _ t found
  refine ⟨_, valid.delete_eq found, rfl, ?_⟩
  have nodup := Descending.nodup_of_pairwise valid.descending
  refine ⟨fun h s stored => ?_, valid.descending.sublist (List.erase_sublist), fun s => ?_⟩
  · by_cases same : h = tx.hashStr
    · rw [same, AList.lookup_erase] at stored
      cases stored
    · rw [AList.lookup_erase_ne same] at stored
      exact valid.keyed h s stored
  · dsimp only
    rw [nodup.mem_erase_iff]
    by_cases same : s.hashStr = tx.hashStr
    · rw [same, AList.lookup_erase]
      simp only [reduceCtorEq, iff_false, not_and]
      intro different inSorted
      have stored := (valid.sorted_iff s).mp inSorted
      rw [same, found] at stored
      exact absurd (Option.some_inj.mp stored).symm different
    · rw [AList.lookup_erase_ne same, ← valid.sorted_iff]
      constructor
      · exact And.right
      · intro inSorted
        refine ⟨?_, inSorted⟩
        rintro rfl
        exact same own

theorem delete_of_lookup_eq_none {e : EfficiencyList H A E Z} {tx : TxTracker H A E Z}
    (absent : e.list.lookup tx.hashStr = none) : e.delete tx = some (false, e) := by
  simp [EfficiencyList.delete, absent]

theorem EfficiencyList.Valid.delete_lookup {e : EfficiencyList H A E Z} (valid : e.Valid)
    {tx : TxTracker H A E Z} (stored : e.list.lookup tx.hashStr = some tx) :
    ∃ e', e.delete tx = some (true, e') ∧ e'.Valid ∧
      ∀ h x, e'.list.lookup h = some x ↔ e.list.lookup h = some x ∧ tx.hashStr ≠ h := by
  obtain ⟨e', deleted, list, valid'⟩ := valid.delete stored
  refine ⟨e', deleted, valid', fun h x => ?_⟩
  rw [list, lookup_erase_eq_some, ne_comm, and_comm]

theorem EfficiencyList.Valid.add_lookup {e : EfficiencyList H A E Z} (valid : e.Valid)
    {tx : TxTracker H A E Z} (fresh : tx.hashStr ∉ e.list) :
    ∃ e', e.add tx = some (true, e') ∧ e'.Valid ∧
      ∀ h x, e'.list.lookup h = some x ↔ x = tx ∧ tx.hashStr = h ∨
        e.list.lookup h = some x ∧ tx.hashStr ≠ h := by
  obtain ⟨e', added, list, valid'⟩ := valid.add fresh
  refine ⟨e', added, valid', fun h x => ?_⟩
  rw [list, lookup_insert_eq_some]
  constructor
  · rintro (⟨same, rfl⟩ | ⟨other, found⟩)
    · exact .inl ⟨rfl, same.symm⟩
    · exact .inr ⟨found, Ne.symm other⟩
  · rintro (⟨rfl, same⟩ | ⟨found, other⟩)
    · exact .inl ⟨same.symm, rfl⟩
    · exact .inr ⟨Ne.symm other, found⟩

theorem EfficiencyList.Valid.update {e : EfficiencyList H A E Z} (valid : e.Valid)
    {prevReadyTx newReadyTx : Option (TxTracker H A E Z)}
    (stored : ∀ tx, prevReadyTx = some tx → e.list.lookup tx.hashStr = some tx)
    (fresh : ∀ tx, newReadyTx = some tx → ∀ x, e.list.lookup tx.hashStr = some x → prevReadyTx = some x) :
    ∃ e', e.update prevReadyTx newReadyTx = some e' ∧ e'.Valid ∧
      ∀ h x, e'.list.lookup h = some x ↔ newReadyTx = some x ∧ x.hashStr = h ∨
        e.list.lookup h = some x ∧ (∀ tx, prevReadyTx = some tx → tx.hashStr ≠ h) ∧
          (∀ tx, newReadyTx = some tx → tx.hashStr ≠ h) := by
  -- the delete, then the add
  obtain ⟨e₁, deleted, valid₁, lookup₁⟩ : ∃ e₁, e.deletePrev prevReadyTx = some e₁ ∧ e₁.Valid ∧
      ∀ h x, e₁.list.lookup h = some x ↔
        e.list.lookup h = some x ∧ ∀ tx, prevReadyTx = some tx → tx.hashStr ≠ h := by
    cases prevReadyTx with
    | none => exact ⟨e, rfl, valid, fun h x => by simp⟩
    | some tx =>
      obtain ⟨e₁, deleted, valid₁, lookup₁⟩ := valid.delete_lookup (stored tx rfl)
      exact ⟨e₁, by simp [EfficiencyList.deletePrev, deleted], valid₁, fun h x => by simp [lookup₁]⟩
  cases newReadyTx with
  | none =>
    refine ⟨e₁, by simp [EfficiencyList.update, deleted, EfficiencyList.addNew], valid₁, fun h x => ?_⟩
    simp [lookup₁]
  | some tx =>
    have free : tx.hashStr ∉ e₁.list := by
      intro member
      obtain ⟨x, found⟩ := Option.isSome_iff_exists.mp (AList.lookup_isSome.mpr member)
      obtain ⟨found, notPrev⟩ := (lookup₁ _ x).mp found
      have own := valid.keyed _ x found
      exact notPrev x (fresh tx rfl x found) own
    obtain ⟨e₂, added, valid₂, lookup₂⟩ := valid₁.add_lookup free
    refine ⟨e₂, by simp [EfficiencyList.update, deleted, EfficiencyList.addNew, added], valid₂,
      fun h x => ?_⟩
    rw [lookup₂, lookup₁]
    constructor
    · rintro (⟨rfl, same⟩ | ⟨⟨found, notPrev⟩, other⟩)
      · exact .inl ⟨rfl, same⟩
      · exact .inr ⟨found, notPrev, fun t new => Option.some_inj.mp new ▸ other⟩
    · rintro (⟨new, same⟩ | ⟨found, notPrev, other⟩)
      · exact .inl ⟨(Option.some_inj.mp new).symm, (Option.some_inj.mp new) ▸ same⟩
      · exact .inr ⟨⟨found, notPrev⟩, other tx rfl⟩

theorem EfficiencyList.update_of_lookup {e : EfficiencyList H A E Z} {tx : TxTracker H A E Z}
    (stored : e.list.lookup tx.hashStr = some tx) : e.update none (some tx) = some e := by
  have present : tx.hashStr ∈ e.list := AList.lookup_isSome.mp (by simp [stored])
  simp [EfficiencyList.update, EfficiencyList.deletePrev, EfficiencyList.addNew, add_of_mem present]

/-- A call on the list: `add` or `delete` of a tracker. -/
inductive ListCall (H A E Z : Type) where
  | add (tx : TxTracker H A E Z)
  | delete (tx : TxTracker H A E Z)

/-- A call: what it returns, and the list it leaves. -/
def EfficiencyList.call (e : EfficiencyList H A E Z) : ListCall H A E Z → Option (Bool × EfficiencyList H A E Z)
  | .add tx => e.add tx
  | .delete tx => e.delete tx

/-- A call, as a step of the list's runs. -/
def EfficiencyList.callStep (e : EfficiencyList H A E Z) (c : ListCall H A E Z) :
    Option (EfficiencyList H A E Z) :=
  Prod.snd <$> e.call c

theorem EfficiencyList.Valid.callStep {e : EfficiencyList H A E Z} (valid : e.Valid) (c : ListCall H A E Z) :
    ∃ e', e.callStep c = some e' ∧ e'.Valid := by
  cases c with
  | add tx =>
    by_cases present : tx.hashStr ∈ e.list
    · exact ⟨e, by simp [EfficiencyList.callStep, EfficiencyList.call, add_of_mem present], valid⟩
    · obtain ⟨e', added, -, valid'⟩ := valid.add present
      exact ⟨e', by simp [EfficiencyList.callStep, EfficiencyList.call, added], valid'⟩
  | delete tx =>
    cases found : e.list.lookup tx.hashStr with
    | none =>
      exact ⟨e, by simp [EfficiencyList.callStep, EfficiencyList.call, delete_of_lookup_eq_none found], valid⟩
    | some t =>
      obtain ⟨e', deleted, -, valid'⟩ := valid.delete found
      exact ⟨e', by simp [EfficiencyList.callStep, EfficiencyList.call, deleted], valid'⟩

/-- The list after any sequence of `add` and `delete` calls from
`newEfficiencyList`: no call panics, the slice holds exactly the trackers of
the map, each once, in strictly decreasing order of efficiency and hash, and
from there `add` returns true exactly for a hash the map lacks and inserts the
tracker at its ordered position, while `delete` returns true exactly for a hash
the map holds, finds the stored tracker by a search that stays inside the
slice, and removes exactly that tracker. -/
theorem efficiencyList_runs [DecidableEq A] [DecidableEq Z] (calls : List (ListCall H A E Z)) :
    ∃ e, Machine.run EfficiencyList.callStep newEfficiencyList calls = some e ∧ e.Valid ∧
      (∀ tx, e.add tx = some (if tx.hashStr ∈ e.list then (false, e) else
        (true, ⟨e.list.insert tx.hashStr tx, e.sorted.insertIdx (Descending.rank rankKey e.sorted tx) tx⟩))) ∧
      (∀ tx t, e.list.lookup tx.hashStr = some t →
        (∃ i, search e.sorted.length (e.isGreaterThanAt t) = some i ∧ e.sorted[i]? = some t) ∧
        e.delete tx = some (true, ⟨e.list.erase tx.hashStr, e.sorted.erase t⟩)) ∧
      (∀ tx, e.list.lookup tx.hashStr = none → e.delete tx = some (false, e)) := by
  -- every call is allowed, and soundness is the invariant of the runs
  have preserved : ∀ (e : EfficiencyList H A E Z) (c : ListCall H A E Z), e.Valid → True →
      ∃ e', e.callStep c = some e' ∧ e'.Valid := fun e c valid _ => valid.callStep c
  obtain ⟨e, ran, valid⟩ :=
    Machine.run_invariant preserved calls newEfficiencyList newEfficiencyList_valid (fun _ _ => trivial)
  refine ⟨e, ran, valid, fun tx => ?_, fun tx t found => ⟨?_, valid.delete_eq found⟩,
    fun tx absent => delete_of_lookup_eq_none absent⟩
  · by_cases present : tx.hashStr ∈ e.list
    · rw [if_pos present, add_of_mem present]
    · rw [if_neg present, valid.add_eq present]
  · -- the stored tracker sits at its rank, where the search lands
    have member : t ∈ e.sorted := (valid.sorted_iff t).mpr (valid.keyed _ t found ▸ found)
    obtain ⟨fits, at_rank⟩ := Descending.getElem_rank valid.descending member
    refine ⟨_, search_isGreaterThanAt valid.stored valid.descending t, ?_⟩
    rw [List.getElem?_eq_getElem fits, at_rank]

end List

end ZkevmNode.Sequencer
