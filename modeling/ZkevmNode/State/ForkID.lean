import Mathlib.Data.List.Basic

set_option autoImplicit false

/-! The fork id intervals: `Client.GetForks` (`etherman/etherman.go`) turns the
`UpdateZkEVMVersion` events into batch intervals, and `GetForkIDByBatchNumber`
(`state/forkid.go`) finds the fork of a batch in them. Each event opens an
interval from the batch after its `NumBatch`, and the next event closes the
previous interval at its own `NumBatch`. -/

namespace ZkevmNode

namespace State

/-- `ForkIDInterval`. -/
structure ForkIDInterval where
  fromBatchNumber : UInt64
  toBatchNumber : UInt64
  forkId : UInt64
  version : String
deriving DecidableEq, Repr

/-- Whether an interval holds a batch number. -/
def ForkIDInterval.covers (interval : ForkIDInterval) (batchNumber : UInt64) : Bool :=
  batchNumber ≥ interval.fromBatchNumber && batchNumber ≤ interval.toBatchNumber

/-- `GetForkIDByBatchNumber`: the fork of the first interval that holds the
batch, and otherwise that of the last interval, which panics when there is
none. -/
def getForkIDByBatchNumber (intervals : List ForkIDInterval) (batchNumber : UInt64) : Option UInt64 :=
  match intervals.find? (·.covers batchNumber) with
  | some interval => some interval.forkId
  | none => intervals.getLast?.map (·.forkId)

end State

namespace Etherman

open State

/-- The fields of the `UpdateZkEVMVersion` event `GetForks` reads. -/
structure UpdateZkEVMVersion where
  numBatch : UInt64
  forkID : UInt64
  version : String
deriving DecidableEq, Repr

def maxUint64 : UInt64 := 0xFFFFFFFFFFFFFFFF

/-- `forks[len(forks)-1].ToBatchNumber = numBatch`; it panics on an empty slice. -/
def setLastToBatchNumber (forks : List ForkIDInterval) (numBatch : UInt64) : Option (List ForkIDInterval) :=
  forks.getLast?.map fun last => forks.dropLast ++ [{ last with toBatchNumber := numBatch }]

section GetForks

variable {L ε : Type} (parse : L → Except ε UpdateZkEVMVersion)

/-- The loop of `GetForks` from the log of index `i`; `none` is a panic. -/
def getForksLoop : Nat → List ForkIDInterval → List L → Option (Except ε (List ForkIDInterval))
  | _, forks, [] => some (.ok forks)
  | i, forks, l :: logs =>
    match parse l with
    | .error err => some (.error err)
    | .ok zkevmVersion =>
      let fork : ForkIDInterval :=
        ⟨zkevmVersion.numBatch + 1, maxUint64, zkevmVersion.forkID, zkevmVersion.version⟩
      if i = 0 then getForksLoop (i + 1) (forks ++ [fork]) logs
      else do
        let forks ← setLastToBatchNumber forks zkevmVersion.numBatch
        getForksLoop (i + 1) (forks ++ [fork]) logs

/-- `GetForks` on what `FilterLogs` returns, with `ParseUpdateZkEVMVersion` as
`parse`. -/
def getForks (filterLogs : Except ε (List L)) : Option (Except ε (List ForkIDInterval)) :=
  match filterLogs with
  | .error err => some (.error err)
  | .ok logs => getForksLoop parse 0 [] logs

end GetForks

def forkIntervals : List UpdateZkEVMVersion → List ForkIDInterval
  | [] => []
  | [e] => [⟨e.numBatch + 1, maxUint64, e.forkID, e.version⟩]
  | e :: e' :: rest => ⟨e.numBatch + 1, e'.numBatch, e.forkID, e.version⟩ :: forkIntervals (e' :: rest)

/-- The interval an event opens, up to `MaxUint64`. -/
def openInterval (e : UpdateZkEVMVersion) : ForkIDInterval := ⟨e.numBatch + 1, maxUint64, e.forkID, e.version⟩

theorem forkIntervals_ne_nil : ∀ {events : List UpdateZkEVMVersion}, events ≠ [] → forkIntervals events ≠ []
  | [e], _ => by simp [forkIntervals]
  | e :: e' :: rest, _ => by simp [forkIntervals]

theorem setLastToBatchNumber_cons (first : ForkIDInterval) {forks : List ForkIDInterval} (nonempty : forks ≠ [])
    (numBatch : UInt64) :
    setLastToBatchNumber (first :: forks) numBatch = (setLastToBatchNumber forks numBatch).map (first :: ·) := by
  obtain ⟨last, front, rfl⟩ := List.exists_cons_of_ne_nil nonempty
  simp [setLastToBatchNumber, List.getLast?_cons_cons, List.dropLast_cons_of_ne_nil, Function.comp_def]

theorem setLastToBatchNumber_forkIntervals (e : UpdateZkEVMVersion) :
    ∀ p : List UpdateZkEVMVersion, p ≠ [] → ∃ closed,
      setLastToBatchNumber (forkIntervals p) e.numBatch = some closed ∧
        closed ++ [openInterval e] = forkIntervals (p ++ [e])
  | [a], _ => ⟨[⟨a.numBatch + 1, e.numBatch, a.forkID, a.version⟩], rfl, rfl⟩
  | a :: b :: rest, _ => by
    obtain ⟨closed, set, appended⟩ := setLastToBatchNumber_forkIntervals e (b :: rest) (List.cons_ne_nil b rest)
    refine ⟨⟨a.numBatch + 1, b.numBatch, a.forkID, a.version⟩ :: closed, ?_, ?_⟩
    · rw [forkIntervals, setLastToBatchNumber_cons _ (forkIntervals_ne_nil (List.cons_ne_nil b rest)), set,
        Option.map_some]
    · rw [List.cons_append, appended]
      rfl

section Parsed

variable {L ε : Type} (parse : L → Except ε UpdateZkEVMVersion)

theorem getForksLoop_parsed :
    ∀ (logs : List L) (events p : List UpdateZkEVMVersion) (i : Nat), logs.map parse = events.map .ok →
      p ≠ [] → i ≠ 0 → getForksLoop parse i (forkIntervals p) logs = some (.ok (forkIntervals (p ++ events)))
  | [], events, p, i, parsed, _, _ => by
    have none : events = [] := List.map_eq_nil_iff.mp (by rw [← parsed, List.map_nil])
    rw [none, List.append_nil, getForksLoop]
  | l :: logs, events, p, i, parsed, nonempty, later => by
    obtain ⟨e, es, rfl⟩ : ∃ e es, events = e :: es :=
      List.exists_cons_of_ne_nil fun none => by simp [none] at parsed
    simp only [List.map_cons, List.cons.injEq] at parsed
    obtain ⟨closed, set, appended⟩ := setLastToBatchNumber_forkIntervals e p nonempty
    rw [getForksLoop, parsed.1]
    dsimp only
    rw [if_neg later, set, Option.bind_eq_bind, Option.bind_some]
    -- the fork the loop appends is the one the event opens
    change getForksLoop parse (i + 1) (closed ++ [openInterval e]) logs = _
    rw [appended, getForksLoop_parsed logs es (p ++ [e]) (i + 1) parsed.2 (by simp) (by omega),
      List.append_assoc, List.singleton_append]

theorem getForks_parsed {logs : List L} {events : List UpdateZkEVMVersion} (parsed : logs.map parse = events.map .ok) :
    getForks parse (.ok logs) = some (.ok (forkIntervals events)) := by
  cases logs with
  | nil =>
    have none : events = [] := List.map_eq_nil_iff.mp (by rw [← parsed, List.map_nil])
    rw [none]
    rfl
  | cons l logs =>
    obtain ⟨e, es, rfl⟩ : ∃ e es, events = e :: es :=
      List.exists_cons_of_ne_nil fun none => by simp [none] at parsed
    simp only [List.map_cons, List.cons.injEq] at parsed
    rw [getForks, getForksLoop, parsed.1]
    dsimp only
    rw [if_pos rfl]
    exact getForksLoop_parsed parse logs es [e] 1 parsed.2 (List.cons_ne_nil e []) Nat.one_ne_zero

end Parsed

theorem getElem?_forkIntervals :
    ∀ (events : List UpdateZkEVMVersion) (j : Nat),
      (forkIntervals events)[j]? = events[j]?.map fun e =>
        ⟨e.numBatch + 1, (events[j + 1]?.map (·.numBatch)).getD maxUint64, e.forkID, e.version⟩
  | [], j => rfl
  | [e], 0 => rfl
  | [e], j + 1 => rfl
  | e :: e' :: rest, 0 => rfl
  | e :: e' :: rest, j + 1 => by
    rw [forkIntervals, List.getElem?_cons_succ, getElem?_forkIntervals (e' :: rest) j]
    rfl

theorem covers_of_lt {n b : UInt64} (upper forkId : UInt64) (version : String) (below : n < b) :
    (⟨n + 1, upper, forkId, version⟩ : ForkIDInterval).covers b = decide (b ≤ upper) := by
  have after : n + 1 ≤ b := by
    rw [UInt64.le_iff_toNat_le, UInt64.toNat_add, UInt64.toNat_one]
    rw [UInt64.lt_iff_toNat_lt] at below
    have bounded := b.toNat_lt
    omega
  simp [ForkIDInterval.covers, after]

theorem find?_forkIntervals (b : UInt64) :
    ∀ events : List UpdateZkEVMVersion, events.Pairwise (fun e e' => e.numBatch ≤ e'.numBatch) →
      (∀ e ∈ events.head?, e.numBatch < b) →
      ((forkIntervals events).find? (·.covers b)).map (·.forkId) =
        (events.filter fun e => e.numBatch < b).getLast?.map (·.forkID)
  | [], _, _ => rfl
  | [e], _, after => by
    have below : e.numBatch < b := after e rfl
    have top : b ≤ maxUint64 := by
      rw [UInt64.le_iff_toNat_le]
      have bounded := b.toNat_lt
      exact Nat.le_pred_of_lt bounded
    simp [forkIntervals, covers_of_lt _ _ _ below, top, below]
  | e :: e' :: rest, sorted, after => by
    have below : e.numBatch < b := after e rfl
    rw [forkIntervals, List.find?_cons, covers_of_lt _ _ _ below]
    by_cases closes : b ≤ e'.numBatch
    · -- the first interval holds `b`, and no later event is below it
      have later : ∀ x ∈ e' :: rest, ¬x.numBatch < b := by
        intro x member
        rcases List.mem_cons.mp member with rfl | deeper
        · exact UInt64.not_lt.mpr closes
        · have ordered := List.rel_of_pairwise_cons (List.Pairwise.of_cons sorted) deeper
          exact UInt64.not_lt.mpr (UInt64.le_trans closes ordered)
      rw [decide_eq_true closes, List.filter_cons_of_pos (by simpa using below),
        List.filter_eq_nil_iff.mpr fun x member => by simpa using later x member]
      rfl
    · -- `b` is past the first interval: the rest decide
      have past : e'.numBatch < b := UInt64.not_le.mp closes
      rw [decide_eq_false closes, find?_forkIntervals b (e' :: rest) (List.Pairwise.of_cons sorted)
        fun x first => by rw [← Option.mem_some_iff.mp first]; exact past,
        List.filter_cons_of_pos (a := e) (by simpa using below), List.filter_cons_of_pos (a := e') (by simpa using past),
        List.getLast?_cons_cons]

/-- Fork intervals agree with the fork events: `GetForks` builds the interval
from the batch after each event to the next event's batch, the last one to
`MaxUint64`, and for every batch after the first event's
`GetForkIDByBatchNumber` gives the fork of the last event below it. -/
theorem getForkIDByBatchNumber_getForks {L ε : Type} (parse : L → Except ε UpdateZkEVMVersion)
    {logs : List L} {events : List UpdateZkEVMVersion} (parsed : logs.map parse = events.map .ok)
    (nonempty : events ≠ []) (sorted : events.Pairwise fun e e' => e.numBatch ≤ e'.numBatch) :
    getForks parse (.ok logs) = some (.ok (forkIntervals events)) ∧
      (∀ j (inside : j < events.length), (forkIntervals events)[j]? =
        some ⟨events[j].numBatch + 1, (events[j + 1]?.map (·.numBatch)).getD maxUint64, events[j].forkID,
          events[j].version⟩) ∧
      ∀ b, (events.head nonempty).numBatch < b →
        getForkIDByBatchNumber (forkIntervals events) b =
          (events.filter fun e => e.numBatch < b).getLast?.map (·.forkID) := by
  refine ⟨getForks_parsed parse parsed, fun j inside => ?_, fun b after => ?_⟩
  · rw [getElem?_forkIntervals, List.getElem?_eq_getElem inside, Option.map_some]
  · have found := find?_forkIntervals b events sorted fun e first => by
      rw [List.head?_eq_some_head nonempty, Option.mem_some_iff] at first
      rw [← first]
      exact after
    -- the first event is below `b`, so an interval holds `b`
    obtain ⟨e, rest, split⟩ := List.exists_cons_of_ne_nil nonempty
    have kept : (events.filter fun e => e.numBatch < b) ≠ [] := by
      subst split
      rw [List.filter_cons_of_pos (by simpa using after)]
      exact List.cons_ne_nil _ _
    obtain ⟨last, isLast⟩ := Option.isSome_iff_exists.mp (List.getLast?_isSome.mpr kept)
    rw [isLast, Option.map_some] at found ⊢
    obtain ⟨interval, holds, forkOf⟩ := Option.map_eq_some_iff.mp found
    simp only [getForkIDByBatchNumber, holds]
    rw [forkOf]

/-- Two events at batch 100 give the second an empty interval, which batch 150
skips for the third event's fork. -/
theorem getForkIDByBatchNumber_getForks_repeated :
    getForkIDByBatchNumber (forkIntervals [⟨0, 1, "v1"⟩, ⟨100, 2, "v2"⟩, ⟨100, 3, "v3"⟩, ⟨200, 4, "v4"⟩]) 150 =
      some 3 := by
  have parsed : ([⟨0, 1, "v1"⟩, ⟨100, 2, "v2"⟩, ⟨100, 3, "v3"⟩, ⟨200, 4, "v4"⟩] : List UpdateZkEVMVersion).map
      (Except.ok (ε := Unit)) = [⟨0, 1, "v1"⟩, ⟨100, 2, "v2"⟩, ⟨100, 3, "v3"⟩, ⟨200, 4, "v4"⟩].map Except.ok := rfl
  have lookup := (getForkIDByBatchNumber_getForks Except.ok parsed (by simp) (by decide)).2.2 150 (by decide)
  rw [lookup]
  decide

end Etherman

end ZkevmNode
