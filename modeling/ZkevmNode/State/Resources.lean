import Mathlib.Data.Fin.VecNotation
import Mathlib.Data.Fin.Tuple.Basic
import Mathlib.Tactic.FinCases
import Mathlib.Data.Fintype.Basic

set_option autoImplicit false

/-! `state.ZKCounters` and `state.BatchResources` (`state/types.go`), and their
`Sub`, with which the finalizer and `GetBestFittingTx` check what is left of a
batch. The counters keep their Go widths; `Sub` has a pointer receiver, so it
returns the receiver as it leaves it together with the error. -/

namespace ZkevmNode.State

/-- `state.ZKCounters`. -/
structure ZKCounters where
  cumulativeGasUsed : UInt64
  usedKeccakHashes : UInt32
  usedPoseidonHashes : UInt32
  usedPoseidonPaddings : UInt32
  usedMemAligns : UInt32
  usedArithmetics : UInt32
  usedBinaries : UInt32
  usedSteps : UInt32
deriving DecidableEq, Repr

/-- `state.BatchResources`. -/
structure BatchResources where
  zkCounters : ZKCounters
  bytes : UInt64
deriving DecidableEq, Repr

/-- The errors `ZKCounters.Sub` returns. -/
inductive CounterError where
  /-- `GetZKCounterError(name)`. -/
  | zkCounter (name : String)
  /-- An error made by `fmt.Errorf` from its text. -/
  | errorf (msg : String)
deriving DecidableEq, Repr

/-- `BatchRemainingResourcesUnderflowError`, the error of `BatchResources.Sub`:
the counter error it wraps, if any, and the name of the resource. Its `Message`
and `Code` are made from these. -/
structure BatchRemainingResourcesUnderflowError where
  err : Option CounterError
  resourceName : String
deriving DecidableEq, Repr

def zkCounterErrPrefix : String := "ZKCounter: "

/-- `constructErrorMsg`. -/
def constructErrorMsg (resourceName : String) : String :=
  "underflow of remaining resources for current batch. Resource " ++ resourceName

/-- `Error()` of a counter error. -/
def CounterError.error : CounterError → String
  | .zkCounter name => zkCounterErrPrefix ++ name
  | .errorf msg => msg

/-- `BatchRemainingResourcesUnderflowError.Error()`. -/
def BatchRemainingResourcesUnderflowError.error (e : BatchRemainingResourcesUnderflowError) : String :=
  constructErrorMsg e.resourceName

/-- `GetZKCounterError`. -/
def getZKCounterError (name : String) : CounterError := .zkCounter name

/-- `NewBatchRemainingResourcesUnderflowError`. -/
def newBatchRemainingResourcesUnderflowError (err : Option CounterError) (resourceName : String) :
    BatchRemainingResourcesUnderflowError :=
  ⟨err, resourceName⟩

/-- `ErrBatchResourceBytesUnderflow`. -/
def errBatchResourceBytesUnderflow : BatchRemainingResourcesUnderflowError :=
  newBatchRemainingResourcesUnderflowError none "Bytes"

/-- `ZKCounters.Sub`: the eight counters are all checked before any is
subtracted. -/
def ZKCounters.sub (z other : ZKCounters) : ZKCounters × Option CounterError :=
  if other.cumulativeGasUsed > z.cumulativeGasUsed then (z, some (getZKCounterError "CumulativeGasUsed"))
  else if other.usedKeccakHashes > z.usedKeccakHashes then (z, some (getZKCounterError "UsedKeccakHashes"))
  else if other.usedPoseidonHashes > z.usedPoseidonHashes then
    (z, some (getZKCounterError "UsedPoseidonHashes"))
  else if other.usedPoseidonPaddings > z.usedPoseidonPaddings then
    (z, some (.errorf "underflow ZKCounter: UsedPoseidonPaddings"))
  else if other.usedMemAligns > z.usedMemAligns then (z, some (getZKCounterError "UsedMemAligns"))
  else if other.usedArithmetics > z.usedArithmetics then (z, some (getZKCounterError "UsedArithmetics"))
  else if other.usedBinaries > z.usedBinaries then (z, some (getZKCounterError "UsedBinaries"))
  else if other.usedSteps > z.usedSteps then (z, some (getZKCounterError "UsedSteps"))
  else
    (⟨z.cumulativeGasUsed - other.cumulativeGasUsed, z.usedKeccakHashes - other.usedKeccakHashes,
      z.usedPoseidonHashes - other.usedPoseidonHashes, z.usedPoseidonPaddings - other.usedPoseidonPaddings,
      z.usedMemAligns - other.usedMemAligns, z.usedArithmetics - other.usedArithmetics,
      z.usedBinaries - other.usedBinaries, z.usedSteps - other.usedSteps⟩, none)

/-- `BatchResources.Sub`: the bytes are subtracted first and put back when a
counter fails. -/
def BatchResources.sub (r other : BatchResources) :
    BatchResources × Option BatchRemainingResourcesUnderflowError :=
  if other.bytes > r.bytes then (r, some errBatchResourceBytesUnderflow)
  else
    let bytesBackup := r.bytes
    let r := { r with bytes := r.bytes - other.bytes }
    let (zkCounters, err) := r.zkCounters.sub other.zkCounters
    let r := { r with zkCounters := zkCounters }
    match err with
    | some err => ({ r with bytes := bytesBackup },
        some (newBatchRemainingResourcesUnderflowError (some err) err.error))
    | none => (r, none)

/-- The eight counters, in the order `Sub` checks them, as numbers. -/
def ZKCounters.amounts (z : ZKCounters) : Fin 8 → Nat :=
  ![z.cumulativeGasUsed.toNat, z.usedKeccakHashes.toNat, z.usedPoseidonHashes.toNat,
    z.usedPoseidonPaddings.toNat, z.usedMemAligns.toNat, z.usedArithmetics.toNat,
    z.usedBinaries.toNat, z.usedSteps.toNat]

/-- The bytes and then the eight counters, in the order `Sub` checks them. -/
def BatchResources.amounts (r : BatchResources) : Fin 9 → Nat :=
  Fin.cons r.bytes.toNat r.zkCounters.amounts

/-- The error `ZKCounters.Sub` returns for each counter. -/
def zkCounterError : Fin 8 → CounterError :=
  ![getZKCounterError "CumulativeGasUsed", getZKCounterError "UsedKeccakHashes",
    getZKCounterError "UsedPoseidonHashes", .errorf "underflow ZKCounter: UsedPoseidonPaddings",
    getZKCounterError "UsedMemAligns", getZKCounterError "UsedArithmetics",
    getZKCounterError "UsedBinaries", getZKCounterError "UsedSteps"]

theorem ZKCounters.forall_amounts {z other : ZKCounters} :
    (∀ k, other.amounts k ≤ z.amounts k) ↔
      other.cumulativeGasUsed.toNat ≤ z.cumulativeGasUsed.toNat ∧
      other.usedKeccakHashes.toNat ≤ z.usedKeccakHashes.toNat ∧
      other.usedPoseidonHashes.toNat ≤ z.usedPoseidonHashes.toNat ∧
      other.usedPoseidonPaddings.toNat ≤ z.usedPoseidonPaddings.toNat ∧
      other.usedMemAligns.toNat ≤ z.usedMemAligns.toNat ∧
      other.usedArithmetics.toNat ≤ z.usedArithmetics.toNat ∧
      other.usedBinaries.toNat ≤ z.usedBinaries.toNat ∧
      other.usedSteps.toNat ≤ z.usedSteps.toNat := by
  simp only [Fin.forall_fin_succ, ZKCounters.amounts, Matrix.cons_val_zero, Matrix.cons_val_succ,
    IsEmpty.forall_iff, and_true]

theorem ZKCounters.sub_eq_of_le {z other : ZKCounters} (covers : ∀ k, other.amounts k ≤ z.amounts k) :
    z.sub other =
      (⟨z.cumulativeGasUsed - other.cumulativeGasUsed, z.usedKeccakHashes - other.usedKeccakHashes,
        z.usedPoseidonHashes - other.usedPoseidonHashes, z.usedPoseidonPaddings - other.usedPoseidonPaddings,
        z.usedMemAligns - other.usedMemAligns, z.usedArithmetics - other.usedArithmetics,
        z.usedBinaries - other.usedBinaries, z.usedSteps - other.usedSteps⟩, none) := by
  obtain ⟨c0, c1, c2, c3, c4, c5, c6, c7⟩ := ZKCounters.forall_amounts.mp covers
  unfold ZKCounters.sub
  simp only [gt_iff_lt, UInt64.lt_iff_toNat_lt, UInt32.lt_iff_toNat_lt]
  rw [if_neg (by omega), if_neg (by omega), if_neg (by omega), if_neg (by omega), if_neg (by omega),
    if_neg (by omega), if_neg (by omega), if_neg (by omega)]

theorem ZKCounters.sub_spec (z other : ZKCounters) :
    (∃ k, z.amounts k < other.amounts k ∧ (∀ j < k, other.amounts j ≤ z.amounts j) ∧
      z.sub other = (z, some (zkCounterError k))) ∨
    (∀ k, other.amounts k ≤ z.amounts k) := by
  by_cases covers : ∀ k, other.amounts k ≤ z.amounts k
  · exact Or.inr covers
  left
  rw [ZKCounters.forall_amounts] at covers
  unfold ZKCounters.sub
  simp only [gt_iff_lt, UInt64.lt_iff_toNat_lt, UInt32.lt_iff_toNat_lt]
  split_ifs with h0 h1 h2 h3 h4 h5 h6 h7
  -- the `k`-th check failed and the ones before it passed
  · exact ⟨0, h0, nofun, rfl⟩
  · refine ⟨1, h1, fun j below => ?_, rfl⟩
    obtain rfl : j = 0 := Fin.ext (Nat.lt_one_iff.mp below)
    simpa [ZKCounters.amounts] using Nat.le_of_not_lt h0
  · refine ⟨2, h2, fun j below => ?_, rfl⟩
    fin_cases j <;> simp [ZKCounters.amounts] at below ⊢ <;> omega
  · refine ⟨3, h3, fun j below => ?_, rfl⟩
    fin_cases j <;> simp [ZKCounters.amounts] at below ⊢ <;> omega
  · refine ⟨4, h4, fun j below => ?_, rfl⟩
    fin_cases j <;> simp [ZKCounters.amounts] at below ⊢ <;> omega
  · refine ⟨5, h5, fun j below => ?_, rfl⟩
    fin_cases j <;> simp [ZKCounters.amounts] at below ⊢ <;> omega
  · refine ⟨6, h6, fun j below => ?_, rfl⟩
    fin_cases j <;> simp [ZKCounters.amounts] at below ⊢ <;> omega
  · refine ⟨7, h7, fun j below => ?_, rfl⟩
    fin_cases j <;> simp [ZKCounters.amounts] at below ⊢ <;> omega
  -- every check passed, against `covers`
  · omega

theorem ZKCounters.sub_eq_none_iff (z other : ZKCounters) :
    (z.sub other).2 = none ↔ ∀ k, other.amounts k ≤ z.amounts k := by
  constructor
  · intro succeeded
    rcases z.sub_spec other with ⟨k, -, -, failedAt⟩ | covers
    · rw [failedAt] at succeeded
      cases succeeded
    · exact covers
  · intro covers
    rw [ZKCounters.sub_eq_of_le covers]

theorem ZKCounters.sub_of_isSome {z other : ZKCounters} (failed : (z.sub other).2.isSome) :
    (z.sub other).1 = z := by
  rcases z.sub_spec other with ⟨k, -, -, failedAt⟩ | covers
  · rw [failedAt]
  · rw [ZKCounters.sub_eq_of_le covers] at failed
    cases failed

theorem ZKCounters.amounts_sub {z other : ZKCounters} (succeeded : (z.sub other).2 = none) :
    ∀ k, (z.sub other).1.amounts k = z.amounts k - other.amounts k := by
  have covers := (z.sub_eq_none_iff other).mp succeeded
  rw [ZKCounters.sub_eq_of_le covers]
  obtain ⟨c0, c1, c2, c3, c4, c5, c6, c7⟩ := ZKCounters.forall_amounts.mp covers
  intro k
  fin_cases k <;> simp [ZKCounters.amounts, UInt64.toNat_sub_of_le, UInt32.toNat_sub_of_le,
    UInt64.le_iff_toNat_le, UInt32.le_iff_toNat_le, *]

theorem ZKCounters.sub_eq_some {z other : ZKCounters} {err : CounterError}
    (failed : (z.sub other).2 = some err) :
    ∃ k, z.amounts k < other.amounts k ∧ (∀ j < k, other.amounts j ≤ z.amounts j) ∧
      err = zkCounterError k := by
  rcases z.sub_spec other with ⟨k, exceeded, before, failedAt⟩ | covers
  · rw [failedAt, Option.some.injEq] at failed
    exact ⟨k, exceeded, before, failed.symm⟩
  · rw [ZKCounters.sub_eq_of_le covers] at failed
    cases failed

def batchResourceError : Fin 9 → BatchRemainingResourcesUnderflowError :=
  Fin.cons errBatchResourceBytesUnderflow fun k =>
    newBatchRemainingResourcesUnderflowError (some (zkCounterError k)) (zkCounterError k).error

theorem BatchResources.sub_eq (r other : BatchResources) :
    r.sub other =
      if other.bytes > r.bytes then (r, some errBatchResourceBytesUnderflow)
      else match r.zkCounters.sub other.zkCounters with
        | (zkCounters, some err) =>
          (⟨zkCounters, r.bytes⟩, some (newBatchRemainingResourcesUnderflowError (some err) err.error))
        | (zkCounters, none) => (⟨zkCounters, r.bytes - other.bytes⟩, none) := by
  unfold BatchResources.sub
  split_ifs
  · rfl
  · dsimp only
    rcases r.zkCounters.sub other.zkCounters with ⟨zkCounters, _ | err⟩ <;> rfl

theorem BatchResources.sub_eq_none_iff (r other : BatchResources) :
    (r.sub other).2 = none ↔ ∀ k, other.amounts k ≤ r.amounts k := by
  rw [Fin.forall_fin_succ]
  simp only [BatchResources.amounts, Fin.cons_zero, Fin.cons_succ]
  rw [← ZKCounters.sub_eq_none_iff, BatchResources.sub_eq]
  by_cases exceeds : other.bytes > r.bytes
  · have exceeded : r.bytes.toNat < other.bytes.toNat := UInt64.lt_iff_toNat_lt.mp exceeds
    simp only [if_pos exceeds, reduceCtorEq, false_iff, not_and]
    omega
  · have covers : other.bytes.toNat ≤ r.bytes.toNat := by simpa [UInt64.lt_iff_toNat_lt] using exceeds
    rw [if_neg exceeds]
    rcases r.zkCounters.sub other.zkCounters with ⟨zkCounters, _ | err⟩ <;> simp [covers]

theorem BatchResources.sub_of_isSome {r other : BatchResources} (failed : (r.sub other).2.isSome) :
    (r.sub other).1 = r := by
  rw [BatchResources.sub_eq] at failed ⊢
  split_ifs at failed ⊢ with exceeds
  · rfl
  · rcases counters : r.zkCounters.sub other.zkCounters with ⟨zkCounters, _ | err⟩
    · simp [counters] at failed
    · -- the bytes are put back, and the failed `ZKCounters.Sub` left the counters as they were
      have kept : zkCounters = r.zkCounters := by
        simpa [counters] using @ZKCounters.sub_of_isSome r.zkCounters other.zkCounters (by simp [counters])
      simp [kept]

theorem BatchResources.amounts_sub {r other : BatchResources} (succeeded : (r.sub other).2 = none) :
    ∀ k, (r.sub other).1.amounts k = r.amounts k - other.amounts k := by
  have covers := (r.sub_eq_none_iff other).mp succeeded
  rw [Fin.forall_fin_succ] at covers ⊢
  simp only [BatchResources.amounts, Fin.cons_zero, Fin.cons_succ] at covers ⊢
  rw [← ZKCounters.sub_eq_none_iff] at covers
  rw [BatchResources.sub_eq]
  have fits : ¬ other.bytes > r.bytes := by simpa [UInt64.lt_iff_toNat_lt] using covers.1
  rw [if_neg fits]
  have counted := ZKCounters.amounts_sub covers.2
  rcases counters : r.zkCounters.sub other.zkCounters with ⟨zkCounters, _ | err⟩
  · rw [counters] at counted
    exact ⟨UInt64.toNat_sub_of_le _ _ (UInt64.le_iff_toNat_le.mpr covers.1), counted⟩
  · simp [counters] at covers

/-- The error of `BatchResources.Sub` is the one of the first resource that
`other` exceeds. -/
theorem BatchResources.sub_eq_some {r other : BatchResources} {err : BatchRemainingResourcesUnderflowError}
    (failed : (r.sub other).2 = some err) :
    ∃ k, r.amounts k < other.amounts k ∧ (∀ j < k, other.amounts j ≤ r.amounts j) ∧
      err = batchResourceError k := by
  rw [BatchResources.sub_eq] at failed
  split_ifs at failed with exceeds
  · cases failed
    exact ⟨0, by simpa [BatchResources.amounts, UInt64.lt_iff_toNat_lt] using exceeds, nofun, rfl⟩
  · rcases counters : r.zkCounters.sub other.zkCounters with ⟨zkCounters, _ | zkErr⟩
    · simp [counters] at failed
    · simp only [counters, Option.some.injEq] at failed
      obtain ⟨k, exceeded, before, named⟩ := ZKCounters.sub_eq_some (by rw [counters])
      refine ⟨k.succ, by simpa [BatchResources.amounts] using exceeded, fun j below => ?_, ?_⟩
      · cases j using Fin.cases with
        | zero => simpa [BatchResources.amounts, UInt64.lt_iff_toNat_lt] using exceeds
        | succ j => simpa [BatchResources.amounts] using before j (Fin.succ_lt_succ_iff.mp below)
      · rw [← failed, named]
        rfl

/-- `BatchResources.Sub` is all or nothing: it fails exactly when `other`
exceeds `r` in some resource, and then leaves `r` as it was; otherwise every
resource is subtracted from one at least as large. -/
theorem BatchResources.sub_all_or_nothing (r other : BatchResources) :
    ((r.sub other).2.isSome ↔ ∃ k, r.amounts k < other.amounts k) ∧
      ((r.sub other).2.isSome → (r.sub other).1 = r) ∧
      ((r.sub other).2 = none →
        ∀ k, other.amounts k ≤ r.amounts k ∧ (r.sub other).1.amounts k = r.amounts k - other.amounts k) := by
  refine ⟨?_, BatchResources.sub_of_isSome, fun succeeded k =>
    ⟨(r.sub_eq_none_iff other).mp succeeded k, BatchResources.amounts_sub succeeded k⟩⟩
  rw [← Option.ne_none_iff_isSome, Ne, BatchResources.sub_eq_none_iff]
  simp only [not_forall, not_le]

end ZkevmNode.State
