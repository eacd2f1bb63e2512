import ZkevmNode.Lib.Loop
import Mathlib

set_option autoImplicit false

/-! `State.EstimateGas` (`state/transaction.go`) from the probe at the high end
on: `testTransaction` runs the transaction with a given gas limit on the
executor, and a binary search narrows `[lowEnd, highEnd]` until the gap is at
most 4096. The executor is a function from the gas limit to its answer. The high
end comes from the gas `TxArgs.ToTransaction` (`jsonrpc/types/types.go`) puts in
the transaction, capped by the sender's allowance. -/

namespace ZkevmNode.State

/-- A ROM error, as `isGasEVMError`, `isGasApplyError` and `isEVMRevertError`
classify it. -/
inductive RomError (ε : Type) where
  /-- `runtime.ErrOutOfGas` or `ErrNotEnoughIntrinsicGas`. -/
  | outOfGas (err : ε)
  /-- `runtime.ErrExecutionReverted`. -/
  | reverted (err : ε)
  | other (err : ε)
deriving DecidableEq, Repr

/-- What one run of the transaction on the executor gives `testTransaction`. -/
inductive ExecutorAnswer (ε : Type) where
  /-- `EncodeUnsignedTransaction` or `ProcessBatch` returned an error. -/
  | callFailed (err : ε)
  /-- The response's `Error` is not `EXECUTOR_ERROR_NO_ERROR`. -/
  | executorError (err : ε) (gasUsed : UInt64)
  /-- The transaction's response has a ROM error. -/
  | romError (err : RomError ε) (gasUsed : UInt64) (returnValue : List UInt8)
  | processed (gasUsed : UInt64)
deriving DecidableEq, Repr

/-- The error `testTransaction` returns. -/
inductive ProbeError (ε : Type) where
  /-- An error returned as it is. -/
  | err (e : ε)
  /-- `constructErrorFromRevert(err, returnValue)`. -/
  | revert (e : ε) (returnValue : List UInt8)
deriving DecidableEq, Repr

/-- The errors `EstimateGas` returns once it probes. -/
inductive EstimateGasError (ε : Type) where
  | probe (err : ProbeError ε)
  /-- "unable to apply transaction even for the highest gas limit %d: %w". -/
  | unableToApply (highEnd : UInt64) (err : Option (ProbeError ε))
deriving DecidableEq, Repr

/-- What `testTransaction` returns: `failed`, `reverted`, `gasUsed`,
`returnValue` and `err`. -/
structure TestOutcome (ε : Type) where
  failed : Bool
  reverted : Bool
  gasUsed : UInt64
  returnValue : List UInt8
  err : Option (ProbeError ε)
deriving DecidableEq, Repr

section Search

variable {ε : Type}

/-- `testTransaction(gas, shouldOmitErr)` on the executor's answer. -/
def testTransaction (answer : ExecutorAnswer ε) (shouldOmitErr : Bool) : TestOutcome ε :=
  match answer with
  -- `gasUsed` is the named result, still zero
  | .callFailed err => ⟨false, false, 0, [], some (.err err)⟩
  | .executorError err gasUsed => ⟨false, false, gasUsed, [], some (.err err)⟩
  | .romError romErr gasUsed returnValue =>
    match romErr with
    | .outOfGas err =>
      if shouldOmitErr then ⟨true, false, gasUsed, [], none⟩
      else ⟨true, false, gasUsed, [], some (.err err)⟩
    | .reverted err => ⟨true, true, gasUsed, returnValue, some (.revert err returnValue)⟩
    | .other err => ⟨true, false, gasUsed, [], some (.err err)⟩
  | .processed gasUsed => ⟨false, false, gasUsed, [], none⟩

/-- The bounds of the binary search. -/
structure Bounds where
  lowEnd : UInt64
  highEnd : UInt64
deriving DecidableEq, Repr

/-- The loop condition `(lowEnd < highEnd) && (highEnd-lowEnd) > 4096`. -/
def Bounds.searching (b : Bounds) : Bool :=
  b.lowEnd < b.highEnd && b.highEnd - b.lowEnd > 4096

variable (executor : UInt64 → ExecutorAnswer ε)

/-- One round of the binary search: probe `mid`, return on an error that is not
a revert, and otherwise move the bound the probe decides. -/
def searchRound (b : Bounds) : Except (ProbeError ε) Bounds :=
  let mid := (b.lowEnd + b.highEnd) / 2
  let t := testTransaction (executor mid) true
  match t.err, t.reverted with
  | some testErr, false => .error testErr
  | _, _ => .ok (if t.failed then ⟨mid + 1, b.highEnd⟩ else ⟨b.lowEnd, mid⟩)

/-- `EstimateGas` from the probe at `highEnd` on: the estimate, the return value
of a revert, and the error. -/
def estimateGasSearch (lowEnd highEnd : UInt64) (fuel : Nat) :
    Option (UInt64 × List UInt8 × Option (EstimateGasError ε)) :=
  let t := testTransaction (executor highEnd) false
  if t.failed then
    if t.reverted then some (0, t.returnValue, t.err.map .probe)
    else some (0, [], some (.unableToApply highEnd t.err))
  else
    let lowEnd := if lowEnd < t.gasUsed then t.gasUsed else lowEnd
    (Loop.tryRun Bounds.searching (searchRound executor) fuel ⟨lowEnd, highEnd⟩).map fun
      | .error testErr => (0, [], some (.probe testErr))
      | .ok b => (b.highEnd, [], none)

end Search

/-- The gas of the transaction `TxArgs.ToTransaction` builds: the requested gas
when it is positive and below `maxCumulativeGasUsed`, else `maxCumulativeGasUsed`. -/
def toTransactionGas (gas : Option UInt64) (maxCumulativeGasUsed : UInt64) : UInt64 :=
  match gas with
  | some gas => if gas > 0 ∧ gas < maxCumulativeGasUsed then gas else maxCumulativeGasUsed
  | none => maxCumulativeGasUsed

/-- The high end `EstimateGas` starts from: the transaction's gas when it is set
and above the intrinsic gas, else `MaxCumulativeGasUsed`, capped by the sender's
gas allowance when one is computed and fits in a `uint64`. -/
def initialHighEnd (txGas lowEnd maxCumulativeGasUsed : UInt64) (gasAllowance : Option UInt64) : UInt64 :=
  let highEnd := if txGas ≠ 0 ∧ txGas > lowEnd then txGas else maxCumulativeGasUsed
  match gasAllowance with
  | some allowance => if highEnd > allowance then allowance else highEnd
  | none => highEnd

section Spec

variable {ε : Type}

/-- A probe passes when the executor processes the transaction without error. -/
def passes (executor : UInt64 → ExecutorAnswer ε) (gas : UInt64) : Bool :=
  match executor gas with
  | .processed _ => true
  | _ => false

def abortError : ExecutorAnswer ε → Option ε
  | .callFailed err | .executorError err _ | .romError (.other err) _ _ => some err
  | _ => none

variable {executor : UInt64 → ExecutorAnswer ε}

theorem searchRound_eq_ok {b b' : Bounds} (rounded : searchRound executor b = .ok b') :
    (passes executor ((b.lowEnd + b.highEnd) / 2) = true ∧ b' = ⟨b.lowEnd, (b.lowEnd + b.highEnd) / 2⟩) ∨
      (passes executor ((b.lowEnd + b.highEnd) / 2) = false ∧
        b' = ⟨(b.lowEnd + b.highEnd) / 2 + 1, b.highEnd⟩) := by
  simp only [searchRound] at rounded
  cases answer : executor ((b.lowEnd + b.highEnd) / 2) with
  | processed gasUsed =>
    simp [answer, testTransaction] at rounded
    simp [passes, answer, rounded]
  | romError err gasUsed returnValue =>
    cases err <;> simp [answer, testTransaction] at rounded <;> simp [passes, answer, rounded]
  | callFailed err => simp [answer, testTransaction] at rounded
  | executorError err gasUsed => simp [answer, testTransaction] at rounded

theorem searchRound_eq_error {b : Bounds} {e : ProbeError ε} (rounded : searchRound executor b = .error e) :
    ∃ err, e = .err err ∧ abortError (executor ((b.lowEnd + b.highEnd) / 2)) = some err := by
  simp only [searchRound] at rounded
  cases answer : executor ((b.lowEnd + b.highEnd) / 2) with
  | processed gasUsed => simp [answer, testTransaction] at rounded
  | romError err gasUsed returnValue =>
    cases err <;> simp [answer, testTransaction] at rounded
    exact ⟨_, rounded.symm, by simp [abortError]⟩
  | callFailed err =>
    simp [answer, testTransaction] at rounded
    exact ⟨_, rounded.symm, rfl⟩
  | executorError err gasUsed =>
    simp [answer, testTransaction] at rounded
    exact ⟨_, rounded.symm, rfl⟩

theorem mid_toNat {l h : UInt64} (bounded : h.toNat < 2 ^ 63) (below : l.toNat < h.toNat) :
    ((l + h) / 2).toNat = (l.toNat + h.toNat) / 2 := by
  rw [UInt64.toNat_div, UInt64.toNat_add, Nat.mod_eq_of_lt (by omega)]
  rfl

theorem searching_iff (b : Bounds) :
    b.searching = true ↔ b.lowEnd.toNat < b.highEnd.toNat ∧ 4096 < b.highEnd.toNat - b.lowEnd.toNat := by
  simp only [Bounds.searching, Bool.and_eq_true, decide_eq_true_eq, UInt64.lt_iff_toNat_lt]
  constructor
  · rintro ⟨below, wide⟩
    rw [UInt64.toNat_sub_of_le _ _ (UInt64.le_of_lt below)] at wide
    exact ⟨below, by simpa using wide⟩
  · rintro ⟨below, wide⟩
    refine ⟨below, ?_⟩
    rw [UInt64.toNat_sub_of_le _ _ (UInt64.le_of_lt (UInt64.lt_iff_toNat_lt.mpr below))]
    simpa using wide

variable (executor) (lowEnd highEnd : UInt64)

/-- What the search keeps: its high end passes and is at most the one it
started from, its low end is at least the one it started from, and no gas from
`lowEnd` to below its low end passes. -/
structure SearchInv (b : Bounds) : Prop where
  passes_highEnd : passes executor b.highEnd = true
  highEnd_le : b.highEnd.toNat ≤ highEnd.toNat
  lowEnd_le : lowEnd.toNat ≤ b.lowEnd.toNat
  fails_below : ∀ g : UInt64, lowEnd.toNat ≤ g.toNat → g.toNat < b.lowEnd.toNat → passes executor g = false

variable {executor lowEnd highEnd}

theorem SearchInv.round (monotone : ∀ g g' : UInt64, passes executor g = true → g ≤ g' → passes executor g' = true)
    (bounded : highEnd.toNat < 2 ^ 63) {b b' : Bounds} (inv : SearchInv executor lowEnd highEnd b)
    (go : b.searching = true) (rounded : searchRound executor b = .ok b') :
    SearchInv executor lowEnd highEnd b' ∧
      b'.highEnd.toNat - b'.lowEnd.toNat ≤ (b.highEnd.toNat - b.lowEnd.toNat) / 2 := by
  obtain ⟨below, wide⟩ := (searching_iff b).mp go
  have capped := inv.highEnd_le
  have mid := mid_toNat (Nat.lt_of_le_of_lt capped bounded) below
  rcases searchRound_eq_ok rounded with ⟨passed, rfl⟩ | ⟨failed, rfl⟩
  · -- `mid` passes: it becomes the high end
    exact ⟨⟨passed, by simp only; omega, inv.lowEnd_le, inv.fails_below⟩, by simp only; omega⟩
  · -- `mid` fails, and so does every gas below it: the low end moves above it
    have next : ((b.lowEnd + b.highEnd) / 2 + 1).toNat = ((b.lowEnd + b.highEnd) / 2).toNat + 1 := by
      rw [UInt64.toNat_add, Nat.mod_eq_of_lt (by simp only [UInt64.toNat_one]; omega)]
      rfl
    have raised := inv.lowEnd_le
    refine ⟨⟨inv.passes_highEnd, inv.highEnd_le, by simp only; omega, fun g low under => ?_⟩,
      by simp only; omega⟩
    by_cases older : g.toNat < b.lowEnd.toNat
    · exact inv.fails_below g low older
    · cases passing : passes executor g with
      | false => rfl
      | true =>
        have reaches := monotone g ((b.lowEnd + b.highEnd) / 2) passing
          (UInt64.le_iff_toNat_le.mpr (by simp only at under; omega))
        rw [failed] at reaches
        cases reaches

/-- Where the search stops, its high end is at most 4096 above every passing
gas from its start on. -/
theorem SearchInv.le_passing {t : Bounds} (inv : SearchInv executor lowEnd highEnd t)
    (stop : t.searching = false) {g : UInt64} (low : lowEnd.toNat ≤ g.toNat) (passing : passes executor g = true) :
    t.highEnd.toNat ≤ g.toNat + 4096 := by
  -- a passing gas is not below the low end, and the search has narrowed to 4096
  have above : t.lowEnd.toNat ≤ g.toNat := by
    refine Nat.le_of_not_lt fun under => ?_
    have failing := inv.fails_below g low under
    rw [passing] at failing
    cases failing
  have narrow : t.highEnd.toNat ≤ t.lowEnd.toNat + 4096 := by
    refine Nat.le_of_not_lt fun wide => ?_
    have going := (searching_iff t).mpr ⟨by omega, by omega⟩
    rw [stop] at going
    cases going
  omega

/-- The gas a round probes lies from the start of the search to below its high end. -/
theorem SearchInv.mid_within (bounded : highEnd.toNat < 2 ^ 63) {b : Bounds}
    (inv : SearchInv executor lowEnd highEnd b) (go : b.searching = true) :
    lowEnd.toNat ≤ ((b.lowEnd + b.highEnd) / 2).toNat ∧ ((b.lowEnd + b.highEnd) / 2).toNat < highEnd.toNat := by
  obtain ⟨below, -⟩ := (searching_iff b).mp go
  have low := inv.lowEnd_le
  have high := inv.highEnd_le
  rw [mid_toNat (Nat.lt_of_le_of_lt high bounded) below]
  omega

/-- The measure of the search: the number of halvings left in the gap. -/
def Bounds.halvings (b : Bounds) : Nat := Nat.log 2 (b.highEnd.toNat - b.lowEnd.toNat)

theorem log_lt_of_halved {gap gap' : Nat} (halved : gap' ≤ gap / 2) (wide : 4096 < gap) :
    Nat.log 2 gap' < Nat.log 2 gap :=
  calc Nat.log 2 gap' ≤ Nat.log 2 (gap / 2) := Nat.log_mono_right halved
    _ = Nat.log 2 gap - 1 := Nat.log_div_base 2 gap
    _ < Nat.log 2 gap := Nat.sub_lt (Nat.log_pos (by omega) (by omega)) Nat.one_pos

theorem halvings_lt (b : Bounds) (bounded : b.highEnd.toNat < 2 ^ 63) : b.halvings < 63 := by
  unfold Bounds.halvings
  by_cases empty : b.highEnd.toNat - b.lowEnd.toNat = 0
  · rw [empty, Nat.log_zero_right]
    omega
  · exact Nat.log_lt_of_lt_pow empty (by omega)

theorem toTransactionGas_le (gas : Option UInt64) (maxCumulativeGasUsed : UInt64) :
    (toTransactionGas gas maxCumulativeGasUsed).toNat ≤ maxCumulativeGasUsed.toNat := by
  unfold toTransactionGas
  split
  · split_ifs with fits
    · exact Nat.le_of_lt (UInt64.lt_iff_toNat_lt.mp fits.2)
    · exact Nat.le_refl _
  · exact Nat.le_refl _

theorem initialHighEnd_le (txGas lowEnd maxCumulativeGasUsed : UInt64) (gasAllowance : Option UInt64) :
    (initialHighEnd txGas lowEnd maxCumulativeGasUsed gasAllowance).toNat ≤
      max txGas.toNat maxCumulativeGasUsed.toNat := by
  have start : (if txGas ≠ 0 ∧ txGas > lowEnd then txGas else maxCumulativeGasUsed).toNat ≤
      max txGas.toNat maxCumulativeGasUsed.toNat := by
    split <;> omega
  dsimp only [initialHighEnd]
  generalize (if txGas ≠ 0 ∧ txGas > lowEnd then txGas else maxCumulativeGasUsed) = highEnd at start ⊢
  cases gasAllowance with
  | none => exact start
  | some allowance =>
    dsimp only
    split_ifs with capped
    · have := UInt64.lt_iff_toNat_lt.mp capped
      omega
    · exact start

theorem initialHighEnd_lt {gas : Option UInt64} {rpcMaxCumulativeGasUsed stateMaxCumulativeGasUsed : UInt64}
    (rpcBound : rpcMaxCumulativeGasUsed.toNat < 2 ^ 63) (stateBound : stateMaxCumulativeGasUsed.toNat < 2 ^ 63)
    (lowEnd : UInt64) (gasAllowance : Option UInt64) :
    (initialHighEnd (toTransactionGas gas rpcMaxCumulativeGasUsed) lowEnd stateMaxCumulativeGasUsed
      gasAllowance).toNat < 2 ^ 63 := by
  have requested := toTransactionGas_le gas rpcMaxCumulativeGasUsed
  have started := initialHighEnd_le (toTransactionGas gas rpcMaxCumulativeGasUsed) lowEnd
    stateMaxCumulativeGasUsed gasAllowance
  omega

theorem raised_toNat (lowEnd gasUsed : UInt64) :
    (if lowEnd < gasUsed then gasUsed else lowEnd).toNat = max lowEnd.toNat gasUsed.toNat := by
  split_ifs with raised
  · have := UInt64.lt_iff_toNat_lt.mp raised
    omega
  · have := UInt64.lt_iff_toNat_lt.not.mp raised
    omega

end Spec

section Estimate

variable {ε : Type}

/-- Gas estimation is sound, near-optimal and ends. Against an executor whose
passing probes are monotone in the gas limit, from a high end that
`ToTransaction` and the allowance produce (below `2^63`, as both
`MaxCumulativeGasUsed` are) and at which the probe passes having used `gasUsed`:
with fuel for 64 rounds, `EstimateGas` returns either an estimate that passes, is
at most the high end, and is at most 4096 above every passing gas from the low
end raised to `gasUsed` on; or the error of the probe of a round the search
reached, at a gas from the raised low end to below the high end, that aborts. -/
theorem estimateGasSearch_near_optimal (executor : UInt64 → ExecutorAnswer ε)
    (monotone : ∀ g g' : UInt64, passes executor g = true → g ≤ g' → passes executor g' = true)
    (gas : Option UInt64) (rpcMaxCumulativeGasUsed stateMaxCumulativeGasUsed : UInt64)
    (rpcBound : rpcMaxCumulativeGasUsed.toNat < 2 ^ 63) (stateBound : stateMaxCumulativeGasUsed.toNat < 2 ^ 63)
    (lowEnd : UInt64) (gasAllowance : Option UInt64) (highEnd gasUsed : UInt64)
    (produced : highEnd = initialHighEnd (toTransactionGas gas rpcMaxCumulativeGasUsed) lowEnd
      stateMaxCumulativeGasUsed gasAllowance)
    (highEndOk : executor highEnd = .processed gasUsed) (fuel : Nat) (enough : 64 ≤ fuel) :
    ∃ r, estimateGasSearch executor lowEnd highEnd fuel = some r ∧
      ((∃ h, r = (h, [], none) ∧ passes executor h = true ∧ h ≤ highEnd ∧
          ∀ g, lowEnd ≤ g → gasUsed ≤ g → passes executor g = true → h.toNat ≤ g.toNat + 4096) ∨
        ∃ b err, Loop.Reaches Bounds.searching (searchRound executor)
            ⟨if lowEnd < gasUsed then gasUsed else lowEnd, highEnd⟩ b ∧ b.searching = true ∧
          lowEnd ≤ (b.lowEnd + b.highEnd) / 2 ∧ gasUsed ≤ (b.lowEnd + b.highEnd) / 2 ∧
          (b.lowEnd + b.highEnd) / 2 < highEnd ∧
          r = (0, [], some (.probe (.err err))) ∧ abortError (executor ((b.lowEnd + b.highEnd) / 2)) = some err) := by
  have bounded : highEnd.toNat < 2 ^ 63 := produced ▸ initialHighEnd_lt rpcBound stateBound lowEnd gasAllowance
  -- the probe at the high end passes, and the search starts from the raised low end
  let start : Bounds := ⟨if lowEnd < gasUsed then gasUsed else lowEnd, highEnd⟩
  have raised := raised_toNat lowEnd gasUsed
  have inv₀ : SearchInv executor start.lowEnd highEnd start :=
    ⟨by simp [start, passes, highEndOk], Nat.le_refl _, Nat.le_refl _, fun g low below => absurd below (by omega)⟩
  have preserved : ∀ b b', SearchInv executor start.lowEnd highEnd b → b.searching = true →
      searchRound executor b = .ok b' → SearchInv executor start.lowEnd highEnd b' :=
    fun _ _ inv go rounded => (inv.round monotone bounded go rounded).1
  have ended : (Loop.tryRun Bounds.searching (searchRound executor) fuel start).isSome :=
    Loop.tryRun_isSome Bounds.halvings
    (fun b b' inv go rounded =>
      have next := inv.round monotone bounded go rounded
      ⟨next.1, log_lt_of_halved next.2 ((searching_iff b).mp go).2⟩)
    inv₀ (by have := halvings_lt start bounded; omega)
  have unfolded : estimateGasSearch executor lowEnd highEnd fuel =
      (Loop.tryRun Bounds.searching (searchRound executor) fuel start).map fun
        | .error testErr => (0, [], some (.probe testErr))
        | .ok b => (b.highEnd, [], none) := by
    simp only [estimateGasSearch, highEndOk, testTransaction, Bool.false_eq_true, if_false]
    rfl
  obtain ⟨r, ran⟩ := Option.isSome_iff_exists.mp ended
  rw [ran, Option.map_some] at unfolded
  rcases Loop.tryRun_spec preserved inv₀ ran with ⟨t, rfl, inv, stop⟩ | ⟨t, e, rfl, -, -, rounded⟩
  · refine ⟨_, unfolded, Or.inl ⟨t.highEnd, rfl, inv.passes_highEnd,
      UInt64.le_iff_toNat_le.mpr inv.highEnd_le, fun g low used passing => inv.le_passing stop ?_ passing⟩⟩
    simp only [start, raised, UInt64.le_iff_toNat_le] at low used ⊢
    omega
  · -- the aborting probe is the one of a round the search reached, inside its bounds
    obtain ⟨b, reaches, going, failed⟩ := Loop.tryRun_error_reaches ran
    obtain ⟨err, rfl, aborted⟩ := searchRound_eq_error failed
    obtain ⟨low, high⟩ := (reaches.invariant preserved inv₀).mid_within bounded going
    simp only [start, raised] at low
    refine ⟨_, unfolded, Or.inr ⟨b, err, reaches, going, ?_, ?_, ?_, rfl, aborted⟩⟩ <;>
      simp only [UInt64.le_iff_toNat_le, UInt64.lt_iff_toNat_lt] <;> omega

/-- An executor under which the transaction needs 50000 gas and uses 21000. -/
def thresholdExecutor (gas : UInt64) : ExecutorAnswer Unit :=
  if gas < 50000 then .romError (.outOfGas ()) gas [] else .processed 21000

theorem passes_thresholdExecutor (gas : UInt64) :
    passes thresholdExecutor gas = decide (50000 ≤ gas.toNat) := by
  unfold passes thresholdExecutor
  split_ifs with low
  · simpa [UInt64.lt_iff_toNat_lt] using low
  · simpa [UInt64.lt_iff_toNat_lt] using low

theorem thresholdExecutor_monotone (g g' : UInt64) (passing : passes thresholdExecutor g = true)
    (le : g ≤ g') : passes thresholdExecutor g' = true := by
  rw [passes_thresholdExecutor, decide_eq_true_eq] at passing ⊢
  exact Nat.le_trans passing (UInt64.le_iff_toNat_le.mp le)

theorem estimateGasSearch_near_optimal_sample :
    ∃ h, estimateGasSearch thresholdExecutor 21000 30000000 64 = some (h, [], none) ∧
      50000 ≤ h.toNat ∧ h.toNat ≤ 54096 := by
  obtain ⟨r, ran, ⟨h, rfl, passing, -, near⟩ | ⟨b, err, aborted⟩⟩ :=
    estimateGasSearch_near_optimal thresholdExecutor thresholdExecutor_monotone none 30000000 30000000
      (by decide) (by decide) 21000 none 30000000 21000 (by decide) (by decide) 64 (by decide)
  · rw [passes_thresholdExecutor, decide_eq_true_eq] at passing
    exact ⟨h, ran, passing, near 50000 (by decide) (by decide) (by decide)⟩
  · -- the executor only runs out of gas or passes, so no probe aborts
    obtain ⟨-, -, -, -, -, -, aborted⟩ := aborted
    unfold thresholdExecutor at aborted
    split_ifs at aborted <;> cases aborted

end Estimate

end ZkevmNode.State
