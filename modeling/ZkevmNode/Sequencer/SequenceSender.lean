import ZkevmNode.Lib.Loop
import ZkevmNode.Etherman.Errors
import ZkevmNode.Ethtxmanager.Client

set_option autoImplicit false

/-! The sequence sender (`sequencer/sequencesender.go`). `getSequencesToSend`
builds the sequences of the closed batches after the last virtual one, one
batch at a time, and estimates after each the L1 transaction that would send
them all; it stops at the batch still open, or at the first batch with which
the estimate fails, and then decides whether the sequences are worth sending
yet. `tryToSendSequence` hands the sequences it gets to the eth tx manager,
as one monitored tx named after the first and last batch. The answers of the
state, of the etherman and of the clock are an environment, the same for the
whole call; so the estimate is a function of the sequences. -/

namespace ZkevmNode.Sequencer

open Etherman

/-- A `time.Time`, by its nanoseconds from the Unix epoch. -/
structure Time where
  nanos : Int
deriving DecidableEq, Repr

namespace Time

/-- `time.Time{}`, January 1 of year 1, UTC. -/
def zero : Time := ⟨-62135596800 * 1000000000⟩

/-- `Unix`: the seconds from the epoch, rounded down. -/
def unix (t : Time) : Int64 := Int64.ofInt (t.nanos / 1000000000)

/-- `Add`, of a `time.Duration` in nanoseconds. -/
def add (t : Time) (d : Int) : Time := ⟨t.nanos + d⟩

def before (t u : Time) : Bool := decide (t.nanos < u.nanos)

end Time

/-- `state.Batch`, the fields the sequence sender reads. -/
structure Batch (H : Type) where
  batchNumber : Nat
  globalExitRoot : H
  batchL2Data : List UInt8
  timestamp : Time
  forcedBatchNum : Option Nat

/-- `types.Sequence`, the fields the sequence sender sets; the roots and the
accumulated input hash stay zero. -/
structure Sequence (H : Type) where
  globalExitRoot : H
  timestamp : Int64
  batchL2Data : List UInt8
  batchNumber : Nat
  forcedBatchTimestamp : Int64
deriving DecidableEq, Repr

/-- The sequencer's `Config`, its fields the sequence sender reads. -/
structure Config where
  maxTxSizeForL1 : Nat
  /-- A `time.Duration`, in nanoseconds. -/
  lastBatchVirtualizationTimeMaxWaitPeriod : Int

/-- The answers the sequence sender gets. `getTimeForLatestBatchVirtualization`
fails with `none` for `ErrNotFound`. `sequenceBatches` is the contract call
of `EstimateGasSequenceBatches`, which builds the transaction without sending
it: its size, or the error of the call before it is parsed. -/
structure Env (ε H : Type) where
  getLastVirtualBatchNum : Except ε Nat
  isBatchClosed : Nat → Except ε Bool
  getBatchByNumber : Nat → Except ε (Batch H)
  /-- `ForcedAt` of the forced batch `GetForcedBatch` returns. -/
  getForcedBatch : Nat → Except ε Time
  sequenceBatches : List (Sequence H) → Except Error Nat
  getTimeForLatestBatchVirtualization : Except (Option ε) Time
  getLastBatchTimestamp : Except Error UInt64
  now : Time
  getLastBatchNumber : Except ε Nat
  /-- `GetLatestBatchNumber` of the etherman: the last batch sequenced on L1. -/
  getLatestBatchNumber : Except Error Nat
  /-- `BuildSequenceBatchesTxData` with the sender: the address and data of
  the transaction. -/
  buildSequenceBatchesTxData : List (Sequence H) → Except Error (Option Go.Address × List UInt8)

/-- The error `handleEstimateGasSendSequenceErr` handles: the etherman's, or
`txpool.ErrOversizedData` for a transaction over `MaxTxSizeForL1`. -/
inductive EstimateError where
  | etherman (err : Error)
  | oversizedData
deriving DecidableEq, Repr

/-- The error `getSequencesToSend` returns. -/
inductive SequencesError (ε : Type) where
  /-- `failed to get last virtual batch num, err: %w`. -/
  | lastVirtualBatchNum (err : ε)
  | state (err : ε)
  | etherman (err : Error)
deriving DecidableEq, Repr

/-- What `getSequencesToSend` returns: the slice, `none` when it is nil, and
the error. -/
abbrev Sequences (ε H : Type) := Option (List (Sequence H)) × Option (SequencesError ε)

variable {ε H : Type}

/-- `isDataForEthTxTooBig`. -/
def isDataForEthTxTooBig (err : EstimateError) : Bool :=
  err = .etherman .gasRequiredExceedsAllowance || err = .oversizedData ||
    err = .etherman .contentLengthTooLarge

/-- The loop of `handleEstimateGasSendSequenceErr` over the sequences against
the contract's `lastTimestamp`: whether it ends without `log.Fatalf`. -/
def checkTimestamps : UInt64 → List (Sequence H) → Bool
  | _, [] => true
  | lastTimestamp, seq :: sequences =>
    if seq.timestamp < lastTimestamp.toInt64 then false
    else checkTimestamps seq.timestamp.toUInt64 sequences

/-- `handleEstimateGasSendSequenceErr`; `log.Fatalf`, which stops the process,
is `.panics`. The sequences always end with the one just added, which
`sequences[:len(sequences)-1]` removes. -/
def handleEstimateGasSendSequenceErr (getLastBatchTimestamp : Except Error UInt64)
    (sequences : List (Sequence H)) (err : EstimateError) : Outcome (Sequences ε H) :=
  if err = .etherman .insufficientAllowance then .returns (none, some (.etherman .insufficientAllowance))
  else if isDataForEthTxTooBig err then .returns (some sequences.dropLast, none)
  else if err = .etherman .timestampMustBeInsideRange then
    match getLastBatchTimestamp with
    | .error err => .returns (none, some (.etherman err))
    -- the block timestamp read next is only logged
    | .ok lastTimestamp => if checkTimestamps lastTimestamp sequences then .returns (none, none) else .panics
  else .returns (some sequences.dropLast, none)

section Loop

variable (env : Env ε H) (cfg : Config) (order : List (List Char × Error))

/-- `EstimateGasSequenceBatches`: the contract call, its error parsed. -/
def estimateGasSequenceBatches (sequences : List (Sequence H)) : Except Error Nat :=
  (env.sequenceBatches sequences).mapError (parseError order)

/-- The estimate of the loop with its check of the size. -/
def estimate (sequences : List (Sequence H)) : Except EstimateError Unit :=
  match estimateGasSequenceBatches env order sequences with
  | .error err => .error (.etherman err)
  | .ok size => if size > cfg.maxTxSizeForL1 then .error .oversizedData else .ok ()

/-- The sequence of a batch: the loop's calls from `GetBatchByNumber` to
`GetForcedBatch`. -/
def sequenceOf (batchNumber : Nat) : Except ε (Sequence H) := do
  let batch ← env.getBatchByNumber batchNumber
  let seq : Sequence H :=
    ⟨batch.globalExitRoot, batch.timestamp.unix, batch.batchL2Data, batch.batchNumber, 0⟩
  match batch.forcedBatchNum with
  | none => pure seq
  | some forcedBatchNum =>
    let forcedAt ← env.getForcedBatch forcedBatchNum
    pure { seq with forcedBatchTimestamp := forcedAt.unix }

/-- Whether the sequences are sent once the loop has reached the open batch:
the last virtualization is older than the wait period, or its time cannot be
read. Without a virtualized batch the time is `time.Time{}`. -/
def lastVirtualizationDue : Bool :=
  let due (lastBatchVirtualizationTime : Time) : Bool :=
    lastBatchVirtualizationTime.before (env.now.add (-cfg.lastBatchVirtualizationTimeMaxWaitPeriod))
  match env.getTimeForLatestBatchVirtualization with
  | .ok lastBatchVirtualizationTime => due lastBatchVirtualizationTime
  | .error none => due Time.zero
  | .error (some _) => true

/-- What `getSequencesToSend` does after the loop. -/
def afterLoop (sequences : List (Sequence H)) : Sequences ε H :=
  if sequences.length = 0 then (none, none)
  else if lastVirtualizationDue env cfg then (some sequences, none)
  else (none, none)

/-- The error of the estimate made again of the sequences handled gracefully. -/
def reestimated (sequences : List (Sequence H)) : Option (SequencesError ε) :=
  match estimateGasSequenceBatches env order sequences with
  | .ok _ => none
  | .error err => some (.etherman err)

/-- How the loop ends when the estimate fails: what
`handleEstimateGasSendSequenceErr` returns, where the sequences it handles
gracefully are estimated again, this time without the check of the size. -/
def handled (sequences : List (Sequence H)) (err : EstimateError) : Outcome (Sequences ε H) :=
  match handleEstimateGasSendSequenceErr env.getLastBatchTimestamp sequences err with
  | .returns (some sequences, _) => .returns (some sequences, reestimated env order sequences)
  | outcome => outcome

/-- One round of the loop of `getSequencesToSend`, from the batch number to
sequence and the sequences so far: the next round, or how the function ends. -/
def sequencesStep (s : Nat × List (Sequence H)) : (Nat × List (Sequence H)) ⊕ Outcome (Sequences ε H) :=
  match env.isBatchClosed s.1 with
  | .error err => .inr (.returns (none, some (.state err)))
  -- the current (WIP) batch: the loop breaks
  | .ok false => .inr (.returns (afterLoop env cfg s.2))
  | .ok true =>
    match sequenceOf env s.1 with
    | .error err => .inr (.returns (none, some (.state err)))
    | .ok seq =>
      match estimate env cfg order (s.2 ++ [seq]) with
      | .ok () => .inl (s.1 + 1, s.2 ++ [seq])
      | .error err => .inr (handled env order (s.2 ++ [seq]) err)

/-- `getSequencesToSend`, its loop on fuel. -/
def getSequencesToSend (fuel : Nat) : Outcome (Sequences ε H) :=
  match env.getLastVirtualBatchNum with
  | .error err => .returns (none, some (.lastVirtualBatchNum err))
  | .ok lastVirtualBatchNum =>
    (Loop.forever (sequencesStep env cfg order) fuel (lastVirtualBatchNum + 1, [])).getD .outOfFuel

/-- The sequences are those of the closed batches from `first` on, in order. -/
def Sequenced (first : Nat) (sequences : List (Sequence H)) : Prop :=
  ∀ i (h : i < sequences.length),
    env.isBatchClosed (first + i) = .ok true ∧ sequenceOf env (first + i) = .ok sequences[i]

/-- The invariant of the loop after the last virtual batch `last`: the batch to
sequence is the one after the sequences so far, which are those of the closed
batches after `last` and pass the estimate together. -/
structure Building (last : Nat) (s : Nat × List (Sequence H)) : Prop where
  next : s.1 = last + 1 + s.2.length
  sequenced : Sequenced env (last + 1) s.2
  estimated : s.2 ≠ [] → estimate env cfg order s.2 = .ok ()

end Loop

theorem checkTimestamps_eq_true (lastTimestamp : UInt64) (sequences : List (Sequence H)) :
    checkTimestamps lastTimestamp sequences = true ↔
      List.IsChain (· ≤ ·) (lastTimestamp.toInt64 :: sequences.map (·.timestamp)) := by
  induction sequences generalizing lastTimestamp with
  | nil => simp [checkTimestamps]
  | cons seq sequences ih =>
    have later := ih seq.timestamp.toUInt64
    rw [Int64.toInt64_toUInt64] at later
    rw [List.map_cons, List.isChain_cons_cons, ← later]
    by_cases below : seq.timestamp < lastTimestamp.toInt64
    · simp [checkTimestamps, below, Int64.not_le.mpr below]
    · simp [checkTimestamps, below, Int64.not_lt.mp below]

section Handle

variable {getLastBatchTimestamp : Except Error UInt64} {sequences : List (Sequence H)}
  {err : EstimateError}

theorem handleEstimateGasSendSequenceErr_cases (getLastBatchTimestamp : Except Error UInt64)
    (sequences : List (Sequence H)) (err : EstimateError) :
    handleEstimateGasSendSequenceErr (ε := ε) getLastBatchTimestamp sequences err =
        .returns (none, some (.etherman .insufficientAllowance)) ∨
      handleEstimateGasSendSequenceErr (ε := ε) getLastBatchTimestamp sequences err =
        .returns (some sequences.dropLast, none) ∨
      (∃ e, handleEstimateGasSendSequenceErr (ε := ε) getLastBatchTimestamp sequences err =
        .returns (none, some (.etherman e))) ∨
      handleEstimateGasSendSequenceErr (ε := ε) getLastBatchTimestamp sequences err = .returns (none, none) ∨
      (err = .etherman .timestampMustBeInsideRange ∧
        (∃ lastTimestamp, getLastBatchTimestamp = .ok lastTimestamp ∧
          checkTimestamps lastTimestamp sequences = false) ∧
        handleEstimateGasSendSequenceErr (ε := ε) getLastBatchTimestamp sequences err = .panics) := by
  unfold handleEstimateGasSendSequenceErr
  by_cases allowance : err = .etherman .insufficientAllowance
  · exact .inl (if_pos allowance)
  rw [if_neg allowance]
  by_cases tooBig : isDataForEthTxTooBig err = true
  · exact .inr (.inl (if_pos tooBig))
  rw [if_neg tooBig]
  by_cases range : err = .etherman .timestampMustBeInsideRange
  · rw [if_pos range]
    cases getLastBatchTimestamp with
    | error e => exact .inr (.inr (.inl ⟨e, rfl⟩))
    | ok lastTimestamp =>
      cases checked : checkTimestamps lastTimestamp sequences with
      | true => exact .inr (.inr (.inr (.inl (by simp only [checked, if_true]))))
      | false => exact .inr (.inr (.inr (.inr ⟨range, ⟨lastTimestamp, rfl, checked⟩, by simp [checked]⟩)))
  · -- an unknown error: the last sequence is removed as for a transaction too big
    exact .inr (.inl (if_neg range))

theorem handleEstimateGasSendSequenceErr_some {sequences' : List (Sequence H)}
    {e : Option (SequencesError ε)}
    (handled : handleEstimateGasSendSequenceErr getLastBatchTimestamp sequences err =
      .returns (some sequences', e)) :
    sequences' = sequences.dropLast ∧ e = none := by
  rcases handleEstimateGasSendSequenceErr_cases (ε := ε) getLastBatchTimestamp sequences err with same | same | ⟨_, same⟩ | same | ⟨-, -, same⟩ <;>
    rw [same] at handled <;> simp only [Outcome.returns.injEq, Prod.mk.injEq, reduceCtorEq,
      Option.some.injEq, false_and] at handled
  exact ⟨handled.1.symm, handled.2.symm⟩

theorem handleEstimateGasSendSequenceErr_panics
    (stopped : handleEstimateGasSendSequenceErr (ε := ε) getLastBatchTimestamp sequences err = .panics) :
    err = .etherman .timestampMustBeInsideRange ∧
      ∃ lastTimestamp, getLastBatchTimestamp = .ok lastTimestamp ∧
        checkTimestamps lastTimestamp sequences = false := by
  rcases handleEstimateGasSendSequenceErr_cases (ε := ε) getLastBatchTimestamp sequences err with same | same | ⟨_, same⟩ | same | ⟨range, read, -⟩
  all_goals first | exact ⟨range, read⟩ | (rw [same] at stopped; cases stopped)

theorem handleEstimateGasSendSequenceErr_ne_outOfFuel :
    handleEstimateGasSendSequenceErr (ε := ε) getLastBatchTimestamp sequences err ≠ .outOfFuel := by
  rcases handleEstimateGasSendSequenceErr_cases (ε := ε) getLastBatchTimestamp sequences err with same | same | ⟨_, same⟩ | same | ⟨-, -, same⟩ <;>
    rw [same] <;> exact fun stuck => by cases stuck

end Handle

section Run

variable {env : Env ε H} {cfg : Config} {order : List (List Char × Error)}

theorem estimate_eq_ok {sequences : List (Sequence H)} :
    estimate env cfg order sequences = .ok () ↔
      ∃ size, estimateGasSequenceBatches env order sequences = .ok size ∧ size ≤ cfg.maxTxSizeForL1 := by
  unfold estimate
  cases estimateGasSequenceBatches env order sequences with
  | error err => simp
  | ok size =>
    by_cases fits : size ≤ cfg.maxTxSizeForL1
    · simp [fits, Nat.not_lt.mpr fits]
    · simp [fits, Nat.lt_of_not_le fits]

theorem sequenced_nil (first : Nat) : Sequenced env first [] :=
  fun _ within => absurd within (Nat.not_lt_zero _)

theorem Sequenced.append_singleton {first : Nat} {sequences : List (Sequence H)} {seq : Sequence H}
    (sequenced : Sequenced env first sequences)
    (closed : env.isBatchClosed (first + sequences.length) = .ok true)
    (built : sequenceOf env (first + sequences.length) = .ok seq) :
    Sequenced env first (sequences ++ [seq]) := by
  intro i within
  rw [List.length_append, List.length_singleton] at within
  rcases Nat.lt_or_ge i sequences.length with earlier | last
  · rw [List.getElem_append_left earlier]
    exact sequenced i earlier
  · obtain rfl : i = sequences.length := by omega
    rw [List.getElem_append_right (Nat.le_refl _)]
    simpa using And.intro closed built

theorem sequenceOf_ok {batchNumber : Nat} {seq : Sequence H}
    (built : sequenceOf env batchNumber = .ok seq) :
    ∃ batch, env.getBatchByNumber batchNumber = .ok batch ∧ seq.globalExitRoot = batch.globalExitRoot ∧
      seq.timestamp = batch.timestamp.unix ∧ seq.batchL2Data = batch.batchL2Data ∧
      seq.batchNumber = batch.batchNumber ∧
      (batch.forcedBatchNum = none ∧ seq.forcedBatchTimestamp = 0 ∨
        ∃ forcedBatchNum forcedAt, batch.forcedBatchNum = some forcedBatchNum ∧
          env.getForcedBatch forcedBatchNum = .ok forcedAt ∧ seq.forcedBatchTimestamp = forcedAt.unix) := by
  unfold sequenceOf at built
  cases read : env.getBatchByNumber batchNumber with
  | error err => simp [read, bind, Except.bind] at built
  | ok batch =>
    simp only [read, bind, Except.bind] at built
    cases forced : batch.forcedBatchNum with
    | none =>
      simp only [forced, pure, Except.pure, Except.ok.injEq] at built
      subst built
      exact ⟨batch, rfl, rfl, rfl, rfl, rfl, .inl ⟨forced, rfl⟩⟩
    | some forcedBatchNum =>
      cases time : env.getForcedBatch forcedBatchNum with
      | error err => simp [forced, time] at built
      | ok forcedAt =>
        simp only [forced, time, pure, Except.pure, Except.ok.injEq] at built
        subst built
        exact ⟨batch, rfl, rfl, rfl, rfl, rfl, .inr ⟨forcedBatchNum, forcedAt, forced, time, rfl⟩⟩

theorem Sequenced.batchNumbers {first : Nat} {sequences : List (Sequence H)}
    (numbered : ∀ n batch, env.getBatchByNumber n = .ok batch → batch.batchNumber = n)
    (sequenced : Sequenced env first sequences) :
    sequences.map (·.batchNumber) = List.range' first sequences.length := by
  refine List.ext_getElem (by simp) fun i within _ => ?_
  rw [List.length_map] at within
  obtain ⟨batch, read, -, -, -, same, -⟩ := sequenceOf_ok (sequenced i within).2
  rw [List.getElem_map, List.getElem_range', same, numbered _ _ read, Nat.one_mul]

theorem Sequenced.ends {first : Nat} {seq : Sequence H} {rest : List (Sequence H)}
    (numbered : ∀ n batch, env.getBatchByNumber n = .ok batch → batch.batchNumber = n)
    (sequenced : Sequenced env first (seq :: rest)) :
    seq.batchNumber = first ∧ ((seq :: rest).getLast (List.cons_ne_nil _ _)).batchNumber = first + rest.length := by
  have numbers := sequenced.batchNumbers numbered
  rw [List.length_cons] at numbers
  constructor
  · rw [List.map_cons, List.range'_succ] at numbers
    exact (List.cons.inj numbers).1
  · have lastOf := congrArg (fun l => l[rest.length]?) numbers
    simp only [List.getElem?_map] at lastOf
    rw [List.getLast_eq_getElem]
    simpa using lastOf

theorem afterLoop_some {sequences sequences' : List (Sequence H)} {e : Option (SequencesError ε)}
    (sent : afterLoop env cfg sequences = (some sequences', e)) :
    sequences' = sequences ∧ e = none ∧ sequences ≠ [] ∧ lastVirtualizationDue env cfg = true := by
  unfold afterLoop at sent
  split_ifs at sent with empty due
  · cases sent
  · simp only [Prod.mk.injEq, Option.some.injEq] at sent
    exact ⟨sent.1.symm, sent.2.symm, fun nil => empty (by rw [nil, List.length_nil]), due⟩
  · cases sent

theorem handled_some {sequences sequences' : List (Sequence H)} {err : EstimateError}
    {e : Option (SequencesError ε)}
    (returned : handled env order sequences err = .returns (some sequences', e)) :
    sequences' = sequences.dropLast ∧ e = reestimated env order sequences.dropLast := by
  unfold handled at returned
  cases gave : handleEstimateGasSendSequenceErr (ε := ε) env.getLastBatchTimestamp sequences err with
  | returns result =>
    obtain ⟨slice, e'⟩ := result
    cases slice with
    | none => simp [gave] at returned
    | some handledSequences =>
      obtain ⟨rfl, -⟩ := handleEstimateGasSendSequenceErr_some gave
      simp only [gave, Outcome.returns.injEq, Prod.mk.injEq, Option.some.injEq] at returned
      exact ⟨returned.1.symm, returned.2.symm⟩
  | panics => simp [gave] at returned
  | outOfFuel => simp [gave] at returned

theorem handled_panics {sequences : List (Sequence H)} {err : EstimateError}
    (stopped : handled (ε := ε) env order sequences err = .panics) :
    handleEstimateGasSendSequenceErr (ε := ε) env.getLastBatchTimestamp sequences err = .panics := by
  unfold handled at stopped
  cases gave : handleEstimateGasSendSequenceErr (ε := ε) env.getLastBatchTimestamp sequences err with
  | returns result =>
    obtain ⟨slice, e'⟩ := result
    cases slice <;> simp [gave] at stopped
  | panics => rfl
  | outOfFuel => simp [gave] at stopped

theorem handled_ne_outOfFuel {sequences : List (Sequence H)} {err : EstimateError} :
    handled (ε := ε) env order sequences err ≠ .outOfFuel := by
  unfold handled
  have handledAtAll : handleEstimateGasSendSequenceErr (ε := ε) env.getLastBatchTimestamp sequences err ≠
      .outOfFuel := handleEstimateGasSendSequenceErr_ne_outOfFuel
  split
  · exact fun stuck => by cases stuck
  · assumption

theorem sequencesStep_inl {s s' : Nat × List (Sequence H)}
    (next : sequencesStep env cfg order s = .inl s') :
    ∃ seq, env.isBatchClosed s.1 = .ok true ∧ sequenceOf env s.1 = .ok seq ∧
      estimate env cfg order (s.2 ++ [seq]) = .ok () ∧ s' = (s.1 + 1, s.2 ++ [seq]) := by
  unfold sequencesStep at next
  cases closed : env.isBatchClosed s.1 with
  | error err => simp [closed] at next
  | ok isClosed =>
    cases isClosed with
    | false => simp [closed] at next
    | true =>
      cases built : sequenceOf env s.1 with
      | error err => simp [closed, built] at next
      | ok seq =>
        cases estimated : estimate env cfg order (s.2 ++ [seq]) with
        | error err => simp [closed, built, estimated] at next
        | ok passed =>
          simp only [closed, built, estimated, Sum.inl.injEq] at next
          exact ⟨seq, rfl, rfl, estimated, next.symm⟩

theorem sequencesStep_inr {s : Nat × List (Sequence H)} {outcome : Outcome (Sequences ε H)}
    (left : sequencesStep env cfg order s = .inr outcome) :
    (∃ err, outcome = .returns (none, some (.state err))) ∨
      (env.isBatchClosed s.1 = .ok false ∧ outcome = .returns (afterLoop env cfg s.2)) ∨
      ∃ seq err, env.isBatchClosed s.1 = .ok true ∧ sequenceOf env s.1 = .ok seq ∧
        estimate env cfg order (s.2 ++ [seq]) = .error err ∧ outcome = handled env order (s.2 ++ [seq]) err := by
  unfold sequencesStep at left
  cases closed : env.isBatchClosed s.1 with
  | error err =>
    simp only [closed, Sum.inr.injEq] at left
    exact .inl ⟨err, left.symm⟩
  | ok isClosed =>
    cases isClosed with
    | false =>
      simp only [closed, Sum.inr.injEq] at left
      exact .inr (.inl ⟨rfl, left.symm⟩)
    | true =>
      cases built : sequenceOf env s.1 with
      | error err =>
        simp only [closed, built, Sum.inr.injEq] at left
        exact .inl ⟨err, left.symm⟩
      | ok seq =>
        cases estimated : estimate env cfg order (s.2 ++ [seq]) with
        | error err =>
          simp only [closed, built, estimated, Sum.inr.injEq] at left
          exact .inr (.inr ⟨seq, err, rfl, rfl, estimated, left.symm⟩)
        | ok passed => simp [closed, built, estimated] at left

theorem sequencesStep_ne_outOfFuel {s : Nat × List (Sequence H)}
    (left : sequencesStep env cfg order s = .inr .outOfFuel) : False := by
  rcases sequencesStep_inr left with ⟨_, stuck⟩ | ⟨_, stuck⟩ | ⟨_, _, _, _, _, stuck⟩
  · cases stuck
  · cases stuck
  · exact handled_ne_outOfFuel stuck.symm

theorem Building.start (last : Nat) : Building env cfg order last (last + 1, []) :=
  ⟨rfl, sequenced_nil _, fun nonempty => absurd rfl nonempty⟩

theorem Building.step {last : Nat} {s s' : Nat × List (Sequence H)}
    (building : Building env cfg order last s) (next : sequencesStep env cfg order s = .inl s') :
    Building env cfg order last s' := by
  obtain ⟨seq, closed, built, estimated, rfl⟩ := sequencesStep_inl next
  have batch : s.1 = last + 1 + s.2.length := building.next
  rw [batch] at closed built
  refine ⟨?_, building.sequenced.append_singleton closed built, fun _ => estimated⟩
  simp only [batch, List.length_append, List.length_singleton]
  omega

theorem getSequencesToSend_cases {fuel : Nat} {outcome : Outcome (Sequences ε H)}
    (ended : getSequencesToSend env cfg order fuel = outcome) :
    (∃ err, env.getLastVirtualBatchNum = .error err ∧
        outcome = .returns (none, some (.lastVirtualBatchNum err))) ∨ outcome = .outOfFuel ∨
      ∃ last t, env.getLastVirtualBatchNum = .ok last ∧ Building env cfg order last t ∧
        sequencesStep env cfg order t = .inr outcome := by
  subst ended
  cases started : env.getLastVirtualBatchNum with
  | error err => exact .inl ⟨err, rfl, by unfold getSequencesToSend; rw [started]⟩
  | ok last =>
    have unfolded : getSequencesToSend env cfg order fuel =
        (Loop.forever (sequencesStep env cfg order) fuel (last + 1, [])).getD .outOfFuel := by
      unfold getSequencesToSend
      rw [started]
    rw [unfolded]
    cases ran : Loop.forever (sequencesStep env cfg order) fuel (last + 1, []) with
    | none => exact .inr (.inl rfl)
    | some outcome =>
      obtain ⟨t, building, left⟩ := Loop.forever_spec (fun _ _ => Building.step) (Building.start last) ran
      exact .inr (.inr ⟨last, t, rfl, building, left⟩)

theorem sent_building {fuel : Nat} {sequences : List (Sequence H)}
    (returned : getSequencesToSend env cfg order fuel = .returns (some sequences, none)) :
    ∃ last, env.getLastVirtualBatchNum = .ok last ∧
      Building env cfg order last (last + 1 + sequences.length, sequences) ∧
      ((env.isBatchClosed (last + 1 + sequences.length) = .ok false ∧ lastVirtualizationDue env cfg = true) ∨
        ∃ seq err, env.isBatchClosed (last + 1 + sequences.length) = .ok true ∧
          sequenceOf env (last + 1 + sequences.length) = .ok seq ∧
          estimate env cfg order (sequences ++ [seq]) = .error err) := by
  rcases getSequencesToSend_cases returned with ⟨err, -, failed⟩ | stuck | ⟨last, ⟨batch, sofar⟩, started, building, left⟩
  · simp at failed
  · cases stuck
  have next : batch = last + 1 + sofar.length := building.next
  subst next
  rcases sequencesStep_inr left with ⟨err, failed⟩ | ⟨unclosed, after⟩ | ⟨seq, err, closed, built, failed, gave⟩
  · simp at failed
  · -- the loop reached the open batch
    obtain ⟨rfl, -, -, due⟩ := afterLoop_some (Outcome.returns.inj after).symm
    exact ⟨last, started, building, .inl ⟨unclosed, due⟩⟩
  · -- the estimate failed with the next batch, which the handling removed
    obtain ⟨removed, -⟩ := handled_some gave.symm
    rw [List.dropLast_concat] at removed
    subst removed
    exact ⟨last, started, building, .inr ⟨seq, err, closed, built, failed⟩⟩

theorem panics_sequenced {fuel : Nat} (stopped : getSequencesToSend env cfg order fuel = .panics) :
    ∃ last sequences lastTimestamp, env.getLastVirtualBatchNum = .ok last ∧
      Sequenced env (last + 1) sequences ∧
      estimate env cfg order sequences = .error (.etherman .timestampMustBeInsideRange) ∧
      env.getLastBatchTimestamp = .ok lastTimestamp ∧ checkTimestamps lastTimestamp sequences = false := by
  rcases getSequencesToSend_cases stopped with ⟨err, -, failed⟩ | stuck | ⟨last, ⟨batch, sofar⟩, started, building, left⟩
  · cases failed
  · cases stuck
  have next : batch = last + 1 + sofar.length := building.next
  subst next
  rcases sequencesStep_inr left with ⟨err, failed⟩ | ⟨unclosed, after⟩ | ⟨seq, err, closed, built, failed, gave⟩
  · cases failed
  · cases after
  · obtain ⟨range, lastTimestamp, read, checked⟩ := handleEstimateGasSendSequenceErr_panics (handled_panics gave.symm)
    subst range
    exact ⟨last, sofar ++ [seq], lastTimestamp, started, building.sequenced.append_singleton closed built,
      failed, read, checked⟩

theorem getSequencesToSend_ne_outOfFuel {fuel last bound : Nat}
    (started : env.getLastVirtualBatchNum = .ok last) (after : last + 1 ≤ bound)
    (stops : env.isBatchClosed bound ≠ .ok true) (enough : bound - (last + 1) < fuel) :
    getSequencesToSend env cfg order fuel ≠ .outOfFuel := by
  -- each round moves to the next batch, and none goes on from the bound
  have preserved : ∀ s s' : Nat × List (Sequence H), s.1 ≤ bound →
      sequencesStep env cfg order s = .inl s' → s'.1 ≤ bound ∧ bound - s'.1 < bound - s.1 := by
    intro s s' below next
    obtain ⟨seq, closed, -, -, rfl⟩ := sequencesStep_inl next
    have before : s.1 ≠ bound := fun same => stops (same ▸ closed)
    constructor <;> omega
  have ends : (Loop.forever (sequencesStep env cfg order) fuel (last + 1, [])).isSome :=
    Loop.forever_isSome (fun s : Nat × List (Sequence H) => bound - s.1) preserved after enough
  obtain ⟨outcome, ran⟩ := Option.isSome_iff_exists.mp ends
  have unfolded : getSequencesToSend env cfg order fuel = outcome := by
    unfold getSequencesToSend
    rw [started]
    simp only [ran, Option.getD_some]
  have spec : ∃ t, True ∧ sequencesStep env cfg order t = .inr outcome :=
    Loop.forever_spec (fun _ _ _ _ => trivial) trivial ran
  obtain ⟨t, -, left⟩ := spec
  rw [unfolded]
  rintro rfl
  exact sequencesStep_ne_outOfFuel left

end Run

/-- Three closed batches after the virtual batch 0, the fourth still open; each
sequence takes 100 bytes of the transaction, and nothing has been virtualized. -/
def sampleEnv : Env Unit Nat where
  getLastVirtualBatchNum := .ok 0
  isBatchClosed n := .ok (decide (n ≤ 3))
  getBatchByNumber n := .ok ⟨n, 0, [], ⟨n * 1000000000⟩, none⟩
  getForcedBatch _ := .ok ⟨0⟩
  sequenceBatches sequences := .ok (100 * sequences.length)
  getTimeForLatestBatchVirtualization := .error none
  getLastBatchTimestamp := .ok 0
  now := ⟨0⟩
  getLastBatchNumber := .ok 4
  getLatestBatchNumber := .ok 0
  buildSequenceBatchesTxData _ := .ok (none, [])

def sampleSequences : List (Sequence Nat) := [⟨0, 1, [], 1, 0⟩, ⟨0, 2, [], 2, 0⟩]

section Sent

variable {env : Env ε H} {cfg : Config} {order : List (List Char × Error)}

/-- The sequences `getSequencesToSend` gives to send are those of the closed
batches right after the last virtual batch, one for each batch, in order. -/
theorem getSequencesToSend_sequenced {fuel : Nat} {sequences : List (Sequence H)}
    (returned : getSequencesToSend env cfg order fuel = .returns (some sequences, none)) :
    ∃ last, env.getLastVirtualBatchNum = .ok last ∧ Sequenced env (last + 1) sequences := by
  obtain ⟨last, started, building, -⟩ := sent_building returned
  exact ⟨last, started, building.sequenced⟩

theorem getSequencesToSend_sequenced_sample :
    getSequencesToSend sampleEnv ⟨250, 0⟩ errorsCache 5 = .returns (some sampleSequences, none) ∧
      ∃ last, sampleEnv.getLastVirtualBatchNum = .ok last ∧ Sequenced sampleEnv (last + 1) sampleSequences :=
  have returned : getSequencesToSend sampleEnv ⟨250, 0⟩ errorsCache 5 =
      .returns (some sampleSequences, none) := by decide
  ⟨returned, getSequencesToSend_sequenced returned⟩

/-- The sequences `getSequencesToSend` gives to send fit in one L1 transaction:
its estimate succeeds, with a size of at most `MaxTxSizeForL1`. -/
theorem getSequencesToSend_fits {fuel : Nat} {sequences : List (Sequence H)}
    (returned : getSequencesToSend env cfg order fuel = .returns (some sequences, none))
    (nonempty : sequences ≠ []) :
    ∃ size, estimateGasSequenceBatches env order sequences = .ok size ∧ size ≤ cfg.maxTxSizeForL1 := by
  obtain ⟨last, -, building, -⟩ := sent_building returned
  exact estimate_eq_ok.mp (building.estimated nonempty)

theorem getSequencesToSend_fits_sample :
    getSequencesToSend sampleEnv ⟨250, 0⟩ errorsCache 5 = .returns (some sampleSequences, none) ∧
      sampleSequences ≠ [] ∧
      ∃ size, estimateGasSequenceBatches sampleEnv errorsCache sampleSequences = .ok size ∧ size ≤ 250 :=
  have returned : getSequencesToSend sampleEnv ⟨250, 0⟩ errorsCache 5 =
      .returns (some sampleSequences, none) := by decide
  have nonempty : sampleSequences ≠ [] := List.cons_ne_nil _ _
  ⟨returned, nonempty, getSequencesToSend_fits returned nonempty⟩

/-- The sequences `getSequencesToSend` gives to send are as many as can go: the
batch after them is still open, and the last virtualization is due, or it is
closed and its sequence added to them does not pass the estimate. -/
theorem getSequencesToSend_maximal {fuel : Nat} {sequences : List (Sequence H)}
    (returned : getSequencesToSend env cfg order fuel = .returns (some sequences, none)) :
    ∃ last, env.getLastVirtualBatchNum = .ok last ∧
      ((env.isBatchClosed (last + 1 + sequences.length) = .ok false ∧ lastVirtualizationDue env cfg = true) ∨
        ∃ seq err, env.isBatchClosed (last + 1 + sequences.length) = .ok true ∧
          sequenceOf env (last + 1 + sequences.length) = .ok seq ∧
          estimate env cfg order (sequences ++ [seq]) = .error err) := by
  obtain ⟨last, started, -, next⟩ := sent_building returned
  exact ⟨last, started, next⟩

theorem getSequencesToSend_maximal_sample :
    getSequencesToSend sampleEnv ⟨250, 0⟩ errorsCache 5 = .returns (some sampleSequences, none) ∧
      ∃ last, sampleEnv.getLastVirtualBatchNum = .ok last ∧
        ((sampleEnv.isBatchClosed (last + 1 + 2) = .ok false ∧ lastVirtualizationDue sampleEnv ⟨250, 0⟩ = true) ∨
          ∃ seq err, sampleEnv.isBatchClosed (last + 1 + 2) = .ok true ∧
            sequenceOf sampleEnv (last + 1 + 2) = .ok seq ∧
            estimate sampleEnv ⟨250, 0⟩ errorsCache (sampleSequences ++ [seq]) = .error err) :=
  have returned : getSequencesToSend sampleEnv ⟨250, 0⟩ errorsCache 5 =
      .returns (some sampleSequences, none) := by decide
  ⟨returned, getSequencesToSend_maximal returned⟩

/-- `getSequencesToSend` stops the process only where the estimate fails on the
timestamp range, for sequences of the closed batches after the last virtual
one whose timestamps do not rise from the contract's `lastTimestamp` on. -/
theorem getSequencesToSend_panics {fuel : Nat}
    (stopped : getSequencesToSend env cfg order fuel = .panics) :
    ∃ last sequences lastTimestamp, env.getLastVirtualBatchNum = .ok last ∧
      Sequenced env (last + 1) sequences ∧
      estimate env cfg order sequences = .error (.etherman .timestampMustBeInsideRange) ∧
      env.getLastBatchTimestamp = .ok lastTimestamp ∧
      ¬ List.IsChain (· ≤ ·) (lastTimestamp.toInt64 :: sequences.map (·.timestamp)) := by
  obtain ⟨last, sequences, lastTimestamp, started, sequenced, failed, read, checked⟩ := panics_sequenced stopped
  refine ⟨last, sequences, lastTimestamp, started, sequenced, failed, read, ?_⟩
  rw [← checkTimestamps_eq_true, checked]
  exact Bool.false_ne_true

def lateEnv : Env Unit Nat :=
  { sampleEnv with
    sequenceBatches := fun _ => .error .timestampMustBeInsideRange
    getLastBatchTimestamp := .ok 5 }

theorem getSequencesToSend_panics_late :
    getSequencesToSend lateEnv ⟨250, 0⟩ errorsCache 5 = .panics ∧
      ∃ last sequences lastTimestamp, lateEnv.getLastVirtualBatchNum = .ok last ∧
        Sequenced lateEnv (last + 1) sequences ∧
        estimate lateEnv ⟨250, 0⟩ errorsCache sequences = .error (.etherman .timestampMustBeInsideRange) ∧
        lateEnv.getLastBatchTimestamp = .ok lastTimestamp ∧
        ¬ List.IsChain (· ≤ ·) (lastTimestamp.toInt64 :: sequences.map (·.timestamp)) :=
  have stopped : getSequencesToSend lateEnv ⟨250, 0⟩ errorsCache 5 = .panics := by decide
  ⟨stopped, getSequencesToSend_panics stopped⟩

/-- `getSequencesToSend` ends within the fuel when a batch after the last
virtual one is still open: it never runs past the open batch. -/
theorem getSequencesToSend_ends {fuel last n : Nat} (started : env.getLastVirtualBatchNum = .ok last)
    (unclosed : env.isBatchClosed (last + 1 + n) = .ok false) (enough : n < fuel) :
    getSequencesToSend env cfg order fuel ≠ .outOfFuel :=
  getSequencesToSend_ne_outOfFuel started (Nat.le_add_right _ _) (by rw [unclosed]; exact fun same => by cases same)
    (by omega)

theorem getSequencesToSend_ends_sample :
    sampleEnv.getLastVirtualBatchNum = .ok 0 ∧ sampleEnv.isBatchClosed (0 + 1 + 3) = .ok false ∧ 3 < 4 ∧
      getSequencesToSend sampleEnv ⟨250, 0⟩ errorsCache 4 ≠ .outOfFuel :=
  ⟨rfl, rfl, by decide, getSequencesToSend_ends (n := 3) rfl rfl (by decide)⟩

end Sent

section Send

variable {Hash : Type} (env : Env ε H) (cfg : Config) (order : List (List Char × Error))

/-- `ethTxManagerOwner`. -/
def ethTxManagerOwner : List Char := "sequencer".toList

/-- `fmt.Sprintf(monitoredIDFormat, first, last)`. -/
def monitoredTxID (first last : Nat) : List Char :=
  "sequence-from-".toList ++ Go.text 10 first ++ "-to-".toList ++ Go.text 10 last

/-- `isSynced`: the state has batches after its last virtual one, or it
has virtualized every batch sequenced on L1. Neither query of the state fails
with `ErrNotFound`, so every error of theirs gives `false`. -/
def isSynced : Bool :=
  match env.getLastVirtualBatchNum, env.getLastBatchNumber with
  | .ok lastSyncedBatchNum, .ok lastBatchNum =>
    if lastBatchNum > lastSyncedBatchNum then true
    else
      match env.getLatestBatchNumber with
      | .error _ => false
      | .ok lastEthBatchNum => !decide (lastSyncedBatchNum < lastEthBatchNum)
  | _, _ => false

/-- `tryToSendSequence` after `ProcessPendingMonitoredTxs`, which sets
`retry` when it handled a failed monitored tx: the table of the eth tx manager,
with the monitored tx of the sequences when they are sent. -/
def tryToSendSequence (retry : Bool) (fuel : Nat) (ethCfg : Ethtxmanager.Config)
    (e : Ethtxmanager.Etherman Hash) (sender : Go.Address) (storage : Ethtxmanager.Storage Hash) :
    Outcome (Ethtxmanager.Storage Hash) :=
  if retry then .returns storage
  else if !isSynced env then .returns storage
  else
    match getSequencesToSend env cfg order fuel with
    | .panics => .panics
    | .outOfFuel => .outOfFuel
    | .returns (some (first :: rest), none) =>
      -- the last virtual batch is read again, only for the log, but its error ends the call
      match env.getLastVirtualBatchNum with
      | .error _ => .returns storage
      | .ok _ =>
        match env.buildSequenceBatchesTxData (first :: rest) with
        | .error _ => .returns storage
        | .ok (toAddress, data) =>
          let monitoredTxIDOf :=
            monitoredTxID first.batchNumber ((first :: rest).getLast (List.cons_ne_nil _ _)).batchNumber
          match Ethtxmanager.add ethCfg e storage ethTxManagerOwner monitoredTxIDOf sender toAddress none data with
          | .error _ => .returns storage
          | .ok storage => .returns storage
    -- an error, or no sequences worth sending yet
    | .returns _ => .returns storage

variable {env cfg order}

/-- What `tryToSendSequence` does to the table of the eth tx manager: nothing,
or it adds one monitored tx of the sequencer, created, under a key the table did
not hold, carrying the transaction `BuildSequenceBatchesTxData` builds from the
sequences of the closed batches after the last virtual one that fit in one L1
transaction, its id naming the first and the last of them. -/
theorem tryToSendSequence_adds {retry : Bool} {fuel : Nat} {ethCfg : Ethtxmanager.Config}
    {e : Ethtxmanager.Etherman Hash} {sender : Go.Address} {storage storage' : Ethtxmanager.Storage Hash}
    (numbered : ∀ n batch, env.getBatchByNumber n = .ok batch → batch.batchNumber = n)
    (returned : tryToSendSequence env cfg order retry fuel ethCfg e sender storage = .returns storage') :
    storage' = storage ∨
      ∃ last sequences, env.getLastVirtualBatchNum = .ok last ∧ sequences ≠ [] ∧
        Sequenced env (last + 1) sequences ∧
        (∃ size, estimateGasSequenceBatches env order sequences = .ok size ∧ size ≤ cfg.maxTxSizeForL1) ∧
        ∃ mTx : Ethtxmanager.MonitoredTx Hash,
          mTx.key = (ethTxManagerOwner, monitoredTxID (last + 1) (last + sequences.length)) ∧
          mTx.status = .created ∧ storage.insert mTx.persist = some storage' ∧
          mTx.fromAddress = sender ∧ env.buildSequenceBatchesTxData sequences = .ok (mTx.toAddress, mTx.data) := by
  unfold tryToSendSequence at returned
  split_ifs at returned with retried unsynced
  · exact .inl (Outcome.returns.inj returned).symm
  · exact .inl (Outcome.returns.inj returned).symm
  cases got : getSequencesToSend env cfg order fuel with
  | panics => simp [got] at returned
  | outOfFuel => simp [got] at returned
  | returns result =>
    obtain ⟨slice, err⟩ := result
    -- every result but sequences with no error leaves the table as it is
    rcases slice with _ | _ | ⟨first, rest⟩ <;> rcases err with _ | err <;>
      simp only [got] at returned <;> try exact .inl (Outcome.returns.inj returned).symm
    cases again : env.getLastVirtualBatchNum with
    | error _ => simp only [again] at returned; exact .inl (Outcome.returns.inj returned).symm
    | ok _ =>
    cases built : env.buildSequenceBatchesTxData (first :: rest) with
    | error _ => simp only [again, built] at returned; exact .inl (Outcome.returns.inj returned).symm
    | ok txData =>
    obtain ⟨toAddress, data⟩ := txData
    cases added : Ethtxmanager.add ethCfg e storage ethTxManagerOwner
        (monitoredTxID first.batchNumber ((first :: rest).getLast (List.cons_ne_nil _ _)).batchNumber)
        sender toAddress none data with
    | error _ => simp only [again, built, added] at returned; exact .inl (Outcome.returns.inj returned).symm
    | ok stored =>
      simp only [again, built, added, Outcome.returns.injEq] at returned
      subst returned
      obtain ⟨last, started, sequenced⟩ := getSequencesToSend_sequenced got
      obtain ⟨firstNumber, lastNumber⟩ := sequenced.ends numbered
      obtain ⟨mTx, key, created, -, inserted, fromSender, recipient, carried⟩ := Ethtxmanager.add_ok added
      refine .inr ⟨last, first :: rest, again.symm.trans started, List.cons_ne_nil _ _, sequenced,
        getSequencesToSend_fits got (List.cons_ne_nil _ _), mTx, ?_, created, inserted, fromSender,
        by rw [built, recipient, carried]⟩
      rw [key, firstNumber, lastNumber, List.length_cons, Nat.add_right_comm, Nat.add_assoc last]

theorem tryToSendSequence_adds_sample :
    ∃ storage' : Ethtxmanager.Storage Nat,
      tryToSendSequence sampleEnv ⟨250, 0⟩ errorsCache false 5 ⟨0⟩ Ethtxmanager.sampleEtherman
        (Go.bytesToAddress []) Table.empty = .returns storage' ∧
      (storage' = Table.empty ∨
        ∃ last sequences, sampleEnv.getLastVirtualBatchNum = .ok last ∧ sequences ≠ [] ∧
          Sequenced sampleEnv (last + 1) sequences ∧
          (∃ size, estimateGasSequenceBatches sampleEnv errorsCache sequences = .ok size ∧ size ≤ 250) ∧
          ∃ mTx : Ethtxmanager.MonitoredTx Nat,
            mTx.key = (ethTxManagerOwner, monitoredTxID (last + 1) (last + sequences.length)) ∧
            mTx.status = .created ∧ Table.empty.insert mTx.persist = some storage' ∧
            mTx.fromAddress = Go.bytesToAddress [] ∧
            sampleEnv.buildSequenceBatchesTxData sequences = .ok (mTx.toAddress, mTx.data)) :=
  have numbered : ∀ n batch, sampleEnv.getBatchByNumber n = .ok batch → batch.batchNumber = n :=
    fun _ _ read => by cases read; rfl
  have sent : ∃ storage', tryToSendSequence sampleEnv ⟨250, 0⟩ errorsCache false 5 ⟨0⟩
      Ethtxmanager.sampleEtherman (Go.bytesToAddress []) Table.empty = .returns storage' := ⟨_, rfl⟩
  match sent with
  | ⟨storage', returned⟩ => ⟨storage', returned, tryToSendSequence_adds numbered returned⟩

end Send

end ZkevmNode.Sequencer
