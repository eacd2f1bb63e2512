import ZkevmNode.State.BatchTable
import ZkevmNode.State.Helper

set_option autoImplicit false

/-! `processTrustedBatch` and `syncTrustedState` from `synchronizer/synchronizer.go`,
with `ProcessSequencerBatch` from `state/batch.go`, over the batch table of
`State.BatchTable`. The executor, `StoreTransactions` and the trusted
sequencer's answers are parameters. -/

namespace ZkevmNode.State

open Sequencer (Time ProcessingContext)

variable {ε H A Z : Type}

section Request

variable [Zero H]

/-- The state root `scanBatch` reads, the zero hash while the batch is open and
the column NULL. -/
def BatchRow.stateRoot (row : BatchRow H A) : H := (row.closed.map Closing.stateRoot).getD 0

/-- The local exit root `scanBatch` reads. -/
def BatchRow.localExitRoot (row : BatchRow H A) : H := (row.closed.map Closing.localExitRoot).getD 0

/-- The accumulated input hash `scanBatch` reads. -/
def BatchRow.accInputHash (row : BatchRow H A) : H := (row.closed.map Closing.accInputHash).getD 0

/-- Of `pb.ProcessBatchRequest`, what `processBatch` fills in from the table and
the data; `UpdateMerkleTree` is always set, and the chain id and the fork id
come from the configuration. -/
structure ProcessBatchRequest (H A : Type) where
  oldBatchNum : UInt64
  coinbase : A
  batchL2Data : List UInt8
  oldStateRoot : H
  globalExitRoot : H
  oldAccInputHash : H
  ethTimestamp : UInt64
deriving DecidableEq, Repr

/-- The errors of `ProcessSequencerBatch`, `ε` being those of the executor. -/
inductive ProcessBatchError (ε : Type) where
  /-- An error of `IsBatchClosed`, or `ErrBatchAlreadyClosed`. -/
  | state (err : BatchError)
  /-- `ErrInvalidBatchNumber`: the batch is not the last one. -/
  | invalidBatchNumber
  /-- An error of the executor or of the conversion of its answer. -/
  | executor (err : ε)
deriving DecidableEq, Repr

/-- `GetLastNBatches`: the rows `ORDER BY batch_num DESC LIMIT numBatches`
reads, the last batch first. -/
def PostgresStorage.getLastNBatches : BatchTable H A → Nat → List (BatchRow H A)
  | _, 0 => []
  | t, numBatches + 1 =>
    match PostgresStorage.lastBatch t with
    | none => []
    | some row =>
      row :: getLastNBatches (t.delete fun other => decide (other.batchNumber = row.batchNumber)) numBatches

/-- `processBatch`: the request that executes `batchL2Data` as the last batch,
on the roots of the batch before it. `none` is the panic of `lastBatches[0]` on
an empty table. -/
def processBatch (t : BatchTable H A) (batchNumber : Nat) (batchL2Data : List UInt8) :
    Option (Except (ProcessBatchError ε) (ProcessBatchRequest H A)) :=
  match PostgresStorage.getLastNBatches t 2 with
  | [] => none
  | lastBatch :: rest =>
    -- where the table holds one batch, that batch is also the previous one
    let previousBatch := rest.headD lastBatch
    some do
      let isBatchClosed ← (PostgresStorage.isBatchClosed t batchNumber).mapError .state
      if isBatchClosed then throw (.state .batchAlreadyClosed)
      if lastBatch.batchNumber ≠ batchNumber then throw .invalidBatchNumber
      pure ⟨lastBatch.batchNumber.toUInt64 - 1, lastBatch.coinbase, batchL2Data, previousBatch.stateRoot,
        lastBatch.globalExitRoot, previousBatch.accInputHash, lastBatch.timestamp.unix.toUInt64⟩

/-- `ProcessSequencerBatch`: `processBatch`, then the executor on its request,
returned with the executor's answer. `executor` stands for the executor and for
the conversion of its answer, which decodes the data again. -/
def processSequencerBatch (executor : ProcessBatchRequest H A → Except ε (Sequencer.ProcessBatchResponse H Z))
    (t : BatchTable H A) (batchNumber : Nat) (batchL2Data : List UInt8) :
    Option (Except (ProcessBatchError ε) (ProcessBatchRequest H A × Sequencer.ProcessBatchResponse H Z)) :=
  (processBatch t batchNumber batchL2Data).map fun processed => do
    let request ← processed
    let processBatchResponse ← (executor request).mapError .executor
    pure (request, processBatchResponse)

end Request

section Opened

variable {t t' : BatchTable H A} {processingContext : ProcessingContext H A} {timestamp : Time}

theorem find?_openBatch (opened : openBatch t processingContext timestamp = .ok t') :
    t'.find? processingContext.batchNumber = some (openedRow processingContext timestamp) := by
  obtain ⟨-, -, -, -, -, inserted⟩ := openBatch_ok opened
  rw [Table.find?_insert inserted]
  exact if_pos rfl

theorem getLastNBatches_openBatch (opened : openBatch t processingContext timestamp = .ok t') :
    ∃ previous, PostgresStorage.lastBatch t = some previous ∧
      previous.batchNumber + 1 = processingContext.batchNumber ∧ previous.closed.isSome ∧
      PostgresStorage.getLastNBatches t' 2 = [openedRow processingContext timestamp, previous] := by
  obtain ⟨previous, read, next, closed, -, inserted⟩ := openBatch_ok opened
  obtain ⟨-, greatest⟩ := lastBatch_eq_some.mp read
  have below : ∀ row ∈ t.rows, row.batchNumber < processingContext.batchNumber := fun row member => by
    have := greatest row member
    omega
  have rows := Table.rows_insert inserted
  have last : PostgresStorage.lastBatch t' = some (openedRow processingContext timestamp) := by
    refine lastBatch_eq_some.mpr ⟨by simp [rows], fun row member => ?_⟩
    rcases Table.mem_insert inserted member with old | rfl
    · exact (below row old).le
    · exact Nat.le_refl _
  -- deleting the new batch gives the table back
  have deleted : (t'.delete fun other => decide (other.batchNumber = processingContext.batchNumber)) = t := by
    refine Table.ext ?_
    simp only [Table.delete, Table.select, rows, List.filter_append]
    rw [List.filter_eq_self.mpr fun row member => by simpa using (below row member).ne]
    simp [openedRow]
  refine ⟨previous, read, next, closed, ?_⟩
  simp [PostgresStorage.getLastNBatches, last, openedRow, deleted, read]

theorem processBatch_openBatch [Zero H] (opened : openBatch t processingContext timestamp = .ok t')
    (batchL2Data : List UInt8) :
    ∃ previous, PostgresStorage.lastBatch t = some previous ∧
      previous.batchNumber + 1 = processingContext.batchNumber ∧ previous.closed.isSome ∧
      (processBatch t' processingContext.batchNumber batchL2Data : Option (Except (ProcessBatchError ε) _)) =
        some (.ok ⟨processingContext.batchNumber.toUInt64 - 1, processingContext.coinbase, batchL2Data,
          previous.stateRoot, processingContext.globalExitRoot, previous.accInputHash, timestamp.unix.toUInt64⟩) := by
  obtain ⟨previous, read, next, closed, lastTwo⟩ := getLastNBatches_openBatch opened
  refine ⟨previous, read, next, closed, ?_⟩
  simp [processBatch, lastTwo, isBatchClosed_of_find? (find?_openBatch opened), openedRow]

theorem resetTrustedState_openBatch {n : Nat} (opened : openBatch t processingContext timestamp = .ok t')
    (before : n < processingContext.batchNumber) :
    PostgresStorage.resetTrustedState t' n = PostgresStorage.resetTrustedState t n := by
  obtain ⟨-, -, -, -, -, inserted⟩ := openBatch_ok opened
  refine Table.ext ?_
  simp [PostgresStorage.resetTrustedState, Table.delete, Table.select, Table.rows_insert inserted, openedRow, before]

end Opened

variable {t : BatchTable H A}

theorem resetTrustedState_resetTrustedState (n : Nat) :
    PostgresStorage.resetTrustedState (PostgresStorage.resetTrustedState t n) n =
      PostgresStorage.resetTrustedState t n :=
  Table.ext (by simp [PostgresStorage.resetTrustedState, Table.delete, Table.select, List.filter_filter])

theorem find?_closeBatch_self {n : Nat} (closing : Closing H) {row : BatchRow H A} (found : t.find? n = some row) :
    (PostgresStorage.closeBatch t n closing).find? n = some { row with closed := some closing } := by
  have numbered : row.batchNumber = n := Table.find?_key found
  simp [PostgresStorage.closeBatch, found, Table.find?_update, numbered]

theorem processSequencerBatch_ok [Zero H] {executor : ProcessBatchRequest H A → Except ε (Sequencer.ProcessBatchResponse H Z)}
    {n : Nat} {batchL2Data : List UInt8} {built request : ProcessBatchRequest H A}
    {response : Sequencer.ProcessBatchResponse H Z}
    (processed : (processBatch t n batchL2Data : Option (Except (ProcessBatchError ε) _)) = some (.ok built))
    (executed : processSequencerBatch executor t n batchL2Data = some (.ok (request, response))) :
    request = built ∧ executor built = .ok response := by
  simp only [processSequencerBatch, processed, Option.map_some, Option.some.injEq, Except.ok_bind] at executed
  cases answer : executor built <;> simp [answer, Except.mapError] at executed
  exact ⟨executed.1.symm, by rw [executed.2]⟩

end ZkevmNode.State

namespace ZkevmNode.Synchronizer

open Sequencer (Time ProcessingContext ProcessingReceipt ProcessBatchResponse)
open State (BatchTable BatchRow)

/-- `types.Batch` as the trusted sequencer returns it, with the transactions as
`CoreTx` gives them. -/
structure TrustedBatch (H A : Type) where
  number : UInt64
  coinbase : A
  stateRoot : H
  globalExitRoot : H
  localExitRoot : H
  accInputHash : H
  timestamp : UInt64
  transactions : List State.LegacyTx
deriving DecidableEq

/-- The errors `processTrustedBatch` returns; `ε` is that of the executor and of
`StoreTransactions`, `δ` that of the RLP encoder. -/
inductive TrustedSyncError (ε δ : Type) where
  | encode (err : State.EncodeError δ)
  | state (err : State.BatchError)
  | processSequencerBatch (err : State.ProcessBatchError ε)
  | storeTransactions (err : ε)

/-- `time.Unix(sec, 0)`. -/
def unixTime (sec : Int64) : Time := ⟨sec.toInt * 1000000000⟩

theorem unix_unixTime (sec : Int64) : (unixTime sec).unix = sec := by
  simp only [unixTime, Sequencer.Time.unix, Int.mul_ediv_cancel _ (by decide : (1000000000 : Int) ≠ 0),
    Int64.ofInt_toInt]

theorem toUInt64_unix_unixTime (timestamp : UInt64) : (unixTime timestamp.toInt64).unix.toUInt64 = timestamp := by
  rw [unix_unixTime, UInt64.toUInt64_toInt64]

variable {ε δ ε' H A Z : Type}

/-- The processing context `processTrustedBatch` opens the batch with. -/
def processCtx (trustedBatch : TrustedBatch H A) : ProcessingContext H A :=
  ⟨trustedBatch.number.toNat, trustedBatch.coinbase, trustedBatch.globalExitRoot, none⟩

/-- The receipt `processTrustedBatch` closes the batch with; the closing reason
and the resources it leaves unset are `unset`, which `CloseBatch` does not write. -/
def closingReceipt (unset : Sequencer.ClosingReason × Sequencer.BatchResources Z) (trustedBatch : TrustedBatch H A)
    (trustedBatchL2Data : List UInt8) (processBatchResp : ProcessBatchResponse H Z) : ProcessingReceipt H Z :=
  ⟨trustedBatch.number.toNat, processBatchResp.newStateRoot, processBatchResp.newLocalExitRoot,
    trustedBatch.accInputHash, trustedBatchL2Data, unset.1, unset.2⟩

theorem previousBatchNumber_lt {t t₁ : BatchTable H A} {trustedBatch : TrustedBatch H A}
    (opened : State.openBatch t (processCtx trustedBatch) (unixTime trustedBatch.timestamp.toInt64) = .ok t₁) :
    (trustedBatch.number - 1).toNat < trustedBatch.number.toNat := by
  obtain ⟨row, -, numbered, -⟩ := State.openBatch_ok opened
  have positive : 1 ≤ trustedBatch.number.toNat := by
    simp only [processCtx] at numbered
    omega
  rw [UInt64.toNat_sub_of_le _ _ (UInt64.le_iff_toNat_le.mpr (by simpa using positive)), UInt64.toNat_one]
  omega

section Process

variable [DecidableEq H] [DecidableEq A] [Zero H]

/-- The seven matches of `processTrustedBatch` against the batch
`GetBatchByNumber` scans. -/
def isSynchronized (batch : BatchRow H A) (trustedBatch : TrustedBatch H A) (trustedBatchL2Data : List UInt8) :
    Bool :=
  let matchNumber := batch.batchNumber == trustedBatch.number.toNat
  let matchGER := batch.globalExitRoot == trustedBatch.globalExitRoot
  let matchLER := batch.localExitRoot == trustedBatch.localExitRoot
  let matchSR := batch.stateRoot == trustedBatch.stateRoot
  let matchCoinbase := batch.coinbase == trustedBatch.coinbase
  let matchTimestamp := batch.timestamp.unix.toUInt64 == trustedBatch.timestamp
  let matchL2Data := Go.encodeToString batch.batch.batchL2Data == Go.encodeToString trustedBatchL2Data
  matchNumber && matchGER && matchLER && matchSR && matchCoinbase && matchTimestamp && matchL2Data

variable (encodeToBytes : List Go.Rlp.Value → Except δ (List UInt8)) (chainId : State.LegacyTx → Nat)
  (executor : State.ProcessBatchRequest H A → Except ε (ProcessBatchResponse H Z))
  (storeTransactions : Nat → List Sequencer.ProcessTransactionResponse → Except ε Unit)
  (unset : Sequencer.ClosingReason × Sequencer.BatchResources Z)

/-- The part of `processTrustedBatch` after the comparison: reset, open,
execute, store and, for a closed trusted batch, close. The request the executor
ran is returned with the table. -/
def resyncTrustedBatch (t : BatchTable H A) (trustedBatch : TrustedBatch H A) (trustedBatchL2Data : List UInt8) :
    Option (Except (TrustedSyncError ε δ) (BatchTable H A × Option (State.ProcessBatchRequest H A))) :=
  let previousBatchNumber := trustedBatch.number - 1
  match State.openBatch (State.PostgresStorage.resetTrustedState t previousBatchNumber.toNat)
      (processCtx trustedBatch) (unixTime trustedBatch.timestamp.toInt64) with
  | .error err => some (.error (.state err))
  | .ok t =>
    (State.processSequencerBatch executor t trustedBatch.number.toNat trustedBatchL2Data).map fun processed => do
      let (request, processBatchResp) ← processed.mapError .processSequencerBatch
      (storeTransactions trustedBatch.number.toNat processBatchResp.responses).mapError .storeTransactions
      let t ← if trustedBatch.stateRoot ≠ 0 then
          (State.closeBatch t (closingReceipt unset trustedBatch trustedBatchL2Data processBatchResp)).mapError .state
        else pure t
      pure (t, some request)

/-- `processTrustedBatch`, in the database transaction: `none` is a panic, and
the request is that of the executor's run, `none` where the batch was already
synchronized. -/
def processTrustedBatch (t : BatchTable H A) (trustedBatch : TrustedBatch H A) :
    Option (Except (TrustedSyncError ε δ) (BatchTable H A × Option (State.ProcessBatchRequest H A))) :=
  match State.encodeTransactions encodeToBytes chainId trustedBatch.transactions with
  | .error err => some (.error (.encode err))
  | .ok trustedBatchL2Data =>
    -- a batch `GetBatchByNumber` does not find is one to synchronize
    if (t.find? trustedBatch.number.toNat).any (isSynchronized · trustedBatch trustedBatchL2Data) then
      some (.ok (t, none))
    else resyncTrustedBatch executor storeTransactions unset t trustedBatch trustedBatchL2Data

variable (batchByNumber : Nat → Except ε' (TrustedBatch H A))

/-- The loop of `syncTrustedState` over the batches left to synchronize. A
failed `processTrustedBatch` rolls its database transaction back and ends the
loop without an error. -/
def syncTrustedBatches : Nat → Nat → BatchTable H A → Option (BatchTable H A × Except ε' Unit)
  | 0, _, t => some (t, .ok ())
  | remaining + 1, batchNumberToSync, t =>
    match batchByNumber batchNumberToSync with
    | .error err => some (t, .error err)
    | .ok batchToSync =>
      match processTrustedBatch encodeToBytes chainId executor storeTransactions unset t batchToSync with
      | none => none
      | some (.error _) => some (t, .ok ())
      | some (.ok (t', _)) => syncTrustedBatches remaining (batchNumberToSync + 1) t'

/-- `syncTrustedState`: `batchNumber` is the trusted sequencer's answer to
`BatchNumber`. -/
def syncTrustedState (isTrustedSequencer : Bool) (batchNumber : Except ε' Nat) (t : BatchTable H A)
    (latestSyncedBatch : Nat) : Option (BatchTable H A × Except ε' Unit) :=
  if isTrustedSequencer then some (t, .ok ())
  else
    match batchNumber with
    | .error err => some (t, .error err)
    | .ok lastTrustedStateBatchNumber =>
      if lastTrustedStateBatchNumber < latestSyncedBatch then some (t, .ok ())
      else syncTrustedBatches encodeToBytes chainId executor storeTransactions unset batchByNumber
        (lastTrustedStateBatchNumber + 1 - latestSyncedBatch) latestSyncedBatch t

end Process

/-- A transaction of zeros, whose frame is the empty RLP list, 64 zero bytes and
`v` = 28. -/
def trustedTx : State.LegacyTx := ⟨0, 0, 0, none, 0, [], 0, 0, 0⟩

def closedTrustedBatch : TrustedBatch Nat Nat := ⟨1, 0, 5, 0, 6, 0, 10, []⟩

def openTrustedBatch : TrustedBatch Nat Nat := ⟨1, 0, 0, 0, 0, 0, 10, [trustedTx]⟩

def emptyListEncoder : List Go.Rlp.Value → Except Unit (List UInt8) := fun _ => .ok [0xc0]

def rootsExecutor : State.ProcessBatchRequest Nat Nat → Except Unit (ProcessBatchResponse Nat Unit) :=
  fun _ => .ok ⟨5, 0, 6, (), []⟩

def storeAll : Nat → List Sequencer.ProcessTransactionResponse → Except Unit Unit := fun _ _ => .ok ()

def unsetClosing : Sequencer.ClosingReason × Sequencer.BatchResources Unit := (.batchFull, ⟨(), 0⟩)

def closedSyncedTable : BatchTable Nat Nat :=
  ⟨[⟨0, 0, ⟨0⟩, 0, none, some ⟨0, 0, 0, []⟩⟩, ⟨1, 0, ⟨10000000000⟩, 0, none, some ⟨5, 6, 0, []⟩⟩], by decide⟩

def openSyncedTable : BatchTable Nat Nat :=
  ⟨[⟨0, 0, ⟨0⟩, 0, none, some ⟨0, 0, 0, []⟩⟩, ⟨1, 0, ⟨10000000000⟩, 0, none, none⟩], by decide⟩

section Runs

variable [DecidableEq H] [DecidableEq A] [Zero H]
  {encodeToBytes : List Go.Rlp.Value → Except δ (List UInt8)} {chainId : State.LegacyTx → Nat}
  {executor : State.ProcessBatchRequest H A → Except ε (ProcessBatchResponse H Z)}
  {storeTransactions : Nat → List Sequencer.ProcessTransactionResponse → Except ε Unit}
  {unset : Sequencer.ClosingReason × Sequencer.BatchResources Z}
  {t t' : BatchTable H A} {trustedBatch : TrustedBatch H A} {trustedBatchL2Data : List UInt8}

theorem isSynchronized_closed (response : ProcessBatchResponse H Z)
    (reproduced : response.newStateRoot = trustedBatch.stateRoot ∧
      response.newLocalExitRoot = trustedBatch.localExitRoot) :
    isSynchronized { State.openedRow (processCtx trustedBatch) (unixTime trustedBatch.timestamp.toInt64) with
        closed := some (State.receiptClosing (closingReceipt unset trustedBatch trustedBatchL2Data response)) }
      trustedBatch trustedBatchL2Data = true := by
  simp [isSynchronized, State.openedRow, processCtx, State.receiptClosing, closingReceipt,
    State.BatchRow.stateRoot, State.BatchRow.localExitRoot, State.BatchRow.batch, toUInt64_unix_unixTime,
    reproduced]

/-- An open batch has no data, so it never matches a trusted batch with data. -/
theorem isSynchronized_open {batch : BatchRow H A} (opened : batch.closed = none)
    (nonempty : trustedBatchL2Data ≠ []) : isSynchronized batch trustedBatch trustedBatchL2Data = false := by
  have member := List.exists_mem_of_ne_nil trustedBatchL2Data nonempty
  simp [isSynchronized, State.BatchRow.batch, opened, Go.encodeToString, member]

theorem processTrustedBatch_of_isSynchronized {batch : BatchRow H A}
    (encoded : State.encodeTransactions encodeToBytes chainId trustedBatch.transactions = .ok trustedBatchL2Data)
    (found : t.find? trustedBatch.number.toNat = some batch)
    (synced : isSynchronized batch trustedBatch trustedBatchL2Data = true) :
    processTrustedBatch encodeToBytes chainId executor storeTransactions unset t trustedBatch = some (.ok (t, none)) := by
  simp [processTrustedBatch, encoded, found, synced]

theorem processTrustedBatch_of_open {batch : BatchRow H A}
    (encoded : State.encodeTransactions encodeToBytes chainId trustedBatch.transactions = .ok trustedBatchL2Data)
    (found : t.find? trustedBatch.number.toNat = some batch) (opened : batch.closed = none)
    (nonempty : trustedBatchL2Data ≠ []) :
    processTrustedBatch encodeToBytes chainId executor storeTransactions unset t trustedBatch =
      resyncTrustedBatch executor storeTransactions unset t trustedBatch trustedBatchL2Data := by
  simp [processTrustedBatch, encoded, found, isSynchronized_open opened nonempty]

theorem processTrustedBatch_ok {executed : Option (State.ProcessBatchRequest H A)}
    (processed : processTrustedBatch encodeToBytes chainId executor storeTransactions unset t trustedBatch =
      some (.ok (t', executed))) :
    ∃ trustedBatchL2Data,
      State.encodeTransactions encodeToBytes chainId trustedBatch.transactions = .ok trustedBatchL2Data ∧
      ((t.find? trustedBatch.number.toNat).any (isSynchronized · trustedBatch trustedBatchL2Data) = true ∧
          t' = t ∧ executed = none ∨
        (resyncTrustedBatch executor storeTransactions unset t trustedBatch trustedBatchL2Data :
          Option (Except (TrustedSyncError ε δ) _)) = some (.ok (t', executed))) := by
  unfold processTrustedBatch at processed
  split at processed
  · cases processed
  · rename_i trustedBatchL2Data encoded
    refine ⟨trustedBatchL2Data, encoded, ?_⟩
    split at processed
    · rename_i synced
      cases processed
      exact .inl ⟨synced, rfl, rfl⟩
    · exact .inr processed

/-- A call that ran the executor went through the synchronization. -/
theorem processTrustedBatch_executed {request : State.ProcessBatchRequest H A}
    (processed : processTrustedBatch encodeToBytes chainId executor storeTransactions unset t trustedBatch =
      some (.ok (t', some request))) :
    ∃ trustedBatchL2Data,
      State.encodeTransactions encodeToBytes chainId trustedBatch.transactions = .ok trustedBatchL2Data ∧
      (resyncTrustedBatch executor storeTransactions unset t trustedBatch trustedBatchL2Data :
        Option (Except (TrustedSyncError ε δ) _)) = some (.ok (t', some request)) := by
  obtain ⟨trustedBatchL2Data, encoded, ⟨-, -, absurd⟩ | resynced⟩ := processTrustedBatch_ok processed
  · cases absurd
  · exact ⟨trustedBatchL2Data, encoded, resynced⟩

omit [DecidableEq A] in
theorem resyncTrustedBatch_ok {executed : Option (State.ProcessBatchRequest H A)}
    (resynced : (resyncTrustedBatch executor storeTransactions unset t trustedBatch trustedBatchL2Data :
      Option (Except (TrustedSyncError ε δ) _)) = some (.ok (t', executed))) :
    ∃ t₁ request response,
      State.openBatch (State.PostgresStorage.resetTrustedState t (trustedBatch.number - 1).toNat)
          (processCtx trustedBatch) (unixTime trustedBatch.timestamp.toInt64) = .ok t₁ ∧
      State.processSequencerBatch executor t₁ trustedBatch.number.toNat trustedBatchL2Data =
        some (.ok (request, response)) ∧
      executed = some request ∧
      (trustedBatch.stateRoot ≠ 0 →
        State.closeBatch t₁ (closingReceipt unset trustedBatch trustedBatchL2Data response) = .ok t') ∧
      (trustedBatch.stateRoot = 0 → t' = t₁) := by
  cases opening : State.openBatch (State.PostgresStorage.resetTrustedState t (trustedBatch.number - 1).toNat)
      (processCtx trustedBatch) (unixTime trustedBatch.timestamp.toInt64) with
  | error err => simp [resyncTrustedBatch, opening] at resynced
  | ok t₁ =>
    simp only [resyncTrustedBatch, opening] at resynced
    obtain ⟨processed, ran, body⟩ := Option.map_eq_some_iff.mp resynced
    obtain ⟨⟨request, response⟩, executed', rest⟩ := Except.bind_eq_ok.mp body
    obtain ⟨-, -, rest⟩ := Except.bind_eq_ok.mp rest
    have executedRequest : State.processSequencerBatch executor t₁ trustedBatch.number.toNat trustedBatchL2Data =
        some (.ok (request, response)) := by
      rw [ran, Except.mapError_eq_ok.mp executed']
    by_cases isOpen : trustedBatch.stateRoot = 0
    · -- an open trusted batch is left open
      simp only [isOpen, ne_eq, not_true_eq_false, if_false, Except.pure_eq_ok, Except.ok_bind, Except.ok.injEq,
        Prod.mk.injEq] at rest
      exact ⟨t₁, request, response, rfl, executedRequest, rest.2.symm, fun closes => absurd isOpen closes,
        fun _ => rest.1.symm⟩
    · simp only [if_pos isOpen] at rest
      obtain ⟨t₂, closed, returned⟩ := Except.bind_eq_ok.mp rest
      simp only [Except.pure_eq_ok, Except.ok.injEq, Prod.mk.injEq] at returned
      obtain ⟨rfl, rfl⟩ := returned
      exact ⟨t₁, request, response, rfl, executedRequest, rfl, fun _ => Except.mapError_eq_ok.mp closed,
        fun stays => absurd stays isOpen⟩

omit [DecidableEq A] in
theorem resyncTrustedBatch_refines {executed : Option (State.ProcessBatchRequest H A)}
    (resynced : (resyncTrustedBatch executor storeTransactions unset t trustedBatch trustedBatchL2Data :
      Option (Except (TrustedSyncError ε δ) _)) = some (.ok (t', executed))) :
    ∃ events : List (State.BatchTable.Event H A Z), State.BatchTable.run t events = t' := by
  obtain ⟨t₁, -, response, opened, -, -, closes, stays⟩ := resyncTrustedBatch_ok resynced
  let reopen : List (State.BatchTable.Event H A Z) :=
    [.resetTrustedState (trustedBatch.number - 1).toNat,
      .openBatch (processCtx trustedBatch) (unixTime trustedBatch.timestamp.toInt64)]
  have reopened : State.BatchTable.run t reopen = t₁ := by
    simp only [reopen, State.BatchTable.run_cons, State.BatchTable.run_nil, State.BatchTable.step_resetTrustedState,
      State.BatchTable.step_openBatch opened]
  by_cases isOpen : trustedBatch.stateRoot = 0
  · exact ⟨reopen, by rw [reopened, stays isOpen]⟩
  · refine ⟨reopen ++ [.closeBatch (closingReceipt unset trustedBatch trustedBatchL2Data response)], ?_⟩
    rw [State.BatchTable.run_append, reopened]
    exact State.BatchTable.step_closeBatch (closes isOpen)

theorem processTrustedBatch_refines {executed : Option (State.ProcessBatchRequest H A)}
    (processed : processTrustedBatch encodeToBytes chainId executor storeTransactions unset t trustedBatch =
      some (.ok (t', executed))) :
    ∃ events : List (State.BatchTable.Event H A Z), State.BatchTable.run t events = t' := by
  obtain ⟨trustedBatchL2Data, -, ⟨-, rfl, -⟩ | resynced⟩ := processTrustedBatch_ok processed
  · exact ⟨[], rfl⟩
  · exact resyncTrustedBatch_refines resynced

theorem syncTrustedBatches_refines {batchByNumber : Nat → Except ε' (TrustedBatch H A)}
    {result : Except ε' Unit} :
    ∀ {remaining batchNumberToSync : Nat} {t : BatchTable H A},
      syncTrustedBatches encodeToBytes chainId executor storeTransactions unset batchByNumber remaining
          batchNumberToSync t = some (t', result) →
        ∃ events : List (State.BatchTable.Event H A Z), State.BatchTable.run t events = t'
  | 0, _, _, synced => by
    cases synced
    exact ⟨[], rfl⟩
  | remaining + 1, batchNumberToSync, t, synced => by
    unfold syncTrustedBatches at synced
    split at synced
    · cases synced
      exact ⟨[], rfl⟩
    · split at synced
      · cases synced
      · -- the failed batch is rolled back
        cases synced
        exact ⟨[], rfl⟩
      · rename_i t₁ _ processed
        obtain ⟨events, ran⟩ := processTrustedBatch_refines processed
        obtain ⟨events', ran'⟩ := syncTrustedBatches_refines synced
        exact ⟨events ++ events', by rw [State.BatchTable.run_append, ran, ran']⟩

omit [DecidableEq A] in
theorem resyncTrustedBatch_ne_none (t : BatchTable H A) (trustedBatch : TrustedBatch H A)
    (trustedBatchL2Data : List UInt8) :
    (resyncTrustedBatch executor storeTransactions unset t trustedBatch trustedBatchL2Data :
      Option (Except (TrustedSyncError ε δ) _)) ≠ none := by
  cases opening : State.openBatch (State.PostgresStorage.resetTrustedState t (trustedBatch.number - 1).toNat)
      (processCtx trustedBatch) (unixTime trustedBatch.timestamp.toInt64) with
  | error err => simp [resyncTrustedBatch, opening]
  | ok t₁ =>
    obtain ⟨previous, -, -, -, built⟩ := State.processBatch_openBatch (ε := ε) opening trustedBatchL2Data
    simp only [processCtx] at built
    simp [resyncTrustedBatch, opening, State.processSequencerBatch, built]

theorem processTrustedBatch_ne_none (t : BatchTable H A) (trustedBatch : TrustedBatch H A) :
    processTrustedBatch encodeToBytes chainId executor storeTransactions unset t trustedBatch ≠ none := by
  unfold processTrustedBatch
  split
  · simp
  · split
    · simp
    · exact resyncTrustedBatch_ne_none _ _ _

theorem syncTrustedBatches_ne_none (batchByNumber : Nat → Except ε' (TrustedBatch H A)) :
    ∀ remaining batchNumberToSync (t : BatchTable H A),
      syncTrustedBatches encodeToBytes chainId executor storeTransactions unset batchByNumber remaining
        batchNumberToSync t ≠ none
  | 0, _, _ => by simp [syncTrustedBatches]
  | remaining + 1, batchNumberToSync, t => by
    unfold syncTrustedBatches
    split
    · simp
    · split
      · rename_i panicked
        exact absurd panicked (processTrustedBatch_ne_none _ _)
      · simp
      · exact syncTrustedBatches_ne_none batchByNumber remaining _ _

/-- The synchronizer never reaches the panic of `processBatch` on an empty
table: it executes a batch only after opening it. -/
theorem syncTrustedState_ne_none (batchByNumber : Nat → Except ε' (TrustedBatch H A)) (isTrustedSequencer : Bool)
    (batchNumber : Except ε' Nat) (t : BatchTable H A) (latestSyncedBatch : Nat) :
    syncTrustedState encodeToBytes chainId executor storeTransactions unset batchByNumber isTrustedSequencer
      batchNumber t latestSyncedBatch ≠ none := by
  unfold syncTrustedState
  split
  · simp
  · split
    · simp
    · split
      · simp
      · exact syncTrustedBatches_ne_none _ _ _ _

/-- `syncTrustedState` leaves the table as it is, or as its loop leaves it. -/
theorem syncTrustedState_eq_some {batchByNumber : Nat → Except ε' (TrustedBatch H A)} {isTrustedSequencer : Bool}
    {batchNumber : Except ε' Nat} {latestSyncedBatch : Nat} {result : Except ε' Unit}
    (synced : syncTrustedState encodeToBytes chainId executor storeTransactions unset batchByNumber
      isTrustedSequencer batchNumber t latestSyncedBatch = some (t', result)) :
    t' = t ∨ ∃ remaining, syncTrustedBatches encodeToBytes chainId executor storeTransactions unset batchByNumber
      remaining latestSyncedBatch t = some (t', result) := by
  unfold syncTrustedState at synced
  -- every branch but the loop returns the table it was given
  repeat' split at synced
  all_goals first
    | exact .inr ⟨_, synced⟩
    | cases synced
      exact .inl rfl

/-- Every table the synchronizer leaves is one that a run of the table's calls
leaves, so its batches stay numbered without a gap and its timestamps in order. -/
theorem syncTrustedState_refines {batchByNumber : Nat → Except ε' (TrustedBatch H A)} {isTrustedSequencer : Bool}
    {batchNumber : Except ε' Nat} {latestSyncedBatch : Nat} {result : Except ε' Unit}
    (synced : syncTrustedState encodeToBytes chainId executor storeTransactions unset batchByNumber
      isTrustedSequencer batchNumber t latestSyncedBatch = some (t', result)) :
    (∃ events : List (State.BatchTable.Event H A Z), State.BatchTable.run t events = t') ∧
      (∀ last, State.BatchTable.Numbered t last → ∃ last', State.BatchTable.Numbered t' last') ∧
      (State.BatchTable.Ordered t → State.BatchTable.Ordered t') := by
  have refines : ∃ events : List (State.BatchTable.Event H A Z), State.BatchTable.run t events = t' := by
    rcases syncTrustedState_eq_some synced with rfl | ⟨remaining, batches⟩
    · exact ⟨[], rfl⟩
    · exact syncTrustedBatches_refines batches
  obtain ⟨events, rfl⟩ := refines
  refine ⟨⟨events, rfl⟩, fun last numbered => ?_, fun ordered => ?_⟩
  · exact State.BatchTable.run_of_apply (P := fun t => ∃ last, State.BatchTable.Numbered t last)
      (fun ⟨_, numbered⟩ applied => numbered.apply applied) events ⟨last, numbered⟩
  · exact State.BatchTable.run_of_apply (fun ordered applied => ordered.apply applied) events ordered

/-- A node at batch 1 that the trusted sequencer has closed batch 1 for. -/
theorem syncTrustedState_refines_batchOne :
    syncTrustedState emptyListEncoder (fun _ => 0) rootsExecutor storeAll unsetClosing
        (fun n => if n = 1 then .ok closedTrustedBatch else .error ()) false (.ok 1) State.genesisTable 1 =
      some (closedSyncedTable, .ok ()) ∧
    (∃ events : List (State.BatchTable.Event Nat Nat Unit),
      State.BatchTable.run State.genesisTable events = closedSyncedTable) ∧
    (∀ last, State.BatchTable.Numbered State.genesisTable last →
      ∃ last', State.BatchTable.Numbered closedSyncedTable last') ∧
    (State.BatchTable.Ordered State.genesisTable → State.BatchTable.Ordered closedSyncedTable) :=
  have synced : syncTrustedState emptyListEncoder (fun _ => 0) rootsExecutor storeAll unsetClosing
      (fun n => if n = 1 then .ok closedTrustedBatch else .error ()) false (.ok 1) State.genesisTable 1 =
      some (closedSyncedTable, .ok ()) := rfl
  ⟨synced, syncTrustedState_refines synced⟩

/-- A closed trusted batch whose roots the executor reproduces is synchronized
once: the next call finds it and leaves the table as it is. -/
theorem processTrustedBatch_idempotent {executed : Option (State.ProcessBatchRequest H A)}
    (processed : processTrustedBatch encodeToBytes chainId executor storeTransactions unset t trustedBatch =
      some (.ok (t', executed)))
    (closed : trustedBatch.stateRoot ≠ 0)
    (reproduced : ∀ request response, executor request = .ok response →
      response.newStateRoot = trustedBatch.stateRoot ∧ response.newLocalExitRoot = trustedBatch.localExitRoot) :
    processTrustedBatch encodeToBytes chainId executor storeTransactions unset t' trustedBatch =
      some (.ok (t', none)) := by
  obtain ⟨trustedBatchL2Data, encoded, ⟨-, rfl, rfl⟩ | resynced⟩ := processTrustedBatch_ok processed
  · exact processed
  obtain ⟨t₁, request, response, opened, ran, -, closes, -⟩ := resyncTrustedBatch_ok resynced
  obtain ⟨-, -, -, -, rfl⟩ := State.closeBatch_ok (closes closed)
  obtain ⟨previous, -, -, -, built⟩ := State.processBatch_openBatch opened trustedBatchL2Data
  have executedBuilt := (State.processSequencerBatch_ok built ran).2
  have found := State.find?_closeBatch_self
    (State.receiptClosing (closingReceipt unset trustedBatch trustedBatchL2Data response)) (State.find?_openBatch opened)
  exact processTrustedBatch_of_isSynchronized encoded found
    (isSynchronized_closed response (reproduced _ _ executedBuilt))

theorem processTrustedBatch_idempotent_batchOne :
    processTrustedBatch emptyListEncoder (fun _ => 0) rootsExecutor storeAll unsetClosing State.genesisTable
        closedTrustedBatch = some (.ok (closedSyncedTable, some ⟨0, 0, [], 0, 0, 0, 10⟩)) ∧
      processTrustedBatch emptyListEncoder (fun _ => 0) rootsExecutor storeAll unsetClosing closedSyncedTable
        closedTrustedBatch = some (.ok (closedSyncedTable, none)) :=
  have processed : processTrustedBatch emptyListEncoder (fun _ => 0) rootsExecutor storeAll unsetClosing
      State.genesisTable closedTrustedBatch = some (.ok (closedSyncedTable, some ⟨0, 0, [], 0, 0, 0, 10⟩)) := rfl
  ⟨processed, processTrustedBatch_idempotent processed (by decide) fun _ _ ran => by
    cases ran
    exact ⟨rfl, rfl⟩⟩

omit [DecidableEq A] in
/-- The second synchronization of a batch from the table the first left is the
first again: the reset to the batch before removes what the first opened. -/
theorem resyncTrustedBatch_repeats {t₁ : BatchTable H A}
    (opened : State.openBatch (State.PostgresStorage.resetTrustedState t (trustedBatch.number - 1).toNat)
      (processCtx trustedBatch) (unixTime trustedBatch.timestamp.toInt64) = .ok t₁) :
    (resyncTrustedBatch executor storeTransactions unset t₁ trustedBatch trustedBatchL2Data :
        Option (Except (TrustedSyncError ε δ) _)) =
      resyncTrustedBatch executor storeTransactions unset t trustedBatch trustedBatchL2Data := by
  have reset := State.resetTrustedState_openBatch opened (previousBatchNumber_lt opened)
  rw [State.resetTrustedState_resetTrustedState] at reset
  simp only [resyncTrustedBatch, reset]

/-- An open trusted batch with transactions is never found synchronized: once
executed, every further call executes it again on the same request and leaves
the same table. -/
theorem processTrustedBatch_reexecutes_open {request : State.ProcessBatchRequest H A}
    (processed : processTrustedBatch encodeToBytes chainId executor storeTransactions unset t trustedBatch =
      some (.ok (t', some request)))
    (opened : trustedBatch.stateRoot = 0) (nonempty : trustedBatch.transactions ≠ []) :
    processTrustedBatch encodeToBytes chainId executor storeTransactions unset t' trustedBatch =
      some (.ok (t', some request)) := by
  obtain ⟨trustedBatchL2Data, encoded, resynced⟩ := processTrustedBatch_executed processed
  have withData : trustedBatchL2Data ≠ [] := by
    obtain ⟨tx, txs, split⟩ := List.exists_cons_of_ne_nil nonempty
    rw [split] at encoded
    exact State.encodeTransactions_ne_nil _ _ encoded
  obtain ⟨t₁, -, -, opening, -, -, -, stays⟩ := resyncTrustedBatch_ok resynced
  obtain rfl := stays opened
  rw [processTrustedBatch_of_open encoded (State.find?_openBatch opening) rfl withData,
    resyncTrustedBatch_repeats opening]
  exact resynced

def openTrustedRequest : State.ProcessBatchRequest Nat Nat :=
  ⟨0, 0, 0xc0 :: List.replicate 64 0 ++ [0x1c], 0, 0, 0, 10⟩

theorem processTrustedBatch_reexecutes_open_batchOne :
    processTrustedBatch emptyListEncoder (fun _ => 0) rootsExecutor storeAll unsetClosing State.genesisTable
        openTrustedBatch = some (.ok (openSyncedTable, some openTrustedRequest)) ∧
      processTrustedBatch emptyListEncoder (fun _ => 0) rootsExecutor storeAll unsetClosing openSyncedTable
        openTrustedBatch = some (.ok (openSyncedTable, some openTrustedRequest)) :=
  have processed : processTrustedBatch emptyListEncoder (fun _ => 0) rootsExecutor storeAll unsetClosing
      State.genesisTable openTrustedBatch = some (.ok (openSyncedTable, some openTrustedRequest)) := rfl
  ⟨processed, processTrustedBatch_reexecutes_open processed rfl (by simp [openTrustedBatch])⟩

/-- The executor runs a trusted batch on the roots of the closed batch before
it, with the trusted batch's coinbase, global exit root and timestamp. -/
theorem processTrustedBatch_request {request : State.ProcessBatchRequest H A}
    (processed : processTrustedBatch encodeToBytes chainId executor storeTransactions unset t trustedBatch =
      some (.ok (t', some request))) :
    ∃ previous trustedBatchL2Data, t.find? (trustedBatch.number.toNat - 1) = some previous ∧
      previous.closed.isSome ∧ 0 < trustedBatch.number.toNat ∧
      State.encodeTransactions encodeToBytes chainId trustedBatch.transactions = .ok trustedBatchL2Data ∧
      request = ⟨trustedBatch.number - 1, trustedBatch.coinbase, trustedBatchL2Data, previous.stateRoot,
        trustedBatch.globalExitRoot, previous.accInputHash, trustedBatch.timestamp⟩ := by
  obtain ⟨trustedBatchL2Data, encoded, resynced⟩ := processTrustedBatch_executed processed
  obtain ⟨t₁, request', response, opening, ran, same, -⟩ := resyncTrustedBatch_ok resynced
  obtain rfl := Option.some.inj same
  obtain ⟨previous, read, numbered, closed, built⟩ := State.processBatch_openBatch opening trustedBatchL2Data
  obtain ⟨rfl, -⟩ := State.processSequencerBatch_ok built ran
  have kept := (Table.mem_delete.mp (State.lastBatch_eq_some.mp read).1).1
  simp only [processCtx] at numbered
  have previousNumber : previous.batchNumber = trustedBatch.number.toNat - 1 := by omega
  refine ⟨previous, trustedBatchL2Data, previousNumber ▸ Table.find?_of_mem kept, closed, by omega, encoded, ?_⟩
  simp [processCtx, toUInt64_unix_unixTime]

theorem processTrustedBatch_request_batchOne :
    processTrustedBatch emptyListEncoder (fun _ => 0) rootsExecutor storeAll unsetClosing State.genesisTable
        openTrustedBatch = some (.ok (openSyncedTable, some openTrustedRequest)) ∧
      ∃ previous trustedBatchL2Data, State.genesisTable.find? 0 = some previous ∧ previous.closed.isSome ∧
        0 < 1 ∧ State.encodeTransactions emptyListEncoder (fun _ => 0) [trustedTx] = .ok trustedBatchL2Data ∧
        openTrustedRequest = ⟨0, 0, trustedBatchL2Data, previous.stateRoot, 0, previous.accInputHash, 10⟩ :=
  have processed : processTrustedBatch emptyListEncoder (fun _ => 0) rootsExecutor storeAll unsetClosing
      State.genesisTable openTrustedBatch = some (.ok (openSyncedTable, some openTrustedRequest)) := rfl
  ⟨processed, processTrustedBatch_request processed⟩

end Runs

end ZkevmNode.Synchronizer
