import ZkevmNode.Lib.Except
import ZkevmNode.Lib.Table
import ZkevmNode.Sequencer.DbManager
import ZkevmNode.Sequencer.SequenceSender

set_option autoImplicit false

/-! The table of batches of the state (`state.batch`), as the calls of
`state/batch.go` and `state/pgstatestorage.go` write it. Each call runs in a
database transaction that its caller rolls back when the call fails, so a run
is any sequence of calls, a failed one changing nothing. -/

namespace ZkevmNode.State

open Sequencer (Time Batch ProcessingContext ProcessingReceipt)

/-- The columns `closeBatch` sets that a read returns; a batch is closed once
they are set. -/
structure Closing (H : Type) where
  stateRoot : H
  localExitRoot : H
  accInputHash : H
  batchL2Data : List UInt8
deriving DecidableEq, Repr

/-- A row of `state.batch`: the columns `openBatch` sets, and those
`closeBatch` sets, unset while the batch is open. -/
structure BatchRow (H A : Type) where
  batchNumber : Nat
  globalExitRoot : H
  timestamp : Time
  coinbase : A
  forcedBatchNum : Option Nat
  closed : Option (Closing H)
deriving DecidableEq, Repr

/-- `scanBatch` of a row: an open batch has no transaction data. -/
def BatchRow.batch {H A : Type} (row : BatchRow H A) : Batch H :=
  ⟨row.batchNumber, row.globalExitRoot, (row.closed.map Closing.batchL2Data).getD [], row.timestamp,
    row.forcedBatchNum⟩

/-- `state.batch`, keyed by `batch_num`. -/
abbrev BatchTable (H A : Type) := Table (@BatchRow.batchNumber H A)

/-- The errors of the calls on the table. -/
inductive BatchError where
  /-- `ErrUnexpectedBatch`, wrapped as `%w number %d, should be %d`. -/
  | unexpectedBatch (number shouldBe : Nat)
  /-- `ErrStateNotSynchronized`: "state not synchronized". -/
  | stateNotSynchronized
  /-- `ErrLastBatchShouldBeClosed`: "last batch needs to be closed before adding a new one". -/
  | lastBatchShouldBeClosed
  /-- `ErrBatchAlreadyClosed`: "batch is already closed". -/
  | batchAlreadyClosed
  /-- `ErrTimestampGE`: "timestamp needs to be greater or equal". -/
  | timestampGE
  /-- `pgx.ErrNoRows`, which `IsBatchClosed` returns as it is. -/
  | noRows
  /-- The unique violation of an insert of a number the table holds. -/
  | uniqueViolation
  /-- An error of the decoding, of the executor, of the conversion of its
  answer or of the storing of the transactions. -/
  | processing
deriving DecidableEq, Repr

variable {H A Z : Type}

/-- The row `openBatch` inserts: the batch of the processing context, open. -/
def openedRow (processingContext : ProcessingContext H A) (timestamp : Time) : BatchRow H A :=
  ⟨processingContext.batchNumber, processingContext.globalExitRoot, timestamp, processingContext.coinbase,
    processingContext.forcedBatchNum, none⟩

/-- The columns `closeBatch` writes from a receipt. -/
def receiptClosing (receipt : ProcessingReceipt H Z) : Closing H :=
  ⟨receipt.stateRoot, receipt.localExitRoot, receipt.accInputHash, receipt.batchL2Data⟩

namespace PostgresStorage

/-- The row that `ORDER BY batch_num DESC LIMIT 1` reads. -/
def lastBatch (t : BatchTable H A) : Option (BatchRow H A) :=
  (t.rows.map BatchRow.batchNumber).max?.bind t.find?

/-- `GetLastBatchNumber`. -/
def getLastBatchNumber (t : BatchTable H A) : Except BatchError Nat :=
  match lastBatch t with
  | some row => .ok row.batchNumber
  | none => .error .stateNotSynchronized

/-- `GetLastBatchTime`. -/
def getLastBatchTime (t : BatchTable H A) : Except BatchError Time :=
  match lastBatch t with
  | some row => .ok row.timestamp
  | none => .error .stateNotSynchronized

/-- `IsBatchClosed`: the global exit root, which `openBatch` always sets, and
the state root are set. -/
def isBatchClosed (t : BatchTable H A) (batchNum : Nat) : Except BatchError Bool :=
  match t.find? batchNum with
  | some row => .ok row.closed.isSome
  | none => .error .noRows

/-- `GetBatchByNumber`. -/
def getBatchByNumber (t : BatchTable H A) (batchNumber : Nat) : Except BatchError (Batch H) :=
  match t.find? batchNumber with
  | some row => .ok row.batch
  | none => .error .stateNotSynchronized

/-- `openBatch`: the insert of the open batch. -/
def openBatch (t : BatchTable H A) (batchContext : ProcessingContext H A) (timestamp : Time) :
    Except BatchError (BatchTable H A) :=
  match t.insert (openedRow batchContext timestamp) with
  | some t' => .ok t'
  | none => .error .uniqueViolation

/-- `closeBatch`: the update of the batch's row, which changes nothing where
the table has no such row. -/
def closeBatch (t : BatchTable H A) (batchNumber : Nat) (closing : Closing H) : BatchTable H A :=
  match t.find? batchNumber with
  | some row => t.update { row with closed := some closing }
  | none => t

/-- `ResetTrustedState`. -/
def resetTrustedState (t : BatchTable H A) (batchNumber : Nat) : BatchTable H A :=
  t.delete fun row => decide (row.batchNumber > batchNumber)

end PostgresStorage

/-- `OpenBatch`. -/
def openBatch (t : BatchTable H A) (processingContext : ProcessingContext H A) (timestamp : Time) :
    Except BatchError (BatchTable H A) := do
  let lastBatchNum ← PostgresStorage.getLastBatchNumber t
  if lastBatchNum + 1 ≠ processingContext.batchNumber then
    throw (.unexpectedBatch processingContext.batchNumber (lastBatchNum + 1))
  let isLastBatchClosed ← PostgresStorage.isBatchClosed t lastBatchNum
  if !isLastBatchClosed then throw .lastBatchShouldBeClosed
  let prevTimestamp ← PostgresStorage.getLastBatchTime t
  if prevTimestamp.unix > timestamp.unix then throw .timestampGE
  PostgresStorage.openBatch t processingContext timestamp

/-- `isBatchClosable`. -/
def isBatchClosable (t : BatchTable H A) (receipt : ProcessingReceipt H Z) : Except BatchError Unit := do
  let lastBatchNum ← PostgresStorage.getLastBatchNumber t
  if lastBatchNum ≠ receipt.batchNumber then
    throw (.unexpectedBatch receipt.batchNumber lastBatchNum)
  let isLastBatchClosed ← PostgresStorage.isBatchClosed t lastBatchNum
  if isLastBatchClosed then throw .batchAlreadyClosed

/-- `CloseBatch`. -/
def closeBatch (t : BatchTable H A) (receipt : ProcessingReceipt H Z) : Except BatchError (BatchTable H A) := do
  isBatchClosable t receipt
  pure (PostgresStorage.closeBatch t receipt.batchNumber (receiptClosing receipt))

/-- `ProcessAndStoreClosedBatch`: the new state root and the table. `processed`
is the executor's answer once converted and its transactions stored, `none`
where one of these fails. -/
def processAndStoreClosedBatch (t : BatchTable H A) (processingCtx : ProcessingContext H A) (timestamp : Time)
    (encodedTxs : List UInt8) (processed : Option (Sequencer.ProcessBatchResponse H Z)) :
    Except BatchError (H × BatchTable H A) := do
  let t ← openBatch t processingCtx timestamp
  match processed with
  | none => throw .processing
  | some processedBatch =>
    pure (processedBatch.newStateRoot,
      PostgresStorage.closeBatch t processingCtx.batchNumber
        ⟨processedBatch.newStateRoot, processedBatch.newLocalExitRoot, processedBatch.newAccInputHash, encodedTxs⟩)

namespace BatchTable

/-- The calls that write the table, each in a database transaction. -/
inductive Event (H A Z : Type) where
  | openBatch (processingContext : ProcessingContext H A) (timestamp : Time)
  | closeBatch (receipt : ProcessingReceipt H Z)
  | processAndStoreClosedBatch (processingCtx : ProcessingContext H A) (timestamp : Time)
      (encodedTxs : List UInt8) (processed : Option (Sequencer.ProcessBatchResponse H Z))
  | resetTrustedState (batchNumber : Nat)

/-- The table a call leaves, or its error. -/
def Event.apply : Event H A Z → BatchTable H A → Except BatchError (BatchTable H A)
  | .openBatch processingContext timestamp, t => State.openBatch t processingContext timestamp
  | .closeBatch receipt, t => State.closeBatch t receipt
  | .processAndStoreClosedBatch processingCtx timestamp encodedTxs processed, t =>
    (State.processAndStoreClosedBatch t processingCtx timestamp encodedTxs processed).map Prod.snd
  | .resetTrustedState batchNumber, t => .ok (PostgresStorage.resetTrustedState t batchNumber)

/-- A call, rolled back when it fails. -/
def step (t : BatchTable H A) (event : Event H A Z) : BatchTable H A :=
  match event.apply t with
  | .ok t' => t'
  | .error _ => t

/-- A run: the calls in the order they commit. -/
def run (t : BatchTable H A) (events : List (Event H A Z)) : BatchTable H A := events.foldl step t

@[simp] theorem run_nil (t : BatchTable H A) : run t ([] : List (Event H A Z)) = t := rfl

@[simp] theorem run_cons (t : BatchTable H A) (event : Event H A Z) (events : List (Event H A Z)) :
    run t (event :: events) = run (step t event) events := rfl

theorem step_of_apply {P : BatchTable H A → Prop} {t : BatchTable H A} {event : Event H A Z}
    (holds : P t) (applied : ∀ t', event.apply t = .ok t' → P t') : P (step t event) := by
  unfold step
  cases result : event.apply t with
  | ok t' => exact applied t' result
  | error _ => exact holds

@[simp] theorem step_resetTrustedState (t : BatchTable H A) (n : Nat) :
    step t (.resetTrustedState n : Event H A Z) = PostgresStorage.resetTrustedState t n := rfl

theorem step_eq {t t' : BatchTable H A} {event : Event H A Z} (applied : event.apply t = .ok t') :
    step t event = t' := by
  simp [step, applied]

theorem step_openBatch {t t' : BatchTable H A} {processingContext : ProcessingContext H A} {timestamp : Time}
    (opened : State.openBatch t processingContext timestamp = .ok t') :
    step t (.openBatch processingContext timestamp : Event H A Z) = t' :=
  step_eq opened

theorem step_closeBatch {t t' : BatchTable H A} {receipt : ProcessingReceipt H Z}
    (closed : State.closeBatch t receipt = .ok t') : step t (.closeBatch receipt) = t' :=
  step_eq closed

@[simp] theorem run_append (t : BatchTable H A) (events events' : List (Event H A Z)) :
    run t (events ++ events') = run (run t events) events' :=
  List.foldl_append

theorem run_of_apply {P : BatchTable H A → Prop}
    (preserved : ∀ {t t' : BatchTable H A} {event : Event H A Z}, P t → event.apply t = .ok t' → P t') :
    ∀ (events : List (Event H A Z)) {t : BatchTable H A}, P t → P (run t events)
  | [], _, holds => holds
  | _ :: events, _, holds =>
    run_of_apply preserved events (step_of_apply holds fun _ applied => preserved holds applied)

end BatchTable

def genesisTable : BatchTable Nat Nat := ⟨[⟨0, 0, ⟨0⟩, 0, none, some ⟨0, 0, 0, []⟩⟩], by decide⟩

def sequencerEvents : List (BatchTable.Event Nat Nat Unit) :=
  [.openBatch ⟨1, 0, 0, none⟩ ⟨10000000000⟩, .closeBatch ⟨1, 1, 1, 1, [], .batchFull, ⟨(), 0⟩⟩,
    .openBatch ⟨2, 0, 0, none⟩ ⟨20000000000⟩]

section Reads

variable {t : BatchTable H A}

theorem lastBatch_eq_some {row : BatchRow H A} :
    PostgresStorage.lastBatch t = some row ↔
      row ∈ t.rows ∧ ∀ row' ∈ t.rows, row'.batchNumber ≤ row.batchNumber := by
  unfold PostgresStorage.lastBatch
  constructor
  · intro found
    obtain ⟨greatest, top, read⟩ := Option.bind_eq_some_iff.mp found
    have numbered : row.batchNumber = greatest := Table.find?_key read
    have above := (List.max?_eq_some_iff.mp top).2
    exact ⟨Table.mem_of_find? read, fun row' member => numbered ▸ above _ (List.mem_map_of_mem member)⟩
  · rintro ⟨member, above⟩
    have top : (t.rows.map BatchRow.batchNumber).max? = some row.batchNumber :=
      List.max?_eq_some_iff.mpr ⟨List.mem_map_of_mem member, by simpa using above⟩
    rw [top, Option.bind_some]
    exact Table.find?_of_mem member

variable {row : BatchRow H A}

theorem getLastBatchNumber_of_lastBatch (read : PostgresStorage.lastBatch t = some row) :
    PostgresStorage.getLastBatchNumber t = .ok row.batchNumber := by
  simp [PostgresStorage.getLastBatchNumber, read]

theorem getLastBatchTime_of_lastBatch (read : PostgresStorage.lastBatch t = some row) :
    PostgresStorage.getLastBatchTime t = .ok row.timestamp := by
  simp [PostgresStorage.getLastBatchTime, read]

theorem isBatchClosed_of_find? {n : Nat} (found : t.find? n = some row) :
    PostgresStorage.isBatchClosed t n = .ok row.closed.isSome := by
  simp [PostgresStorage.isBatchClosed, found]

end Reads

section Writes

variable {t t' : BatchTable H A}

theorem openBatch_ok {processingContext : ProcessingContext H A} {timestamp : Time}
    (opened : openBatch t processingContext timestamp = .ok t') :
    ∃ row, PostgresStorage.lastBatch t = some row ∧ row.batchNumber + 1 = processingContext.batchNumber ∧
      row.closed.isSome ∧ row.timestamp.unix ≤ timestamp.unix ∧
      t.insert (openedRow processingContext timestamp) = some t' := by
  unfold openBatch at opened
  cases read : PostgresStorage.lastBatch t with
  | none => simp [PostgresStorage.getLastBatchNumber, read] at opened
  | some row =>
    have found : t.find? row.batchNumber = some row := Table.find?_of_mem (lastBatch_eq_some.mp read).1
    simp only [getLastBatchNumber_of_lastBatch read, isBatchClosed_of_find? found,
      getLastBatchTime_of_lastBatch read, Except.ok_bind, Except.throw_eq_error, Except.error_bind] at opened
    -- a failed check returns its error; past the three, the insert took the new number
    split_ifs at opened with next closed late
    have inserted : t.insert (openedRow processingContext timestamp) = some t' := by
      unfold PostgresStorage.openBatch at opened
      split at opened
      · rename_i inserted
        cases opened
        exact inserted
      · cases opened
    exact ⟨row, rfl, not_not.mp next, Option.isSome_iff_ne_none.mpr (by simpa using closed), Int64.not_lt.mp late,
      inserted⟩

theorem openBatch_of_checks {processingContext : ProcessingContext H A} {timestamp : Time} {row : BatchRow H A}
    (read : PostgresStorage.lastBatch t = some row) (next : row.batchNumber + 1 = processingContext.batchNumber)
    (closed : row.closed.isSome) (inTime : row.timestamp.unix ≤ timestamp.unix) :
    ∃ t', openBatch t processingContext timestamp = .ok t' := by
  obtain ⟨lastMember, greatest⟩ := lastBatch_eq_some.mp read
  have found : t.find? row.batchNumber = some row := Table.find?_of_mem lastMember
  have fresh : (openedRow processingContext timestamp).batchNumber ∉ t.rows.map BatchRow.batchNumber :=
    fun taken => by
      obtain ⟨other, member, same⟩ := List.mem_map.mp taken
      have below := greatest other member
      simp only [openedRow] at same
      omega
  obtain ⟨t', inserted⟩ := Option.ne_none_iff_exists'.mp (Table.insert_eq_none.not.mpr fresh)
  refine ⟨t', ?_⟩
  unfold openBatch
  simp [getLastBatchNumber_of_lastBatch read, isBatchClosed_of_find? found, getLastBatchTime_of_lastBatch read,
    next, closed, Int64.not_lt.mpr inTime, PostgresStorage.openBatch, inserted]

theorem isBatchClosable_ok {receipt : ProcessingReceipt H Z} (closable : isBatchClosable t receipt = .ok ()) :
    ∃ row, PostgresStorage.lastBatch t = some row ∧ row.batchNumber = receipt.batchNumber ∧ row.closed = none := by
  unfold isBatchClosable at closable
  cases read : PostgresStorage.lastBatch t with
  | none => simp [PostgresStorage.getLastBatchNumber, read] at closable
  | some row =>
    have found : t.find? row.batchNumber = some row := Table.find?_of_mem (lastBatch_eq_some.mp read).1
    simp only [getLastBatchNumber_of_lastBatch read, isBatchClosed_of_find? found, Except.ok_bind,
      Except.throw_eq_error, Except.error_bind] at closable
    split_ifs at closable with last closed
    exact ⟨row, rfl, not_not.mp last, by simpa using closed⟩

theorem closeBatch_ok {receipt : ProcessingReceipt H Z} (closed : closeBatch t receipt = .ok t') :
    ∃ row, PostgresStorage.lastBatch t = some row ∧ row.batchNumber = receipt.batchNumber ∧ row.closed = none ∧
      t' = PostgresStorage.closeBatch t receipt.batchNumber (receiptClosing receipt) := by
  unfold closeBatch at closed
  obtain ⟨⟨⟩, closable, written⟩ := Except.bind_eq_ok.mp closed
  obtain ⟨row, read, numbered, unclosed⟩ := isBatchClosable_ok closable
  exact ⟨row, read, numbered, unclosed, (Except.ok.inj written).symm⟩

theorem processAndStoreClosedBatch_ok {processingCtx : ProcessingContext H A} {timestamp : Time}
    {encodedTxs : List UInt8} {processed : Option (Sequencer.ProcessBatchResponse H Z)} {root : H}
    (stored : processAndStoreClosedBatch t processingCtx timestamp encodedTxs processed = .ok (root, t')) :
    ∃ t₁ response, openBatch t processingCtx timestamp = .ok t₁ ∧ processed = some response ∧
      root = response.newStateRoot ∧
      t' = PostgresStorage.closeBatch t₁ processingCtx.batchNumber
        ⟨response.newStateRoot, response.newLocalExitRoot, response.newAccInputHash, encodedTxs⟩ := by
  unfold processAndStoreClosedBatch at stored
  obtain ⟨t₁, opened, closed⟩ := Except.bind_eq_ok.mp stored
  cases processed with
  | none => cases closed
  | some response =>
    obtain ⟨rooted, written⟩ := Prod.mk.inj (Except.ok.inj closed)
    exact ⟨t₁, response, opened, rfl, rooted.symm, written.symm⟩

theorem mem_closeBatch {n : Nat} {closing : Closing H} {row : BatchRow H A}
    (member : row ∈ (PostgresStorage.closeBatch t n closing).rows) :
    row ∈ t.rows ∨ ∃ old ∈ t.rows, row = { old with closed := some closing } := by
  unfold PostgresStorage.closeBatch at member
  split at member
  · rename_i old found
    rcases Table.mem_update member with kept | rfl
    · exact .inl kept
    · exact .inr ⟨old, Table.mem_of_find? found, rfl⟩
  · exact .inl member

theorem isSome_find?_closeBatch (n : Nat) (closing : Closing H) (k : Nat) :
    ((PostgresStorage.closeBatch t n closing).find? k).isSome = (t.find? k).isSome := by
  unfold PostgresStorage.closeBatch
  split
  · rw [Table.find?_update]
    split <;> simp
  · rfl

end Writes

namespace BatchTable

section Numbered

variable {t t' : BatchTable H A} {last : Nat}

/-- The batches are those numbered from 0 to `last`, and every batch before
the last is closed. -/
structure Numbered (t : BatchTable H A) (last : Nat) : Prop where
  bounded : ∀ row ∈ t.rows, row.batchNumber ≤ last
  present : ∀ n ≤ last, (t.find? n).isSome
  closedBelow : ∀ row ∈ t.rows, row.batchNumber < last → row.closed.isSome

instance (t : BatchTable H A) (last : Nat) : Decidable (Numbered t last) :=
  decidable_of_iff ((∀ row ∈ t.rows, row.batchNumber ≤ last) ∧ (∀ n ≤ last, (t.find? n).isSome) ∧
      ∀ row ∈ t.rows, row.batchNumber < last → row.closed.isSome)
    ⟨fun ⟨bounded, present, closedBelow⟩ => ⟨bounded, present, closedBelow⟩,
      fun numbered => ⟨numbered.bounded, numbered.present, numbered.closedBelow⟩⟩

theorem Numbered.lastBatch (numbered : Numbered t last) :
    ∃ row, t.find? last = some row ∧ PostgresStorage.lastBatch t = some row := by
  obtain ⟨row, found⟩ := Option.isSome_iff_exists.mp (numbered.present last (Nat.le_refl last))
  have numberedRow : row.batchNumber = last := Table.find?_key found
  exact ⟨row, found, lastBatch_eq_some.mpr
    ⟨Table.mem_of_find? found, fun row' member => numberedRow ▸ numbered.bounded row' member⟩⟩

theorem Numbered.isBatchClosed_after (numbered : Numbered t last) :
    PostgresStorage.isBatchClosed t (last + 1) = .error .noRows := by
  have missing : t.find? (last + 1) = none := Table.find?_eq_none.mpr fun member => by
    obtain ⟨row, inside, numberedRow⟩ := List.mem_map.mp member
    have within := numbered.bounded row inside
    omega
  simp [PostgresStorage.isBatchClosed, missing]

theorem Numbered.isBatchClosed_ne_false (numbered : Numbered t last)
    (closedLast : PostgresStorage.isBatchClosed t last = .ok true) (n : Nat) :
    PostgresStorage.isBatchClosed t n ≠ .ok false := by
  cases found : t.find? n with
  | none => simp [PostgresStorage.isBatchClosed, found]
  | some row =>
    have numberedRow : row.batchNumber = n := Table.find?_key found
    rw [isBatchClosed_of_find? found]
    rcases Nat.lt_or_ge n last with earlier | later
    · rw [numbered.closedBelow row (Table.mem_of_find? found) (numberedRow ▸ earlier)]
      exact fun same => by cases same
    · have atLast : n = last := Nat.le_antisymm (numberedRow ▸ numbered.bounded row (Table.mem_of_find? found)) later
      subst atLast
      rw [← isBatchClosed_of_find? found, closedLast]
      exact fun same => by cases same

theorem Numbered.openBatch {processingContext : ProcessingContext H A} {timestamp : Time}
    (numbered : Numbered t last) (opened : State.openBatch t processingContext timestamp = .ok t') :
    Numbered t' (last + 1) := by
  obtain ⟨row, read, next, closed, -, inserted⟩ := openBatch_ok opened
  obtain ⟨lastRow, foundLast, readLast⟩ := numbered.lastBatch
  obtain rfl : row = lastRow := Option.some.inj (read.symm.trans readLast)
  have numberedLast : row.batchNumber = last := Table.find?_key foundLast
  have fresh : (openedRow processingContext timestamp).batchNumber = last + 1 := by
    simp only [openedRow]
    omega
  refine ⟨fun row' member => ?_, fun n within => ?_, fun row' member below => ?_⟩
  · rcases Table.mem_insert inserted member with old | rfl
    · exact Nat.le_succ_of_le (numbered.bounded row' old)
    · exact fresh.le
  · rw [Table.find?_insert inserted]
    split
    · rfl
    · rename_i other
      exact numbered.present n (by omega)
  · rcases Table.mem_insert inserted member with old | rfl
    · rcases Nat.lt_or_ge row'.batchNumber last with earlier | atLast
      · exact numbered.closedBelow row' old earlier
      · -- the batch that was the last, which `OpenBatch` found closed
        have same : row' = row :=
          List.inj_on_of_nodup_map t.keyed old (Table.mem_of_find? foundLast) (by omega)
        exact same ▸ closed
    · exact absurd below (by omega)

theorem Numbered.closeBatch (numbered : Numbered t last) (n : Nat) (closing : Closing H) :
    Numbered (PostgresStorage.closeBatch t n closing) last := by
  refine ⟨fun row member => ?_, fun m within => ?_, fun row member below => ?_⟩
  · rcases mem_closeBatch member with kept | ⟨old, oldMember, rfl⟩
    · exact numbered.bounded row kept
    · exact numbered.bounded old oldMember
  · rw [isSome_find?_closeBatch]
    exact numbered.present m within
  · rcases mem_closeBatch member with kept | ⟨old, oldMember, rfl⟩
    · exact numbered.closedBelow row kept below
    · rfl

theorem Numbered.resetTrustedState (numbered : Numbered t last) (n : Nat) :
    Numbered (PostgresStorage.resetTrustedState t n) (min n last) := by
  refine ⟨fun row member => ?_, fun m within => ?_, fun row member below => ?_⟩
  · obtain ⟨kept, notAfter⟩ := Table.mem_delete.mp member
    have upTo : row.batchNumber ≤ n := by simpa using notAfter
    exact Nat.le_min.mpr ⟨upTo, numbered.bounded row kept⟩
  · obtain ⟨row, found⟩ := Option.isSome_iff_exists.mp (numbered.present m (Nat.le_trans within (Nat.min_le_right _ _)))
    have numberedRow : row.batchNumber = m := Table.find?_key found
    have notAfter : ¬ row.batchNumber > n := by
      have := Nat.le_trans within (Nat.min_le_left _ _)
      omega
    unfold PostgresStorage.resetTrustedState
    rw [Table.find?_delete, found]
    simp [notAfter]
  · exact numbered.closedBelow row (Table.mem_delete.mp member).1
      (Nat.lt_of_lt_of_le below (Nat.min_le_right _ _))

/-- The synchronizer's reset of the trusted state to a closed batch, followed
by the opening of the batch after it, fails on none of the checks of
`OpenBatch` but the timestamp's: the reset leaves that batch the last. -/
theorem openBatch_after_resetTrustedState {n : Nat} {row : BatchRow H A}
    {processingContext : ProcessingContext H A} {timestamp : Time} (numbered : Numbered t last)
    (found : t.find? n = some row) (closed : row.closed.isSome) (inTime : row.timestamp.unix ≤ timestamp.unix)
    (next : processingContext.batchNumber = n + 1) :
    ∃ t', State.openBatch (PostgresStorage.resetTrustedState t n) processingContext timestamp = .ok t' ∧
      Numbered t' (n + 1) := by
  have numberedRow : row.batchNumber = n := Table.find?_key found
  have within : n ≤ last := numberedRow ▸ numbered.bounded row (Table.mem_of_find? found)
  have reset := numbered.resetTrustedState n
  rw [Nat.min_eq_left within] at reset
  have kept : (PostgresStorage.resetTrustedState t n).find? n = some row := by
    unfold PostgresStorage.resetTrustedState
    rw [Table.find?_delete, found]
    simp [numberedRow]
  obtain ⟨lastRow, foundLast, read⟩ := reset.lastBatch
  obtain rfl : row = lastRow := Option.some.inj (kept.symm.trans foundLast)
  obtain ⟨t', opened⟩ := openBatch_of_checks read (by rw [numberedRow, next]) closed inTime
  exact ⟨t', opened, reset.openBatch opened⟩

/-- The synchronizer replaces batch 2 after batch 1, which is closed. -/
theorem openBatch_after_resetTrustedState_sequencer :
    Numbered (run genesisTable sequencerEvents) 2 ∧
      ∃ t', State.openBatch (PostgresStorage.resetTrustedState (run genesisTable sequencerEvents) 1)
          ⟨2, 0, 0, none⟩ ⟨15000000000⟩ = .ok t' ∧ Numbered t' 2 :=
  have numbered : Numbered (run genesisTable sequencerEvents) 2 := by decide
  have found : (run genesisTable sequencerEvents).find? 1 =
      some ⟨1, 0, ⟨10000000000⟩, 0, none, some ⟨1, 1, 1, []⟩⟩ := by decide
  ⟨numbered, openBatch_after_resetTrustedState numbered found rfl (by decide) rfl⟩

theorem Numbered.apply (numbered : Numbered t last) {event : Event H A Z} (applied : event.apply t = .ok t') :
    ∃ last', Numbered t' last' := by
  cases event with
  | openBatch processingContext timestamp => exact ⟨last + 1, numbered.openBatch applied⟩
  | closeBatch receipt =>
    obtain ⟨-, -, -, -, rfl⟩ := closeBatch_ok applied
    exact ⟨last, numbered.closeBatch _ _⟩
  | processAndStoreClosedBatch processingCtx timestamp encodedTxs processed =>
    obtain ⟨⟨root, t''⟩, stored, rfl⟩ := Except.map_eq_ok.mp applied
    obtain ⟨t₁, response, opened, -, -, rfl⟩ := processAndStoreClosedBatch_ok stored
    exact ⟨last + 1, (numbered.openBatch opened).closeBatch _ _⟩
  | resetTrustedState n =>
    cases applied
    exact ⟨min n last, numbered.resetTrustedState n⟩

/-- Every run keeps the batches numbered from 0 to the last without a gap, all
but the last closed. -/
theorem numbered_run : ∀ (events : List (Event H A Z)) {t : BatchTable H A} {last : Nat},
    Numbered t last → ∃ last', Numbered (run t events) last' :=
  fun events _ last numbered =>
    run_of_apply (P := fun t => ∃ last, Numbered t last) (fun ⟨_, numbered⟩ applied => numbered.apply applied)
      events ⟨last, numbered⟩

theorem numbered_run_sequencer :
    Numbered genesisTable 0 ∧ ∃ last, Numbered (run genesisTable sequencerEvents) last :=
  have numbered : Numbered genesisTable 0 := by decide
  ⟨numbered, numbered_run sequencerEvents numbered⟩

end Numbered

section Ordered

variable {t t' : BatchTable H A}

/-- From a batch to the next, the timestamp in seconds never goes back. -/
def Ordered (t : BatchTable H A) : Prop :=
  ∀ row ∈ t.rows, ∀ row' ∈ t.rows, row'.batchNumber = row.batchNumber + 1 →
    row.timestamp.unix ≤ row'.timestamp.unix

instance (t : BatchTable H A) : Decidable (Ordered t) :=
  inferInstanceAs (Decidable (∀ row ∈ t.rows, ∀ row' ∈ t.rows, row'.batchNumber = row.batchNumber + 1 →
    row.timestamp.unix ≤ row'.timestamp.unix))

theorem Ordered.of_rows (ordered : Ordered t)
    (kept : ∀ row ∈ t'.rows, ∃ old ∈ t.rows, old.batchNumber = row.batchNumber ∧ old.timestamp = row.timestamp) :
    Ordered t' := by
  intro row member row' member' next
  obtain ⟨old, oldMember, number, time⟩ := kept row member
  obtain ⟨old', oldMember', number', time'⟩ := kept row' member'
  rw [← time, ← time']
  exact ordered old oldMember old' oldMember' (by omega)

theorem Ordered.closeBatch (ordered : Ordered t) (n : Nat) (closing : Closing H) :
    Ordered (PostgresStorage.closeBatch t n closing) :=
  ordered.of_rows fun row member => by
    rcases mem_closeBatch member with kept | ⟨old, oldMember, rfl⟩
    · exact ⟨row, kept, rfl, rfl⟩
    · exact ⟨old, oldMember, rfl, rfl⟩

theorem Ordered.resetTrustedState (ordered : Ordered t) (n : Nat) :
    Ordered (PostgresStorage.resetTrustedState t n) :=
  ordered.of_rows fun row member => ⟨row, (Table.mem_delete.mp member).1, rfl, rfl⟩

theorem Ordered.openBatch {processingContext : ProcessingContext H A} {timestamp : Time}
    (ordered : Ordered t) (opened : State.openBatch t processingContext timestamp = .ok t') : Ordered t' := by
  obtain ⟨row, read, next, -, inTime, inserted⟩ := openBatch_ok opened
  obtain ⟨lastMember, greatest⟩ := lastBatch_eq_some.mp read
  have fresh : (openedRow processingContext timestamp).batchNumber = row.batchNumber + 1 := next.symm
  intro before member after member' follows
  rcases Table.mem_insert inserted member with old | rfl <;>
    rcases Table.mem_insert inserted member' with old' | rfl
  · exact ordered before old after old' follows
  · -- the new batch follows the greatest
    have same : before = row := List.inj_on_of_nodup_map t.keyed old lastMember (by omega)
    exact same ▸ inTime
  · -- no batch follows one after the greatest
    exact absurd (greatest after old') (by omega)
  · exact absurd follows (by omega)

theorem Ordered.apply (ordered : Ordered t) {event : Event H A Z} (applied : event.apply t = .ok t') :
    Ordered t' := by
  cases event with
  | openBatch processingContext timestamp => exact ordered.openBatch applied
  | closeBatch receipt =>
    obtain ⟨-, -, -, -, rfl⟩ := closeBatch_ok applied
    exact ordered.closeBatch _ _
  | processAndStoreClosedBatch processingCtx timestamp encodedTxs processed =>
    obtain ⟨⟨root, t''⟩, stored, rfl⟩ := Except.map_eq_ok.mp applied
    obtain ⟨t₁, response, opened, -, -, rfl⟩ := processAndStoreClosedBatch_ok stored
    exact (ordered.openBatch opened).closeBatch _ _
  | resetTrustedState n =>
    cases applied
    exact ordered.resetTrustedState n

/-- Every run keeps the timestamps from going back from a batch to the next. -/
theorem ordered_timestamps_run : ∀ (events : List (Event H A Z)) {t : BatchTable H A}, Ordered t → Ordered (run t events) :=
  run_of_apply fun ordered applied => ordered.apply applied

theorem ordered_run_sequencer :
    Ordered genesisTable ∧ Ordered (run genesisTable sequencerEvents) :=
  have ordered : Ordered genesisTable := by decide
  ⟨ordered, ordered_timestamps_run sequencerEvents ordered⟩

end Ordered

end BatchTable

section SequenceSender

open Sequencer (Env Sequence Sequenced getSequencesToSend sequenceOf)

/-- The sequence sender's answers, where those of the state are read from the
table. -/
def stateEnv (env : Env BatchError H) (t : BatchTable H A) : Env BatchError H :=
  { env with
    isBatchClosed := PostgresStorage.isBatchClosed t
    getBatchByNumber := PostgresStorage.getBatchByNumber t
    getLastBatchNumber := PostgresStorage.getLastBatchNumber t }

variable {env : Env BatchError H} {t : BatchTable H A} {cfg : Sequencer.Config}
  {order : List (List Char × Etherman.Error)}

theorem sequenceOf_stateEnv {n : Nat} {seq : Sequence H} (built : sequenceOf (stateEnv env t) n = .ok seq) :
    ∃ row, t.find? n = some row ∧ seq.timestamp = row.timestamp.unix := by
  obtain ⟨batch, read, -, stamp, -⟩ := Sequencer.sequenceOf_ok built
  change PostgresStorage.getBatchByNumber t n = .ok batch at read
  unfold PostgresStorage.getBatchByNumber at read
  cases found : t.find? n with
  | none => simp [found] at read
  | some row =>
    simp only [found, Except.ok.injEq] at read
    subst read
    exact ⟨row, rfl, stamp⟩

theorem timestamps_chain (ordered : BatchTable.Ordered t) {first : Nat} {sequences : List (Sequence H)}
    (sequenced : Sequenced (stateEnv env t) first sequences) :
    List.IsChain (· ≤ ·) (sequences.map (·.timestamp)) := by
  rw [List.isChain_iff_getElem]
  intro i within
  rw [List.length_map] at within
  obtain ⟨row, found, stamp⟩ := sequenceOf_stateEnv (sequenced i (by omega)).2
  obtain ⟨row', found', stamp'⟩ := sequenceOf_stateEnv (sequenced (i + 1) within).2
  rw [List.getElem_map, List.getElem_map, stamp, stamp']
  refine ordered row (Table.mem_of_find? found) row' (Table.mem_of_find? found') ?_
  rw [Table.find?_key found, Table.find?_key found']
  omega

/-- The sequence sender stops the process only when the contract's
`lastTimestamp` is after the timestamp of the first batch it has not
sequenced: on a table whose timestamps do not go back, as every run keeps
them, the sequences' own timestamps never do. -/
theorem getSequencesToSend_panics_behind {fuel : Nat} (ordered : BatchTable.Ordered t)
    (stopped : getSequencesToSend (stateEnv env t) cfg order fuel = .panics) :
    ∃ last row lastTimestamp, env.getLastVirtualBatchNum = .ok last ∧ t.find? (last + 1) = some row ∧
      env.getLastBatchTimestamp = .ok lastTimestamp ∧ row.timestamp.unix < lastTimestamp.toInt64 := by
  obtain ⟨last, sequences, lastTimestamp, started, sequenced, -, read, checked⟩ :=
    Sequencer.panics_sequenced stopped
  cases sequences with
  | nil => simp [Sequencer.checkTimestamps] at checked
  | cons seq rest =>
    have rising := timestamps_chain ordered sequenced
    have broken : ¬ List.IsChain (· ≤ ·) (lastTimestamp.toInt64 :: (seq :: rest).map (·.timestamp)) := by
      rw [← Sequencer.checkTimestamps_eq_true, checked]
      exact Bool.false_ne_true
    rw [List.map_cons] at rising broken
    rw [List.isChain_cons_cons] at broken
    -- the sequences rise, so the first is below the contract's timestamp
    have behind : seq.timestamp < lastTimestamp.toInt64 := Int64.not_le.mp fun ahead => broken ⟨ahead, rising⟩
    obtain ⟨row, found, stamp⟩ := sequenceOf_stateEnv (sequenced 0 (by simp)).2
    rw [Nat.add_zero] at found
    exact ⟨last, row, lastTimestamp, started, found, read, stamp ▸ behind⟩

/-- L1 after batch 0: the contract's last batch is at second 15, and it refuses
every sequence on its timestamp range. -/
def lateL1 : Env BatchError Nat where
  getLastVirtualBatchNum := .ok 0
  isBatchClosed _ := .error .noRows
  getBatchByNumber _ := .error .stateNotSynchronized
  getForcedBatch _ := .ok ⟨0⟩
  sequenceBatches _ := .error .timestampMustBeInsideRange
  getTimeForLatestBatchVirtualization := .error none
  getLastBatchTimestamp := .ok 15
  now := ⟨0⟩
  getLastBatchNumber := .error .stateNotSynchronized
  getLatestBatchNumber := .ok 0
  buildSequenceBatchesTxData _ := .ok (none, [])

theorem getSequencesToSend_panics_behind_late :
    BatchTable.Ordered (BatchTable.run genesisTable sequencerEvents) ∧
      getSequencesToSend (stateEnv lateL1 (BatchTable.run genesisTable sequencerEvents)) ⟨250, 0⟩
        Etherman.errorsCache 5 = .panics ∧
      ∃ last row lastTimestamp, lateL1.getLastVirtualBatchNum = .ok last ∧
        (BatchTable.run genesisTable sequencerEvents).find? (last + 1) = some row ∧
        lateL1.getLastBatchTimestamp = .ok lastTimestamp ∧ row.timestamp.unix < lastTimestamp.toInt64 :=
  have ordered : BatchTable.Ordered (BatchTable.run genesisTable sequencerEvents) := by decide
  have stopped : getSequencesToSend (stateEnv lateL1 (BatchTable.run genesisTable sequencerEvents)) ⟨250, 0⟩
      Etherman.errorsCache 5 = .panics := by decide
  ⟨ordered, stopped, getSequencesToSend_panics_behind ordered stopped⟩

/-- While the state has no open batch, the sequence sender sends nothing:
where the closed batches after the last virtual one fit in one L1 transaction,
it reads on past the last batch and returns the error of the missing row (or
of a read of a forced batch), however many batches wait. -/
theorem getSequencesToSend_without_open_batch {fuel last lastVirtual : Nat}
    (numbered : BatchTable.Numbered t last) (closedLast : PostgresStorage.isBatchClosed t last = .ok true)
    (started : env.getLastVirtualBatchNum = .ok lastVirtual) (behind : lastVirtual ≤ last)
    (fits : ∀ sequences, Sequenced (stateEnv env t) (lastVirtual + 1) sequences →
      Sequencer.estimate (stateEnv env t) cfg order sequences = .ok ())
    (enough : last - lastVirtual < fuel) :
    ∃ err, getSequencesToSend (stateEnv env t) cfg order fuel = .returns (none, some (.state err)) := by
  have stops : (stateEnv env t).isBatchClosed (last + 1) ≠ .ok true := by
    change PostgresStorage.isBatchClosed t (last + 1) ≠ .ok true
    rw [numbered.isBatchClosed_after]
    exact fun same => by cases same
  have ends : getSequencesToSend (stateEnv env t) cfg order fuel ≠ .outOfFuel :=
    Sequencer.getSequencesToSend_ne_outOfFuel started (by omega) stops (by omega)
  rcases Sequencer.getSequencesToSend_cases (rfl : getSequencesToSend (stateEnv env t) cfg order fuel = _) with
    ⟨err, failed, -⟩ | stuck | ⟨lastVirtual', ⟨batch, sofar⟩, started', building, left⟩
  · cases started.symm.trans failed
  · exact absurd stuck ends
  obtain rfl : lastVirtual = lastVirtual' := Except.ok.inj (started.symm.trans started')
  have next : batch = lastVirtual + 1 + sofar.length := building.next
  subst next
  rcases Sequencer.sequencesStep_inr left with ⟨err, failed⟩ | ⟨unclosed, -⟩ | ⟨seq, err, closed, built, failed, -⟩
  · exact ⟨err, failed⟩
  · -- every batch the table holds is closed
    exact absurd unclosed (numbered.isBatchClosed_ne_false closedLast _)
  · -- the sequences with the next batch still fit
    rw [fits _ (building.sequenced.append_singleton closed built)] at failed
    cases failed

def quietL1 : Env BatchError Nat := { lateL1 with sequenceBatches := fun _ => .ok 0 }

theorem getSequencesToSend_without_open_batch_closed :
    BatchTable.Numbered (BatchTable.run genesisTable (sequencerEvents.take 2)) 1 ∧
      PostgresStorage.isBatchClosed (BatchTable.run genesisTable (sequencerEvents.take 2)) 1 = .ok true ∧
      ∃ err, getSequencesToSend (stateEnv quietL1 (BatchTable.run genesisTable (sequencerEvents.take 2)))
        ⟨250, 0⟩ Etherman.errorsCache 5 = .returns (none, some (.state err)) :=
  have numbered : BatchTable.Numbered (BatchTable.run genesisTable (sequencerEvents.take 2)) 1 := by decide
  have closedLast : PostgresStorage.isBatchClosed (BatchTable.run genesisTable (sequencerEvents.take 2)) 1 =
      .ok true := by decide
  ⟨numbered, closedLast,
    getSequencesToSend_without_open_batch numbered closedLast rfl (by decide) (fun _ _ => rfl) (by decide)⟩

end SequenceSender

end ZkevmNode.State
