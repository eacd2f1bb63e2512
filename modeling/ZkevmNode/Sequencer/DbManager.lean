import ZkevmNode.Lib.Loop

set_option autoImplicit false

/-! `dbManager.ProcessForcedBatch` (`sequencer/dbmanager.go`): it opens a batch
for a forced batch in one database transaction, executes the forced batch's
transactions, then closes the batch and commits, retrying in one loop. The
state's answers are an environment; what the function does with the transaction
is the list of the calls it made on it, each with whether it succeeded. -/

namespace ZkevmNode.Sequencer

/-- `state.ForcedBatch`, without the block number, sequencer and time of the
forcing, which nothing here reads. -/
structure ForcedBatch (H : Type) where
  forcedBatchNumber : Nat
  globalExitRoot : H
  rawTxsData : List UInt8
deriving DecidableEq, Repr

/-- `state.ProcessRequest` with the fields the sequencer sets for a forced
batch, without the clock reading and the metrics label. -/
structure ProcessRequest (H A : Type) where
  batchNumber : Nat
  globalExitRoot : H
  oldStateRoot : H
  transactions : List UInt8
  coinbase : A
deriving DecidableEq, Repr

/-- `state.ProcessingContext` without the timestamp. -/
structure ProcessingContext (H A : Type) where
  batchNumber : Nat
  coinbase : A
  globalExitRoot : H
  forcedBatchNum : Option Nat
deriving DecidableEq, Repr

/-- Of a `state.ProcessTransactionResponse`, whether the transaction went into
the batch and the size of the transaction. -/
structure ProcessTransactionResponse where
  isProcessed : Bool
  txSize : Nat
deriving DecidableEq, Repr

/-- The fields of `state.ProcessBatchResponse` that the sequencer reads. -/
structure ProcessBatchResponse (H Z : Type) where
  newStateRoot : H
  newAccInputHash : H
  newLocalExitRoot : H
  usedZkCounters : Z
  responses : List ProcessTransactionResponse
deriving DecidableEq, Repr

/-- `state.ClosingReason`. -/
inductive ClosingReason where
  | batchFull
  | forcedBatch
  | batchAlmostFull
  | forcedBatchDeadline
  | timeoutResolutionDeadline
  | globalExitRootDeadline
deriving DecidableEq, Repr

/-- `state.BatchResources`. -/
structure BatchResources (Z : Type) where
  zkCounters : Z
  bytes : Nat
deriving DecidableEq, Repr

/-- `state.ProcessingReceipt`. -/
structure ProcessingReceipt (H Z : Type) where
  batchNumber : Nat
  stateRoot : H
  localExitRoot : H
  accInputHash : H
  batchL2Data : List UInt8
  closingReason : ClosingReason
  batchResources : BatchResources Z
deriving DecidableEq, Repr

/-- The answers of the state to the calls of `ProcessForcedBatch`. `CloseBatch`
and `Commit` can be called more than once, and the `n`-th call of each gets its
own answer. -/
structure StateCalls (ε H A Z : Type) where
  beginStateTransaction : Option ε
  openBatch : ProcessingContext H A → Option ε
  getForcedBatch : Nat → Except ε (ForcedBatch H)
  processSequencerBatch : Nat → List UInt8 → Except ε (ProcessBatchResponse H Z)
  closeBatch : Nat → ProcessingReceipt H Z → Option ε
  commit : Nat → Option ε
  rollback : Option ε

/-- The calls made on the database transaction. -/
inductive TxCall where
  | openBatch
  | getForcedBatch
  | processSequencerBatch
  | closeBatch
  | commit
  | rollback
deriving DecidableEq, Repr

/-- The locals of the close-and-commit loop, and the calls made on the
transaction so far. -/
structure CloseLoop where
  isClosed : Bool
  tryToCloseAndCommit : Bool
  closeCalls : Nat
  commitCalls : Nat
  log : List (TxCall × Bool)
deriving DecidableEq, Repr

section ProcessForcedBatch

variable {ε H A Z : Type} (calls : StateCalls ε H A Z)

/-- `processingCtx`. -/
def processingContext (forcedBatchNum : Nat) (request : ProcessRequest H A) : ProcessingContext H A :=
  ⟨request.batchNumber, request.coinbase, request.globalExitRoot, some forcedBatchNum⟩

/-- `txsBytes`: the sizes of the transactions that went into the batch. -/
def txsBytes (responses : List ProcessTransactionResponse) : Nat :=
  responses.foldl (fun bytes resp => if resp.isProcessed then bytes + resp.txSize else bytes) 0

def processingReceipt (request : ProcessRequest H A) (forcedBatch : ForcedBatch H)
    (processBatchResponse : ProcessBatchResponse H Z) : ProcessingReceipt H Z :=
  ⟨request.batchNumber, processBatchResponse.newStateRoot, processBatchResponse.newLocalExitRoot,
    processBatchResponse.newAccInputHash, forcedBatch.rawTxsData, .forcedBatch,
    ⟨processBatchResponse.usedZkCounters, txsBytes processBatchResponse.responses⟩⟩

/-- The commit at the end of a round. The `err` of `if err := dbTx.Commit(...)`
is a new variable of the `if` statement, so the condition of the next round
reads `err`, the error of `ProcessSequencerBatch`, and the outcome of the
commit is only logged. -/
def commitRound (err : Option ε) (l : CloseLoop) : CloseLoop :=
  { l with
    commitCalls := l.commitCalls + 1
    log := l.log ++ [(.commit, (calls.commit l.commitCalls).isNone)]
    tryToCloseAndCommit := err.isSome }

/-- One round of the close-and-commit loop. -/
def closeAndCommit (receipt : ProcessingReceipt H Z) (err : Option ε) (l : CloseLoop) : CloseLoop :=
  if !l.isClosed then
    let closingErr := calls.closeBatch l.closeCalls receipt
    let l := { l with
      closeCalls := l.closeCalls + 1
      log := l.log ++ [(.closeBatch, closingErr.isNone)]
      tryToCloseAndCommit := closingErr.isSome }
    if l.tryToCloseAndCommit then l
    else commitRound calls err { l with isClosed := true }
  else commitRound calls err l

/-- `ProcessForcedBatch`, whose close-and-commit loop runs on `fuel`: the
response or error it returns, with the calls made on the transaction. -/
def processForcedBatch (forcedBatchNum : Nat) (request : ProcessRequest H A) (fuel : Nat) :
    Outcome (Except ε (ProcessBatchResponse H Z) × List (TxCall × Bool)) :=
  match calls.beginStateTransaction with
  | some err => .returns (.error err, [])
  | none =>
  match calls.openBatch (processingContext forcedBatchNum request) with
  | some err => .returns (.error err, [(.openBatch, false), (.rollback, calls.rollback.isNone)])
  | none =>
  match calls.getForcedBatch forcedBatchNum with
  | .error err =>
    .returns (.error err, [(.openBatch, true), (.getForcedBatch, false), (.rollback, calls.rollback.isNone)])
  | .ok forcedBatch =>
  match calls.processSequencerBatch request.batchNumber forcedBatch.rawTxsData with
  -- the error is only logged; `ProcessSequencerBatch` returns a nil response
  -- with it, and `processBatchResponse.Responses` dereferences that
  | .error _ => .panics
  | .ok processBatchResponse =>
    let start : CloseLoop :=
      ⟨false, true, 0, 0, [(.openBatch, true), (.getForcedBatch, true), (.processSequencerBatch, true)]⟩
    -- `err` is nil here: the loop is reached only when `ProcessSequencerBatch` succeeded
    match Loop.run (·.tryToCloseAndCommit)
        (closeAndCommit calls (processingReceipt request forcedBatch processBatchResponse) none) fuel start with
    | none => .outOfFuel
    | some l => .returns (.ok processBatchResponse, l.log)

end ProcessForcedBatch

/-- What every state of the close-and-commit loop satisfies: the calls before it
succeeded, a closed batch has a successful `CloseBatch` on record, and the loop
stops only once the batch is closed. -/
structure CloseLoop.Sound (l : CloseLoop) : Prop where
  before : ∀ call ∈ [TxCall.openBatch, .getForcedBatch, .processSequencerBatch], (call, true) ∈ l.log
  closed : l.isClosed = true → (TxCall.closeBatch, true) ∈ l.log
  stops : l.tryToCloseAndCommit = false → l.isClosed = true

section Theorems

variable {ε H A Z : Type} (calls : StateCalls ε H A Z)

theorem CloseLoop.Sound.commitRound {l : CloseLoop} (sound : l.Sound) (closed : l.isClosed = true)
    (err : Option ε) : (commitRound calls err l).Sound where
  before call member := List.mem_append_left _ (sound.before call member)
  closed _ := List.mem_append_left _ (sound.closed closed)
  stops _ := closed

theorem CloseLoop.Sound.round {l : CloseLoop} (sound : l.Sound) (receipt : ProcessingReceipt H Z)
    (err : Option ε) : (closeAndCommit calls receipt err l).Sound := by
  unfold closeAndCommit
  cases isClosed : l.isClosed with
  | true => exact sound.commitRound calls isClosed err
  | false =>
    cases closing : calls.closeBatch l.closeCalls receipt with
    | some _ =>
      refine ⟨fun call member => List.mem_append_left _ (sound.before call member), ?_, ?_⟩
      · simp
      · simp
    | none =>
      apply CloseLoop.Sound.commitRound calls _ rfl err
      refine ⟨fun call member => List.mem_append_left _ (sound.before call member), ?_, ?_⟩
      · simp
      · simp

/-- A failed `ProcessSequencerBatch` makes `ProcessForcedBatch` panic, whatever
the fuel. -/
theorem processForcedBatch_panics {forcedBatchNum : Nat} {request : ProcessRequest H A}
    {forcedBatch : ForcedBatch H} {err : ε} (began : calls.beginStateTransaction = none)
    (opened : calls.openBatch (processingContext forcedBatchNum request) = none)
    (fetched : calls.getForcedBatch forcedBatchNum = .ok forcedBatch)
    (failed : calls.processSequencerBatch request.batchNumber forcedBatch.rawTxsData = .error err)
    (fuel : Nat) : processForcedBatch calls forcedBatchNum request fuel = .panics := by
  simp only [processForcedBatch, began, opened, fetched, failed]

theorem closeAndCommit_run (receipt : ProcessingReceipt H Z) {k : Nat}
    (failing : ∀ j < k, (calls.closeBatch j receipt).isSome) (closes : calls.closeBatch k receipt = none)
    (n : Nat) : ∀ (l : CloseLoop), l.isClosed = false → l.tryToCloseAndCommit = true →
      l.closeCalls + n = k → ∀ fuel, n + 2 ≤ fuel →
      Loop.run (·.tryToCloseAndCommit) (closeAndCommit calls receipt none) fuel l =
        some ⟨true, false, k + 1, l.commitCalls + 1, l.log ++ List.replicate n (.closeBatch, false) ++
          [(.closeBatch, true), (.commit, (calls.commit l.commitCalls).isNone)]⟩ := by
  induction n with
  | zero =>
    intro l isOpen going atLast fuel enough
    obtain ⟨fuel, rfl⟩ : ∃ rest, fuel = rest + 1 + 1 := ⟨fuel - 2, by omega⟩
    have last : l.closeCalls = k := by omega
    rw [Loop.run_continue going]
    simp only [closeAndCommit, commitRound, isOpen, last, closes]
    rw [Loop.run_exit rfl]
    simp
  | succ n ih =>
    intro l isOpen going before fuel enough
    obtain ⟨fuel, rfl⟩ : ∃ rest, fuel = rest + 1 := ⟨fuel - 1, by omega⟩
    obtain ⟨closingErr, fails⟩ := Option.isSome_iff_exists.mp (failing l.closeCalls (by omega))
    have round : closeAndCommit calls receipt none l = { l with
        closeCalls := l.closeCalls + 1
        log := l.log ++ [(.closeBatch, false)]
        tryToCloseAndCommit := true } := by
      simp [closeAndCommit, isOpen, fails]
    have next := ih { l with
        closeCalls := l.closeCalls + 1
        log := l.log ++ [(.closeBatch, false)]
        tryToCloseAndCommit := true } isOpen rfl (by show l.closeCalls + 1 + n = k; omega) fuel (by omega)
    rw [Loop.run_continue going, round, next]
    simp [List.replicate_succ]

theorem processForcedBatch_eq_returns (forcedBatchNum : Nat) (request : ProcessRequest H A)
    (forcedBatch : ForcedBatch H) (processBatchResponse : ProcessBatchResponse H Z) (k : Nat)
    (began : calls.beginStateTransaction = none)
    (opened : calls.openBatch (processingContext forcedBatchNum request) = none)
    (fetched : calls.getForcedBatch forcedBatchNum = .ok forcedBatch)
    (processed : calls.processSequencerBatch request.batchNumber forcedBatch.rawTxsData = .ok processBatchResponse)
    (failing : ∀ j < k, (calls.closeBatch j (processingReceipt request forcedBatch processBatchResponse)).isSome)
    (closes : calls.closeBatch k (processingReceipt request forcedBatch processBatchResponse) = none)
    {fuel : Nat} (enough : k + 2 ≤ fuel) :
    processForcedBatch calls forcedBatchNum request fuel = .returns (.ok processBatchResponse,
      [(.openBatch, true), (.getForcedBatch, true), (.processSequencerBatch, true)] ++
        List.replicate k (.closeBatch, false) ++ [(.closeBatch, true), (.commit, (calls.commit 0).isNone)]) := by
  have ran := closeAndCommit_run calls _ failing closes k ⟨false, true, 0, 0,
    [(.openBatch, true), (.getForcedBatch, true), (.processSequencerBatch, true)]⟩ rfl rfl (Nat.zero_add k) fuel enough
  simp only [processForcedBatch, began, opened, fetched, processed, ran]

/-- When every `CloseBatch` fails, `ProcessForcedBatch` never returns. -/
theorem processForcedBatch_outOfFuel {forcedBatchNum : Nat} {request : ProcessRequest H A}
    {forcedBatch : ForcedBatch H} {processBatchResponse : ProcessBatchResponse H Z}
    (began : calls.beginStateTransaction = none)
    (opened : calls.openBatch (processingContext forcedBatchNum request) = none)
    (fetched : calls.getForcedBatch forcedBatchNum = .ok forcedBatch)
    (processed : calls.processSequencerBatch request.batchNumber forcedBatch.rawTxsData = .ok processBatchResponse)
    (failing : ∀ j, (calls.closeBatch j (processingReceipt request forcedBatch processBatchResponse)).isSome)
    (fuel : Nat) : processForcedBatch calls forcedBatchNum request fuel = .outOfFuel := by
  have open_going : ∀ l : CloseLoop, l.isClosed = false ∧ l.tryToCloseAndCommit = true →
      (closeAndCommit calls (processingReceipt request forcedBatch processBatchResponse) none l).isClosed = false ∧
      (closeAndCommit calls (processingReceipt request forcedBatch processBatchResponse) none l).tryToCloseAndCommit
        = true := by
    rintro l ⟨isOpen, -⟩
    obtain ⟨closingErr, fails⟩ := Option.isSome_iff_exists.mp (failing l.closeCalls)
    simp [closeAndCommit, isOpen, fails]
  simp only [processForcedBatch, began, opened, fetched, processed]
  split
  · rfl
  · rename_i l ran
    have stopped := Loop.run_invariant (fun l holds _ => open_going l holds) ⟨rfl, rfl⟩ ran
    simp [stopped.1.2] at stopped

theorem processForcedBatch_eq_ok_inv {forcedBatchNum : Nat} {request : ProcessRequest H A}
    {fuel : Nat} {response : ProcessBatchResponse H Z} {log : List (TxCall × Bool)}
    (returned : processForcedBatch calls forcedBatchNum request fuel = .returns (.ok response, log)) :
    ∃ (forcedBatch : ForcedBatch H) (l : CloseLoop),
      calls.processSequencerBatch request.batchNumber forcedBatch.rawTxsData = .ok response ∧
      Loop.run (·.tryToCloseAndCommit) (closeAndCommit calls (processingReceipt request forcedBatch response) none)
        fuel ⟨false, true, 0, 0, [(.openBatch, true), (.getForcedBatch, true), (.processSequencerBatch, true)]⟩ =
          some l ∧ l.log = log := by
  unfold processForcedBatch at returned
  dsimp only at returned
  split at returned
  · simp at returned
  split at returned
  · simp at returned
  split at returned
  · simp at returned
  rename_i forcedBatch _
  split at returned
  · simp at returned
  rename_i processBatchResponse processed
  split at returned
  · simp at returned
  rename_i l ran
  simp only [Outcome.returns.injEq, Prod.mk.injEq, Except.ok.injEq] at returned
  obtain ⟨rfl, rfl⟩ := returned
  exact ⟨forcedBatch, l, processed, ran, rfl⟩

/-- Whenever `ProcessForcedBatch` returns a nil error, `OpenBatch`,
`GetForcedBatch`, `ProcessSequencerBatch` and `CloseBatch` succeeded on its
transaction. -/
theorem processForcedBatch_ok_succeeded {forcedBatchNum : Nat} {request : ProcessRequest H A}
    {fuel : Nat} {response : ProcessBatchResponse H Z} {log : List (TxCall × Bool)}
    (returned : processForcedBatch calls forcedBatchNum request fuel = .returns (.ok response, log)) :
    ∀ call ∈ [TxCall.openBatch, .getForcedBatch, .processSequencerBatch, .closeBatch], (call, true) ∈ log := by
  obtain ⟨forcedBatch, l, _, ran, rfl⟩ := processForcedBatch_eq_ok_inv calls returned
  have start : CloseLoop.Sound ⟨false, true, 0, 0,
      [(.openBatch, true), (.getForcedBatch, true), (.processSequencerBatch, true)]⟩ :=
    ⟨by simp, nofun, nofun⟩
  obtain ⟨sound, stopped⟩ := Loop.run_invariant
    (fun l sound _ => sound.round calls (processingReceipt request forcedBatch response) none) start ran
  intro call member
  have split : call ∈ [TxCall.openBatch, .getForcedBatch, .processSequencerBatch] ∨ call = .closeBatch := by
    simpa [or_assoc] using member
  rcases split with before | rfl
  · exact sound.before call before
  · exact sound.closed (sound.stops stopped)

/-- A failed `Commit` is reported as success: when everything before it
succeeded, `ProcessForcedBatch` returns the response with a nil error, and no
commit of the transaction succeeded. -/
theorem processForcedBatch_ok_after_failed_commit (forcedBatchNum : Nat) (request : ProcessRequest H A)
    (forcedBatch : ForcedBatch H) (processBatchResponse : ProcessBatchResponse H Z) (k : Nat) (err : ε)
    (began : calls.beginStateTransaction = none)
    (opened : calls.openBatch (processingContext forcedBatchNum request) = none)
    (fetched : calls.getForcedBatch forcedBatchNum = .ok forcedBatch)
    (processed : calls.processSequencerBatch request.batchNumber forcedBatch.rawTxsData = .ok processBatchResponse)
    (failing : ∀ j < k, (calls.closeBatch j (processingReceipt request forcedBatch processBatchResponse)).isSome)
    (closes : calls.closeBatch k (processingReceipt request forcedBatch processBatchResponse) = none)
    (commitFailed : calls.commit 0 = some err) {fuel : Nat} (enough : k + 2 ≤ fuel) :
    ∃ log, processForcedBatch calls forcedBatchNum request fuel = .returns (.ok processBatchResponse, log) ∧
      (TxCall.commit, false) ∈ log ∧ (TxCall.commit, true) ∉ log := by
  refine ⟨_, processForcedBatch_eq_returns calls forcedBatchNum request forcedBatch processBatchResponse k
    began opened fetched processed failing closes enough, ?_, ?_⟩
  · simp [commitFailed]
  · simp [commitFailed]

def failingCommitCalls : StateCalls String Nat Nat Nat where
  beginStateTransaction := none
  openBatch _ := none
  getForcedBatch forcedBatchNum := .ok ⟨forcedBatchNum, 7, [0xc0]⟩
  processSequencerBatch _ _ := .ok ⟨8, 9, 10, 0, []⟩
  closeBatch attempt _ := if attempt = 0 then some "closing failed" else none
  commit _ := some "commit failed"
  rollback := none

theorem processForcedBatch_ok_after_failed_commit_sample :
    ∃ log, processForcedBatch failingCommitCalls 1 ⟨5, 7, 3, [], 0⟩ 3 = .returns (.ok ⟨8, 9, 10, 0, []⟩, log) ∧
      (TxCall.commit, false) ∈ log ∧ (TxCall.commit, true) ∉ log :=
  processForcedBatch_ok_after_failed_commit failingCommitCalls 1 ⟨5, 7, 3, [], 0⟩ ⟨1, 7, [0xc0]⟩
    ⟨8, 9, 10, 0, []⟩ 1 "commit failed" rfl rfl rfl rfl (by decide) rfl rfl (by decide)

end Theorems

end ZkevmNode.Sequencer
