import ZkevmNode.Ethtxmanager.MonitoredTx

set_option autoImplicit false

/-! The monitoring loop of `ethtxmanager.go`: `monitorTxs` and what it calls
(`ReviewMonitoredTx`, `ReviewMonitoredTxNonce`, `shouldContinueToMonitorThisTx`).
A round is an `Emit` computation whose effects are its `storage.Update` and
`SendTx` calls, and whose `continue`s end it early; the etherman's answers are a
parameter (`Etherman`). -/

namespace ZkevmNode.Ethtxmanager

open Go MonitoredTx

variable {Hash : Type}

/-- `types.Receipt`: its status, the hash of its transaction and its block. -/
structure Receipt (Hash : Type) where
  status : UInt64
  txHash : Hash
  blockNumber : Nat

def receiptStatusSuccessful : UInt64 := 1

/-- The answers of the calls of `ethermanInterface` a round makes. A signed
transaction and a transaction read from L1 are known by their hash; `GetTx`
answers whether it found the transaction. `CheckTxWasMined` answers as the
etherman does: no receipt for a transaction not mined, its receipt for a mined
one, or an error (the mined flag false and no receipt). -/
structure Etherman (Hash : Type) where
  getTx : Hash → Except EthError Unit
  getTxReceipt : Hash → Except EthError (Receipt Hash)
  waitTxToBeMined : Hash → Except EthError Bool
  sendTx : Hash → Except EthError Unit
  currentNonce : Address → Except EthError UInt64
  suggestedGasPrice : Except EthError Nat
  estimateGas : Address → Option Address → Option Nat → List UInt8 → Except EthError UInt64
  checkTxWasMined : Hash → Except EthError (Option (Receipt Hash))
  signTx : Address → State.LegacyTx → Except EthError Hash
  getRevertMessage : Hash → Except EthError (List Char)

/-- The variables the loop over the history sets. -/
structure Scan (Hash : Type) where
  mined : Bool
  receipt : Option (Receipt Hash)
  hasFailedReceipts : Bool
  allHistoryTxMined : Bool

/-- Their values before the loop. -/
def Scan.init : Scan Hash := ⟨false, none, false, true⟩

/-- The loop `for txHash := range mTx.history` of `monitorTxs`, over the hashes
in the order the map gives them: a transaction mined successfully ends the loop
(`break`); one mined with a failed receipt is kept as failed; one not mined
clears `allHistoryTxMined`; an error of the check moves on. -/
def scanHistory (checkTxWasMined : Hash → Except EthError (Option (Receipt Hash))) :
    Scan Hash → List Hash → Scan Hash
  | scan, [] => scan
  | scan, txHash :: rest =>
    match checkTxWasMined txHash with
    | .error _ => scanHistory checkTxWasMined { scan with mined := false, receipt := none } rest
    | .ok none =>
      scanHistory checkTxWasMined
        { scan with mined := false, receipt := none, allHistoryTxMined := false } rest
    | .ok (some receipt) =>
      if receipt.status = receiptStatusSuccessful then
        { scan with mined := true, receipt := some receipt }
      else
        scanHistory checkTxWasMined
          { scan with mined := false, receipt := some receipt, hasFailedReceipts := true } rest

/-- A check that finds transaction 1 mined in block 3 with a failed receipt and
every other one not mined. -/
def failedFirst (txHash : Nat) : Except EthError (Option (Receipt Nat)) :=
  if txHash = 1 then .ok (some ⟨0, 1, 3⟩) else .ok none

section Scan

variable (checkTxWasMined : Hash → Except EthError (Option (Receipt Hash)))

/-- A transaction found mined with a successful receipt. -/
def MinedSuccessfully (txHash : Hash) : Prop :=
  ∃ receipt, checkTxWasMined txHash = .ok (some receipt) ∧
    receipt.status = receiptStatusSuccessful

/-- A transaction found mined with a failed receipt. -/
def MinedFailed (txHash : Hash) : Prop :=
  ∃ receipt, checkTxWasMined txHash = .ok (some receipt) ∧
    receipt.status ≠ receiptStatusSuccessful

variable {checkTxWasMined}

theorem scanHistory_mined : ∀ (l : List Hash) {scan : Scan Hash}, scan.mined = false →
    ((scanHistory checkTxWasMined scan l).mined = true ↔ ∃ txHash ∈ l, MinedSuccessfully checkTxWasMined txHash)
  | [], scan, unmined => by simp [scanHistory, unmined]
  | txHash :: rest, scan, _ => by
    have rest_mined : ∀ scan' : Scan Hash, scan'.mined = false →
        ((scanHistory checkTxWasMined scan' rest).mined = true ↔
          ∃ txHash ∈ rest, MinedSuccessfully checkTxWasMined txHash) :=
      fun _ unmined => scanHistory_mined rest unmined
    cases checked : checkTxWasMined txHash with
    | error err =>
      have other : ¬MinedSuccessfully checkTxWasMined txHash := by simp [MinedSuccessfully, checked]
      simp only [scanHistory, checked]
      rw [rest_mined { scan with mined := false, receipt := none } rfl]
      simp [other]
    | ok found =>
      cases found with
      | none =>
        have other : ¬MinedSuccessfully checkTxWasMined txHash := by
          simp [MinedSuccessfully, checked]
        simp only [scanHistory, checked]
        rw [rest_mined { scan with mined := false, receipt := none, allHistoryTxMined := false } rfl]
        simp [other]
      | some receipt =>
        by_cases successful : receipt.status = receiptStatusSuccessful
        · simp only [scanHistory, checked, successful, if_true, List.mem_cons, true_iff]
          exact ⟨txHash, .inl rfl, receipt, checked, successful⟩
        · have other : ¬MinedSuccessfully checkTxWasMined txHash := by
            simp [MinedSuccessfully, checked, successful]
          simp only [scanHistory, checked, successful, if_false]
          rw [rest_mined
            { scan with mined := false, receipt := some receipt, hasFailedReceipts := true } rfl]
          simp [other]

theorem scanHistory_receipt : ∀ (l : List Hash) {scan : Scan Hash}, scan.mined = false →
    (scanHistory checkTxWasMined scan l).mined = true →
      ∃ receipt, (scanHistory checkTxWasMined scan l).receipt = some receipt ∧
        receipt.status = receiptStatusSuccessful ∧
        ∃ txHash ∈ l, checkTxWasMined txHash = .ok (some receipt)
  | [], scan, unmined, mined => by simp [scanHistory, unmined] at mined
  | txHash :: rest, scan, _, mined => by
    have later : ∀ scan' : Scan Hash, scan'.mined = false →
        (scanHistory checkTxWasMined scan' rest).mined = true →
        ∃ receipt, (scanHistory checkTxWasMined scan' rest).receipt = some receipt ∧
          receipt.status = receiptStatusSuccessful ∧
          ∃ txHash' ∈ txHash :: rest, checkTxWasMined txHash' = .ok (some receipt) :=
      fun _ unmined mined' => by
        obtain ⟨receipt, held, successful, txHash', member, checked⟩ :=
          scanHistory_receipt rest unmined mined'
        exact ⟨receipt, held, successful, txHash', List.mem_cons_of_mem _ member, checked⟩
    cases checked : checkTxWasMined txHash with
    | error err =>
      simp only [scanHistory, checked] at mined ⊢
      exact later _ rfl mined
    | ok found =>
      cases found with
      | none =>
        simp only [scanHistory, checked] at mined ⊢
        exact later _ rfl mined
      | some receipt =>
        by_cases successful : receipt.status = receiptStatusSuccessful
        · simp only [scanHistory, checked, successful, if_true]
          exact ⟨receipt, rfl, successful, txHash, List.mem_cons_self, checked⟩
        · simp only [scanHistory, checked, successful, if_false] at mined ⊢
          exact later _ rfl mined

theorem scanHistory_flags : ∀ (l : List Hash) (scan : Scan Hash),
    (∀ txHash ∈ l, ¬MinedSuccessfully checkTxWasMined txHash) →
      ((scanHistory checkTxWasMined scan l).hasFailedReceipts = true ↔
        scan.hasFailedReceipts = true ∨ ∃ txHash ∈ l, MinedFailed checkTxWasMined txHash) ∧
      ((scanHistory checkTxWasMined scan l).allHistoryTxMined = true ↔
        scan.allHistoryTxMined = true ∧ ∀ txHash ∈ l, checkTxWasMined txHash ≠ .ok none)
  | [], scan, _ => by simp [scanHistory]
  | txHash :: rest, scan, none_successful => by
    have rest_flags := fun scan' => scanHistory_flags rest scan'
      (fun txHash' member => none_successful txHash' (List.mem_cons_of_mem _ member))
    cases checked : checkTxWasMined txHash with
    | error err =>
      have notFailed : ¬MinedFailed checkTxWasMined txHash := by simp [MinedFailed, checked]
      simp only [scanHistory, checked]
      rw [(rest_flags _).1, (rest_flags _).2]
      simp [notFailed, checked]
    | ok found =>
      cases found with
      | none =>
        have notFailed : ¬MinedFailed checkTxWasMined txHash := by simp [MinedFailed, checked]
        simp only [scanHistory, checked]
        rw [(rest_flags _).1, (rest_flags _).2]
        simp [notFailed, checked]
      | some receipt =>
        have failed : receipt.status ≠ receiptStatusSuccessful := fun successful =>
          none_successful txHash List.mem_cons_self ⟨receipt, checked, successful⟩
        simp only [scanHistory, checked, failed, if_false]
        rw [(rest_flags _).1, (rest_flags _).2]
        constructor
        · simp only [true_or, true_iff]
          exact .inr ⟨txHash, List.mem_cons_self, receipt, checked, failed⟩
        · simp [checked]

/-- The verdict of the check does not depend on the order in which Go's map
hands out the history: whether the monitored tx was found mined, and, when it
was not, whether its nonce is to be reviewed. -/
theorem scanHistory_perm {l l' : List Hash} (perm : l.Perm l') :
    (scanHistory checkTxWasMined .init l).mined = (scanHistory checkTxWasMined .init l').mined ∧
      ((scanHistory checkTxWasMined .init l).mined = false →
        (scanHistory checkTxWasMined .init l).hasFailedReceipts =
            (scanHistory checkTxWasMined .init l').hasFailedReceipts ∧
          (scanHistory checkTxWasMined .init l).allHistoryTxMined =
            (scanHistory checkTxWasMined .init l').allHistoryTxMined) := by
  have mined : (scanHistory checkTxWasMined .init l).mined = true ↔
      ∃ txHash ∈ l, MinedSuccessfully checkTxWasMined txHash := scanHistory_mined l rfl
  have mined' : (scanHistory checkTxWasMined .init l').mined = true ↔
      ∃ txHash ∈ l', MinedSuccessfully checkTxWasMined txHash := scanHistory_mined l' rfl
  have same : (∃ txHash ∈ l, MinedSuccessfully checkTxWasMined txHash) ↔
      ∃ txHash ∈ l', MinedSuccessfully checkTxWasMined txHash := by
    simp only [perm.mem_iff]
  refine ⟨Bool.eq_iff_iff.mpr (mined.trans (same.trans mined'.symm)), fun unmined => ?_⟩
  have none_successful : ∀ txHash ∈ l, ¬MinedSuccessfully checkTxWasMined txHash :=
    fun txHash member successful => by
      simp only [Bool.eq_false_iff, ne_eq, mined] at unmined
      exact unmined ⟨txHash, member, successful⟩
  have none_successful' : ∀ txHash ∈ l', ¬MinedSuccessfully checkTxWasMined txHash :=
    fun txHash member => none_successful txHash (perm.mem_iff.mpr member)
  obtain ⟨failed, allMined⟩ := scanHistory_flags l .init none_successful
  obtain ⟨failed', allMined'⟩ := scanHistory_flags l' .init none_successful'
  refine ⟨Bool.eq_iff_iff.mpr ?_, Bool.eq_iff_iff.mpr ?_⟩
  · rw [failed, failed']
    simp only [perm.mem_iff]
  · rw [allMined, allMined']
    simp only [perm.mem_iff]

/-- A history of two transactions, the first mined with a failed receipt and the
second not mined, checked in either order. -/
theorem scanHistory_perm_sample :
    [1, 2].Perm [2, 1] ∧
      (scanHistory failedFirst .init [1, 2]).mined = (scanHistory failedFirst .init [2, 1]).mined ∧
      ((scanHistory failedFirst .init [1, 2]).mined = false →
        (scanHistory failedFirst .init [1, 2]).hasFailedReceipts =
            (scanHistory failedFirst .init [2, 1]).hasFailedReceipts ∧
          (scanHistory failedFirst .init [1, 2]).allHistoryTxMined =
            (scanHistory failedFirst .init [2, 1]).allHistoryTxMined) :=
  ⟨List.Perm.swap 2 1 [], scanHistory_perm (List.Perm.swap 2 1 [])⟩

end Scan

/-- `ReviewMonitoredTx`: the estimated gas and the suggested gas price replace
the monitored tx's where they are higher. The error of either call is returned
(in a text its caller only logs). -/
def reviewMonitoredTx (e : Etherman Hash) (mTx : MonitoredTx Hash) :
    Except EthError (MonitoredTx Hash) := do
  let gas ← e.estimateGas mTx.fromAddress mTx.toAddress mTx.value mTx.data
  let mTx := if gas > mTx.gas then { mTx with gas := gas } else mTx
  let gasPrice ← e.suggestedGasPrice
  pure (if gasPrice > mTx.gasPrice then { mTx with gasPrice := gasPrice } else mTx)

/-- `ReviewMonitoredTxNonce`: the current nonce of the sender replaces the
monitored tx's when it is higher. -/
def reviewMonitoredTxNonce (e : Etherman Hash) (mTx : MonitoredTx Hash) :
    Except EthError (MonitoredTx Hash) := do
  let nonce ← e.currentNonce mTx.fromAddress
  pure (if nonce > mTx.nonce then { mTx with nonce := nonce } else mTx)

theorem reviewMonitoredTx_ok {e : Etherman Hash} {mTx mTx' : MonitoredTx Hash}
    (reviewed : reviewMonitoredTx e mTx = .ok mTx') :
    ∃ gas gasPrice, mTx.gas ≤ gas ∧ mTx.gasPrice ≤ gasPrice ∧
      (gasPrice = mTx.gasPrice ∨ e.suggestedGasPrice = .ok gasPrice) ∧
      mTx' = { mTx with gas := gas, gasPrice := gasPrice } := by
  unfold reviewMonitoredTx at reviewed
  cases estimated : e.estimateGas mTx.fromAddress mTx.toAddress mTx.value mTx.data with
  | error err => simp [estimated, bind, Except.bind] at reviewed
  | ok gas =>
    cases suggested : e.suggestedGasPrice with
    | error err => simp [estimated, suggested, bind, Except.bind] at reviewed
    | ok gasPrice =>
      simp only [estimated, suggested, bind, Except.bind, pure, Except.pure,
        Except.ok.injEq] at reviewed
      subst reviewed
      refine ⟨if gas > mTx.gas then gas else mTx.gas,
        if gasPrice > mTx.gasPrice then gasPrice else mTx.gasPrice, ?_, ?_, ?_, ?_⟩
      · split <;> grind
      · split <;> omega
      · split
        · exact .inr rfl
        · exact .inl rfl
      · split <;> split <;> rfl

theorem reviewMonitoredTxNonce_ok {e : Etherman Hash} {mTx mTx' : MonitoredTx Hash}
    (reviewed : reviewMonitoredTxNonce e mTx = .ok mTx') :
    ∃ nonce, mTx.nonce ≤ nonce ∧ mTx' = { mTx with nonce := nonce } := by
  unfold reviewMonitoredTxNonce at reviewed
  cases current : e.currentNonce mTx.fromAddress with
  | error err => simp [current, bind, Except.bind] at reviewed
  | ok nonce =>
    simp only [current, bind, Except.bind, pure, Except.pure, Except.ok.injEq] at reviewed
    subst reviewed
    refine ⟨if nonce > mTx.nonce then nonce else mTx.nonce, ?_, ?_⟩
    · split <;> grind
    · split <;> rfl

/-- `shouldContinueToMonitorThisTx`: a failed receipt is monitored again when
the revert message of its transaction cannot be read for the reason
`ErrExecutionReverted` names. -/
def shouldContinueToMonitorThisTx (e : Etherman Hash) (receipt : Receipt Hash) : Bool :=
  if receipt.status = receiptStatusSuccessful then false
  else
    match e.getTx receipt.txHash with
    | .error _ => false
    | .ok () =>
      match e.getRevertMessage receipt.txHash with
      | .error err => err.error = errExecutionReverted
      | .ok _ => false

/-- `storage.Update` of the monitored tx. -/
def storageUpdate (mTx : MonitoredTx Hash) : Emit (Effect Hash) Unit := Emit.emit (.update mTx)

/-- The review of the nonce: when a transaction of the history was mined with a
failed receipt and every one was mined, `ReviewMonitoredTxNonce` and the update;
a `continue` on an error. -/
def reviewNonce (e : Etherman Hash) (scan : Scan Hash) (mTx : MonitoredTx Hash) :
    Emit (Effect Hash) (MonitoredTx Hash) :=
  if scan.hasFailedReceipts && scan.allHistoryTxMined then do
    let mTx ← Emit.orStop (reviewMonitoredTxNonce e mTx)
    storageUpdate mTx
    pure mTx
  else pure mTx

/-- The review of the gas and gas price of a monitored tx sent already, and the
update. -/
def reviewSent (e : Etherman Hash) (mTx : MonitoredTx Hash) :
    Emit (Effect Hash) (MonitoredTx Hash) :=
  if mTx.status = .sent then do
    let mTx ← Emit.orStop (reviewMonitoredTx e mTx)
    storageUpdate mTx
    pure mTx
  else pure mTx

/-- `AddHistory` of the signed transaction, and the update when it was not in
the history yet. -/
def recordSignedTx [DecidableEq Hash] (mTx : MonitoredTx Hash) (signedTx : Hash) :
    Emit (Effect Hash) (MonitoredTx Hash) :=
  match mTx.addHistory signedTx with
  | .error .alreadyExists => pure mTx
  | .error _ => Emit.stop
  | .ok mTx => do
    storageUpdate mTx
    pure mTx

/-- `SendTx` of a signed transaction that `GetTx` does not find on L1, and the
change of a created monitored tx to sent. Another error of `GetTx` counts as
found. -/
def sendIfNotFound (e : Etherman Hash) (mTx : MonitoredTx Hash) (signedTx : Hash) :
    Emit (Effect Hash) (MonitoredTx Hash) :=
  match e.getTx signedTx with
  | .error .notFound => do
    Emit.emit (.sendTx signedTx)
    Emit.orStop (e.sendTx signedTx)
    if mTx.status = .created then do
      let mTx := { mTx with status := .sent }
      storageUpdate mTx
      pure mTx
    else pure mTx
  | _ => pure mTx

/-- The branch of a round where no transaction of the history was mined
successfully: a reorged monitored tx waits; otherwise its fields are reviewed
when it was sent, and a transaction is built, signed, recorded in the history,
sent when L1 does not have it, and waited for; the receipt of a mined one. -/
def resend [DecidableEq Hash] (e : Etherman Hash) (mTx : MonitoredTx Hash) :
    Emit (Effect Hash) (MonitoredTx Hash × Receipt Hash) :=
  if mTx.status = .reorged then Emit.stop else do
  let mTx ← reviewSent e mTx
  let signedTx ← Emit.orStop (e.signTx mTx.fromAddress mTx.tx)
  let mTx ← recordSignedTx mTx signedTx
  let mTx ← sendIfNotFound e mTx signedTx
  let mined ← Emit.orStop (e.waitTxToBeMined signedTx)
  if !mined then Emit.stop else do
  let receipt ← Emit.orStop (e.getTxReceipt signedTx)
  pure (mTx, receipt)

/-- The end of a round: the block of the receipt goes into the monitored tx; a
successful receipt confirms it once the state has synchronized that L1 block
(`GetLastBlock` gives `none` when the state is not synchronized or the call
fails), a failed one fails it unless `shouldContinueToMonitorThisTx`; then the
update. -/
def settle (e : Etherman Hash) (lastBlock : Option Nat) (mTx : MonitoredTx Hash)
    (receipt : Receipt Hash) : Emit (Effect Hash) Unit :=
  let mTx := { mTx with blockNumber := some receipt.blockNumber }
  if receipt.status = receiptStatusSuccessful then
    match lastBlock with
    | none => Emit.stop
    | some block =>
      if block < uint64 receipt.blockNumber then Emit.stop
      else storageUpdate { mTx with status := .confirmed }
  else if shouldContinueToMonitorThisTx e receipt then Emit.stop
  else storageUpdate { mTx with status := .failed }

/-- The receipt a round settles with: the one the check of the history found,
or the one of the transaction sent again. A loop that finds the monitored tx
mined holds a receipt (`scanHistory_receipt`): the branch without one, where the
code would dereference a nil receipt, is never taken. -/
def minedReceipt [DecidableEq Hash] (e : Etherman Hash) (scan : Scan Hash)
    (mTx : MonitoredTx Hash) : Emit (Effect Hash) (MonitoredTx Hash × Receipt Hash) :=
  if !scan.mined then resend e mTx
  else
    match scan.receipt with
    | some receipt => pure (mTx, receipt)
    | none => Emit.stop

/-- One round of the loop of `monitorTxs`, for a monitored tx read from the
storage. -/
def monitorTx [DecidableEq Hash] (e : Etherman Hash) (lastBlock : Option Nat)
    (mTx : MonitoredTx Hash) : Emit (Effect Hash) Unit := do
  let scan := scanHistory e.checkTxWasMined .init mTx.history.keys
  let mTx ← reviewNonce e scan mTx
  let (mTx, receipt) ← minedReceipt e scan mTx
  settle e lastBlock mTx receipt

section Round

variable (e : Etherman Hash) (lastBlock : Option Nat)

/-- The gas prices L1 suggests fit the `uint64` column. -/
def PriceFits : Prop := ∀ gasPrice, e.suggestedGasPrice = .ok gasPrice → gasPrice < 2 ^ 64

/-- `receipt` is one L1 gave for a transaction of the history of `mTx`: found
by the check of the history, or read after the transaction was mined. -/
def Receipted (mTx : MonitoredTx Hash) (receipt : Receipt Hash) : Prop :=
  ∃ txHash ∈ mTx.history, e.checkTxWasMined txHash = .ok (some receipt) ∨ e.getTxReceipt txHash = .ok receipt

/-- A confirmation is written only with the block of a successful receipt of a
transaction of the history, and only once the state has synchronized that L1
block. -/
def Synced : Effect Hash → Prop
  | .update mTx => mTx.status = .confirmed →
      ∃ receipt block, Receipted e mTx receipt ∧ receipt.status = receiptStatusSuccessful ∧
        mTx.blockNumber = some receipt.blockNumber ∧ lastBlock = some block ∧ uint64 receipt.blockNumber ≤ block
  | .sendTx _ => True

/-- What a round may do to the row it monitors: what the monitoring loop may
(`WriteOk`), with gas prices that do not go down when the suggested ones fit the
column, and confirmations of synchronized blocks. -/
def RoundOk (row : MonitoredTx Hash) (effect : Effect Hash) : Prop :=
  Effect.WriteOk (PriceFits e) row effect ∧ Synced e lastBlock effect

/-- The Hoare triples of a round over the row it monitors. -/
abbrev RoundTriple {α : Type} (pre : MonitoredTx Hash → Prop) (x : Emit (Effect Hash) α)
    (post : α → MonitoredTx Hash → Prop) : Prop :=
  Emit.Triple Effect.applyRow (RoundOk e lastBlock) pre x post

/-- Where a round stands before the receipt: the stored row is the local copy
as the storage reads it back, and the copy is not mined. -/
structure Unsettled (mTx row : MonitoredTx Hash) : Prop where
  stored : row = mTx.persist
  status : mTx.status = .created ∨ mTx.status = .sent ∨ mTx.status = .reorged
  block : mTx.blockNumber = none

variable {e lastBlock}

theorem storageUpdate_triple {mTx mTx' : MonitoredTx Hash} (grows : Grows mTx mTx')
    (status : mTx'.status = .created ∨ mTx'.status = .sent ∨ mTx'.status = .reorged)
    (block : mTx'.blockNumber = none)
    (price : PriceFits e → uint64 mTx.gasPrice ≤ uint64 mTx'.gasPrice) :
    RoundTriple e lastBlock (Unsettled mTx) (storageUpdate mTx') fun _ => Unsettled mTx' :=
  Emit.Triple.emit fun row unsettled => by
    have unmined : mTx'.status ≠ .confirmed := by
      rcases status with same | same | same <;> simp [same]
    refine ⟨⟨⟨?_, ?_, ⟨fun _ => by simp [block], fun mined => ?_⟩, ?_⟩, fun confirmed => ?_⟩,
      rfl, status, block⟩
    · rw [unsettled.stored, blockNumber_persist, unsettled.block]
      rfl
    · rw [unsettled.stored]
      exact grows.persist
    · rcases status with same | same | same <;> rcases mined with mined | mined <;>
        simp [same] at mined
    · rw [unsettled.stored]
      exact price
    · exact absurd confirmed unmined

theorem sendTx_triple {pre : MonitoredTx Hash → Prop} {hash : Hash}
    (recorded : ∀ row, pre row →
      row.blockNumber = none ∧ hash ∈ row.history ∧ row.status.phase ≤ 1) :
    RoundTriple e lastBlock pre (Emit.emit (.sendTx hash)) fun _ => pre :=
  Emit.Triple.emit fun row before => ⟨⟨recorded row before, trivial⟩, before⟩

theorem reviewNonce_triple (scan : Scan Hash) (mTx : MonitoredTx Hash) :
    RoundTriple e lastBlock (Unsettled mTx) (reviewNonce e scan mTx) fun mTx' row =>
      Unsettled mTx' row ∧ mTx'.status = mTx.status ∧ mTx'.history = mTx.history := by
  apply Emit.Triple.assume fun _ unsettled => And.intro unsettled.status unsettled.block
  rintro ⟨status, block⟩
  unfold reviewNonce
  apply Emit.Triple.ite
  · intro _
    apply Emit.Triple.orStop_bind
    intro mTx' reviewed
    obtain ⟨nonce, higher, rfl⟩ := reviewMonitoredTxNonce_ok reviewed
    have grows : Grows mTx { mTx with nonce := nonce } :=
      ⟨rfl, rfl, rfl, rfl, rfl, higher, UInt64.le_refl _, fun _ member => member, Nat.le_refl _⟩
    apply Emit.Triple.bind (storageUpdate_triple grows status block fun _ => Nat.le_refl _)
    intro _
    exact Emit.Triple.pure fun _ unsettled => ⟨unsettled, rfl, rfl⟩
  · intro _
    exact Emit.Triple.pure fun _ unsettled => ⟨unsettled, rfl, rfl⟩

theorem uint64_le_of_suggested {gasPrice gasPrice' : Nat} (higher : gasPrice ≤ gasPrice')
    (fits : gasPrice' < 2 ^ 64) : uint64 gasPrice ≤ uint64 gasPrice' := by
  simp only [uint64, Nat.mod_eq_of_lt fits]
  exact Nat.le_trans (Nat.mod_le _ _) higher

theorem reviewSent_triple (mTx : MonitoredTx Hash) :
    RoundTriple e lastBlock (Unsettled mTx) (reviewSent e mTx) fun mTx' row =>
      Unsettled mTx' row ∧ mTx'.status = mTx.status := by
  apply Emit.Triple.assume fun _ unsettled => And.intro unsettled.status unsettled.block
  rintro ⟨status, block⟩
  unfold reviewSent
  apply Emit.Triple.ite
  · intro _
    apply Emit.Triple.orStop_bind
    intro mTx' reviewed
    obtain ⟨gas, gasPrice, moreGas, higher, suggested, rfl⟩ := reviewMonitoredTx_ok reviewed
    have grows : Grows mTx { mTx with gas := gas, gasPrice := gasPrice } :=
      ⟨rfl, rfl, rfl, rfl, rfl, UInt64.le_refl _, moreGas, fun _ member => member, Nat.le_refl _⟩
    have price : PriceFits e → uint64 mTx.gasPrice ≤ uint64 gasPrice := fun fits => by
      rcases suggested with same | suggested
      · rw [same]
      · exact uint64_le_of_suggested higher (fits gasPrice suggested)
    apply Emit.Triple.bind (storageUpdate_triple grows status block price)
    intro _
    exact Emit.Triple.pure fun _ unsettled => ⟨unsettled, rfl⟩
  · intro _
    exact Emit.Triple.pure fun _ unsettled => ⟨unsettled, rfl⟩

theorem recordSignedTx_triple [DecidableEq Hash] (mTx : MonitoredTx Hash) (signedTx : Hash) :
    RoundTriple e lastBlock (Unsettled mTx) (recordSignedTx mTx signedTx) fun mTx' row =>
      Unsettled mTx' row ∧ mTx'.status = mTx.status ∧ signedTx ∈ mTx'.history := by
  apply Emit.Triple.assume fun _ unsettled => And.intro unsettled.status unsettled.block
  rintro ⟨status, block⟩
  unfold recordSignedTx
  cases added : mTx.addHistory signedTx with
  | error err =>
    obtain ⟨recorded, rfl⟩ := addHistory_error added
    exact Emit.Triple.pure fun _ unsettled => ⟨unsettled, rfl, recorded⟩
  | ok mTx' =>
    obtain rfl := addHistory_ok added
    have grows : Grows mTx { mTx with history := mTx.history.insert signedTx true } :=
      ⟨rfl, rfl, rfl, rfl, rfl, UInt64.le_refl _, UInt64.le_refl _,
        fun _ member => (AList.mem_insert _).mpr (.inr member), Nat.le_refl _⟩
    apply Emit.Triple.bind (storageUpdate_triple grows status block fun _ => Nat.le_refl _)
    intro _
    exact Emit.Triple.pure fun _ unsettled => ⟨unsettled, rfl, (AList.mem_insert _).mpr (.inl rfl)⟩

theorem sendIfNotFound_triple (mTx : MonitoredTx Hash) {signedTx : Hash}
    (recorded : signedTx ∈ mTx.history) (unsent : mTx.status = .created ∨ mTx.status = .sent) :
    RoundTriple e lastBlock (Unsettled mTx) (sendIfNotFound e mTx signedTx) fun mTx' row =>
      Unsettled mTx' row ∧ mTx'.history = mTx.history := by
  apply Emit.Triple.assume fun _ unsettled => unsettled.block
  intro block
  unfold sendIfNotFound
  cases found : e.getTx signedTx with
  | ok _ => exact Emit.Triple.pure fun _ unsettled => ⟨unsettled, rfl⟩
  | error err =>
    cases err with
    | other text => exact Emit.Triple.pure fun _ unsettled => ⟨unsettled, rfl⟩
    | notFound =>
      -- the transaction is sent while its hash is in the stored history
      have sent : RoundTriple e lastBlock (Unsettled mTx) (Emit.emit (.sendTx signedTx))
          fun _ => Unsettled mTx := sendTx_triple fun row unsettled => by
        rw [unsettled.stored, blockNumber_persist, history_persist, status_persist, block]
        exact ⟨rfl, recorded, by rcases unsent with same | same <;> simp [same]⟩
      apply Emit.Triple.bind sent
      intro _
      apply Emit.Triple.orStop_bind
      intro _ _
      apply Emit.Triple.ite
      · intro created
        have grows : Grows mTx { mTx with status := .sent } :=
          ⟨rfl, rfl, rfl, rfl, rfl, UInt64.le_refl _, UInt64.le_refl _, fun _ member => member,
            by simp [created]⟩
        apply Emit.Triple.bind (storageUpdate_triple grows (.inr (.inl rfl)) block
          fun _ => Nat.le_refl _)
        intro _
        exact Emit.Triple.pure fun _ unsettled => ⟨unsettled, rfl⟩
      · intro _
        exact Emit.Triple.pure fun _ unsettled => ⟨unsettled, rfl⟩

theorem resend_triple [DecidableEq Hash] (mTx : MonitoredTx Hash) :
    RoundTriple e lastBlock (Unsettled mTx) (resend e mTx) fun result row =>
      Unsettled result.1 row ∧ Receipted e result.1 result.2 := by
  apply Emit.Triple.assume fun _ unsettled => unsettled.status
  intro status
  unfold resend
  apply Emit.Triple.ite
  · intro _
    exact Emit.Triple.stop
  intro notReorged
  -- a monitored tx that is not reorged is created or sent, and stays so until it is sent
  have unsent : mTx.status = .created ∨ mTx.status = .sent := by
    rcases status with same | same | same
    · exact .inl same
    · exact .inr same
    · exact absurd same notReorged
  apply Emit.Triple.bind (reviewSent_triple mTx)
  intro reviewed
  apply Emit.Triple.assume_and
  intro reviewedStatus
  apply Emit.Triple.orStop_bind
  intro signedTx _
  apply Emit.Triple.bind (recordSignedTx_triple reviewed signedTx)
  intro recordedTx
  apply Emit.Triple.assume_and
  rintro ⟨recordedStatus, recorded⟩
  apply Emit.Triple.bind
    (sendIfNotFound_triple recordedTx recorded (recordedStatus.trans reviewedStatus ▸ unsent))
  intro sentTx
  apply Emit.Triple.assume_and
  intro keptHistory
  apply Emit.Triple.orStop_bind
  intro mined _
  apply Emit.Triple.ite
  · intro _
    exact Emit.Triple.stop
  intro _
  apply Emit.Triple.orStop_bind
  -- the receipt is that of the transaction just recorded in the history
  intro receipt read
  exact Emit.Triple.pure fun _ unsettled => ⟨unsettled, signedTx, keptHistory ▸ recorded, .inr read⟩

theorem settle_triple (mTx : MonitoredTx Hash) {receipt : Receipt Hash} (receipted : Receipted e mTx receipt) :
    RoundTriple e lastBlock (Unsettled mTx) (settle e lastBlock mTx receipt) fun _ _ => True := by
  apply Emit.Triple.assume fun _ unsettled => unsettled.status
  intro status
  -- the monitored tx moves on to a status found mined, with the block of the receipt
  have written : ∀ (settled : MonitoredTxStatus), (settled = .confirmed ∨ settled = .failed) →
      (settled = .confirmed → receipt.status = receiptStatusSuccessful ∧
        ∃ block, lastBlock = some block ∧ uint64 receipt.blockNumber ≤ block) →
      RoundTriple e lastBlock (Unsettled mTx)
        (storageUpdate { mTx with blockNumber := some receipt.blockNumber, status := settled })
        fun _ _ => True := fun settled mined synced =>
    Emit.Triple.emit fun row unsettled => by
      have phase : mTx.status.phase ≤ settled.phase := by
        rcases mined with same | same <;> simp [same, MonitoredTxStatus.phase_le_two]
      refine ⟨⟨⟨?_, ?_, ⟨fun unmined => ?_, fun _ => rfl⟩, fun _ => ?_⟩, fun confirmed => ?_⟩,
        trivial⟩
      · rw [unsettled.stored, blockNumber_persist, unsettled.block]
        rfl
      · rw [unsettled.stored]
        exact (grows_status mTx (some receipt.blockNumber) phase).persist
      · rcases mined with same | same <;> rcases unmined with unmined | unmined | unmined <;>
          simp [same] at unmined
      · rw [unsettled.stored]
        exact Nat.le_refl _
      · obtain ⟨successful, block, synced, below⟩ := synced confirmed
        exact ⟨receipt, block, receipted, successful, rfl, synced, below⟩
  unfold settle
  apply Emit.Triple.ite
  · intro successful
    cases synced : lastBlock with
    | none => exact Emit.Triple.stop
    | some block =>
      subst synced
      apply Emit.Triple.ite
      · intro _
        exact Emit.Triple.stop
      · intro notBelow
        exact written .confirmed (.inl rfl) fun _ => ⟨successful, block, rfl, Nat.le_of_not_lt notBelow⟩
  · intro _
    apply Emit.Triple.ite
    · intro _
      exact Emit.Triple.stop
    · intro _
      exact written .failed (.inr rfl) fun failedConfirmed => by cases failedConfirmed

theorem minedReceipt_triple [DecidableEq Hash] {scan : Scan Hash} {mTx : MonitoredTx Hash}
    (found : ∀ receipt, scan.mined = true → scan.receipt = some receipt →
      ∃ txHash ∈ mTx.history, e.checkTxWasMined txHash = .ok (some receipt)) :
    RoundTriple e lastBlock (Unsettled mTx) (minedReceipt e scan mTx) fun result row =>
      Unsettled result.1 row ∧ Receipted e result.1 result.2 := by
  unfold minedReceipt
  apply Emit.Triple.ite
  · intro _
    exact resend_triple mTx
  · intro mined
    cases held : scan.receipt with
    | none => exact Emit.Triple.stop
    | some receipt =>
      obtain ⟨txHash, member, checked⟩ := found receipt (by simpa using mined) held
      exact Emit.Triple.pure fun _ unsettled => ⟨unsettled, txHash, member, .inl checked⟩

theorem monitorTx_triple [DecidableEq Hash] {mTx : MonitoredTx Hash} (stored : mTx.persist = mTx)
    (consistent : mTx.Consistent)
    (monitored : mTx.status = .created ∨ mTx.status = .sent ∨ mTx.status = .reorged) :
    RoundTriple e lastBlock (fun row => row = mTx) (monitorTx e lastBlock mTx) fun _ _ => True := by
  have unsettled : ∀ row, row = mTx → Unsettled mTx row := fun row read =>
    ⟨read.trans stored.symm, monitored, consistent.unmined monitored⟩
  unfold monitorTx
  apply Emit.Triple.bind ((reviewNonce_triple _ mTx).mono unsettled fun _ _ reviewed => reviewed)
  intro reviewed
  apply Emit.Triple.assume_and
  rintro ⟨-, sameHistory⟩
  -- a receipt the check of the history holds is that of a transaction of the history
  have found : ∀ receipt, (scanHistory e.checkTxWasMined .init mTx.history.keys).mined = true →
      (scanHistory e.checkTxWasMined .init mTx.history.keys).receipt = some receipt →
      ∃ txHash ∈ reviewed.history, e.checkTxWasMined txHash = .ok (some receipt) := by
    intro receipt mined held
    obtain ⟨receipt', held', -, txHash, member, checked⟩ := scanHistory_receipt _ rfl mined
    obtain rfl : receipt' = receipt := Option.some.inj (held'.symm.trans held)
    exact ⟨txHash, sameHistory ▸ AList.mem_keys.mp member, checked⟩
  apply Emit.Triple.bind (minedReceipt_triple found)
  rintro ⟨settledTx, receipt⟩
  apply Emit.Triple.assume_and
  rintro receipted
  exact settle_triple settledTx receipted

theorem monitorTx_allowed [DecidableEq Hash] {mTx : MonitoredTx Hash} (stored : mTx.persist = mTx)
    (consistent : mTx.Consistent)
    (monitored : mTx.status = .created ∨ mTx.status = .sent ∨ mTx.status = .reorged) :
    Emit.Allowed Effect.applyRow (RoundOk e lastBlock) mTx (monitorTx e lastBlock mTx).effects :=
  (monitorTx_triple stored consistent monitored mTx rfl).1

/-- A round writes a monitored tx confirmed only with the block of a successful
receipt that L1 gave for a transaction of its history, and only once the state
has synchronized that L1 block. -/
theorem monitorTx_synced [DecidableEq Hash] {mTx : MonitoredTx Hash} (stored : mTx.persist = mTx)
    (consistent : mTx.Consistent)
    (monitored : mTx.status = .created ∨ mTx.status = .sent ∨ mTx.status = .reorged) :
    ∀ effect ∈ (monitorTx e lastBlock mTx).effects, Synced e lastBlock effect :=
  (monitorTx_allowed stored consistent monitored).forall_mem fun _ _ ok => ok.2

end Round

/-- What one round learns from outside: the etherman's answers, and the last L1
block of the synchronized state (`none` when `GetLastBlock` fails). -/
structure RoundEnv (Hash : Type) where
  etherman : Etherman Hash
  lastBlock : Option Nat

/-- The statuses `monitorTxs` reads. -/
def monitoredStatuses : List MonitoredTxStatus := [.created, .sent, .reorged]

/-- `monitorTxs`: the rounds of its loop over the monitored txs of every owner
that are created, sent or reorged, in the order of `created_at`, each with the
row it read and its calls; the round of a monitored tx learns from L1 what `env`
gives for it. -/
def monitorTxs [DecidableEq Hash] (env : MonitoredTx Hash → RoundEnv Hash)
    (storage : Storage Hash) : List (MonitoredTx Hash × List (Effect Hash)) :=
  (storage.getByStatus none monitoredStatuses).map fun mTx =>
    (mTx, (monitorTx (env mTx).etherman (env mTx).lastBlock mTx).effects)

theorem mem_monitoredStatuses {status : MonitoredTxStatus} :
    status ∈ monitoredStatuses ↔ status = .created ∨ status = .sent ∨ status = .reorged := by
  simp [monitoredStatuses]

variable [DecidableEq Hash]

theorem mem_monitorTxs {env : MonitoredTx Hash → RoundEnv Hash} {storage : Storage Hash}
    {round : MonitoredTx Hash × List (Effect Hash)} (member : round ∈ monitorTxs env storage) :
    ∃ mTx ∈ storage.rows, (mTx.status = .created ∨ mTx.status = .sent ∨ mTx.status = .reorged) ∧
      round = (mTx, (monitorTx (env mTx).etherman (env mTx).lastBlock mTx).effects) := by
  obtain ⟨mTx, read, rfl⟩ := List.mem_map.mp member
  obtain ⟨stored, _, monitored⟩ := Storage.mem_getByStatus.mp read
  have listed : mTx.status ∈ monitoredStatuses := monitored.resolve_left (by simp [monitoredStatuses])
  exact ⟨mTx, stored, mem_monitoredStatuses.mp listed, rfl⟩

theorem nodup_monitorTxs (env : MonitoredTx Hash → RoundEnv Hash) (storage : Storage Hash) :
    ((monitorTxs env storage).map fun round => round.1.key).Nodup := by
  rw [monitorTxs, List.map_map]
  exact Table.nodup_select storage _

/-- An L1 on which every signed transaction is new and is mined at once, in
block 5, with a successful receipt; the suggested gas price is 1. -/
def sampleEtherman : Etherman Nat where
  getTx _ := .error .notFound
  getTxReceipt hash := .ok ⟨receiptStatusSuccessful, hash, 5⟩
  waitTxToBeMined _ := .ok true
  sendTx _ := .ok ()
  currentNonce _ := .ok 0
  suggestedGasPrice := .ok 1
  estimateGas _ _ _ _ := .ok 21000
  checkTxWasMined _ := .ok none
  signTx _ _ := .ok 7
  getRevertMessage _ := .error .notFound

def sampleTx : MonitoredTx Nat :=
  { owner := ['s'], id := ['1'], fromAddress := bytesToAddress [], toAddress := none, nonce := 0,
    value := none, data := [], gas := 21000, gasPrice := 1, status := .created, blockNumber := none,
    history := ∅ }

/-- The round of `sampleTx` confirms it only with a block the state has
synchronized. -/
theorem monitorTx_synced_sample :
    sampleTx.persist = sampleTx ∧ sampleTx.Consistent ∧ sampleTx.status = .created ∧
      ∀ effect ∈ (monitorTx sampleEtherman (some 10) sampleTx).effects, Synced sampleEtherman (some 10) effect :=
  have consistent : sampleTx.Consistent := ⟨fun _ => rfl, fun mined => by simp [sampleTx] at mined⟩
  ⟨rfl, consistent, rfl, monitorTx_synced rfl consistent (.inl rfl)⟩

end ZkevmNode.Ethtxmanager
