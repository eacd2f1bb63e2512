import ZkevmNode.Ethtxmanager.Monitor

set_option autoImplicit false

/-! The calls of the manager that change its table besides the monitoring loop:
`Client.Add`, `Client.Reorg`, `ProcessPendingMonitoredTxs` and
`setStatusDone`. -/

namespace ZkevmNode.Ethtxmanager

open Go MonitoredTx

variable {Hash : Type}

/-- `Config`, its `ForcedGas` (its other fields are times and keys). -/
structure Config where
  forcedGas : UInt64

/-- `gasOffsets`: the gas added to the estimate of the transactions of an
owner. -/
def gasOffsets : Map (List Char) UInt64 :=
  ((∅ : Map (List Char) UInt64).insert "sequencer".toList 80000).insert "aggregator".toList 0

/-- The error `Add` returns, with the error of the call that failed. -/
inductive AddError where
  | currentNonce (err : EthError)
  | estimateGas (err : EthError) (data : List UInt8)
  | suggestedGasPrice (err : EthError)
  | storage (err : Error)

def AddError.error : AddError → List Char
  | currentNonce err => "failed to get current nonce: ".toList ++ err.error
  | estimateGas err data =>
    "failed to estimate gas: ".toList ++ err.error ++ ", data: ".toList ++ encodeToString data
  | suggestedGasPrice err => "failed to get suggested gas price: ".toList ++ err.error
  | storage err => "failed to add tx to get monitored: ".toList ++ err.error

/-- The gas `Add` gives a monitored tx: the estimate and the owner's offset, or
the configured forced gas when the estimate fails and one is set. -/
def addGas (cfg : Config) (owner : List Char) (estimated : Except EthError UInt64)
    (data : List UInt8) : Except AddError UInt64 :=
  match estimated with
  | .ok gas => pure (gas + (gasOffsets.lookup owner).getD 0)
  | .error err => if cfg.forcedGas > 0 then pure cfg.forcedGas else throw (.estimateGas err data)

/-- `Add`: a monitored tx for the owner and id, with the sender's current nonce,
its gas, the suggested gas price, and the status created; the storage refuses an
id the owner has used. -/
def add (cfg : Config) (e : Etherman Hash) (storage : Storage Hash) (owner id : List Char)
    (fromAddress : Address) (toAddress : Option Address) (value : Option Nat) (data : List UInt8) :
    Except AddError (Storage Hash) := do
  let nonce ← (e.currentNonce fromAddress).mapError .currentNonce
  let gas ← addGas cfg owner (e.estimateGas fromAddress toAddress value data) data
  let gasPrice ← e.suggestedGasPrice.mapError .suggestedGasPrice
  let mTx : MonitoredTx Hash :=
    { owner := owner, id := id, fromAddress := fromAddress, toAddress := toAddress, nonce := nonce,
      value := value, data := data, gas := gas, gasPrice := gasPrice, status := .created,
      blockNumber := none, history := ∅ }
  (storage.add mTx).mapError .storage

/-- `Reorg`: the monitored txs found mined in a block from `fromBlockNumber` on
lose their block number and become reorged. -/
def reorg (storage : Storage Hash) (fromBlockNumber : Nat) : Storage Hash :=
  (storage.getByBlock (some fromBlockNumber) none).foldl
    (fun storage mTx => storage.update { mTx with blockNumber := none, status := .reorged }) storage

/-- `setStatusDone`: the monitored tx, as the storage holds it now, becomes
done. -/
def setStatusDone (storage : Storage Hash) (owner id : List Char) : Except Error (Storage Hash) := do
  let mTx ← storage.get owner id
  pure (storage.update { mTx with status := .done })

/-- The statuses `ProcessPendingMonitoredTxs` reads. -/
def pendingStatuses : List MonitoredTxStatus := [.created, .sent, .failed, .confirmed, .reorged]

/-- `ResultsByStatus`: the results of the owner's monitored txs with one of the
statuses, in the order of `created_at`. -/
def resultsByStatus (storage : Storage Hash) (owner : List Char)
    (statuses : List MonitoredTxStatus) : List MonitoredTxResult :=
  (storage.getByStatus (some owner) statuses).map fun mTx => ⟨mTx.id, mTx.status⟩

theorem mapError_eq_ok {ε ε' α : Type} {x : Except ε α} {f : ε → ε'} {a : α}
    (mapped : x.mapError f = .ok a) : x = .ok a := by
  cases x with
  | error err => cases mapped
  | ok b => cases mapped; rfl

theorem add_ok {cfg : Config} {e : Etherman Hash} {storage storage' : Storage Hash}
    {owner id : List Char} {fromAddress : Address} {toAddress : Option Address}
    {value : Option Nat} {data : List UInt8}
    (added : add cfg e storage owner id fromAddress toAddress value data = .ok storage') :
    ∃ mTx : MonitoredTx Hash, mTx.key = (owner, id) ∧ mTx.status = .created ∧
      mTx.blockNumber = none ∧ storage.insert mTx.persist = some storage' ∧
      mTx.fromAddress = fromAddress ∧ mTx.toAddress = toAddress ∧ mTx.data = data := by
  unfold add at added
  cases current : e.currentNonce fromAddress with
  | error err => simp [current, Except.mapError, bind, Except.bind] at added
  | ok nonce =>
    cases estimated : addGas cfg owner (e.estimateGas fromAddress toAddress value data) data with
    | error err => simp [current, estimated, Except.mapError, bind, Except.bind] at added
    | ok gas =>
    cases suggested : e.suggestedGasPrice with
    | error err => simp [current, estimated, suggested, Except.mapError, bind, Except.bind] at added
    | ok gasPrice =>
      simp only [current, estimated, suggested, Except.mapError, bind, Except.bind] at added
      exact ⟨_, rfl, rfl, rfl, Storage.add_ok (mapError_eq_ok added), rfl, rfl, rfl⟩

theorem consistent_reorged (mTx : MonitoredTx Hash) :
    ({ mTx with blockNumber := none, status := .reorged } : MonitoredTx Hash).persist.Consistent :=
  ⟨fun _ => rfl, fun mined => by simp at mined⟩

theorem consistent_done (mTx : MonitoredTx Hash) :
    ({ mTx with status := .done } : MonitoredTx Hash).persist.Consistent :=
  ⟨fun unmined => by simp at unmined, fun mined => by simp at mined⟩

theorem find?_reorg (storage : Storage Hash) (fromBlockNumber : Nat) (k : List Char × List Char) :
    (reorg storage fromBlockNumber).find? k = (storage.find? k).map fun mTx =>
      if mTx.blockNumber.any (fromBlockNumber ≤ ·) then
        ({ mTx with blockNumber := none, status := .reorged } : MonitoredTx Hash).persist
      else mTx := by
  have found := Table.find?_foldl_update
    (fun mTx => ({ mTx with blockNumber := none, status := .reorged } : MonitoredTx Hash).persist)
    (fun _ => rfl) (storage.getByBlock (some fromBlockNumber) none) storage
    (Table.nodup_select _ _) (fun _ member => (Storage.mem_getByBlock.mp member).1) k
  refine found.trans ?_
  rw [Storage.getByBlock, Table.find?_select]
  cases stored : storage.find? k with
  | none => rfl
  | some mTx =>
    cases block : mTx.blockNumber with
    | none => simp [Option.filter_some, block]
    | some b => by_cases late : fromBlockNumber ≤ b <;> simp [Option.filter_some, block, late]

theorem mem_reorg {storage : Storage Hash} {fromBlockNumber : Nat} {P : MonitoredTx Hash → Prop}
    (rows : ∀ mTx ∈ storage.rows, P mTx)
    (reorged : ∀ mTx : MonitoredTx Hash,
      P ({ mTx with blockNumber := none, status := .reorged } : MonitoredTx Hash).persist) :
    ∀ mTx ∈ (reorg storage fromBlockNumber).rows, P mTx :=
  Table.forall_mem_foldl_update _ _ storage rows fun mTx _ => reorged mTx

theorem setStatusDone_ok {storage storage' : Storage Hash} {owner id : List Char}
    (done : setStatusDone storage owner id = .ok storage') :
    ∃ mTx, storage.find? (owner, id) = some mTx ∧
      storage' = storage.update { mTx with status := .done } := by
  unfold setStatusDone at done
  cases got : storage.get owner id with
  | error err => simp [got, bind, Except.bind] at done
  | ok mTx =>
    simp only [got, bind, Except.bind, pure, Except.pure, Except.ok.injEq] at done
    exact ⟨mTx, Storage.get_ok.mp got, done.symm⟩

theorem mem_resultsByStatus {storage : Storage Hash} {owner : List Char}
    {statuses : List MonitoredTxStatus} {result : MonitoredTxResult}
    (member : result ∈ resultsByStatus storage owner statuses) :
    ∃ mTx ∈ storage.rows, mTx.key = (owner, result.id) ∧ mTx.status = result.status := by
  obtain ⟨mTx, read, rfl⟩ := List.mem_map.mp member
  obtain ⟨stored, owned, _⟩ := Storage.mem_getByStatus.mp read
  exact ⟨mTx, stored, by rw [key, owned owner rfl], rfl⟩

theorem mem_resultsByStatus_of_find? {storage : Storage Hash} {owner id : List Char}
    {statuses : List MonitoredTxStatus} {mTx : MonitoredTx Hash}
    (found : storage.find? (owner, id) = some mTx) (listed : mTx.status ∈ statuses) :
    ⟨id, mTx.status⟩ ∈ resultsByStatus storage owner statuses := by
  have key : mTx.key = (owner, id) := Table.find?_key found
  obtain ⟨owned, named⟩ := Prod.mk.inj (show (mTx.owner, mTx.id) = (owner, id) from key)
  refine List.mem_map.mpr ⟨mTx, Storage.mem_getByStatus.mpr ⟨Table.mem_of_find? found, ?_, .inr listed⟩, ?_⟩
  · intro o chosen
    rw [← Option.some_inj.mp chosen, owned]
  · rw [named]

end ZkevmNode.Ethtxmanager
