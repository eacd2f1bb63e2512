import ZkevmNode.Lib.Table
import ZkevmNode.Lib.Emit
import ZkevmNode.Go.Map
import ZkevmNode.Go.Bytes
import ZkevmNode.State.Transaction

set_option autoImplicit false

/-! The monitored transactions of `ethtxmanager` (`monitoredtx.go`) and their
table `state.monitored_txs` (`pgstorage.go`), keyed by (owner, id). The stored
row is the monitored tx the storage reads back (`persist`): the three `uint64`
columns keep the low 64 bits of the `big.Int` written. -/

namespace ZkevmNode.Ethtxmanager

open Go

/-- `MonitoredTxStatus` and its six constants. -/
inductive MonitoredTxStatus where
  | created
  | sent
  | failed
  | confirmed
  | reorged
  | done
  deriving DecidableEq, Repr

namespace MonitoredTxStatus

/-- How far a monitored tx has come: created (0), sent (1), or found mined once,
whatever happened after (2). The manager only moves a monitored tx forward. -/
def phase : MonitoredTxStatus → Nat
  | created => 0
  | sent => 1
  | _ => 2

@[simp] theorem phase_created : created.phase = 0 := rfl
@[simp] theorem phase_sent : sent.phase = 1 := rfl
@[simp] theorem phase_failed : failed.phase = 2 := rfl
@[simp] theorem phase_confirmed : confirmed.phase = 2 := rfl
@[simp] theorem phase_reorged : reorged.phase = 2 := rfl
@[simp] theorem phase_done : done.phase = 2 := rfl

theorem phase_le_two (status : MonitoredTxStatus) : status.phase ≤ 2 := by
  cases status <;> simp

theorem phase_le_one {status : MonitoredTxStatus} (early : status.phase ≤ 1) :
    status = created ∨ status = sent := by
  cases status <;> simp_all

end MonitoredTxStatus

/-- The errors of the package the modelled code returns or compares with:
`ErrNotFound` and `ErrAlreadyExists`. -/
inductive Error where
  | notFound
  | alreadyExists
  deriving DecidableEq, Repr

/-- `err.Error()`. -/
def Error.error : Error → List Char
  | notFound => "not found".toList
  | alreadyExists => "already exists".toList

/-- An error of a call to the etherman: `ethereum.NotFound`, or another error,
with its text. -/
inductive EthError where
  | notFound
  | other (text : List Char)
  deriving DecidableEq, Repr

/-- `err.Error()`. -/
def EthError.error : EthError → List Char
  | notFound => "not found".toList
  | other text => text

/-- The text of `ErrExecutionReverted`. -/
def errExecutionReverted : List Char := "execution reverted".toList

/-- `monitoredTx`, its `from` and `to` named `fromAddress` and `toAddress`, its
`history` map of hashes kept as a Go map. -/
structure MonitoredTx (Hash : Type) where
  owner : List Char
  id : List Char
  fromAddress : Address
  toAddress : Option Address
  nonce : UInt64
  value : Option Nat
  data : List UInt8
  gas : UInt64
  gasPrice : Nat
  status : MonitoredTxStatus
  blockNumber : Option Nat
  history : Map Hash Bool
  deriving DecidableEq

/-- `MonitoredTxResult`, its `Txs` map left out (the handlers of its callers
read the id and the status). -/
structure MonitoredTxResult where
  id : List Char
  status : MonitoredTxStatus
  deriving DecidableEq, Repr

namespace MonitoredTx

variable {Hash : Type}

/-- The primary key of the table. -/
def key (mTx : MonitoredTx Hash) : List Char × List Char := (mTx.owner, mTx.id)

/-- `Tx`: the unsigned legacy transaction built from the monitored tx; a nil
value is zero in it. -/
def tx (mTx : MonitoredTx Hash) : State.LegacyTx :=
  { nonce := mTx.nonce, gasPrice := mTx.gasPrice, gas := mTx.gas, toAddress := mTx.toAddress,
    value := mTx.value.getD 0, data := mTx.data, v := 0, r := 0, s := 0 }

/-- The monitored tx the storage reads back after writing `mTx`. -/
def persist (mTx : MonitoredTx Hash) : MonitoredTx Hash :=
  { mTx with value := mTx.value.map uint64, gasPrice := uint64 mTx.gasPrice,
             blockNumber := mTx.blockNumber.map uint64 }

section Hashes

variable [DecidableEq Hash]

/-- `AddHistory`: the hash of a signed transaction made from the monitored tx
goes into its history, unless it is there already. -/
def addHistory (mTx : MonitoredTx Hash) (hash : Hash) : Except Error (MonitoredTx Hash) :=
  if hash ∈ mTx.history then .error .alreadyExists
  else .ok { mTx with history := mTx.history.insert hash true }

theorem addHistory_ok {mTx mTx' : MonitoredTx Hash} {hash : Hash}
    (added : mTx.addHistory hash = .ok mTx') :
    mTx' = { mTx with history := mTx.history.insert hash true } := by
  unfold addHistory at added
  split at added
  · cases added
  · cases added
    rfl

theorem addHistory_error {mTx : MonitoredTx Hash} {hash : Hash} {err : Error}
    (failed : mTx.addHistory hash = .error err) : hash ∈ mTx.history ∧ err = .alreadyExists := by
  unfold addHistory at failed
  split at failed
  · cases failed
    exact ⟨by assumption, rfl⟩
  · cases failed

end Hashes

@[simp] theorem key_persist (mTx : MonitoredTx Hash) : mTx.persist.key = mTx.key := rfl
@[simp] theorem status_persist (mTx : MonitoredTx Hash) : mTx.persist.status = mTx.status := rfl
@[simp] theorem history_persist (mTx : MonitoredTx Hash) : mTx.persist.history = mTx.history := rfl
@[simp] theorem nonce_persist (mTx : MonitoredTx Hash) : mTx.persist.nonce = mTx.nonce := rfl
@[simp] theorem gas_persist (mTx : MonitoredTx Hash) : mTx.persist.gas = mTx.gas := rfl
@[simp] theorem fromAddress_persist (mTx : MonitoredTx Hash) :
    mTx.persist.fromAddress = mTx.fromAddress := rfl
@[simp] theorem toAddress_persist (mTx : MonitoredTx Hash) : mTx.persist.toAddress = mTx.toAddress :=
  rfl
@[simp] theorem data_persist (mTx : MonitoredTx Hash) : mTx.persist.data = mTx.data := rfl
@[simp] theorem value_persist (mTx : MonitoredTx Hash) : mTx.persist.value = mTx.value.map uint64 :=
  rfl
@[simp] theorem gasPrice_persist (mTx : MonitoredTx Hash) : mTx.persist.gasPrice = uint64 mTx.gasPrice :=
  rfl
@[simp] theorem blockNumber_persist (mTx : MonitoredTx Hash) :
    mTx.persist.blockNumber = mTx.blockNumber.map uint64 := rfl

theorem uint64_uint64 (x : Nat) : uint64 (uint64 x) = uint64 x := Nat.mod_mod x _

@[simp] theorem persist_persist (mTx : MonitoredTx Hash) : mTx.persist.persist = mTx.persist := by
  simp only [persist, Option.map_map, Function.comp_def, uint64_uint64]

/-- The block number and the status agree: a monitored tx not yet found mined
(created, sent, or reorged out of the block it was found in) has no block
number, and one found mined (confirmed or failed) has one. -/
structure Consistent (mTx : MonitoredTx Hash) : Prop where
  unmined : mTx.status = .created ∨ mTx.status = .sent ∨ mTx.status = .reorged →
    mTx.blockNumber = none
  mined : mTx.status = .confirmed ∨ mTx.status = .failed → mTx.blockNumber.isSome

theorem Consistent.persist {mTx : MonitoredTx Hash} (consistent : mTx.Consistent) :
    mTx.persist.Consistent :=
  ⟨fun unmined => by simp [consistent.unmined unmined],
   fun mined => by simpa using consistent.mined mined⟩

/-- A later version of a row: the transaction it builds is to the same account,
from the same sender, with the same value and data, a nonce and gas no lower,
and every hash of the history kept; and the status has not gone back. The gas
price, which the storage may read back lower than written, is apart. -/
structure Grows (old new : MonitoredTx Hash) : Prop where
  key : new.key = old.key
  fromAddress : new.fromAddress = old.fromAddress
  toAddress : new.toAddress = old.toAddress
  value : new.value = old.value
  data : new.data = old.data
  nonce : old.nonce ≤ new.nonce
  gas : old.gas ≤ new.gas
  history : ∀ h, h ∈ old.history → h ∈ new.history
  phase : old.status.phase ≤ new.status.phase

theorem Grows.refl (mTx : MonitoredTx Hash) : Grows mTx mTx :=
  ⟨rfl, rfl, rfl, rfl, rfl, UInt64.le_refl _, UInt64.le_refl _, fun _ member => member,
    Nat.le_refl _⟩

theorem Grows.trans {a b c : MonitoredTx Hash} (first : Grows a b) (second : Grows b c) :
    Grows a c :=
  ⟨second.key.trans first.key, second.fromAddress.trans first.fromAddress,
    second.toAddress.trans first.toAddress, second.value.trans first.value,
    second.data.trans first.data, UInt64.le_trans first.nonce second.nonce,
    UInt64.le_trans first.gas second.gas, fun h member => second.history h (first.history h member),
    Nat.le_trans first.phase second.phase⟩

theorem grows_status (old : MonitoredTx Hash) {status : MonitoredTxStatus}
    (blockNumber : Option Nat) (phase : old.status.phase ≤ status.phase) :
    Grows old { old with status := status, blockNumber := blockNumber } :=
  ⟨rfl, rfl, rfl, rfl, rfl, UInt64.le_refl _, UInt64.le_refl _, fun _ member => member, phase⟩

theorem Grows.done {old new : MonitoredTx Hash} (grows : Grows old new) (last : old.status.phase = 2) :
    Grows { old with status := .done } new :=
  ⟨grows.key, grows.fromAddress, grows.toAddress, grows.value, grows.data, grows.nonce, grows.gas,
    grows.history, (last ▸ grows.phase : 2 ≤ new.status.phase)⟩

theorem Grows.persist {old new : MonitoredTx Hash} (grows : Grows old new) :
    Grows old.persist new.persist :=
  ⟨grows.key, grows.fromAddress, grows.toAddress, by simp [grows.value], grows.data, grows.nonce,
    grows.gas, grows.history, grows.phase⟩

end MonitoredTx

/-- `PostgresStorage`: the table `state.monitored_txs`. -/
abbrev Storage (Hash : Type) := Table (@MonitoredTx.key Hash)

namespace Storage

variable {Hash : Type}

/-- `Add`: the row read back from `mTx`, or `ErrAlreadyExists` when its key is
taken (the primary key constraint `monitored_txs_pkey`). -/
def add (storage : Storage Hash) (mTx : MonitoredTx Hash) : Except Error (Storage Hash) :=
  match storage.insert mTx.persist with
  | some storage' => .ok storage'
  | none => .error .alreadyExists

/-- `Get`: the row with the owner and id, or `ErrNotFound`. -/
def get (storage : Storage Hash) (owner id : List Char) : Except Error (MonitoredTx Hash) :=
  match storage.find? (owner, id) with
  | some mTx => .ok mTx
  | none => .error .notFound

/-- `GetByStatus`: the rows of the owner (of every owner for `none`) whose status
is one of `statuses` (any status when there is none), in the order of
`created_at`. -/
def getByStatus (storage : Storage Hash) (owner : Option (List Char))
    (statuses : List MonitoredTxStatus) : List (MonitoredTx Hash) :=
  storage.select fun mTx =>
    owner.all (fun o => o = mTx.owner) && (statuses.isEmpty || statuses.contains mTx.status)

/-- `GetByBlock`: the rows with a block number within the bounds given, in the
order of `created_at`; a row with no block number is never one. -/
def getByBlock (storage : Storage Hash) (fromBlock toBlock : Option Nat) :
    List (MonitoredTx Hash) :=
  storage.select fun mTx =>
    match mTx.blockNumber with
    | none => false
    | some b => fromBlock.all (fun lo => lo ≤ b) && toBlock.all (fun hi => b ≤ hi)

/-- `Update`: the row under the key of `mTx` becomes the row read back from it;
there is no error when no row has the key. -/
def update (storage : Storage Hash) (mTx : MonitoredTx Hash) : Storage Hash :=
  Table.update storage mTx.persist

theorem find?_update (storage : Storage Hash) (mTx : MonitoredTx Hash) (k : List Char × List Char) :
    (storage.update mTx).find? k =
      if mTx.key = k then (storage.find? k).map fun _ => mTx.persist else storage.find? k :=
  Table.find?_update storage mTx.persist k

theorem add_ok {storage storage' : Storage Hash} {mTx : MonitoredTx Hash}
    (added : storage.add mTx = .ok storage') : storage.insert mTx.persist = some storage' := by
  unfold add at added
  split at added
  · rename_i inserted
    cases added
    exact inserted
  · cases added

theorem get_ok {storage : Storage Hash} {owner id : List Char} {mTx : MonitoredTx Hash} :
    storage.get owner id = .ok mTx ↔ storage.find? (owner, id) = some mTx := by
  unfold get
  split <;> simp_all

theorem mem_getByStatus {storage : Storage Hash} {owner : Option (List Char)}
    {statuses : List MonitoredTxStatus} {mTx : MonitoredTx Hash} :
    mTx ∈ storage.getByStatus owner statuses ↔ mTx ∈ storage.rows ∧
      (∀ o, owner = some o → o = mTx.owner) ∧ (statuses = [] ∨ mTx.status ∈ statuses) := by
  cases owner <;> simp [getByStatus]

theorem mem_getByBlock {storage : Storage Hash} {fromBlock : Nat} {mTx : MonitoredTx Hash} :
    mTx ∈ storage.getByBlock (some fromBlock) none ↔
      mTx ∈ storage.rows ∧ ∃ b, mTx.blockNumber = some b ∧ fromBlock ≤ b := by
  simp only [getByBlock, Table.mem_select]
  cases mTx.blockNumber <;> simp

end Storage

/-- A call of the manager that changes the table or the network: `Update` of a
monitored tx, or `SendTx` of the signed transaction with the hash. -/
inductive Effect (Hash : Type) where
  | update (mTx : MonitoredTx Hash)
  | sendTx (hash : Hash)
  deriving DecidableEq

namespace Effect

variable {Hash : Type}

/-- What the effect does to the table. -/
def apply (storage : Storage Hash) : Effect Hash → Storage Hash
  | update mTx => storage.update mTx
  | sendTx _ => storage

/-- What the effect does to the row it is made for. -/
def applyRow (row : MonitoredTx Hash) : Effect Hash → MonitoredTx Hash
  | update mTx => mTx.persist
  | sendTx _ => row

/-- What a call of the monitoring loop may do to the row it is made for: only
while the row has no block number, write a version of it that has grown and
whose block number agrees with its status, with a gas price no lower when
`prices` holds; and send a transaction of the row's history while the row is
created or sent. -/
def WriteOk (prices : Prop) (row : MonitoredTx Hash) : Effect Hash → Prop
  | update mTx => row.blockNumber = none ∧ MonitoredTx.Grows row mTx.persist ∧
      mTx.persist.Consistent ∧ (prices → row.gasPrice ≤ mTx.persist.gasPrice)
  | sendTx hash => row.blockNumber = none ∧ hash ∈ row.history ∧ row.status.phase ≤ 1

namespace WriteOk

variable {prices : Prop} {row : MonitoredTx Hash} {effect : Effect Hash}

theorem unmined (ok : WriteOk prices row effect) : row.blockNumber = none := by
  cases effect with
  | update mTx => exact ok.1
  | sendTx hash => exact ok.1

theorem mono {prices' : Prop} (weaker : prices → prices') (ok : WriteOk prices' row effect) :
    WriteOk prices row effect := by
  cases effect with
  | update mTx => exact ⟨ok.1, ok.2.1, ok.2.2.1, fun holds => ok.2.2.2 (weaker holds)⟩
  | sendTx hash => exact ok

end WriteOk

theorem find?_final (k : List Char × List Char) {effects : List (Effect Hash)}
    (keyed : ∀ mTx, update mTx ∈ effects → mTx.key = k) (storage : Storage Hash) (k' : List Char × List Char) :
    (Emit.final apply storage effects).find? k' =
      if k = k' then (storage.find? k).map fun row => Emit.final applyRow row effects
      else storage.find? k' := by
  induction effects generalizing storage with
  | nil =>
    by_cases here : k = k'
    · subst here
      simp
    · simp [here]
  | cons effect effects ih =>
    have rest := ih (fun mTx member => keyed mTx (List.mem_cons_of_mem _ member))
    cases effect with
    | sendTx hash => exact rest storage
    | update mTx =>
      have written : mTx.key = k := keyed mTx List.mem_cons_self
      rw [Emit.final_cons, apply, rest, Storage.find?_update, Storage.find?_update, written]
      by_cases here : k = k'
      · subst here
        simp only [if_true, Option.map_map]
        rfl
      · simp [here]

end Effect

end ZkevmNode.Ethtxmanager
