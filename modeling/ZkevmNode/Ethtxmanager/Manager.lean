import ZkevmNode.Ethtxmanager.Client

set_option autoImplicit false

/-! The manager as a system: `Client.Add`, `Client.Reorg`,
`ProcessPendingMonitoredTxs` with `setStatusDone`, and `monitorTxs`, each in its
own goroutine on one table. A run is any interleaving of their steps, a step
being one call on the table; `monitorTxs` and `ProcessPendingMonitoredTxs` read
once and act on what they read later, so the invariant has to carry stale
reads. -/

namespace ZkevmNode.Ethtxmanager

open Go MonitoredTx

variable {Hash : Type}

/-- The table and the calls under way on it: the rounds of `monitorTxs` not
done yet, each with the row it read and its calls to come, and, for each owner,
the results `ProcessPendingMonitoredTxs` has read and not handled yet. -/
structure Manager (Hash : Type) where
  storage : Storage Hash
  rounds : List (MonitoredTx Hash × List (Effect Hash))
  pending : List Char → List MonitoredTxResult

def Manager.init : Manager Hash := ⟨Table.empty, [], fun _ => []⟩

/-- A step of one of the goroutines. -/
inductive Event (Hash : Type) where
  /-- `Add`, with the etherman's answers at the time. -/
  | add (e : Etherman Hash) (owner id : List Char) (fromAddress : Address)
      (toAddress : Option Address) (value : Option Nat) (data : List UInt8)
  /-- `monitorTxs` reads the rows to monitor, once the previous call is done. -/
  | monitorTxs (env : MonitoredTx Hash → RoundEnv Hash)
  /-- The next call of the rounds of `monitorTxs`. -/
  | monitorCall
  /-- `Reorg`. -/
  | reorg (fromBlockNumber : Nat)
  /-- `ProcessPendingMonitoredTxs` of the owner reads its results, once it has
  handled the last ones. -/
  | resultsByStatus (owner : List Char)
  /-- `ProcessPendingMonitoredTxs` of the owner handles its next result. -/
  | handleResult (owner : List Char)

namespace Manager

variable [DecidableEq Hash] (cfg : Config)

/-- How `ProcessPendingMonitoredTxs` handles a result: a confirmed one is set
done (or skipped when that fails), a failed one goes to the handler, and on any
other it waits until the monitored tx, as the storage holds it, is confirmed or
failed. -/
def handle (m : Manager Hash) (owner : List Char) (result : MonitoredTxResult)
    (results : List MonitoredTxResult) : Manager Hash :=
  let handled := { m with pending := Function.update m.pending owner results }
  if result.status = .confirmed then
    match setStatusDone m.storage owner result.id with
    | .ok storage => { handled with storage := storage }
    | .error _ => handled
  else if result.status = .failed then handled
  else
    match m.storage.get owner result.id with
    | .ok mTx => if mTx.status = .confirmed ∨ mTx.status = .failed then handled else m
    | .error _ => m

/-- A step of the manager. -/
def step (m : Manager Hash) : Event Hash → Manager Hash
  | .add e owner txId fromAddress toAddress value data =>
    match add cfg e m.storage owner txId fromAddress toAddress value data with
    | .ok storage => { m with storage := storage }
    | .error _ => m
  | .monitorTxs env => if m.rounds.isEmpty then { m with rounds := monitorTxs env m.storage } else m
  | .monitorCall =>
    match m.rounds with
    | [] => m
    | (_, []) :: rounds => { m with rounds := rounds }
    | (mTx, effect :: effects) :: rounds =>
      { m with storage := effect.apply m.storage, rounds := (mTx, effects) :: rounds }
  | .reorg fromBlockNumber => { m with storage := reorg m.storage fromBlockNumber }
  | .resultsByStatus owner =>
    if (m.pending owner).isEmpty then
      { m with pending :=
          Function.update m.pending owner (resultsByStatus m.storage owner pendingStatuses) }
    else m
  | .handleResult owner =>
    match m.pending owner with
    | [] => m
    | result :: results => handle m owner result results

/-- A run: the steps of the goroutines in the order they happen. -/
def run (m : Manager Hash) (events : List (Event Hash)) : Manager Hash := events.foldl (step cfg) m

@[simp] theorem run_nil (m : Manager Hash) : run cfg m [] = m := rfl

@[simp] theorem run_cons (m : Manager Hash) (event : Event Hash) (events : List (Event Hash)) :
    run cfg m (event :: events) = run cfg (step cfg m event) events := rfl

theorem run_append (m : Manager Hash) (events events' : List (Event Hash)) :
    run cfg m (events ++ events') = run cfg (run cfg m events) events' :=
  List.foldl_append

end Manager

section Rows

variable (prices : Prop)

/-- How a row may change over a run: it grows, and its gas price does not go
down when `prices` holds. -/
def Later (row row' : MonitoredTx Hash) : Prop :=
  Grows row row' ∧ (prices → row.gasPrice ≤ row'.gasPrice)

theorem Later.refl (row : MonitoredTx Hash) : Later prices row row :=
  ⟨Grows.refl row, fun _ => Nat.le_refl _⟩

variable {prices}

theorem Later.trans {a b c : MonitoredTx Hash} (first : Later prices a b)
    (second : Later prices b c) : Later prices a c :=
  ⟨first.1.trans second.1, fun holds => Nat.le_trans (first.2 holds) (second.2 holds)⟩

theorem later_status {row : MonitoredTx Hash} (stored : row.persist = row)
    {status : MonitoredTxStatus} (blockNumber : Option Nat) (phase : row.status.phase ≤ status.phase) :
    Later prices row ({ row with status := status, blockNumber := blockNumber } : MonitoredTx Hash).persist := by
  have grows := (grows_status row blockNumber phase).persist
  rw [stored] at grows
  exact ⟨grows, fun _ => (congrArg MonitoredTx.gasPrice stored).ge⟩

theorem persist_done {row : MonitoredTx Hash} (stored : row.persist = row) :
    ({ row with status := .done } : MonitoredTx Hash).persist = { row with status := .done } := by
  change { row.persist with status := .done } = _
  rw [stored]

theorem rows_update {storage : Storage Hash} {mTx : MonitoredTx Hash}
    (rows : ∀ row ∈ storage.rows, row.Consistent ∧ row.persist = row)
    (consistent : mTx.persist.Consistent) :
    ∀ row ∈ (storage.update mTx).rows, row.Consistent ∧ row.persist = row := fun row member =>
  (Table.mem_update member).elim (rows row) fun written => written ▸ ⟨consistent, persist_persist mTx⟩

theorem rows_insert {storage storage' : Storage Hash} {mTx : MonitoredTx Hash}
    (rows : ∀ row ∈ storage.rows, row.Consistent ∧ row.persist = row)
    (inserted : storage.insert mTx.persist = some storage') (consistent : mTx.persist.Consistent) :
    ∀ row ∈ storage'.rows, row.Consistent ∧ row.persist = row := fun row member =>
  (Table.mem_insert inserted member).elim (rows row) fun written =>
    written ▸ ⟨consistent, persist_persist mTx⟩

end Rows

section Tracks

variable (prices : Prop)

/-- A round of `monitorTxs` against the table: its calls to come are allowed
from `row`, what its writes so far made of the row it read, and the table holds
`row` under its key, or holds `row` set done when `row` had been found mined
already (`ProcessPendingMonitoredTxs` may set done a row a round is still at). -/
def Tracks (storage : Storage Hash) (round : MonitoredTx Hash × List (Effect Hash)) : Prop :=
  ∃ row, Emit.Allowed Effect.applyRow (Effect.WriteOk prices) row round.2 ∧
    (storage.find? round.1.key = some row ∨
      row.status.phase = 2 ∧ storage.find? round.1.key = some { row with status := .done })

variable {prices}

theorem tracks_of_find? {storage storage' : Storage Hash} {round : MonitoredTx Hash × List (Effect Hash)}
    (tracks : Tracks prices storage round) (same : storage'.find? round.1.key = storage.find? round.1.key) :
    Tracks prices storage' round := by
  obtain ⟨row, allowed, found⟩ := tracks
  exact ⟨row, allowed, same ▸ found⟩

theorem Tracks.keep {storage storage' : Storage Hash} {round : MonitoredTx Hash × List (Effect Hash)}
    (tracks : Tracks prices storage round)
    (present : ∀ row, storage.find? round.1.key = some row → ∃ row', storage'.find? round.1.key = some row')
    (unmined : ∀ row, storage.find? round.1.key = some row → row.blockNumber = none →
      storage'.find? round.1.key = some row) :
    Tracks prices storage' round := by
  obtain ⟨snap, effects⟩ := round
  obtain ⟨row, allowed, found⟩ := tracks
  cases effects with
  | nil =>
    obtain ⟨stored, found⟩ : ∃ stored, storage.find? snap.key = some stored := by
      rcases found with found | ⟨_, found⟩ <;> exact ⟨_, found⟩
    obtain ⟨row', found'⟩ := present stored found
    exact ⟨row', trivial, .inl found'⟩
  | cons effect effects =>
    have none : row.blockNumber = none := allowed.1.unmined
    refine ⟨row, allowed, ?_⟩
    rcases found with found | ⟨last, found⟩
    · exact .inl (unmined _ found none)
    · exact .inr ⟨last, unmined _ found none⟩

variable {storage : Storage Hash} {snap : MonitoredTx Hash} {effect : Effect Hash}
  {effects : List (Effect Hash)}

theorem Tracks.find?_apply (tracks : Tracks prices storage (snap, effect :: effects))
    (k : List Char × List Char) :
    (effect.apply storage).find? k =
      if snap.key = k then (storage.find? snap.key).map (Effect.applyRow · effect)
      else storage.find? k := by
  obtain ⟨row, ⟨ok, _⟩, found⟩ := tracks
  have key : row.key = snap.key := by
    rcases found with found | ⟨_, found⟩
    · exact Table.find?_key found
    · have key := Table.find?_key found
      exact key
  have keyed : ∀ mTx, Effect.update mTx ∈ [effect] → mTx.key = snap.key := by
    intro mTx member
    rw [List.mem_singleton] at member
    subst member
    rw [← key_persist, ok.2.1.key, key]
  exact Effect.find?_final snap.key keyed storage k

theorem Tracks.next (tracks : Tracks prices storage (snap, effect :: effects)) :
    Tracks prices (effect.apply storage) (snap, effects) := by
  have applied := tracks.find?_apply snap.key
  rw [if_pos rfl] at applied
  obtain ⟨row, ⟨_, allowed⟩, found⟩ := tracks
  refine ⟨Effect.applyRow row effect, allowed, ?_⟩
  -- a write replaces the row, set done or not; a send leaves it as it was
  cases effect with
  | update mTx => rcases found with found | ⟨_, found⟩ <;> exact .inl (by simp [applied, found, Effect.applyRow])
  | sendTx hash =>
    rcases found with found | ⟨last, found⟩
    · exact .inl (by simp [applied, found, Effect.applyRow])
    · exact .inr ⟨last, by simp [applied, found, Effect.applyRow]⟩

theorem Tracks.grows (tracks : Tracks prices storage (snap, effect :: effects)) :
    Table.Grows (Later prices) storage (effect.apply storage) := by
  have applied := tracks.find?_apply
  obtain ⟨row, ⟨ok, _⟩, found⟩ := tracks
  intro k old stored
  rw [applied k]
  by_cases here : snap.key = k
  · subst here
    rw [if_pos rfl, stored]
    refine ⟨_, rfl, ?_⟩
    cases effect with
    | sendTx hash => exact Later.refl prices old
    | update mTx =>
      obtain ⟨-, grows, -, price⟩ := ok
      -- the row the table holds is the round's row, or that row set done
      rcases found with found | ⟨last, found⟩
      · obtain rfl : old = row := Option.some.inj (stored.symm.trans found)
        exact ⟨grows, price⟩
      · obtain rfl : old = { row with status := .done } := Option.some.inj (stored.symm.trans found)
        exact ⟨grows.done last, price⟩
  · rw [if_neg here]
    exact ⟨old, stored, Later.refl prices old⟩

theorem Tracks.setDone {round : MonitoredTx Hash × List (Effect Hash)} {row : MonitoredTx Hash}
    {k : List Char × List Char} (tracks : Tracks prices storage round) (stored : storage.find? k = some row)
    (persisted : row.persist = row) (last : round.1.key = k → row.status.phase = 2) :
    Tracks prices (storage.update { row with status := .done }) round := by
  have written : ∀ k', (storage.update { row with status := .done }).find? k' =
      if k = k' then some { row with status := .done } else storage.find? k' := by
    intro k'
    rw [Storage.find?_update, persist_done persisted]
    change (if row.key = k' then _ else _) = _
    rw [Table.find?_key stored]
    by_cases here : k = k'
    · subst here
      simp [stored]
    · simp [here]
  by_cases here : round.1.key = k
  · have last := last here
    obtain ⟨c, allowed, found⟩ := tracks
    rw [here] at found
    refine ⟨c, allowed, .inr ?_⟩
    rw [here, written, if_pos rfl]
    -- the row is the round's row, or already that row set done
    rcases found with found | ⟨last', found⟩
    · obtain rfl : row = c := Option.some.inj (stored.symm.trans found)
      exact ⟨last, rfl⟩
    · obtain rfl : row = { c with status := .done } := Option.some.inj (stored.symm.trans found)
      exact ⟨last', rfl⟩
  · exact tracks_of_find? tracks (by rw [written, if_neg (Ne.symm here)])

end Tracks

namespace Manager

variable (prices : Prop)

/-- A result `ProcessPendingMonitoredTxs` read as confirmed is of a row found
mined, whatever happened to the row since. -/
def Mined (storage : Storage Hash) (owner : List Char) (result : MonitoredTxResult) : Prop :=
  result.status = .confirmed →
    ∃ row, storage.find? (owner, result.id) = some row ∧ row.status.phase = 2

/-- What holds of the manager in every run: every row agrees with its block
number and is as the storage reads it back; the rounds under way are of distinct
rows and tracked; and the confirmed results read and not handled are of rows
found mined. -/
structure Ordered (m : Manager Hash) : Prop where
  rows : ∀ mTx ∈ m.storage.rows, mTx.Consistent ∧ mTx.persist = mTx
  keys : (m.rounds.map fun round => round.1.key).Nodup
  rounds : ∀ round ∈ m.rounds, Tracks prices m.storage round
  pending : ∀ owner, ∀ result ∈ m.pending owner, Mined m.storage owner result

def Fits : Event Hash → Prop
  | .monitorTxs env => prices → ∀ mTx, PriceFits (env mTx).etherman
  | _ => True

variable {prices}

theorem ordered_init : (init : Manager Hash).Ordered prices :=
  ⟨fun _ member => by simp [init] at member, List.nodup_nil, fun _ member => (by cases member),
    fun _ _ member => (by cases member)⟩

theorem Mined.grows {storage storage' : Storage Hash} (grows : Table.Grows (Later prices) storage storage')
    {owner : List Char} {result : MonitoredTxResult} (mined : Mined storage owner result) :
    Mined storage' owner result := fun confirmed => by
  obtain ⟨row, found, last⟩ := mined confirmed
  obtain ⟨row', found', later⟩ := grows _ row found
  have phase : 2 ≤ row'.status.phase := last ▸ later.1.phase
  exact ⟨row', found', Nat.le_antisymm (MonitoredTxStatus.phase_le_two _) phase⟩

theorem Ordered.storage {m : Manager Hash} (ordered : m.Ordered prices) {storage : Storage Hash}
    (rows : ∀ mTx ∈ storage.rows, mTx.Consistent ∧ mTx.persist = mTx)
    (grows : Table.Grows (Later prices) m.storage storage)
    (unmined : ∀ k row, m.storage.find? k = some row → row.blockNumber = none →
      storage.find? k = some row) :
    Ordered prices { m with storage := storage } where
  rows := rows
  keys := ordered.keys
  rounds round member := (ordered.rounds round member).keep
    (fun row found => let ⟨row', found', _⟩ := grows _ row found; ⟨row', found'⟩) (unmined _)
  pending owner result member := (ordered.pending owner result member).grows grows

theorem Ordered.pop {m : Manager Hash} (ordered : m.Ordered prices) {owner : List Char}
    {result : MonitoredTxResult} {results : List MonitoredTxResult}
    (next : m.pending owner = result :: results) :
    Ordered prices { m with pending := Function.update m.pending owner results } where
  rows := ordered.rows
  keys := ordered.keys
  rounds := ordered.rounds
  pending owner' result' member := by
    by_cases same : owner' = owner
    · subst same
      simp only [Function.update_self] at member
      exact ordered.pending owner' result' (next ▸ List.mem_cons_of_mem _ member)
    · simp only [Function.update_of_ne same] at member
      exact ordered.pending owner' result' member

variable {m : Manager Hash}

theorem ordered_add (ordered : m.Ordered prices) {mTx : MonitoredTx Hash} {storage : Storage Hash}
    (inserted : m.storage.insert mTx.persist = some storage) (created : mTx.status = .created)
    (unmined : mTx.blockNumber = none) :
    Ordered prices { m with storage := storage } ∧ Table.Grows (Later prices) m.storage storage := by
  have consistent : mTx.Consistent := ⟨fun _ => unmined, fun mined => by simp [created] at mined⟩
  have grows := Table.grows_insert (Later.refl prices) inserted
  exact ⟨ordered.storage (rows_insert ordered.rows inserted consistent.persist) grows
    fun _ _ found _ => Table.find?_insert_of_find? inserted found, grows⟩

theorem ordered_reorg (ordered : m.Ordered prices) (fromBlockNumber : Nat) :
    Ordered prices { m with storage := reorg m.storage fromBlockNumber } ∧
      Table.Grows (Later prices) m.storage (reorg m.storage fromBlockNumber) := by
  have grows : Table.Grows (Later prices) m.storage (reorg m.storage fromBlockNumber) := by
    intro k row found
    rw [find?_reorg, found]
    refine ⟨_, rfl, ?_⟩
    dsimp only
    split
    · exact later_status (ordered.rows row (Table.mem_of_find? found)).2 none
        (MonitoredTxStatus.phase_le_two _)
    · exact Later.refl prices row
  have rows : ∀ mTx ∈ (reorg m.storage fromBlockNumber).rows, mTx.Consistent ∧ mTx.persist = mTx :=
    mem_reorg ordered.rows fun mTx => ⟨consistent_reorged mTx, persist_persist _⟩
  refine ⟨ordered.storage rows grows fun k row found none => ?_, grows⟩
  rw [find?_reorg, found]
  simp [none]

theorem ordered_monitorCall (ordered : m.Ordered prices) {snap : MonitoredTx Hash}
    {effect : Effect Hash} {effects : List (Effect Hash)}
    {rounds : List (MonitoredTx Hash × List (Effect Hash))}
    (next : m.rounds = (snap, effect :: effects) :: rounds) :
    Ordered prices { m with storage := effect.apply m.storage, rounds := (snap, effects) :: rounds } ∧
      Table.Grows (Later prices) m.storage (effect.apply m.storage) := by
  have keys := ordered.keys
  rw [next, List.map_cons, List.nodup_cons] at keys
  have tracks := ordered.rounds _ (next ▸ List.mem_cons_self)
  have grows := tracks.grows
  refine ⟨⟨fun row member => ?_, ?_, fun round member => ?_, fun owner result member =>
    (ordered.pending owner result member).grows grows⟩, grows⟩
  · -- the call writes a row that agrees with its block number, or none
    obtain ⟨_, ⟨ok, _⟩, _⟩ := tracks
    cases effect with
    | sendTx hash => exact ordered.rows row member
    | update mTx => exact rows_update ordered.rows ok.2.2.1 row member
  · rw [List.map_cons, List.nodup_cons]
    exact keys
  · rcases List.mem_cons.mp member with rfl | later
    · exact tracks.next
    · -- the other rounds are of other rows, which the call leaves
      have other : snap.key ≠ round.1.key := fun same =>
        keys.1 (same ▸ List.mem_map_of_mem later)
      exact tracks_of_find? (ordered.rounds round (next ▸ List.mem_cons_of_mem _ later))
        (by rw [tracks.find?_apply, if_neg other])

theorem ordered_resultsByStatus (ordered : m.Ordered prices) (owner : List Char) :
    Ordered prices
      { m with
        pending := Function.update m.pending owner (resultsByStatus m.storage owner pendingStatuses) } where
  rows := ordered.rows
  keys := ordered.keys
  rounds := ordered.rounds
  pending owner' result member confirmed := by
    by_cases same : owner' = owner
    · subst same
      simp only [Function.update_self] at member
      obtain ⟨row, stored, key, status⟩ := mem_resultsByStatus member
      refine ⟨row, key ▸ Table.find?_of_mem stored, ?_⟩
      rw [status, confirmed]
      rfl
    · simp only [Function.update_of_ne same] at member
      exact ordered.pending owner' result member confirmed

theorem ordered_setStatusDone (ordered : m.Ordered prices) {owner : List Char}
    {result : MonitoredTxResult} {results : List MonitoredTxResult}
    (next : m.pending owner = result :: results) (confirmed : result.status = .confirmed)
    {storage : Storage Hash} (done : setStatusDone m.storage owner result.id = .ok storage) :
    Ordered prices { m with pending := Function.update m.pending owner results, storage := storage } ∧
      Table.Grows (Later prices) m.storage storage := by
  obtain ⟨row, stored, rfl⟩ := setStatusDone_ok done
  obtain ⟨row', stored', last⟩ := ordered.pending owner result (next ▸ List.mem_cons_self) confirmed
  obtain rfl : row = row' := Option.some.inj (stored.symm.trans stored')
  have persisted := (ordered.rows row (Table.mem_of_find? stored)).2
  have grows : Table.Grows (Later prices) m.storage (m.storage.update { row with status := .done }) :=
    Table.grows_update (Later.refl prices) fun old found => by
      obtain rfl : old = row :=
        Option.some.inj (found.symm.trans (Table.find?_of_mem (Table.mem_of_find? stored)))
      exact later_status persisted old.blockNumber (MonitoredTxStatus.phase_le_two _)
  have popped := ordered.pop next
  refine ⟨⟨fun mTx member => ?_, popped.keys, fun round member => ?_, fun owner' result' member =>
    (popped.pending owner' result' member).grows grows⟩, grows⟩
  · exact rows_update ordered.rows (consistent_done row) mTx member
  · exact (ordered.rounds round member).setDone stored persisted fun _ => last

theorem ordered_handle (ordered : m.Ordered prices) {owner : List Char}
    {result : MonitoredTxResult} {results : List MonitoredTxResult}
    (next : m.pending owner = result :: results) :
    (handle m owner result results).Ordered prices ∧
      Table.Grows (Later prices) m.storage (handle m owner result results).storage := by
  have unchanged := Table.Grows.refl (Later.refl prices) m.storage
  unfold handle
  split
  · rename_i confirmed
    split
    · rename_i storage done
      exact ordered_setStatusDone ordered next confirmed done
    · exact ⟨ordered.pop next, unchanged⟩
  · split
    · exact ⟨ordered.pop next, unchanged⟩
    · split
      · split
        · exact ⟨ordered.pop next, unchanged⟩
        · exact ⟨ordered, unchanged⟩
      · exact ⟨ordered, unchanged⟩

theorem fits_false (event : Event Hash) : Fits False event := by
  cases event <;> simp [Fits]

variable [DecidableEq Hash] (cfg : Config)

theorem ordered_monitorTxs (ordered : m.Ordered prices) (env : MonitoredTx Hash → RoundEnv Hash)
    (fits : prices → ∀ mTx, PriceFits (env mTx).etherman) :
    Ordered prices { m with rounds := monitorTxs env m.storage } where
  rows := ordered.rows
  keys := nodup_monitorTxs env m.storage
  rounds round member := by
    obtain ⟨row, stored, monitored, rfl⟩ := mem_monitorTxs member
    obtain ⟨consistent, persisted⟩ := ordered.rows row stored
    have allowed : Emit.Allowed Effect.applyRow (RoundOk (env row).etherman (env row).lastBlock) row
        (monitorTx (env row).etherman (env row).lastBlock row).effects :=
      monitorTx_allowed persisted consistent monitored
    refine ⟨row, ?_, .inl (Table.find?_of_mem stored)⟩
    exact allowed.mono fun _ _ ok => ok.1.mono fun holds => fits holds row
  pending := ordered.pending

variable {cfg} in
theorem ordered_step (ordered : m.Ordered prices) {event : Event Hash} (fits : Fits prices event) :
    (step cfg m event).Ordered prices ∧ Table.Grows (Later prices) m.storage (step cfg m event).storage := by
  have unchanged := Table.Grows.refl (Later.refl prices) m.storage
  cases event with
  | add e owner txId fromAddress toAddress value data =>
    simp only [step]
    split
    · rename_i storage added
      obtain ⟨mTx, -, created, unmined, inserted, -⟩ := add_ok added
      exact ordered_add ordered inserted created unmined
    · exact ⟨ordered, unchanged⟩
  | monitorTxs env =>
    simp only [step]
    split
    · exact ⟨ordered_monitorTxs ordered env fits, unchanged⟩
    · exact ⟨ordered, unchanged⟩
  | monitorCall =>
    simp only [step]
    split
    · exact ⟨ordered, unchanged⟩
    · rename_i snap rounds next
      refine ⟨⟨ordered.rows, ?_, fun round member => ordered.rounds round ?_, ordered.pending⟩, unchanged⟩
      · have keys := ordered.keys
        rw [next, List.map_cons, List.nodup_cons] at keys
        exact keys.2
      · exact next ▸ List.mem_cons_of_mem _ member
    · rename_i snap effect effects rounds next
      exact ordered_monitorCall ordered next
  | reorg fromBlockNumber => exact ordered_reorg ordered fromBlockNumber
  | resultsByStatus owner =>
    simp only [step]
    split
    · exact ⟨ordered_resultsByStatus ordered owner, unchanged⟩
    · exact ⟨ordered, unchanged⟩
  | handleResult owner =>
    simp only [step]
    split
    · exact ⟨ordered, unchanged⟩
    · rename_i result results next
      exact ordered_handle ordered next

theorem ordered_run : ∀ (events : List (Event Hash)) {m : Manager Hash}, m.Ordered prices →
    (∀ event ∈ events, Fits prices event) →
    (run cfg m events).Ordered prices ∧ Table.Grows (Later prices) m.storage (run cfg m events).storage
  | [], m, ordered, _ => ⟨ordered, Table.Grows.refl (Later.refl prices) m.storage⟩
  | event :: events, _, ordered, fits => by
    obtain ⟨ordered', grows⟩ := ordered_step ordered (fits event List.mem_cons_self)
    obtain ⟨ordered'', grows'⟩ :=
      ordered_run events ordered' fun event' member => fits event' (List.mem_cons_of_mem _ member)
    exact ⟨ordered'', Table.Grows.trans (R := Later prices) Later.trans grows grows'⟩

/-- `Add` of `sampleTx`, and the first round of `monitorTxs`, up to its send. -/
def sampleEvents : List (Event Nat) :=
  [.add sampleEtherman ['s'] ['1'] (bytesToAddress []) none none [],
    .monitorTxs fun _ => ⟨sampleEtherman, some 10⟩, .monitorCall]

/-- In every run from the empty table, every row agrees with its block number:
a created, sent or reorged monitored tx has none, a confirmed or failed one has
one. -/
theorem rows_consistent (events : List (Event Hash)) :
    ∀ mTx ∈ (run cfg init events).storage.rows, mTx.Consistent := fun mTx member =>
  ((ordered_run cfg events ordered_init fun event _ => fits_false event).1.rows mTx member).1

/-- The row `Add` stores from `sampleEtherman`, after the first call of its round. -/
theorem rows_consistent_sample :
    ∃ mTx, mTx ∈ (run ⟨0⟩ init sampleEvents).storage.rows ∧ mTx.Consistent :=
  ⟨_, .head _, rows_consistent ⟨0⟩ sampleEvents _ (.head _)⟩

/-- When L1 suggests to every round of a run gas prices that fit the column,
the gas price of every row does not go down either. -/
theorem gasPrice_grows (events events' : List (Event Hash))
    (fits : ∀ env, Event.monitorTxs env ∈ events ++ events' → ∀ mTx, PriceFits (env mTx).etherman) :
    Table.Grows (fun row row' => row.gasPrice ≤ row'.gasPrice) (run cfg init events).storage
      (run cfg init (events ++ events')).storage := by
  have fitting : ∀ event ∈ events ++ events', Fits True event := by
    intro event member
    cases event with
    | monitorTxs env => exact fun _ => fits env member
    | _ => trivial
  obtain ⟨ordered, -⟩ := ordered_run cfg events ordered_init
    fun event member => fitting event (List.mem_append_left _ member)
  obtain ⟨-, grows⟩ := ordered_run cfg events' ordered
    fun event member => fitting event (List.mem_append_right _ member)
  rw [run_append]
  exact grows.mono fun _ _ later => later.2 trivial

/-- L1 mines no signed transaction yet. -/
def pendingEtherman : Etherman Nat := { sampleEtherman with waitTxToBeMined := fun _ => .ok false }

/-- Then L1 has the transaction sent, and suggests a gas price of 2. -/
def busierEtherman : Etherman Nat := { pendingEtherman with getTx := fun _ => .ok (), suggestedGasPrice := .ok 2 }

def pendingEvents : List (Event Nat) :=
  [.add sampleEtherman ['s'] ['1'] (bytesToAddress []) none none [],
    .monitorTxs fun _ => ⟨pendingEtherman, some 10⟩, .monitorCall, .monitorCall, .monitorCall, .monitorCall]

def raiseEvents : List (Event Nat) := [.monitorTxs fun _ => ⟨busierEtherman, some 10⟩, .monitorCall, .monitorCall]

theorem gasPrice_grows_sample :
    (∀ env, Event.monitorTxs env ∈ pendingEvents ++ raiseEvents → ∀ mTx, PriceFits (env mTx).etherman) ∧
      Table.Grows (fun row row' => row.gasPrice ≤ row'.gasPrice) (run ⟨0⟩ init pendingEvents).storage
        (run ⟨0⟩ init (pendingEvents ++ raiseEvents)).storage ∧
      (run ⟨0⟩ init pendingEvents).storage.rows.map (·.gasPrice) = [1] ∧
      (run ⟨0⟩ init (pendingEvents ++ raiseEvents)).storage.rows.map (·.gasPrice) = [2] := by
  have fits : ∀ env, Event.monitorTxs env ∈ pendingEvents ++ raiseEvents →
      ∀ mTx, PriceFits (env mTx).etherman := by
    intro env member mTx gasPrice suggested
    simp only [pendingEvents, raiseEvents, List.cons_append, List.nil_append, List.mem_cons, reduceCtorEq,
      Event.monitorTxs.injEq, List.not_mem_nil, or_false, false_or] at member
    rcases member with rfl | rfl <;> cases suggested <;> decide
  exact ⟨fits, gasPrice_grows ⟨0⟩ pendingEvents raiseEvents fits, rfl, rfl⟩

/-- Every transaction a run sends has its hash in the history of the row it was
built from already, and that row is created or sent and not mined: the hash is
stored before the transaction leaves. -/
theorem sendTx_recorded (events : List (Event Hash)) {snap : MonitoredTx Hash} {hash : Hash}
    {effects : List (Effect Hash)} {rounds : List (MonitoredTx Hash × List (Effect Hash))}
    (next : (run cfg init events).rounds = (snap, .sendTx hash :: effects) :: rounds) :
    ∃ row, (run cfg init events).storage.find? snap.key = some row ∧ row.blockNumber = none ∧
      hash ∈ row.history ∧ (row.status = .created ∨ row.status = .sent) := by
  obtain ⟨ordered, -⟩ := ordered_run cfg events ordered_init (fun event _ => fits_false event)
  obtain ⟨row, ⟨⟨unmined, recorded, early⟩, -⟩, found⟩ :=
    ordered.rounds _ (next ▸ List.mem_cons_self)
  -- a round about to send stands at a row not yet found mined, so not one set done
  rcases found with found | ⟨last, -⟩
  · exact ⟨row, found, unmined, recorded, MonitoredTxStatus.phase_le_one early⟩
  · omega

theorem sendTx_recorded_sample :
    ∃ snap effects, (run ⟨0⟩ init sampleEvents).rounds = [(snap, .sendTx 7 :: effects)] ∧
      ∃ row, (run ⟨0⟩ init sampleEvents).storage.find? snap.key = some row ∧
        row.blockNumber = none ∧ 7 ∈ row.history ∧ (row.status = .created ∨ row.status = .sent) :=
  ⟨_, _, rfl, sendTx_recorded ⟨0⟩ sampleEvents rfl⟩

def raceEvents : List (Event Nat) :=
  sampleEvents ++
    [.monitorCall, .monitorCall, .monitorCall, .resultsByStatus ['s'], .reorg 5, .handleResult ['s']]

/-- `ProcessPendingMonitoredTxs` and `Reorg` race. When the synchronizer reorgs
the block of a confirmed monitored tx between the read of the results and
`setStatusDone`, the monitored tx ends done with no block number: it is never
monitored again, though its transaction has left L1. -/
theorem done_after_reorg : ∃ events : List (Event Nat),
    ∃ mTx ∈ (run cfg init events).storage.rows, mTx.status = .done ∧ mTx.blockNumber = none := by
  refine ⟨raceEvents, ?_⟩
  -- the configuration only matters when the gas estimate fails
  have same : run cfg init raceEvents = run ⟨0⟩ init raceEvents := rfl
  rw [same]
  decide

end Manager

namespace Manager

variable {prices : Prop} {m : Manager Hash} {owner id : List Char} {row : MonitoredTx Hash}

/-- The table holds `row` under `(owner, id)`, and the results the owner's
`ProcessPendingMonitoredTxs` has read and not handled hold no read of it as
confirmed. -/
structure Stuck (owner id : List Char) (row : MonitoredTx Hash) (m : Manager Hash) : Prop where
  stored : m.storage.find? (owner, id) = some row
  unread : ∀ result ∈ m.pending owner, result.id = id → result.status ≠ .confirmed

theorem Stuck.insert (stuck : Stuck owner id row m) {mTx : MonitoredTx Hash} {storage : Storage Hash}
    (inserted : m.storage.insert mTx = some storage) : Stuck owner id row { m with storage := storage } :=
  ⟨Table.find?_insert_of_find? inserted stuck.stored, stuck.unread⟩

theorem Stuck.reorg (stuck : Stuck owner id row m) {fromBlockNumber : Nat}
    (notReached : ¬ row.blockNumber.any (fromBlockNumber ≤ ·)) :
    Stuck owner id row { m with storage := reorg m.storage fromBlockNumber } := by
  refine ⟨?_, stuck.unread⟩
  rw [find?_reorg, stuck.stored, Option.map_some, if_neg notReached]

theorem Stuck.apply (ordered : m.Ordered prices) (stuck : Stuck owner id row m)
    (failed : row.status = .failed) {snap : MonitoredTx Hash} {effect : Effect Hash}
    {effects : List (Effect Hash)} {rounds : List (MonitoredTx Hash × List (Effect Hash))}
    (next : m.rounds = (snap, effect :: effects) :: rounds) :
    (effect.apply m.storage).find? (owner, id) = some row := by
  have tracks := ordered.rounds _ (next ▸ List.mem_cons_self)
  rw [tracks.find?_apply (owner, id)]
  by_cases here : snap.key = (owner, id)
  · exfalso
    obtain ⟨row', allowed, found⟩ := tracks
    have unmined : row'.blockNumber = none := allowed.1.unmined
    rw [here] at found
    rcases found with found | ⟨-, found⟩
    · obtain rfl : row' = row := Option.some.inj (found.symm.trans stuck.stored)
      have mined := (ordered.rows row' (Table.mem_of_find? stuck.stored)).1.mined (.inr failed)
      rw [unmined] at mined
      exact Bool.false_ne_true mined
    · have same := Option.some.inj (found.symm.trans stuck.stored)
      rw [← same] at failed
      cases failed
  · rw [if_neg here]
    exact stuck.stored

theorem Stuck.read (stuck : Stuck owner id row m) (failed : row.status = .failed) (owner' : List Char) :
    Stuck owner id row
      { m with pending :=
          Function.update m.pending owner' (resultsByStatus m.storage owner' pendingStatuses) } := by
  refine ⟨stuck.stored, fun result member same confirmed => ?_⟩
  by_cases reader : owner = owner'
  · subst reader
    simp only [Function.update_self] at member
    obtain ⟨mTx, stored, key, status⟩ := mem_resultsByStatus member
    rw [same] at key
    obtain rfl : mTx = row := Option.some.inj ((key ▸ Table.find?_of_mem stored).symm.trans stuck.stored)
    rw [← status, failed] at confirmed
    cases confirmed
  · simp only [Function.update_of_ne reader] at member
    exact stuck.unread result member same confirmed

theorem Stuck.handle (stuck : Stuck owner id row m) {owner' : List Char} {result : MonitoredTxResult}
    {results : List MonitoredTxResult} (next : m.pending owner' = result :: results) :
    Stuck owner id row (handle m owner' result results) := by
  have popped : ∀ result' ∈ Function.update m.pending owner' results owner, result'.id = id →
      result'.status ≠ .confirmed := by
    intro result' member
    by_cases reader : owner = owner'
    · subst reader
      simp only [Function.update_self] at member
      exact stuck.unread result' (next ▸ List.mem_cons_of_mem _ member)
    · simp only [Function.update_of_ne reader] at member
      exact stuck.unread result' member
  unfold Manager.handle
  split
  · rename_i confirmed
    split
    · rename_i storage done
      obtain ⟨mTx, stored, rfl⟩ := setStatusDone_ok done
      -- the row set done is under the key of the result, which is not the failed row's
      have other : (owner', result.id) ≠ (owner, id) := by
        intro same
        obtain ⟨rfl, named⟩ := Prod.mk.inj same
        exact stuck.unread result (next ▸ List.mem_cons_self) named confirmed
      have key : ({ mTx with status := .done } : MonitoredTx Hash).key = (owner', result.id) :=
        (Table.find?_key stored : mTx.key = (owner', result.id))
      refine ⟨?_, popped⟩
      rw [Storage.find?_update, if_neg fun same => other (key.symm.trans same)]
      exact stuck.stored
    · exact ⟨stuck.stored, popped⟩
  · split
    · exact ⟨stuck.stored, popped⟩
    · split
      · split
        · exact ⟨stuck.stored, popped⟩
        · exact stuck
      · exact stuck

variable [DecidableEq Hash] (cfg : Config)

variable {cfg} in
theorem Stuck.step (ordered : m.Ordered prices) (stuck : Stuck owner id row m) (failed : row.status = .failed)
    {event : Event Hash} (notReached : ∀ b, event = .reorg b → ¬ row.blockNumber.any (b ≤ ·)) :
    Stuck owner id row (step cfg m event) := by
  cases event with
  | add e owner' txId fromAddress toAddress value data =>
    simp only [Manager.step]
    split
    · rename_i storage added
      obtain ⟨mTx, -, -, -, inserted, -⟩ := add_ok added
      exact stuck.insert inserted
    · exact stuck
  | monitorTxs env =>
    simp only [Manager.step]
    split
    · exact ⟨stuck.stored, stuck.unread⟩
    · exact stuck
  | monitorCall =>
    simp only [Manager.step]
    split
    · exact stuck
    · exact ⟨stuck.stored, stuck.unread⟩
    · rename_i snap effect effects rounds next
      exact ⟨stuck.apply ordered failed next, stuck.unread⟩
  | reorg fromBlockNumber => exact stuck.reorg (notReached fromBlockNumber rfl)
  | resultsByStatus owner' =>
    simp only [Manager.step]
    split
    · exact stuck.read failed owner'
    · exact stuck
  | handleResult owner' =>
    simp only [Manager.step]
    split
    · exact stuck
    · rename_i result results next
      exact stuck.handle next

theorem Stuck.run (failed : row.status = .failed) :
    ∀ (events : List (Event Hash)) {m : Manager Hash}, m.Ordered prices →
      (∀ event ∈ events, Fits prices event) → Stuck owner id row m →
      (∀ b, Event.reorg b ∈ events → ¬ row.blockNumber.any (b ≤ ·)) → Stuck owner id row (run cfg m events)
  | [], _, _, _, stuck, _ => stuck
  | event :: events, _, ordered, fits, stuck, notReached => by
    have stuck' : Stuck owner id row (Manager.step cfg _ event) :=
      stuck.step ordered failed fun b same => notReached b (same ▸ List.mem_cons_self)
    exact Stuck.run failed events (ordered_step ordered (fits event List.mem_cons_self)).1
      (fun event' member => fits event' (List.mem_cons_of_mem _ member)) stuck'
      fun b member => notReached b (List.mem_cons_of_mem _ member)

/-- Once a monitored tx of an owner has failed, every later read of
`ProcessPendingMonitoredTxs` of that owner finds it failed, whatever the
goroutines do, until a reorg reaches the tx's block (or unless the function had
read it as confirmed before). The function returns only after a read that finds
no result, so it never returns, and its caller, the sequencer's
`tryToSendSequence` or the aggregator, never goes on. -/
theorem failed_blocks_processPending (events events' : List (Event Hash)) {owner id : List Char}
    {row : MonitoredTx Hash} (found : (run cfg init events).storage.find? (owner, id) = some row)
    (failed : row.status = .failed)
    (unread : ∀ result ∈ (run cfg init events).pending owner, result.id = id → result.status ≠ .confirmed)
    (notReached : ∀ b, Event.reorg b ∈ events' → ¬ row.blockNumber.any (b ≤ ·)) :
    ⟨id, .failed⟩ ∈ resultsByStatus (run cfg init (events ++ events')).storage owner pendingStatuses := by
  have ordered := (ordered_run cfg events ordered_init fun event _ => fits_false event).1
  have stuck := Stuck.run cfg failed events' ordered (fun event _ => fits_false event) ⟨found, unread⟩
    notReached
  have listed : row.status ∈ pendingStatuses := by
    rw [failed]
    decide
  rw [run_append]
  rw [← failed]
  exact mem_resultsByStatus_of_find? stuck.stored listed

/-- An L1 on which every signed transaction is mined at once, in block 5, and
fails. -/
def failingEtherman : Etherman Nat :=
  { sampleEtherman with getTxReceipt := fun hash => .ok ⟨0, hash, 5⟩ }

def failEvents : List (Event Nat) :=
  [.add failingEtherman ['s'] ['1'] (bytesToAddress []) none none [],
    .monitorTxs (fun _ => ⟨failingEtherman, some 10⟩), .monitorCall, .monitorCall, .monitorCall, .monitorCall]

theorem failed_blocks_processPending_sample :
    ∃ row, (run ⟨0⟩ init failEvents).storage.find? (['s'], ['1']) = some row ∧ row.status = .failed ∧
      (∀ result ∈ (run ⟨0⟩ init failEvents).pending ['s'], result.id = ['1'] → result.status ≠ .confirmed) ∧
      (∀ b, Event.reorg b ∈ ([.reorg 6, .resultsByStatus ['s']] : List (Event Nat)) →
        ¬ row.blockNumber.any (b ≤ ·)) ∧
      ⟨['1'], .failed⟩ ∈ resultsByStatus
        (run ⟨0⟩ init (failEvents ++ [Event.reorg 6, .resultsByStatus ['s']])).storage ['s'] pendingStatuses := by
  obtain ⟨row, found⟩ : ∃ row, (run ⟨0⟩ init failEvents).storage.find? (['s'], ['1']) = some row := ⟨_, rfl⟩
  have status : ((run ⟨0⟩ init failEvents).storage.find? (['s'], ['1'])).map (·.status) = some .failed := by
    decide
  have block : ((run ⟨0⟩ init failEvents).storage.find? (['s'], ['1'])).map (·.blockNumber) = some (some 5) := by
    decide
  rw [found, Option.map_some, Option.some.injEq] at status block
  have unread : ∀ result ∈ (run ⟨0⟩ init failEvents).pending ['s'], result.id = ['1'] →
      result.status ≠ .confirmed := by
    decide
  have notReached : ∀ b, Event.reorg b ∈ ([.reorg 6, .resultsByStatus ['s']] : List (Event Nat)) →
      ¬ row.blockNumber.any (b ≤ ·) := by
    intro b member
    simp only [List.mem_cons, Event.reorg.injEq, reduceCtorEq, List.not_mem_nil, or_false] at member
    subst member
    simp [block]
  exact ⟨row, found, status, unread, notReached,
    failed_blocks_processPending ⟨0⟩ failEvents _ found status unread notReached⟩

end Manager

end ZkevmNode.Ethtxmanager
