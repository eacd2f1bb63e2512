import ZkevmNode.Sequencer.AddrQueue
import ZkevmNode.Lib.Machine
import Mathlib

set_option autoImplicit false

/-! `sequencer/worker.go`: the address queues of all senders and the efficiency
list of their ready transactions. Each call runs under the worker's mutex, and
`AddTxTracker` is only ever called from the one goroutine that loads the pool,
so the window in which it releases the mutex to read a new sender's account
lets no other call create that sender's queue: every call is one atomic step.
A queue is mutated through the pointer the pool holds, which the model writes
back into the pool. -/

namespace ZkevmNode.Sequencer

open Go

/-- The account queries `AddTxTracker` makes for a new sender; what the state
answers depends on the moment of the call. -/
structure StateInterface (ε R A : Type) where
  getLastStateRoot : Except ε R
  getNonceByStateRoot : A → R → Except ε Nat
  getBalanceByStateRoot : A → R → Except ε Nat

/-- The reasons `AddTxTracker` drops a transaction. -/
inductive DropReason (ε : Type) where
  | getLastStateRoot (err : ε)
  | getNonceByStateRoot (err : ε)
  | getBalanceByStateRoot (err : ε)
  | addTx (err : TxError)

/-- The texts of the drop reasons, given the text of a state error. -/
def DropReason.text {ε : Type} (errText : ε → String) : DropReason ε → String
  | .getLastStateRoot err => "AddTx GetLastStateRoot error: " ++ errText err
  | .getNonceByStateRoot err => "AddTx GetNonceByStateRoot error: " ++ errText err
  | .getBalanceByStateRoot err => "AddTx GetBalanceByStateRoot error: " ++ errText err
  | .addTx err => err.text

/-- The fields of `state.InfoReadWrite` the worker reads. -/
structure InfoReadWrite where
  nonce : Option Nat
  balance : Option Nat

/-- `Worker`: the queues by sender, and the efficiency list. -/
structure Worker (H A E Z : Type) where
  pool : Map A (AddrQueue H A E Z)
  efficiencyList : EfficiencyList H A E Z

section Calls

variable {H A E Z : Type} [LinearOrder H] [DecidableEq A] [LinearOrder E]

/-- `NewWorker`. -/
def newWorker : Worker H A E Z := ⟨∅, newEfficiencyList⟩

/-- The queue of `tx`'s sender, created from the sender's account if the pool
has none. -/
def Worker.queueOf {ε R : Type} (w : Worker H A E Z) (tx : TxTracker H A E Z)
    (state : StateInterface ε R A) : Except (DropReason ε) (AddrQueue H A E Z) :=
  match w.pool.lookup tx.fromStr with
  | some addr => .ok addr
  | none => do
    let root ← state.getLastStateRoot.mapError .getLastStateRoot
    let nonce ← (state.getNonceByStateRoot tx.fromStr root).mapError .getNonceByStateRoot
    let balance ← (state.getBalanceByStateRoot tx.fromStr root).mapError .getBalanceByStateRoot
    pure (newAddrQueue tx.fromStr (nonce % 2 ^ 64) balance)

/-- `AddTxTracker`: the drop reason, whether the transaction is now in the
worker, and the worker. A queue created for a new sender stays in the pool even
when `addTx` drops the transaction. -/
def Worker.addTxTracker {ε R : Type} (w : Worker H A E Z) (tx : TxTracker H A E Z)
    (state : StateInterface ε R A) : Option (Option (DropReason ε) × Bool × Worker H A E Z) :=
  match w.queueOf tx state with
  | .error dropReason => some (some dropReason, false, w)
  | .ok addr =>
    match addr.addTx tx with
    | .error dropReason =>
      some (some (.addTx dropReason), false, { w with pool := w.pool.insert tx.fromStr addr })
    | .ok (addr, newReadyTx, prevReadyTx) => do
      let e ← w.efficiencyList.update prevReadyTx newReadyTx
      pure (none, true, { pool := w.pool.insert tx.fromStr addr, efficiencyList := e })

/-- `applyAddressUpdate`: the worker and the transactions to delete from the
pool. -/
def Worker.applyAddressUpdate (w : Worker H A E Z) (fromAddr : A) (fromNonce fromBalance : Option Nat) :
    Option (Worker H A E Z × List (TxTracker H A E Z)) :=
  match w.pool.lookup fromAddr with
  | some addrQueue =>
    let updated := addrQueue.updateCurrentNonceBalance fromNonce fromBalance
    do
      let e ← w.efficiencyList.update updated.2.2.1 updated.2.1
      pure ({ pool := w.pool.insert fromAddr updated.1, efficiencyList := e }, updated.2.2.2)
  | none => some (w, [])

/-- One round of the loop of `UpdateAfterSingleSuccessfulTxExecution` over the
touched addresses: an address other than the sender gets its new balance. -/
def Worker.applyTouched (fromAddr : A) (acc : Worker H A E Z × List (TxTracker H A E Z))
    (entry : Σ _ : A, InfoReadWrite) : Option (Worker H A E Z × List (TxTracker H A E Z)) :=
  if entry.1 ≠ fromAddr then do
    let updated ← acc.1.applyAddressUpdate entry.1 none entry.2.balance
    pure (updated.1, acc.2 ++ updated.2)
  else pure acc

/-- `UpdateAfterSingleSuccessfulTxExecution`: the sender's new nonce and
balance, then the new balance of every other touched address. -/
def Worker.updateAfterSingleSuccessfulTxExecution (w : Worker H A E Z) (fromAddr : A)
    (touchedAddresses : Map A InfoReadWrite) : Option (Worker H A E Z × List (TxTracker H A E Z)) := do
  let first ← match touchedAddresses.lookup fromAddr with
    | some touchedFrom => w.applyAddressUpdate fromAddr touchedFrom.nonce touchedFrom.balance
    | none => pure (w, [])
  touchedAddresses.entries.foldlM (Worker.applyTouched fromAddr) first

/-- `MoveTxToNotReady`: the check that the hash is the ready transaction's only
logs. -/
def Worker.moveTxToNotReady (w : Worker H A E Z) (fromAddr : A) (actualNonce actualBalance : Option Nat) :
    Option (Worker H A E Z × List (TxTracker H A E Z)) :=
  w.applyAddressUpdate fromAddr actualNonce actualBalance

/-- `DeleteTx`. -/
def Worker.deleteTx (w : Worker H A E Z) (txHash : H) (addr : A) : Option (Worker H A E Z) :=
  match w.pool.lookup addr with
  | some addrQueue =>
    let deleted := addrQueue.deleteTx txHash
    do
      let e ← w.efficiencyList.update deleted.2 none
      pure { pool := w.pool.insert addr deleted.1, efficiencyList := e }
  | none => some w

/-- `UpdateTx`. -/
def Worker.updateTx (calculateEfficiency : TxTracker H A E Z → E) (w : Worker H A E Z) (txHash : H)
    (addr : A) (counters : Z) : Option (Worker H A E Z) :=
  match w.pool.lookup addr with
  | some addrQueue =>
    let updated := addrQueue.updateTxZKCounters calculateEfficiency txHash counters
    do
      let e ← w.efficiencyList.update updated.2.2 updated.2.1
      pure { pool := w.pool.insert addr updated.1, efficiencyList := e }
  | none => some w

/-- One round of the loop of `ExpireTransactions` over the pool: the queue of
`addr`, if it is still there, expires its old transactions, and an emptied
queue leaves the pool. -/
def Worker.expireQueue (expired : TxTracker H A E Z → Bool)
    (acc : Worker H A E Z × List (TxTracker H A E Z)) (addr : A) :
    Option (Worker H A E Z × List (TxTracker H A E Z)) :=
  match acc.1.pool.lookup addr with
  | some addrQueue =>
    let subTxs := addrQueue.expireTransactions expired
    do
      let e ← acc.1.efficiencyList.update subTxs.2.2 none
      let pool := acc.1.pool.insert addr subTxs.1
      let pool := if subTxs.1.isEmpty then pool.erase subTxs.1.fromStr else pool
      pure ({ pool := pool, efficiencyList := e }, acc.2 ++ subTxs.2.1)
  | none => pure acc

/-- `ExpireTransactions`: the worker and the expired transactions. -/
def Worker.expireTransactions (expired : TxTracker H A E Z → Bool) (w : Worker H A E Z) :
    Option (Worker H A E Z × List (TxTracker H A E Z)) :=
  w.pool.keys.foldlM (Worker.expireQueue expired) (w, [])

/-- The calls that change the worker. -/
inductive Call (H A E Z ε R : Type) where
  | addTxTracker (tx : TxTracker H A E Z) (state : StateInterface ε R A)
  | updateAfterSingleSuccessfulTxExecution (fromAddr : A) (touchedAddresses : Map A InfoReadWrite)
  | moveTxToNotReady (fromAddr : A) (actualNonce actualBalance : Option Nat)
  | deleteTx (txHash : H) (addr : A)
  | updateTx (txHash : H) (addr : A) (counters : Z)
  | expireTransactions (expired : TxTracker H A E Z → Bool)

/-- The worker after a call, or `none` if the call panics. -/
def Worker.step {ε R : Type} (calculateEfficiency : TxTracker H A E Z → E) (w : Worker H A E Z) :
    Call H A E Z ε R → Option (Worker H A E Z)
  | .addTxTracker tx state => (w.addTxTracker tx state).map fun result => result.2.2
  | .updateAfterSingleSuccessfulTxExecution fromAddr touchedAddresses =>
    (w.updateAfterSingleSuccessfulTxExecution fromAddr touchedAddresses).map Prod.fst
  | .moveTxToNotReady fromAddr actualNonce actualBalance =>
    (w.moveTxToNotReady fromAddr actualNonce actualBalance).map Prod.fst
  | .deleteTx txHash addr => w.deleteTx txHash addr
  | .updateTx txHash addr counters => w.updateTx calculateEfficiency txHash addr counters
  | .expireTransactions expired => (w.expireTransactions expired).map Prod.fst

/-- The transaction an `AddTxTracker` call adds is of the sender its hash
determines. -/
def Call.SenderMatches {ε R : Type} (senderOf : H → A) : Call H A E Z ε R → Prop
  | .addTxTracker tx _ => senderOf tx.hashStr = tx.fromStr
  | .updateAfterSingleSuccessfulTxExecution .. => True
  | .moveTxToNotReady .. => True
  | .deleteTx .. => True
  | .updateTx .. => True
  | .expireTransactions .. => True

instance Call.decidableSenderMatches {ε R : Type} (senderOf : H → A) :
    DecidablePred (Call.SenderMatches senderOf : Call H A E Z ε R → Prop)
  | .addTxTracker tx _ => inferInstanceAs (Decidable (senderOf tx.hashStr = tx.fromStr))
  | .updateAfterSingleSuccessfulTxExecution .. => isTrue trivial
  | .moveTxToNotReady .. => isTrue trivial
  | .deleteTx .. => isTrue trivial
  | .updateTx .. => isTrue trivial
  | .expireTransactions .. => isTrue trivial

end Calls

section Coherence

variable {H A E Z : Type} [LinearOrder H] [DecidableEq A] [LinearOrder E] (senderOf : H → A)

/-- The worker invariant: the efficiency list is sound and holds exactly the
ready transactions of the queues, and every queue sits under its sender, is
well formed and holds only its sender's transactions. -/
structure Worker.Coherent (w : Worker H A E Z) : Prop where
  valid : w.efficiencyList.Valid
  listed : ∀ h tx, w.efficiencyList.list.lookup h = some tx ↔
    ∃ addr a, w.pool.lookup addr = some a ∧ a.readyTx = some tx ∧ tx.hashStr = h
  queues : ∀ addr a, w.pool.lookup addr = some a →
    a.fromStr = addr ∧ a.WellFormed ∧ a.Owned senderOf

theorem newWorker_coherent : (newWorker : Worker H A E Z).Coherent senderOf where
  valid := newEfficiencyList_valid
  listed := by simp [newWorker, newEfficiencyList]
  queues := by simp [newWorker]

variable {senderOf}

theorem Worker.Coherent.stored {w : Worker H A E Z} (coherent : w.Coherent senderOf) {addr : A}
    {a : AddrQueue H A E Z} (found : w.pool.lookup addr = some a) {tx : TxTracker H A E Z}
    (ready : a.readyTx = some tx) : w.efficiencyList.list.lookup tx.hashStr = some tx :=
  (coherent.listed _ _).mpr ⟨addr, a, found, ready, rfl⟩

theorem Worker.Coherent.sender {w : Worker H A E Z} (coherent : w.Coherent senderOf) {addr : A}
    {a : AddrQueue H A E Z} (found : w.pool.lookup addr = some a) {tx : TxTracker H A E Z}
    (ready : a.readyTx = some tx) : senderOf tx.hashStr = addr := by
  obtain ⟨named, -, owned⟩ := coherent.queues addr a found
  rw [← named]
  exact owned tx (.inl ready)

section Replace

variable {w : Worker H A E Z} {addr : A} {a a' : AddrQueue H A E Z}
  {newReadyTx prevReadyTx added : Option (TxTracker H A E Z)}

theorem Worker.Coherent.queues_insert (coherent : w.Coherent senderOf)
    (step : QueueStep a a' newReadyTx prevReadyTx added) (named : a.fromStr = addr)
    (owned : a'.Owned senderOf) :
    ∀ addr' q, (w.pool.insert addr a').lookup addr' = some q →
      q.fromStr = addr' ∧ q.WellFormed ∧ q.Owned senderOf := by
  intro addr' q found
  rcases lookup_insert_eq_some.mp found with ⟨rfl, rfl⟩ | ⟨-, found⟩
  · exact ⟨step.fromStr.trans named, step.wellFormed, owned⟩
  · exact coherent.queues addr' q found

/-- The queue at `addr` is `a`, or there is none and `a` has no ready
transaction. -/
def Located (w : Worker H A E Z) (addr : A) (a : AddrQueue H A E Z) : Prop :=
  w.pool.lookup addr = some a ∨ w.pool.lookup addr = none ∧ a.readyTx = none

omit [LinearOrder H] [LinearOrder E] in
theorem Located.ready (located : Located w addr a) {q : AddrQueue H A E Z}
    (found : w.pool.lookup addr = some q) : q.readyTx = a.readyTx := by
  rcases located with located | ⟨located, -⟩
  · rw [located] at found
    rw [Option.some_inj.mp found]
  · rw [located] at found
    cases found

theorem Worker.Coherent.replace_unchanged (coherent : w.Coherent senderOf) (located : Located w addr a)
    (named : a.fromStr = addr) (step : QueueStep a a' newReadyTx prevReadyTx added)
    (owned : a'.Owned senderOf) (same : a'.readyTx = a.readyTx) :
    Worker.Coherent senderOf { pool := w.pool.insert addr a', efficiencyList := w.efficiencyList } := by
  refine ⟨coherent.valid, fun h x => ?_, coherent.queues_insert step named owned⟩
  rw [coherent.listed]
  constructor
  · rintro ⟨addr', q, inPool, ready, hash⟩
    by_cases here : addr' = addr
    · subst here
      refine ⟨addr', a', AList.lookup_insert _, ?_, hash⟩
      rw [same, ← located.ready inPool, ready]
    · exact ⟨addr', q, by rw [AList.lookup_insert_ne here]; exact inPool, ready, hash⟩
  · rintro ⟨addr', q, inPool, ready, hash⟩
    rcases lookup_insert_eq_some.mp inPool with ⟨rfl, rfl⟩ | ⟨-, inPool⟩
    · rw [same] at ready
      rcases located with located | ⟨-, vacant⟩
      · exact ⟨addr', a, located, ready, hash⟩
      · rw [vacant] at ready
        cases ready
    · exact ⟨addr', q, inPool, ready, hash⟩

theorem Worker.Coherent.replace_changed (coherent : w.Coherent senderOf) (located : Located w addr a)
    (named : a.fromStr = addr) (owned : a.Owned senderOf)
    (step : QueueStep a a' newReadyTx prevReadyTx added) (owned' : a'.Owned senderOf)
    (prev : prevReadyTx = a.readyTx) (new : newReadyTx = a'.readyTx) :
    ∃ e, w.efficiencyList.update prevReadyTx newReadyTx = some e ∧
      Worker.Coherent senderOf { pool := w.pool.insert addr a', efficiencyList := e } := by
  have senderBefore : ∀ tx, prevReadyTx = some tx → senderOf tx.hashStr = addr := by
    intro tx isPrev
    rw [← named]
    exact owned tx (.inl (prev ▸ isPrev))
  have senderAfter : ∀ tx, newReadyTx = some tx → senderOf tx.hashStr = addr := by
    intro tx isNew
    rw [← named, ← step.fromStr]
    exact owned' tx (.inl (new ▸ isNew))
  have stored : ∀ tx, prevReadyTx = some tx → w.efficiencyList.list.lookup tx.hashStr = some tx := by
    intro tx isPrev
    rw [prev] at isPrev
    rcases located with located | ⟨-, vacant⟩
    · exact coherent.stored located isPrev
    · rw [vacant] at isPrev
      cases isPrev
  have fresh : ∀ tx, newReadyTx = some tx → ∀ x, w.efficiencyList.list.lookup tx.hashStr = some x →
      prevReadyTx = some x := by
    intro tx isNew x found
    obtain ⟨addr', q, inPool, ready, hash⟩ := (coherent.listed _ _).mp found
    have here : addr' = addr := by
      rw [← coherent.sender inPool ready, hash, senderAfter tx isNew]
    subst here
    rw [prev, ← located.ready inPool, ready]
  obtain ⟨e, updated, valid, lookup⟩ := coherent.valid.update stored fresh
  refine ⟨e, updated, ⟨valid, fun h x => ?_, coherent.queues_insert step named owned'⟩⟩
  rw [lookup]
  constructor
  · rintro (⟨isNew, hash⟩ | ⟨found, notPrev, -⟩)
    · exact ⟨addr, a', AList.lookup_insert _, new ▸ isNew, hash⟩
    · obtain ⟨addr', q, inPool, ready, hash⟩ := (coherent.listed h x).mp found
      have other : addr' ≠ addr := by
        rintro rfl
        exact notPrev x (prev.trans ((located.ready inPool).symm.trans ready)) hash
      exact ⟨addr', q, by rw [AList.lookup_insert_ne other]; exact inPool, ready, hash⟩
  · rintro ⟨addr', q, inPool, ready, hash⟩
    rcases lookup_insert_eq_some.mp inPool with ⟨rfl, rfl⟩ | ⟨other, inPool⟩
    · exact .inl ⟨new.trans ready, hash⟩
    · have there := coherent.sender inPool ready
      refine .inr ⟨(coherent.listed h x).mpr ⟨addr', q, inPool, ready, hash⟩, ?_, ?_⟩
      · intro tx isPrev sameHash
        exact other (there.symm.trans (hash ▸ sameHash ▸ senderBefore tx isPrev))
      · intro tx isNew sameHash
        exact other (there.symm.trans (hash ▸ sameHash ▸ senderAfter tx isNew))

theorem Worker.Coherent.replace (coherent : w.Coherent senderOf) (located : Located w addr a)
    (named : a.fromStr = addr) (owned : a.Owned senderOf)
    (step : QueueStep a a' newReadyTx prevReadyTx added)
    (addedOwned : ∀ tx, added = some tx → senderOf tx.hashStr = addr) :
    ∃ e, w.efficiencyList.update prevReadyTx newReadyTx = some e ∧
      Worker.Coherent senderOf { pool := w.pool.insert addr a', efficiencyList := e } := by
  have owned' := step.owned named owned addedOwned
  rcases step.reports with ⟨prev, new⟩ | ⟨prev, same, new⟩
  · exact coherent.replace_changed located named owned step owned' prev new
  · refine ⟨w.efficiencyList, ?_, coherent.replace_unchanged located named step owned' same⟩
    rw [prev]
    rcases new with new | new
    · rw [new]
      rfl
    · rw [new]
      cases ready : a.readyTx with
      | none => rfl
      | some tx =>
        rcases located with located | ⟨-, vacant⟩
        · exact EfficiencyList.update_of_lookup (coherent.stored located ready)
        · rw [vacant] at ready
          cases ready

end Replace

section Steps

variable {w : Worker H A E Z}

theorem Worker.Coherent.erase (coherent : w.Coherent senderOf) {addr : A}
    (vacant : ∀ a, w.pool.lookup addr = some a → a.readyTx = none) :
    Worker.Coherent senderOf { w with pool := w.pool.erase addr } := by
  constructor
  · exact coherent.valid
  · intro h x
    rw [coherent.listed]
    constructor
    · intro ⟨addr', q, inPool, ready, hash⟩
      have other : addr' ≠ addr := by
        intro same
        rw [vacant q (same ▸ inPool)] at ready
        cases ready
      exact ⟨addr', q, lookup_erase_eq_some.mpr ⟨other, inPool⟩, ready, hash⟩
    · intro ⟨addr', q, inPool, ready, hash⟩
      exact ⟨addr', q, (lookup_erase_eq_some.mp inPool).2, ready, hash⟩
  · intro addr' q found
    exact coherent.queues addr' q (lookup_erase_eq_some.mp found).2

omit [LinearOrder H] [LinearOrder E] in
theorem Worker.queueOf_eq_ok {ε R : Type} {tx : TxTracker H A E Z} {state : StateInterface ε R A}
    {a : AddrQueue H A E Z} (found : w.queueOf tx state = .ok a) :
    w.pool.lookup tx.fromStr = some a ∨
      w.pool.lookup tx.fromStr = none ∧ ∃ nonce balance, a = newAddrQueue tx.fromStr nonce balance := by
  unfold Worker.queueOf at found
  split at found
  · rename_i inPool
    cases found
    exact .inl inPool
  · rename_i absent
    refine .inr ⟨absent, ?_⟩
    -- each of the three account queries succeeded
    cases rootRead : state.getLastStateRoot with
    | error err => simp [rootRead, bind, Except.bind, Except.mapError] at found
    | ok root =>
      cases nonceRead : state.getNonceByStateRoot tx.fromStr root with
      | error err => simp [rootRead, nonceRead, bind, Except.bind, Except.mapError] at found
      | ok nonce =>
        cases balanceRead : state.getBalanceByStateRoot tx.fromStr root with
        | error err => simp [rootRead, nonceRead, balanceRead, bind, Except.bind, Except.mapError] at found
        | ok balance =>
          simp [rootRead, nonceRead, balanceRead, bind, Except.bind, Except.mapError, pure,
            Except.pure] at found
          exact ⟨_, _, found.symm⟩

theorem Worker.Coherent.queueOf {ε R : Type} (coherent : w.Coherent senderOf) {tx : TxTracker H A E Z}
    {state : StateInterface ε R A} {a : AddrQueue H A E Z} (found : w.queueOf tx state = .ok a) :
    Located w tx.fromStr a ∧ a.fromStr = tx.fromStr ∧ a.WellFormed ∧ a.Owned senderOf := by
  rcases Worker.queueOf_eq_ok found with inPool | ⟨absent, nonce, balance, rfl⟩
  · have ⟨named, wf, owned⟩ := coherent.queues _ _ inPool
    exact ⟨.inl inPool, named, wf, owned⟩
  · exact ⟨.inr ⟨absent, rfl⟩, rfl, newAddrQueue_wellFormed _ _ _, newAddrQueue_owned _ _ _ _⟩

theorem Worker.Coherent.addTxTracker {ε R : Type} (coherent : w.Coherent senderOf)
    (tx : TxTracker H A E Z) (state : StateInterface ε R A) (sender : senderOf tx.hashStr = tx.fromStr) :
    ∃ result, w.addTxTracker tx state = some result ∧ result.2.2.Coherent senderOf := by
  unfold Worker.addTxTracker
  cases queued : w.queueOf tx state with
  | error dropReason => exact ⟨_, rfl, coherent⟩
  | ok a =>
    have ⟨located, named, wf, owned⟩ := coherent.queueOf queued
    dsimp only
    cases added : a.addTx tx with
    | error dropReason =>
      exact ⟨_, rfl, coherent.replace_unchanged located named (QueueStep.rfl wf none) owned rfl⟩
    | ok result =>
      have addedOwned : ∀ t, some tx = some t → senderOf t.hashStr = tx.fromStr := by
        intro t isAdded
        cases isAdded
        exact sender
      have ⟨e, updated, coherent'⟩ := coherent.replace located named owned (addTx_queueStep wf added) addedOwned
      dsimp only
      rw [updated]
      exact ⟨_, rfl, coherent'⟩

theorem Worker.Coherent.applyAddressUpdate (coherent : w.Coherent senderOf) (fromAddr : A)
    (fromNonce fromBalance : Option Nat) :
    ∃ result, w.applyAddressUpdate fromAddr fromNonce fromBalance = some result ∧
      result.1.Coherent senderOf := by
  unfold Worker.applyAddressUpdate
  cases found : w.pool.lookup fromAddr with
  | none => exact ⟨_, rfl, coherent⟩
  | some a =>
    have ⟨named, wf, owned⟩ := coherent.queues _ _ found
    have ⟨e, updated, coherent'⟩ := coherent.replace (.inl found) named owned
      (updateCurrentNonceBalance_queueStep wf fromNonce fromBalance) (fun _ added => nomatch added)
    dsimp only
    rw [updated]
    exact ⟨_, rfl, coherent'⟩

theorem Worker.Coherent.applyTouched {acc : Worker H A E Z × List (TxTracker H A E Z)}
    (coherent : acc.1.Coherent senderOf) (fromAddr : A) (entry : Σ _ : A, InfoReadWrite) :
    ∃ acc', Worker.applyTouched fromAddr acc entry = some acc' ∧ acc'.1.Coherent senderOf := by
  unfold Worker.applyTouched
  split
  · have ⟨updated, applied, coherent'⟩ := coherent.applyAddressUpdate entry.1 none entry.2.balance
    rw [applied]
    exact ⟨_, rfl, coherent'⟩
  · exact ⟨_, rfl, coherent⟩

theorem Worker.Coherent.updateAfterSingleSuccessfulTxExecution (coherent : w.Coherent senderOf)
    (fromAddr : A) (touchedAddresses : Map A InfoReadWrite) :
    ∃ result, w.updateAfterSingleSuccessfulTxExecution fromAddr touchedAddresses = some result ∧
      result.1.Coherent senderOf := by
  -- the loop over the touched addresses is a run of its rounds
  have loop : ∀ first : Worker H A E Z × List (TxTracker H A E Z), first.1.Coherent senderOf →
      ∃ result, touchedAddresses.entries.foldlM (Worker.applyTouched fromAddr) first = some result ∧
        result.1.Coherent senderOf := fun first coherent =>
    Machine.run_invariant (fun acc entry (coherent : Worker.Coherent senderOf acc.1) _ =>
      coherent.applyTouched fromAddr entry) touchedAddresses.entries first coherent fun _ _ => trivial
  unfold Worker.updateAfterSingleSuccessfulTxExecution
  cases touchedAddresses.lookup fromAddr with
  | some touchedFrom =>
    have ⟨first, applied, coherentFirst⟩ :=
      coherent.applyAddressUpdate fromAddr touchedFrom.nonce touchedFrom.balance
    dsimp only
    rw [applied]
    exact loop first coherentFirst
  | none => exact loop (w, []) coherent

theorem Worker.Coherent.deleteTx (coherent : w.Coherent senderOf) (txHash : H) (addr : A) :
    ∃ w', w.deleteTx txHash addr = some w' ∧ w'.Coherent senderOf := by
  unfold Worker.deleteTx
  cases found : w.pool.lookup addr with
  | none => exact ⟨_, rfl, coherent⟩
  | some a =>
    have ⟨named, wf, owned⟩ := coherent.queues _ _ found
    have ⟨e, updated, coherent'⟩ := coherent.replace (.inl found) named owned
      (deleteTx_queueStep wf txHash) (fun _ added => nomatch added)
    dsimp only
    rw [updated]
    exact ⟨_, rfl, coherent'⟩

theorem Worker.Coherent.updateTx (calculateEfficiency : TxTracker H A E Z → E)
    (coherent : w.Coherent senderOf) (txHash : H) (addr : A) (counters : Z) :
    ∃ w', w.updateTx calculateEfficiency txHash addr counters = some w' ∧ w'.Coherent senderOf := by
  unfold Worker.updateTx
  cases found : w.pool.lookup addr with
  | none => exact ⟨_, rfl, coherent⟩
  | some a =>
    have ⟨named, wf, owned⟩ := coherent.queues _ _ found
    have ⟨e, updated, coherent'⟩ := coherent.replace (.inl found) named owned
      (updateTxZKCounters_queueStep calculateEfficiency wf txHash counters) (fun _ added => nomatch added)
    dsimp only
    rw [updated]
    exact ⟨_, rfl, coherent'⟩

theorem Worker.Coherent.expireQueue {acc : Worker H A E Z × List (TxTracker H A E Z)}
    (coherent : acc.1.Coherent senderOf) (expired : TxTracker H A E Z → Bool) (addr : A) :
    ∃ acc', Worker.expireQueue expired acc addr = some acc' ∧ acc'.1.Coherent senderOf := by
  unfold Worker.expireQueue
  cases found : acc.1.pool.lookup addr with
  | none => exact ⟨_, rfl, coherent⟩
  | some a =>
    have ⟨named, wf, owned⟩ := coherent.queues _ _ found
    have step := expireTransactions_queueStep wf expired
    have ⟨e, updated, coherent'⟩ := coherent.replace (.inl found) named owned step
      (fun _ added => nomatch added)
    dsimp only
    rw [updated]
    cases empty : (a.expireTransactions expired).1.isEmpty with
    | false => exact ⟨_, rfl, coherent'⟩
    | true =>
      -- the emptied queue is the one just put back under its sender
      have vacant : ∀ q, (acc.1.pool.insert addr (a.expireTransactions expired).1).lookup
          (a.expireTransactions expired).1.fromStr = some q → q.readyTx = none := by
        intro q inPool
        rw [step.fromStr, named, AList.lookup_insert, Option.some_inj] at inPool
        rw [← inPool]
        simp only [AddrQueue.isEmpty, Bool.and_eq_true, Option.isNone_iff_eq_none] at empty
        exact empty.1
      exact ⟨_, rfl, coherent'.erase vacant⟩

theorem Worker.Coherent.expireTransactions (coherent : w.Coherent senderOf)
    (expired : TxTracker H A E Z → Bool) :
    ∃ result, w.expireTransactions expired = some result ∧ result.1.Coherent senderOf :=
  Machine.run_invariant (fun acc addr (coherent : Worker.Coherent senderOf acc.1) _ =>
    coherent.expireQueue expired addr) w.pool.keys (w, []) coherent fun _ _ => trivial

theorem Worker.Coherent.step {ε R : Type} (calculateEfficiency : TxTracker H A E Z → E)
    (coherent : w.Coherent senderOf) (call : Call H A E Z ε R) (sender : call.SenderMatches senderOf) :
    ∃ w', w.step calculateEfficiency call = some w' ∧ w'.Coherent senderOf := by
  cases call with
  | addTxTracker tx state =>
    have ⟨result, added, coherent'⟩ := coherent.addTxTracker tx state sender
    exact ⟨result.2.2, by rw [Worker.step, added]; rfl, coherent'⟩
  | updateAfterSingleSuccessfulTxExecution fromAddr touchedAddresses =>
    have ⟨result, updated, coherent'⟩ :=
      coherent.updateAfterSingleSuccessfulTxExecution fromAddr touchedAddresses
    exact ⟨result.1, by rw [Worker.step, updated]; rfl, coherent'⟩
  | moveTxToNotReady fromAddr actualNonce actualBalance =>
    have ⟨result, updated, coherent'⟩ := coherent.applyAddressUpdate fromAddr actualNonce actualBalance
    exact ⟨result.1, by rw [Worker.step, Worker.moveTxToNotReady, updated]; rfl, coherent'⟩
  | deleteTx txHash addr => exact coherent.deleteTx txHash addr
  | updateTx txHash addr counters => exact coherent.updateTx calculateEfficiency txHash addr counters
  | expireTransactions expired =>
    have ⟨result, expiredRun, coherent'⟩ := coherent.expireTransactions expired
    exact ⟨result.1, by rw [Worker.step, expiredRun]; rfl, coherent'⟩

end Steps

end Coherence

section Runs

variable {H A E Z ε R : Type} [LinearOrder H] [DecidableEq A] [LinearOrder E]

/-- From an empty worker, every sequence of calls whose added transactions are
of the senders their hashes determine runs without a panic (in particular
`efficiencyList.delete` never indexes past the end of the slice) and ends in a
worker whose efficiency list holds, under their hashes and in strictly
descending order of efficiency and hash, exactly the ready transactions of its
queues, and whose queues are well formed. -/
theorem worker_coherent (calculateEfficiency : TxTracker H A E Z → E) (senderOf : H → A)
    (calls : List (Call H A E Z ε R)) (senders : ∀ call ∈ calls, call.SenderMatches senderOf) :
    ∃ w, Machine.run (Worker.step calculateEfficiency) newWorker calls = some w ∧ w.Coherent senderOf :=
  Machine.run_invariant (fun w call (coherent : w.Coherent senderOf) sender =>
    coherent.step calculateEfficiency call sender) calls newWorker (newWorker_coherent senderOf) senders

/- A sender's transaction of nonce `1` waits behind the one of nonce `0`, and
becomes the only one in the list once the first is executed. -/
example : ((Machine.run (Worker.step TxTracker.efficiency) newWorker
    ([.addTxTracker ⟨2, 0, 0, 3, 5, (), 3, none⟩ ⟨.ok (), fun _ _ => .ok 0, fun _ _ => .ok 10⟩,
      .addTxTracker ⟨4, 0, 1, 2, 5, (), 2, none⟩ ⟨.ok (), fun _ _ => .ok 0, fun _ _ => .ok 10⟩,
      .updateAfterSingleSuccessfulTxExecution 0
        ((∅ : Map Nat InfoReadWrite).insert 0 ⟨some 1, some 5⟩)] :
      List (Call Nat Nat Nat Unit Unit Unit))).map
    fun w => w.efficiencyList.sorted.map TxTracker.hashStr) = some [4] := by
  decide

end Runs

/-- The tracker of hash `hash`, sent by `hash % 2`, whose efficiency is its gas
price. -/
def sampleWorkerTracker (hash nonce gasPrice cost : Nat) : TxTracker Nat Nat Nat Unit :=
  ⟨hash, hash % 2, nonce, gasPrice, cost, (), gasPrice, none⟩

/-- A state in which every account has nonce `0` and balance `10`. -/
def sampleState : StateInterface Unit Unit Nat :=
  ⟨.ok (), fun _ _ => .ok 0, fun _ _ => .ok 10⟩

def sampleCalls : List (Call Nat Nat Nat Unit Unit Unit) :=
  [.addTxTracker (sampleWorkerTracker 2 0 3 5) sampleState,
    .addTxTracker (sampleWorkerTracker 4 1 2 5) sampleState,
    .updateAfterSingleSuccessfulTxExecution 0 ((∅ : Map Nat InfoReadWrite).insert 0 ⟨some 1, some 5⟩),
    .expireTransactions fun _ => true]

theorem worker_coherent_sample :
    (∀ call ∈ sampleCalls, call.SenderMatches (· % 2)) ∧
      ∃ w, Machine.run (Worker.step TxTracker.efficiency) newWorker sampleCalls = some w ∧
        w.Coherent (· % 2) :=
  ⟨by decide, worker_coherent TxTracker.efficiency (· % 2) sampleCalls (by decide)⟩

end ZkevmNode.Sequencer
