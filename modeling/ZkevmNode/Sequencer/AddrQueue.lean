import ZkevmNode.Sequencer.EfficiencyList

set_option autoImplicit false

/-! `sequencer/addrqueue.go`: the transactions of one sender. The ready
transaction has the sender's current nonce and a cost the balance covers; the
others wait in a map from nonce to tracker. Each operation returns what the
worker needs to fix the efficiency list: the new ready transaction and the
previous one. -/

namespace ZkevmNode.Sequencer

open Go

/-- `addrQueue`. -/
structure AddrQueue (H A E Z : Type) where
  fromStr : A
  currentNonce : Nat
  currentBalance : Nat
  readyTx : Option (TxTracker H A E Z)
  notReadyTxs : Map Nat (TxTracker H A E Z)

section Queue

variable {H A E Z : Type}

/-- `newAddrQueue`. -/
def newAddrQueue (addr : A) (nonce balance : Nat) : AddrQueue H A E Z where
  fromStr := addr
  currentNonce := nonce
  currentBalance := balance
  readyTx := none
  notReadyTxs := ∅

/-- The end of `addTx`, which a transaction ahead of the current nonce reaches,
and one of the current nonce that pays less than the ready one: it waits under
its nonce unless a transaction paying more is there. -/
def AddrQueue.addNotReadyTx (a : AddrQueue H A E Z) (tx : TxTracker H A E Z) : AddrQueue H A E Z :=
  match a.notReadyTxs.lookup tx.nonce with
  | some nrTx =>
    if tx.gasPrice ≥ nrTx.gasPrice then { a with notReadyTxs := a.notReadyTxs.insert tx.nonce tx }
    else a
  | none => { a with notReadyTxs := a.notReadyTxs.insert tx.nonce tx }

/-- `addTx`: the queue, `newReadyTx` and `prevReadyTx`. A transaction of the
current nonce that pays at least as much as the ready one (or finds none)
takes its place, or, when the balance does not cover it, empties the ready slot
and waits. -/
def AddrQueue.addTx (a : AddrQueue H A E Z) (tx : TxTracker H A E Z) :
    Except TxError (AddrQueue H A E Z × Option (TxTracker H A E Z) × Option (TxTracker H A E Z)) :=
  if a.currentNonce = tx.nonce then
    if a.readyTx.all fun readyTx => tx.gasPrice ≥ readyTx.gasPrice then
      if a.currentBalance ≥ tx.cost then .ok ({ a with readyTx := some tx }, some tx, a.readyTx)
      else .ok ({ a with readyTx := none, notReadyTxs := a.notReadyTxs.insert tx.nonce tx }, none,
        a.readyTx)
    else .ok (a.addNotReadyTx tx, none, none)
  else if a.currentNonce > tx.nonce then .error .intrinsicInvalidNonce
  else .ok (a.addNotReadyTx tx, none, none)

/-- `ExpireTransactions`: `expired` is the test
`ReceivedAt.Add(maxTime).Before(time.Now())` at the moment each tracker is
checked. The queue, the expired trackers, and the ready one if it expired. -/
def AddrQueue.expireTransactions (expired : TxTracker H A E Z → Bool) (a : AddrQueue H A E Z) :
    AddrQueue H A E Z × List (TxTracker H A E Z) × Option (TxTracker H A E Z) :=
  let deleted := rangeDelete expired TxTracker.nonce a.notReadyTxs
  let a := { a with notReadyTxs := deleted.2 }
  match a.readyTx with
  | some prevReadyTx =>
    if expired prevReadyTx then
      ({ a with readyTx := none }, deleted.1 ++ [prevReadyTx], some prevReadyTx)
    else (a, deleted.1, none)
  | none => (a, deleted.1, none)

/-- `IsEmpty`. -/
def AddrQueue.isEmpty (a : AddrQueue H A E Z) : Bool :=
  a.readyTx.isNone && a.notReadyTxs.entries.length == 0

/-- `deleteTx`: the ready transaction if it has the hash, else every waiting
one with the hash. Returns the deleted ready transaction. -/
def AddrQueue.deleteTx [DecidableEq H] (a : AddrQueue H A E Z) (txHash : H) :
    AddrQueue H A E Z × Option (TxTracker H A E Z) :=
  match a.readyTx.filter fun readyTx => readyTx.hashStr = txHash with
  | some prevReadyTx => ({ a with readyTx := none }, some prevReadyTx)
  | none =>
    ({ a with notReadyTxs :=
        (rangeDelete (fun tx => tx.hashStr = txHash) TxTracker.nonce a.notReadyTxs).2 }, none)

/-- Its first two blocks: the new balance, and a changed nonce, which drops the
waiting transactions behind it, each marked with the invalid-nonce error. -/
def AddrQueue.setNonceBalance (a : AddrQueue H A E Z) (nonce balance : Option Nat) :
    AddrQueue H A E Z × List (TxTracker H A E Z) :=
  let a := { a with currentBalance := balance.getD a.currentBalance }
  match nonce with
  | some nonce =>
    if a.currentNonce ≠ nonce then
      let a := { a with currentNonce := nonce }
      let txsToDelete := (a.notReadyTxs.entries.filter fun entry => entry.2.nonce < a.currentNonce).map
        fun entry => { entry.2 with failedReason := some TxError.intrinsicInvalidNonce.text }
      ({ a with notReadyTxs := txsToDelete.foldl (fun m tx => m.erase tx.nonce) a.notReadyTxs },
        txsToDelete)
    else (a, [])
  | none => (a, [])

/-- The third block: a ready transaction that no longer has the nonce, or that
the balance no longer covers, leaves the ready slot. -/
def AddrQueue.demoteReadyTx (a : AddrQueue H A E Z) :
    AddrQueue H A E Z × Option (TxTracker H A E Z) :=
  match a.readyTx with
  | some readyTx =>
    if readyTx.nonce ≠ a.currentNonce ∨ a.currentBalance < readyTx.cost then
      ({ a with readyTx := none }, some readyTx)
    else (a, none)
  | none => (a, none)

/-- The fourth block: an empty ready slot takes the waiting transaction of the
current nonce if the balance covers it. -/
def AddrQueue.promoteNotReady (a : AddrQueue H A E Z) : AddrQueue H A E Z :=
  if a.readyTx.isNone then
    match a.notReadyTxs.lookup a.currentNonce with
    | some nrTx =>
      if a.currentBalance ≥ nrTx.cost then
        { a with readyTx := some nrTx, notReadyTxs := a.notReadyTxs.erase a.currentNonce }
      else a
    | none => a
  else a

/-- The last block: the demoted transaction waits again if its nonce is ahead. -/
def AddrQueue.reinsertOldReadyTx (a : AddrQueue H A E Z) (oldReadyTx : Option (TxTracker H A E Z)) :
    AddrQueue H A E Z :=
  match oldReadyTx with
  | some oldReadyTx =>
    if oldReadyTx.nonce > a.currentNonce then
      { a with notReadyTxs := a.notReadyTxs.insert oldReadyTx.nonce oldReadyTx }
    else a
  | none => a

/-- `updateCurrentNonceBalance`: the queue, `newReadyTx` (the ready transaction
after the update, changed or not), `prevReadyTx` (the demoted one) and
`toDelete`. -/
def AddrQueue.updateCurrentNonceBalance (a : AddrQueue H A E Z) (nonce balance : Option Nat) :
    AddrQueue H A E Z × Option (TxTracker H A E Z) × Option (TxTracker H A E Z) ×
      List (TxTracker H A E Z) :=
  let updated := a.setNonceBalance nonce balance
  let demoted := updated.1.demoteReadyTx
  let a := demoted.1.promoteNotReady.reinsertOldReadyTx demoted.2
  (a, a.readyTx, demoted.2, updated.2)

/-- `UpdateTxZKCounters`: a ready transaction with the hash is replaced by a copy
with the new counters and efficiency, and both are returned; otherwise the first
waiting transaction with the hash is updated in place. -/
def AddrQueue.updateTxZKCounters [DecidableEq H] (calculateEfficiency : TxTracker H A E Z → E)
    (a : AddrQueue H A E Z) (txHash : H) (counters : Z) :
    AddrQueue H A E Z × Option (TxTracker H A E Z) × Option (TxTracker H A E Z) :=
  match a.readyTx.filter fun readyTx => readyTx.hashStr = txHash with
  | some prevReadyTx =>
    let newReadyTx := prevReadyTx.updateZKCounters calculateEfficiency counters
    ({ a with readyTx := some newReadyTx }, some newReadyTx, some prevReadyTx)
  | none =>
    match a.notReadyTxs.entries.find? fun entry => entry.2.hashStr = txHash with
    | some entry =>
      ({ a with notReadyTxs :=
          a.notReadyTxs.insert entry.1 (entry.2.updateZKCounters calculateEfficiency counters) },
        none, none)
    | none => (a, none, none)

end Queue

section Invariant

variable {H A E Z : Type}

/-- The trackers the queue holds. -/
def AddrQueue.Holds (a : AddrQueue H A E Z) (tx : TxTracker H A E Z) : Prop :=
  a.readyTx = some tx ∨ ∃ k, a.notReadyTxs.lookup k = some tx

/-- The representation invariant: the ready transaction has the current nonce
and a cost the balance covers, and a waiting one sits under its own nonce, which
is not behind the current one. -/
structure AddrQueue.WellFormed (a : AddrQueue H A E Z) : Prop where
  ready : ∀ tx, a.readyTx = some tx → tx.nonce = a.currentNonce ∧ tx.cost ≤ a.currentBalance
  waiting : ∀ k tx, a.notReadyTxs.lookup k = some tx → tx.nonce = k ∧ a.currentNonce ≤ k

/-- A faithful report of the ready transaction going from `before` to `after`:
the previous and the new one, or no previous one and an unchanged ready
transaction, reported as new or not at all. -/
def ReportsReady (before after newReadyTx prevReadyTx : Option (TxTracker H A E Z)) : Prop :=
  prevReadyTx = before ∧ newReadyTx = after ∨
    prevReadyTx = none ∧ after = before ∧ (newReadyTx = none ∨ newReadyTx = before)

/-- What the worker needs of an operation that takes the queue `a` to `a'`,
reports `newReadyTx` and `prevReadyTx`, and may add the tracker `added`: the
queue stays well formed and the sender's, the report is faithful, and every
tracker held has the hash of one held before or of the added one. -/
structure QueueStep (a a' : AddrQueue H A E Z)
    (newReadyTx prevReadyTx added : Option (TxTracker H A E Z)) : Prop where
  wellFormed : a'.WellFormed
  fromStr : a'.fromStr = a.fromStr
  reports : ReportsReady a.readyTx a'.readyTx newReadyTx prevReadyTx
  hashes : ∀ tx, a'.Holds tx → ∃ t, (a.Holds t ∨ added = some t) ∧ t.hashStr = tx.hashStr

theorem newAddrQueue_wellFormed (addr : A) (nonce balance : Nat) :
    (newAddrQueue addr nonce balance : AddrQueue H A E Z).WellFormed :=
  ⟨by simp [newAddrQueue], by simp [newAddrQueue]⟩

theorem QueueStep.rfl {a : AddrQueue H A E Z} (wf : a.WellFormed)
    (added : Option (TxTracker H A E Z)) : QueueStep a a none none added :=
  ⟨wf, Eq.refl _, .inr ⟨Eq.refl _, Eq.refl _, .inl (Eq.refl _)⟩,
    fun tx held => ⟨tx, .inl held, Eq.refl _⟩⟩

theorem QueueStep.insertWaiting {a : AddrQueue H A E Z} (wf : a.WellFormed) {tx : TxTracker H A E Z}
    (ahead : a.currentNonce ≤ tx.nonce) :
    QueueStep a { a with notReadyTxs := a.notReadyTxs.insert tx.nonce tx } none none (some tx) where
  wellFormed := by
    refine ⟨wf.ready, fun k t found => ?_⟩
    rcases lookup_insert_eq_some.mp found with ⟨rfl, rfl⟩ | ⟨-, found⟩
    · exact ⟨Eq.refl _, ahead⟩
    · exact wf.waiting k t found
  fromStr := Eq.refl _
  reports := .inr ⟨Eq.refl _, Eq.refl _, .inl (Eq.refl _)⟩
  hashes := by
    rintro t (ready | ⟨k, found⟩)
    · exact ⟨t, .inl (.inl ready), Eq.refl _⟩
    · rcases lookup_insert_eq_some.mp found with ⟨-, rfl⟩ | ⟨-, found⟩
      · exact ⟨t, .inr (Eq.refl _), Eq.refl _⟩
      · exact ⟨t, .inl (.inr ⟨k, found⟩), Eq.refl _⟩

theorem addNotReadyTx_queueStep {a : AddrQueue H A E Z} (wf : a.WellFormed) {tx : TxTracker H A E Z}
    (ahead : a.currentNonce ≤ tx.nonce) : QueueStep a (a.addNotReadyTx tx) none none (some tx) := by
  unfold AddrQueue.addNotReadyTx
  split
  · split
    · exact QueueStep.insertWaiting wf ahead
    · exact QueueStep.rfl wf _
  · exact QueueStep.insertWaiting wf ahead

theorem addTx_queueStep {a : AddrQueue H A E Z} (wf : a.WellFormed) {tx : TxTracker H A E Z}
    {a' : AddrQueue H A E Z} {newReadyTx prevReadyTx : Option (TxTracker H A E Z)}
    (added : a.addTx tx = .ok (a', newReadyTx, prevReadyTx)) :
    QueueStep a a' newReadyTx prevReadyTx (some tx) := by
  unfold AddrQueue.addTx at added
  split at added
  · rename_i current
    split at added
    · split at added
      · rename_i covered
        cases added
        refine ⟨⟨?_, wf.waiting⟩, Eq.refl _, .inl ⟨Eq.refl _, Eq.refl _⟩, ?_⟩
        · rintro t ⟨⟩
          exact ⟨current.symm, covered⟩
        · rintro t (ready | ⟨k, found⟩)
          · obtain rfl : tx = t := Option.some_inj.mp ready
            exact ⟨tx, .inr (Eq.refl _), Eq.refl _⟩
          · exact ⟨t, .inl (.inr ⟨k, found⟩), Eq.refl _⟩
      · cases added
        have waits := QueueStep.insertWaiting wf current.le
        refine ⟨⟨by simp, waits.wellFormed.waiting⟩, Eq.refl _, .inl ⟨Eq.refl _, Eq.refl _⟩, ?_⟩
        rintro t (ready | ⟨k, found⟩)
        · simp at ready
        · exact waits.hashes t (.inr ⟨k, found⟩)
    · cases added
      exact addNotReadyTx_queueStep wf current.le
  · rename_i other
    split at added
    · cases added
    · rename_i behind
      cases added
      exact addNotReadyTx_queueStep wf (by omega)

theorem QueueStep.dropWaiting {a : AddrQueue H A E Z} (wf : a.WellFormed)
    {m : Map Nat (TxTracker H A E Z)}
    (sub : ∀ k tx, m.lookup k = some tx → a.notReadyTxs.lookup k = some tx) :
    QueueStep a { a with notReadyTxs := m } none none none where
  wellFormed := ⟨wf.ready, fun k tx found => wf.waiting k tx (sub k tx found)⟩
  fromStr := Eq.refl _
  reports := .inr ⟨Eq.refl _, Eq.refl _, .inl (Eq.refl _)⟩
  hashes := by
    intro tx held
    refine ⟨tx, .inl ?_, Eq.refl _⟩
    rcases held with ready | ⟨k, found⟩
    · exact .inl ready
    · exact .inr ⟨k, sub k tx found⟩

theorem QueueStep.dropReady {a : AddrQueue H A E Z} (wf : a.WellFormed)
    {m : Map Nat (TxTracker H A E Z)}
    (sub : ∀ k tx, m.lookup k = some tx → a.notReadyTxs.lookup k = some tx)
    {prevReadyTx : TxTracker H A E Z} (ready : a.readyTx = some prevReadyTx) :
    QueueStep a { a with readyTx := none, notReadyTxs := m } none (some prevReadyTx) none where
  wellFormed := ⟨by simp, fun k tx found => wf.waiting k tx (sub k tx found)⟩
  fromStr := Eq.refl _
  reports := .inl ⟨ready.symm, Eq.refl _⟩
  hashes := by
    intro tx held
    rcases held with ready | ⟨k, found⟩
    · simp at ready
    · exact ⟨tx, .inl (.inr ⟨k, sub k tx found⟩), Eq.refl _⟩

theorem lookup_rangeDelete {a : AddrQueue H A E Z} (wf : a.WellFormed) (p : TxTracker H A E Z → Bool)
    (k : Nat) (tx : TxTracker H A E Z)
    (found : (rangeDelete p TxTracker.nonce a.notReadyTxs).2.lookup k = some tx) :
    a.notReadyTxs.lookup k = some tx := by
  rw [(rangeDelete_spec fun k tx found => (wf.waiting k tx found).1).1 k] at found
  exact (Option.filter_eq_some_iff.mp found).1

theorem expireTransactions_queueStep {a : AddrQueue H A E Z} (wf : a.WellFormed)
    (expired : TxTracker H A E Z → Bool) :
    QueueStep a (a.expireTransactions expired).1 none (a.expireTransactions expired).2.2 none := by
  unfold AddrQueue.expireTransactions
  dsimp only
  split
  · rename_i prevReadyTx ready
    split
    · exact QueueStep.dropReady wf (lookup_rangeDelete wf expired) ready
    · exact QueueStep.dropWaiting wf (lookup_rangeDelete wf expired)
  · exact QueueStep.dropWaiting wf (lookup_rangeDelete wf expired)

theorem deleteTx_queueStep [DecidableEq H] {a : AddrQueue H A E Z} (wf : a.WellFormed) (txHash : H) :
    QueueStep a (a.deleteTx txHash).1 none (a.deleteTx txHash).2 none := by
  unfold AddrQueue.deleteTx
  split
  · rename_i prevReadyTx matching
    exact QueueStep.dropReady wf (fun k tx found => found) (Option.filter_eq_some_iff.mp matching).1
  · exact QueueStep.dropWaiting wf (lookup_rangeDelete wf _)

theorem updateTxZKCounters_queueStep [DecidableEq H] (calculateEfficiency : TxTracker H A E Z → E)
    {a : AddrQueue H A E Z} (wf : a.WellFormed) (txHash : H) (counters : Z) :
    let updated := a.updateTxZKCounters calculateEfficiency txHash counters
    QueueStep a updated.1 updated.2.1 updated.2.2 none := by
  unfold AddrQueue.updateTxZKCounters
  split
  · rename_i prevReadyTx matching
    have ready := (Option.filter_eq_some_iff.mp matching).1
    refine ⟨⟨fun tx copy => ?_, wf.waiting⟩, Eq.refl _, .inl ⟨ready.symm, Eq.refl _⟩, ?_⟩
    · obtain rfl := Option.some_inj.mp copy
      simpa using wf.ready prevReadyTx ready
    · rintro tx (copy | ⟨k, found⟩)
      · obtain rfl := Option.some_inj.mp copy
        exact ⟨prevReadyTx, .inl (.inl ready), by simp⟩
      · exact ⟨tx, .inl (.inr ⟨k, found⟩), Eq.refl _⟩
  · split
    · rename_i entry first
      have stored : a.notReadyTxs.lookup entry.1 = some entry.2 :=
        AList.mem_lookup_iff.mpr (List.mem_of_find?_eq_some first)
      have own := wf.waiting _ _ stored
      refine ⟨⟨wf.ready, fun k tx found => ?_⟩, Eq.refl _, .inr ⟨Eq.refl _, Eq.refl _, .inl (Eq.refl _)⟩, ?_⟩
      · rcases lookup_insert_eq_some.mp found with ⟨rfl, rfl⟩ | ⟨-, found⟩
        · simpa using own
        · exact wf.waiting k tx found
      · rintro tx (ready | ⟨k, found⟩)
        · exact ⟨tx, .inl (.inl ready), Eq.refl _⟩
        · rcases lookup_insert_eq_some.mp found with ⟨-, rfl⟩ | ⟨-, found⟩
          · exact ⟨entry.2, .inl (.inr ⟨entry.1, stored⟩), by simp⟩
          · exact ⟨tx, .inl (.inr ⟨k, found⟩), Eq.refl _⟩
    · exact QueueStep.rfl wf none

section Blocks

variable (a : AddrQueue H A E Z) (nonce balance : Option Nat)

@[simp] theorem setNonceBalance_fromStr : (a.setNonceBalance nonce balance).1.fromStr = a.fromStr := by
  unfold AddrQueue.setNonceBalance
  cases nonce <;> cases balance <;> simp <;> split <;> rfl

@[simp] theorem setNonceBalance_readyTx : (a.setNonceBalance nonce balance).1.readyTx = a.readyTx := by
  unfold AddrQueue.setNonceBalance
  cases nonce <;> cases balance <;> simp <;> split <;> rfl

@[simp] theorem setNonceBalance_currentNonce :
    (a.setNonceBalance nonce balance).1.currentNonce = nonce.getD a.currentNonce := by
  unfold AddrQueue.setNonceBalance
  cases nonce <;> cases balance <;> simp <;> split <;> simp_all

@[simp] theorem setNonceBalance_currentBalance :
    (a.setNonceBalance nonce balance).1.currentBalance = balance.getD a.currentBalance := by
  unfold AddrQueue.setNonceBalance
  cases nonce <;> cases balance <;> simp <;> split <;> rfl

@[simp] theorem demoteReadyTx_fromStr : a.demoteReadyTx.1.fromStr = a.fromStr := by
  unfold AddrQueue.demoteReadyTx
  split <;> [split; skip] <;> rfl

@[simp] theorem demoteReadyTx_currentNonce : a.demoteReadyTx.1.currentNonce = a.currentNonce := by
  unfold AddrQueue.demoteReadyTx
  split <;> [split; skip] <;> rfl

@[simp] theorem demoteReadyTx_currentBalance : a.demoteReadyTx.1.currentBalance = a.currentBalance := by
  unfold AddrQueue.demoteReadyTx
  split <;> [split; skip] <;> rfl

@[simp] theorem demoteReadyTx_notReadyTxs : a.demoteReadyTx.1.notReadyTxs = a.notReadyTxs := by
  unfold AddrQueue.demoteReadyTx
  split <;> [split; skip] <;> rfl

@[simp] theorem promoteNotReady_fromStr : a.promoteNotReady.fromStr = a.fromStr := by
  unfold AddrQueue.promoteNotReady
  split <;> [split; skip] <;> [split; skip; skip] <;> rfl

@[simp] theorem promoteNotReady_currentNonce : a.promoteNotReady.currentNonce = a.currentNonce := by
  unfold AddrQueue.promoteNotReady
  split <;> [split; skip] <;> [split; skip; skip] <;> rfl

@[simp] theorem reinsertOldReadyTx_fromStr (oldReadyTx : Option (TxTracker H A E Z)) :
    (a.reinsertOldReadyTx oldReadyTx).fromStr = a.fromStr := by
  unfold AddrQueue.reinsertOldReadyTx
  split <;> [split; skip] <;> rfl

@[simp] theorem reinsertOldReadyTx_readyTx (oldReadyTx : Option (TxTracker H A E Z)) :
    (a.reinsertOldReadyTx oldReadyTx).readyTx = a.readyTx := by
  unfold AddrQueue.reinsertOldReadyTx
  split <;> [split; skip] <;> rfl

end Blocks

theorem setNonceBalance_lookup {a : AddrQueue H A E Z} (wf : a.WellFormed) (nonce balance : Option Nat)
    (k : Nat) :
    (a.setNonceBalance nonce balance).1.notReadyTxs.lookup k =
      (a.notReadyTxs.lookup k).filter fun tx => nonce.getD a.currentNonce ≤ tx.nonce := by
  have unchanged : a.notReadyTxs.lookup k =
      (a.notReadyTxs.lookup k).filter fun tx => a.currentNonce ≤ tx.nonce := by
    cases found : a.notReadyTxs.lookup k with
    | none => rfl
    | some tx =>
      obtain ⟨own, ahead⟩ := wf.waiting k tx found
      rw [Option.filter_some]
      simp [own, ahead]
  unfold AddrQueue.setNonceBalance
  cases nonce with
  | none => exact unchanged
  | some nonce =>
    dsimp only
    split
    · rename_i changed
      refine (lookup_foldl_erase_filter (fun k tx found => (wf.waiting k tx found).1) _ _ ?_ k).trans ?_
      · intro entry
        rfl
      · congr 1
        funext tx
        by_cases behind : tx.nonce < nonce
        · simp [behind, Nat.not_le.mpr behind]
        · simp [behind, Nat.le_of_not_lt behind]
    · rename_i same
      rw [Option.getD_some, ← not_not.mp same]
      exact unchanged

theorem demoteReadyTx_ready {a : AddrQueue H A E Z} {tx : TxTracker H A E Z}
    (kept : a.demoteReadyTx.1.readyTx = some tx) :
    tx.nonce = a.currentNonce ∧ tx.cost ≤ a.currentBalance := by
  unfold AddrQueue.demoteReadyTx at kept
  split at kept
  · split at kept
    · simp at kept
    · rename_i ready fits
      obtain rfl := Option.some_inj.mp ((Eq.symm ready).trans kept)
      simp only [not_or, not_lt, ne_eq, not_not] at fits
      exact fits
  · rename_i vacant
    rw [vacant] at kept
    cases kept

theorem demoteReadyTx_cases (a : AddrQueue H A E Z) :
    a.demoteReadyTx.2 = a.readyTx ∧ a.demoteReadyTx.1.readyTx = none ∨
      a.demoteReadyTx.2 = none ∧ a.demoteReadyTx.1.readyTx = a.readyTx := by
  unfold AddrQueue.demoteReadyTx
  split
  · rename_i readyTx ready
    split
    · exact .inl ⟨ready.symm, Eq.refl _⟩
    · exact .inr ⟨Eq.refl _, Eq.refl _⟩
  · exact .inr ⟨Eq.refl _, Eq.refl _⟩

theorem promoteNotReady_wellFormed {a : AddrQueue H A E Z} (wf : a.WellFormed) :
    a.promoteNotReady.WellFormed := by
  unfold AddrQueue.promoteNotReady
  split
  · split
    · rename_i nrTx waiting
      split
      · rename_i covered
        refine ⟨fun tx promoted => ?_, fun k tx found => ?_⟩
        · obtain rfl := Option.some_inj.mp promoted
          exact ⟨(wf.waiting _ _ waiting).1, covered⟩
        · exact wf.waiting k tx (lookup_erase_eq_some.mp found).2
      · exact wf
    · exact wf
  · exact wf

theorem holds_promoteNotReady {a : AddrQueue H A E Z} {tx : TxTracker H A E Z}
    (held : a.promoteNotReady.Holds tx) : a.Holds tx := by
  unfold AddrQueue.promoteNotReady at held
  split at held
  · split at held
    · rename_i nrTx waiting
      split at held
      · rcases held with promoted | ⟨k, found⟩
        · obtain rfl := Option.some_inj.mp promoted
          exact .inr ⟨_, waiting⟩
        · exact .inr ⟨k, (lookup_erase_eq_some.mp found).2⟩
      · exact held
    · exact held
  · exact held

theorem promoteNotReady_of_ready {a : AddrQueue H A E Z} {tx : TxTracker H A E Z}
    (ready : a.readyTx = some tx) : a.promoteNotReady = a := by
  simp [AddrQueue.promoteNotReady, ready]

theorem reinsertOldReadyTx_wellFormed {a : AddrQueue H A E Z} (wf : a.WellFormed)
    (oldReadyTx : Option (TxTracker H A E Z)) : (a.reinsertOldReadyTx oldReadyTx).WellFormed := by
  unfold AddrQueue.reinsertOldReadyTx
  split
  · split
    · rename_i old _ ahead
      exact (QueueStep.insertWaiting wf (Nat.le_of_lt ahead)).wellFormed
    · exact wf
  · exact wf

theorem holds_reinsertOldReadyTx {a : AddrQueue H A E Z} {oldReadyTx : Option (TxTracker H A E Z)}
    {tx : TxTracker H A E Z} (held : (a.reinsertOldReadyTx oldReadyTx).Holds tx) :
    a.Holds tx ∨ oldReadyTx = some tx := by
  unfold AddrQueue.reinsertOldReadyTx at held
  split at held
  · split at held
    · rcases held with ready | ⟨k, found⟩
      · exact .inl (.inl ready)
      · rcases lookup_insert_eq_some.mp found with ⟨-, rfl⟩ | ⟨-, found⟩
        · exact .inr (Eq.refl _)
        · exact .inl (.inr ⟨k, found⟩)
    · exact .inl held
  · exact .inl held

theorem updateCurrentNonceBalance_queueStep {a : AddrQueue H A E Z} (wf : a.WellFormed)
    (nonce balance : Option Nat) :
    let updated := a.updateCurrentNonceBalance nonce balance
    QueueStep a updated.1 updated.2.1 updated.2.2.1 none := by
  let set := a.setNonceBalance nonce balance
  let demoted := set.1.demoteReadyTx
  show QueueStep a (demoted.1.promoteNotReady.reinsertOldReadyTx demoted.2)
    (demoted.1.promoteNotReady.reinsertOldReadyTx demoted.2).readyTx demoted.2 none
  -- after the demotion block the queue is well formed again
  have demotedWellFormed : demoted.1.WellFormed := by
    refine ⟨fun tx kept => ?_, fun k tx found => ?_⟩
    · simpa [demoted] using demoteReadyTx_ready kept
    · rw [demoteReadyTx_notReadyTxs, setNonceBalance_lookup wf] at found
      obtain ⟨found, ahead⟩ := Option.filter_eq_some_iff.mp found
      have own := (wf.waiting k tx found).1
      simp only [demoted, set, demoteReadyTx_currentNonce, setNonceBalance_currentNonce]
      simp only [decide_eq_true_eq] at ahead
      exact ⟨own, own ▸ ahead⟩
  have demotedHeld : ∀ tx, demoted.1.Holds tx → a.Holds tx := by
    rintro tx (ready | ⟨k, found⟩)
    · rcases demoteReadyTx_cases set.1 with ⟨-, vacant⟩ | ⟨-, kept⟩
      · rw [vacant] at ready
        cases ready
      · rw [kept, setNonceBalance_readyTx] at ready
        exact .inl ready
    · rw [demoteReadyTx_notReadyTxs, setNonceBalance_lookup wf] at found
      exact .inr ⟨k, (Option.filter_eq_some_iff.mp found).1⟩
  refine ⟨reinsertOldReadyTx_wellFormed (promoteNotReady_wellFormed demotedWellFormed) _,
    by simp [demoted, set], ?_, ?_⟩
  · rcases demoteReadyTx_cases set.1 with ⟨reported, -⟩ | ⟨reported, kept⟩
    · exact .inl ⟨reported.trans (setNonceBalance_readyTx a nonce balance), Eq.refl _⟩
    · cases ready : a.readyTx with
      | none => exact .inl ⟨reported, Eq.refl _⟩
      | some tx =>
        have stays : demoted.1.readyTx = some tx := by
          rw [← ready, ← setNonceBalance_readyTx a nonce balance]
          exact kept
        have after : (demoted.1.promoteNotReady.reinsertOldReadyTx demoted.2).readyTx = some tx := by
          rw [reinsertOldReadyTx_readyTx, promoteNotReady_of_ready stays, stays]
        exact .inr ⟨reported, after, .inr after⟩
  · intro tx held
    refine ⟨tx, .inl ?_, Eq.refl _⟩
    rcases holds_reinsertOldReadyTx held with held | old
    · exact demotedHeld tx (holds_promoteNotReady held)
    · rcases demoteReadyTx_cases set.1 with ⟨reported, -⟩ | ⟨reported, -⟩
      · refine .inl ?_
        rw [← setNonceBalance_readyTx a nonce balance]
        exact reported.symm.trans old
      · rw [show demoted.2 = none from reported] at old
        cases old

/-- Every tracker the queue holds is of its sender; `senderOf` is the sender a
transaction hash determines. -/
def AddrQueue.Owned (senderOf : H → A) (a : AddrQueue H A E Z) : Prop :=
  ∀ tx, a.Holds tx → senderOf tx.hashStr = a.fromStr

theorem QueueStep.owned {senderOf : H → A} {a a' : AddrQueue H A E Z}
    {newReadyTx prevReadyTx added : Option (TxTracker H A E Z)} {addr : A}
    (step : QueueStep a a' newReadyTx prevReadyTx added) (named : a.fromStr = addr)
    (owned : a.Owned senderOf) (addedOwned : ∀ tx, added = some tx → senderOf tx.hashStr = addr) :
    a'.Owned senderOf := by
  intro tx held
  obtain ⟨t, source, same⟩ := step.hashes tx held
  rw [step.fromStr, named, ← same]
  rcases source with held | isAdded
  · rw [← named]
    exact owned t held
  · exact addedOwned t isAdded

theorem newAddrQueue_owned (senderOf : H → A) (addr : A) (nonce balance : Nat) :
    (newAddrQueue addr nonce balance : AddrQueue H A E Z).Owned senderOf := by
  intro tx held
  cases held with
  | inl ready => cases ready
  | inr waiting =>
    have ⟨k, found⟩ := waiting
    simp [newAddrQueue] at found

end Invariant

section Lost

variable {H A E Z : Type}

theorem hash_mem_setNonceBalance {a : AddrQueue H A E Z} {nonce balance : Option Nat}
    {tx : TxTracker H A E Z} (listed : tx ∈ (a.setNonceBalance nonce balance).2) :
    ∃ k t, a.notReadyTxs.lookup k = some t ∧ t.hashStr = tx.hashStr := by
  unfold AddrQueue.setNonceBalance at listed
  cases nonce with
  | none => simp at listed
  | some nonce =>
    dsimp only at listed
    split at listed
    · simp only [List.mem_map, List.mem_filter] at listed
      obtain ⟨entry, ⟨member, -⟩, rfl⟩ := listed
      exact ⟨entry.1, entry.2, AList.mem_lookup_iff.mpr member, Eq.refl _⟩
    · simp at listed

theorem lookup_setNonceBalance {a : AddrQueue H A E Z} {nonce balance : Option Nat} {k : Nat}
    {tx : TxTracker H A E Z} (found : (a.setNonceBalance nonce balance).1.notReadyTxs.lookup k = some tx) :
    a.notReadyTxs.lookup k = some tx := by
  unfold AddrQueue.setNonceBalance at found
  cases nonce with
  | none => exact found
  | some nonce =>
    dsimp only at found
    split at found
    · rw [lookup_foldl_erase] at found
      split at found
      · cases found
      · exact found
    · exact found

theorem demoteReadyTx_of_demoted {a : AddrQueue H A E Z} {r : TxTracker H A E Z}
    (ready : a.readyTx = some r) (demoted : r.nonce ≠ a.currentNonce ∨ a.currentBalance < r.cost) :
    a.demoteReadyTx = ({ a with readyTx := none }, some r) := by
  simp [AddrQueue.demoteReadyTx, ready, demoted]

theorem reinsertOldReadyTx_of_le {a : AddrQueue H A E Z} {r : TxTracker H A E Z}
    (behind : r.nonce ≤ a.currentNonce) : a.reinsertOldReadyTx (some r) = a := by
  simp [AddrQueue.reinsertOldReadyTx, Nat.not_lt.mpr behind]

theorem holds_updateCurrentNonceBalance_of_demoted {a : AddrQueue H A E Z} {r : TxTracker H A E Z}
    (ready : a.readyTx = some r) {nonce balance : Option Nat}
    (demoted : r.nonce ≠ nonce.getD a.currentNonce ∨ balance.getD a.currentBalance < r.cost)
    (behind : r.nonce ≤ nonce.getD a.currentNonce) {tx : TxTracker H A E Z}
    (held : (a.updateCurrentNonceBalance nonce balance).1.Holds tx) :
    ∃ k, a.notReadyTxs.lookup k = some tx := by
  have readySet : (a.setNonceBalance nonce balance).1.readyTx = some r := by simp [ready]
  have demotedSet : r.nonce ≠ (a.setNonceBalance nonce balance).1.currentNonce ∨
      (a.setNonceBalance nonce balance).1.currentBalance < r.cost := by simpa using demoted
  have behindSet : r.nonce ≤ (a.setNonceBalance nonce balance).1.currentNonce := by simpa using behind
  have sub : ∀ k tx, (a.setNonceBalance nonce balance).1.notReadyTxs.lookup k = some tx →
      a.notReadyTxs.lookup k = some tx := fun k tx found => lookup_setNonceBalance found
  unfold AddrQueue.updateCurrentNonceBalance at held
  dsimp only at held
  generalize (a.setNonceBalance nonce balance).1 = set at held readySet demotedSet behindSet sub
  rw [demoteReadyTx_of_demoted readySet demotedSet] at held
  rw [reinsertOldReadyTx_of_le (by simpa using behindSet)] at held
  rcases holds_promoteNotReady held with vacant | ⟨k, found⟩
  · cases vacant
  · exact ⟨k, sub k tx found⟩

/-- Two ways the queue lets go of a tracker it held without reporting it to
the pool or replacing it by one paying at least as much. `updateCurrentNonceBalance`
demotes a ready transaction whose cost the new balance no longer covers, or whose
nonce the new nonce has passed, and puts it back among the waiting ones only if
its nonce is ahead: otherwise it is neither held nor in `toDelete`, only
reported as `prevReadyTx`, which the worker uses for the efficiency list alone.
And `addTx` stores a transaction of the current nonce that the balance does not
cover over the one waiting under that nonce, whatever the two pay. -/
theorem addrQueue_loses_trackers :
    (∀ (a : AddrQueue H A E Z) (r : TxTracker H A E Z) (nonce balance : Option Nat),
      a.readyTx = some r →
      (∀ k t, a.notReadyTxs.lookup k = some t → t.hashStr ≠ r.hashStr) →
      (r.nonce ≠ nonce.getD a.currentNonce ∨ balance.getD a.currentBalance < r.cost) →
      r.nonce ≤ nonce.getD a.currentNonce →
        ¬ (a.updateCurrentNonceBalance nonce balance).1.Holds r ∧
          r ∉ (a.updateCurrentNonceBalance nonce balance).2.2.2) ∧
    ∀ (a : AddrQueue H A E Z) (tx t : TxTracker H A E Z),
      a.WellFormed → a.readyTx = none → a.currentNonce = tx.nonce → a.currentBalance < tx.cost →
      a.notReadyTxs.lookup tx.nonce = some t → tx.gasPrice < t.gasPrice →
        ∃ a', a.addTx tx = .ok (a', none, none) ∧ ¬ a'.Holds t := by
  constructor
  · intro a r nonce balance ready apart demoted behind
    constructor
    · intro held
      obtain ⟨k, found⟩ := holds_updateCurrentNonceBalance_of_demoted ready demoted behind held
      exact apart k r found (Eq.refl _)
    · intro listed
      obtain ⟨k, t, found, same⟩ := hash_mem_setNonceBalance listed
      exact apart k t found same
  · intro a tx t wf vacant current poor waiting cheaper
    refine ⟨{ a with readyTx := none, notReadyTxs := a.notReadyTxs.insert tx.nonce tx }, ?_, ?_⟩
    · simp [AddrQueue.addTx, current, vacant, Nat.not_le.mpr poor]
    · rintro (ready | ⟨k, found⟩)
      · cases ready
      · rcases lookup_insert_eq_some.mp found with ⟨-, rfl⟩ | ⟨other, found⟩
        · exact absurd cheaper (lt_irrefl _)
        · have atNonce := (wf.waiting _ _ waiting).1
          have atKey := (wf.waiting _ _ found).1
          exact other (atKey.symm.trans atNonce)

/-- A tracker of sender `0` with the given hash, nonce, gas price and cost. -/
def sampleTracker (hash nonce gasPrice cost : Nat) : TxTracker Nat Nat Nat Unit :=
  ⟨hash, 0, nonce, gasPrice, cost, (), 0, none⟩

def readySampleQueue : AddrQueue Nat Nat Nat Unit where
  fromStr := 0
  currentNonce := 0
  currentBalance := 10
  readyTx := some (sampleTracker 1 0 1 5)
  notReadyTxs := ∅

def waitingSampleQueue : AddrQueue Nat Nat Nat Unit where
  fromStr := 0
  currentNonce := 0
  currentBalance := 10
  readyTx := none
  notReadyTxs := (∅ : Map Nat (TxTracker Nat Nat Nat Unit)).insert 0 (sampleTracker 2 0 5 100)

theorem addrQueue_loses_trackers_sample :
    (¬ (readySampleQueue.updateCurrentNonceBalance none (some 1)).1.Holds (sampleTracker 1 0 1 5) ∧
      sampleTracker 1 0 1 5 ∉ (readySampleQueue.updateCurrentNonceBalance none (some 1)).2.2.2) ∧
    ∃ a', waitingSampleQueue.addTx (sampleTracker 3 0 1 100) = .ok (a', none, none) ∧
      ¬ a'.Holds (sampleTracker 2 0 5 100) := by
  have wellFormed : waitingSampleQueue.WellFormed := by
    refine ⟨fun tx ready => (nomatch ready), fun k tx found => ?_⟩
    rcases lookup_insert_eq_some.mp found with ⟨rfl, rfl⟩ | ⟨-, found⟩
    · decide
    · simp at found
  exact ⟨addrQueue_loses_trackers.1 readySampleQueue _ none (some 1) rfl (by simp [readySampleQueue])
      (by decide) (by decide),
    addrQueue_loses_trackers.2 waitingSampleQueue _ _ wellFormed rfl rfl (by decide) rfl (by decide)⟩

end Lost

end ZkevmNode.Sequencer
