import Mathlib.Logic.Function.Basic
import Mathlib.Data.List.Forall2
import Mathlib.Data.List.Induction
import Mathlib.Data.List.Nodup

set_option autoImplicit false

/-! `etherman.readEvents` and `synchronizer.processBlockRange`: the logs of an L1
block range are grouped into blocks, each event appended to one of six lists of
its block, and an order map from block hash to `(list, position)` entries
records the order of the events; the synchronizer then replays every block's
entries. The ABI parsing and the RPC lookups of the handlers are the fields of
`Client`, and the state calls of the synchronizer the fields of `Synchronizer`. -/

namespace ZkevmNode.Etherman

/-- The first topic of a log: the event signatures `processEvent` switches on. -/
inductive Topic where
  | sequencedBatches
  | updateGlobalExitRoot
  | forcedBatch
  | verifyBatchesTrustedAggregator
  | verifyBatches
  | forceSequencedBatches
  | setTrustedSequencerURL
  | setTrustedSequencer
  | initialized
  | adminChanged
  | beaconUpgraded
  | upgraded
  | transferOwnership
  | emergencyStateActivated
  | emergencyStateDeactivated
  | updateZkEVMVersion
  | consolidatePendingState
  | setTrustedAggregatorTimeout
  | setTrustedAggregator
  | setPendingStateTimeout
  | setMultiplierBatchFee
  | setVerifyBatchTimeTarget
  | setForceBatchTimeout
  | activateForceBatches
  | transferAdminRole
  | acceptAdminRole
  | proveNonDeterministicPendingState
  | overridePendingState
  /-- A signature the switch does not name. -/
  | unregistered
  deriving DecidableEq, Repr

/-- `EventOrder`: the six lists of a block an event is recorded in. -/
inductive EventOrder where
  | globalExitRoots
  | sequenceBatches
  | forcedBatches
  | trustedVerifyBatch
  | sequenceForceBatches
  | forkIDs
  deriving DecidableEq, Repr

/-- `Order`: the list of an event and its position there. -/
structure Order where
  name : EventOrder
  pos : Nat
  deriving DecidableEq, Repr

/-- The fields of `types.Log` the node reads; `data` stands for the others,
which only the parsing reads. -/
structure Log (Hash Data : Type) where
  topics : List Topic
  blockNumber : UInt64
  blockHash : Hash
  data : Data

/-- The fields of an L1 block `prepareBlock` reads. -/
structure FullBlock (Hash : Type) where
  parentHash : Hash
  time : UInt64

/-- `etherman.Block`; `events name` is its list of kind `name`, whose elements
have type `Element name`. -/
structure Block (Hash : Type) (Element : EventOrder → Type) where
  blockNumber : UInt64
  blockHash : Hash
  parentHash : Hash
  receivedAt : UInt64
  events : (name : EventOrder) → List (Element name)

/-- What the handlers ask of the contracts' ABI bindings and of the L1 client.
Each parsing field stands for all the calls its handler makes before the
grouping: `ParseSequenceBatches`, `TransactionByHash` and `decodeSequences` for
`sequenceBatches`; for the two handlers that fetch the block first, the field
gives what is built from the block `BlockByHash` returns. -/
structure Client (ε Hash Data : Type) (Element : EventOrder → Type) where
  blockByHash : Hash → Except ε (FullBlock Hash)
  sequenceBatches : Log Hash Data → Except ε (Element .sequenceBatches)
  updateGlobalExitRoot : Log Hash Data → Except ε (Element .globalExitRoots)
  forceBatch : Log Hash Data → Except ε (FullBlock Hash → Element .forcedBatches)
  verifyBatchesTrustedAggregator : Log Hash Data → Except ε (Element .trustedVerifyBatch)
  sequenceForceBatches :
    Log Hash Data → Except ε (FullBlock Hash → Except ε (Element .sequenceForceBatches))
  updateZkEVMVersion : Log Hash Data → Except ε (Element .forkIDs)

section Events

variable {ε Hash Data : Type} [DecidableEq Hash] {Element : EventOrder → Type}

/-- `prepareBlock`: a block of the log's number and hash with no events yet. -/
def prepareBlock (vLog : Log Hash Data) (fullBlock : FullBlock Hash) : Block Hash Element where
  blockNumber := vLog.blockNumber
  blockHash := vLog.blockHash
  parentHash := fullBlock.parentHash
  receivedAt := fullBlock.time
  events := fun _ => []

/-- Appending `element` to the block's list of kind `name`. -/
def Block.push (block : Block Hash Element) (name : EventOrder) (element : Element name) :
    Block Hash Element :=
  { block with events := Function.update block.events name (block.events name ++ [element]) }

/-- The grouping every recording handler ends with: the event goes to the last
block when the log is of that block (same hash and number), else to a new block
built from `fullBlock`; then the order map gets the entry of the event under the
hash of its block. The handlers' third branch, an error, is unreachable: its
condition is the negation of the first two. -/
def recordEvent (name : EventOrder) (element : Element name) (vLog : Log Hash Data)
    (fullBlock : Except ε (FullBlock Hash)) (blocks : List (Block Hash Element))
    (blocksOrder : Hash → List Order) :
    Except ε (List (Block Hash Element) × (Hash → List Order)) := do
  let (earlier, block) ← match blocks.getLast? with
    | some last =>
      if last.blockHash = vLog.blockHash ∧ last.blockNumber = vLog.blockNumber then
        pure (blocks.dropLast, last)
      else pure (blocks, prepareBlock vLog (← fullBlock))
    | none => pure (blocks, prepareBlock vLog (← fullBlock))
  let block := block.push name element
  let or : Order := { name := name, pos := (block.events name).length - 1 }
  pure (earlier ++ [block],
    Function.update blocksOrder block.blockHash (blocksOrder block.blockHash ++ [or]))

/-- The handlers that parse the log first and fetch its block only when the
event opens a new block. -/
def recordParsed (c : Client ε Hash Data Element) (name : EventOrder)
    (parse : Log Hash Data → Except ε (Element name)) (vLog : Log Hash Data)
    (blocks : List (Block Hash Element)) (blocksOrder : Hash → List Order) :
    Except ε (List (Block Hash Element) × (Hash → List Order)) := do
  let element ← parse vLog
  recordEvent name element vLog (c.blockByHash vLog.blockHash) blocks blocksOrder

def sequencedBatchesEvent (c : Client ε Hash Data Element) :=
  recordParsed c .sequenceBatches c.sequenceBatches

def updateGlobalExitRootEvent (c : Client ε Hash Data Element) :=
  recordParsed c .globalExitRoots c.updateGlobalExitRoot

def verifyBatchesTrustedAggregatorEvent (c : Client ε Hash Data Element) :=
  recordParsed c .trustedVerifyBatch c.verifyBatchesTrustedAggregator

def updateZkevmVersion (c : Client ε Hash Data Element) :=
  recordParsed c .forkIDs c.updateZkEVMVersion

/-- `forcedBatchEvent`: the block is fetched before the grouping, whether or
not the event opens a new block, and the forced batch takes its time. -/
def forcedBatchEvent (c : Client ε Hash Data Element) (vLog : Log Hash Data)
    (blocks : List (Block Hash Element)) (blocksOrder : Hash → List Order) :
    Except ε (List (Block Hash Element) × (Hash → List Order)) := do
  let build ← c.forceBatch vLog
  let fullBlock ← c.blockByHash vLog.blockHash
  recordEvent .forcedBatches (build fullBlock) vLog (.ok fullBlock) blocks blocksOrder

/-- `forceSequencedBatchesEvent`: the block is fetched before the grouping, and
`decodeSequencedForceBatches` reads it. -/
def forceSequencedBatchesEvent (c : Client ε Hash Data Element) (vLog : Log Hash Data)
    (blocks : List (Block Hash Element)) (blocksOrder : Hash → List Order) :
    Except ε (List (Block Hash Element) × (Hash → List Order)) := do
  let decode ← c.sequenceForceBatches vLog
  let fullBlock ← c.blockByHash vLog.blockHash
  let sequencedForceBatch ← decode fullBlock
  recordEvent .sequenceForceBatches sequencedForceBatch vLog (.ok fullBlock) blocks blocksOrder

/-- `processEvent`: the handler of the log's first topic; the other signatures
are only logged. A log without topics panics on `vLog.Topics[0]`. -/
def processEvent (c : Client ε Hash Data Element) (vLog : Log Hash Data)
    (blocks : List (Block Hash Element)) (blocksOrder : Hash → List Order) :
    Option (Except ε (List (Block Hash Element) × (Hash → List Order))) :=
  match vLog.topics with
  | [] => none
  | topic :: _ => some <|
    match topic with
    | .sequencedBatches => sequencedBatchesEvent c vLog blocks blocksOrder
    | .updateGlobalExitRoot => updateGlobalExitRootEvent c vLog blocks blocksOrder
    | .forcedBatch => forcedBatchEvent c vLog blocks blocksOrder
    | .verifyBatchesTrustedAggregator =>
      verifyBatchesTrustedAggregatorEvent c vLog blocks blocksOrder
    | .forceSequencedBatches => forceSequencedBatchesEvent c vLog blocks blocksOrder
    | .updateZkEVMVersion => updateZkevmVersion c vLog blocks blocksOrder
    | _ => .ok (blocks, blocksOrder)

/-- The loop of `readEvents` over the logs, stopping at the first error. -/
def processLogs (c : Client ε Hash Data Element) :
    List (Log Hash Data) → List (Block Hash Element) → (Hash → List Order) →
      Option (Except ε (List (Block Hash Element) × (Hash → List Order)))
  | [], blocks, blocksOrder => some (.ok (blocks, blocksOrder))
  | vLog :: logs, blocks, blocksOrder =>
    match processEvent c vLog blocks blocksOrder with
    | none => none
    | some (.error e) => some (.error e)
    | some (.ok (blocks, blocksOrder)) => processLogs c logs blocks blocksOrder

/-- `readEvents`, given what `FilterLogs` returned. -/
def readEvents (c : Client ε Hash Data Element) (logs : Except ε (List (Log Hash Data))) :
    Option (Except ε (List (Block Hash Element) × (Hash → List Order))) :=
  match logs with
  | .error e => some (.error e)
  | .ok logs => processLogs c logs [] fun _ => []

end Events

/-- The state calls `processBlockRange` makes; `processEvent` stands for the
six `process*` calls its switch on `element.Name` chooses between. -/
structure Synchronizer (ε σ Hash : Type) (Element : EventOrder → Type) where
  beginStateTransaction : σ → Except ε σ
  addBlock : Block Hash Element → σ → Except ε σ
  processEvent : Block Hash Element → (Σ name, Element name) → σ → Except ε σ
  commit : σ → Except ε σ

section Synchronizer

variable {ε σ Hash : Type} {Element : EventOrder → Type}

/-- The element an order entry points to in a block; `none` when the position
is past the list, where the index expression panics. -/
def Block.lookup (block : Block Hash Element) (or : Order) : Option (Σ name, Element name) :=
  ((block.events or.name)[or.pos]?).map fun element => ⟨or.name, element⟩

/-- The loop over the order entries of one block: each entry's element, looked
up in its list, goes to the `process*` call of its kind; the first error stops
the loop. -/
def processEntries (sync : Synchronizer ε σ Hash Element) (block : Block Hash Element) :
    List Order → σ → Option (Except ε σ)
  | [], s => some (.ok s)
  | or :: entries, s =>
    match block.lookup or with
    | none => none
    | some event =>
      match sync.processEvent block event s with
      | .error e => some (.error e)
      | .ok s => processEntries sync block entries s

/-- The body of the `processBlockRange` loop for one block: its transaction, the
block itself, its order entries, and the commit. -/
def processBlock (sync : Synchronizer ε σ Hash Element) (block : Block Hash Element)
    (entries : List Order) (s : σ) : Option (Except ε σ) :=
  match sync.beginStateTransaction s with
  | .error e => some (.error e)
  | .ok s =>
    match sync.addBlock block s with
    | .error e => some (.error e)
    | .ok s =>
      match processEntries sync block entries s with
      | none => none
      | some (.error e) => some (.error e)
      | some (.ok s) => some (sync.commit s)

/-- `processBlockRange`: the blocks in order, each with the entries the order
map holds under its hash. -/
def processBlockRange (sync : Synchronizer ε σ Hash Element) (order : Hash → List Order) :
    List (Block Hash Element) → σ → Option (Except ε σ)
  | [], s => some (.ok s)
  | block :: blocks, s =>
    match processBlock sync block (order block.blockHash) s with
    | none => none
    | some (.error e) => some (.error e)
    | some (.ok s) => processBlockRange sync order blocks s

end Synchronizer

section Grouping

variable {Hash Data : Type} {Element : EventOrder → Type}

/-- The events of kind `name` among `events`, in order. -/
def eventsOf (events : List (Σ name, Element name)) (name : EventOrder) : List (Element name) :=
  events.filterMap fun event => if h : event.1 = name then some (h ▸ event.2) else none

/-- The order entries of the events of one block, each after the events `earlier`:
the event's kind and the number of earlier events of that kind. -/
def orderEntriesFrom (earlier : List (Σ name, Element name)) :
    List (Σ name, Element name) → List Order
  | [] => []
  | event :: events =>
    ⟨event.1, (eventsOf earlier event.1).length⟩ :: orderEntriesFrom (earlier ++ [event]) events

/-- The order entries of the events of one block. -/
def orderEntries (events : List (Σ name, Element name)) : List Order :=
  orderEntriesFrom [] events

/-- The block of number `number` and hash `hash` holding `events`. -/
def blockOf (number : UInt64) (hash : Hash) (fullBlock : FullBlock Hash)
    (events : List (Σ name, Element name)) : Block Hash Element where
  blockNumber := number
  blockHash := hash
  parentHash := fullBlock.parentHash
  receivedAt := fullBlock.time
  events := eventsOf events

@[simp] theorem blockOf_blockHash (number : UInt64) (hash : Hash) (fullBlock : FullBlock Hash)
    (events : List (Σ name, Element name)) :
    (blockOf number hash fullBlock events).blockHash = hash := rfl

@[simp] theorem eventsOf_nil : eventsOf ([] : List (Σ name, Element name)) = fun _ => [] := rfl

theorem eventsOf_append (events more : List (Σ name, Element name)) (name : EventOrder) :
    eventsOf (events ++ more) name = eventsOf events name ++ eventsOf more name := by
  simp [eventsOf, List.filterMap_append]

theorem eventsOf_singleton (name : EventOrder) (element : Element name) :
    eventsOf [⟨name, element⟩] = Function.update (fun _ => []) name [element] := by
  funext other
  by_cases same : other = name
  · subst same
    simp [eventsOf]
  · have differs : name ≠ other := Ne.symm same
    simp [eventsOf, differs, same]

theorem eventsOf_append_singleton (events : List (Σ name, Element name)) (name : EventOrder)
    (element : Element name) :
    eventsOf (events ++ [⟨name, element⟩]) =
      Function.update (eventsOf events) name (eventsOf events name ++ [element]) := by
  funext other
  rw [eventsOf_append, eventsOf_singleton]
  by_cases same : other = name
  · subst same
    simp
  · simp [same]

theorem orderEntriesFrom_append_singleton (earlier events : List (Σ name, Element name))
    (event : Σ name, Element name) :
    orderEntriesFrom earlier (events ++ [event]) =
      orderEntriesFrom earlier events ++ [⟨event.1, (eventsOf (earlier ++ events) event.1).length⟩] := by
  induction events generalizing earlier with
  | nil => simp [orderEntriesFrom]
  | cons first rest ih => simp [orderEntriesFrom, ih]

theorem orderEntries_append_singleton (events : List (Σ name, Element name))
    (event : Σ name, Element name) :
    orderEntries (events ++ [event]) =
      orderEntries events ++ [⟨event.1, (eventsOf events event.1).length⟩] := by
  simp [orderEntries, orderEntriesFrom_append_singleton]

theorem push_blockOf (number : UInt64) (hash : Hash) (fullBlock : FullBlock Hash)
    (events : List (Σ name, Element name)) (name : EventOrder) (element : Element name) :
    (blockOf number hash fullBlock events).push name element =
      blockOf number hash fullBlock (events ++ [⟨name, element⟩]) := by
  simp [Block.push, blockOf, eventsOf_append_singleton]

theorem push_prepareBlock (vLog : Log Hash Data) (fullBlock : FullBlock Hash) (name : EventOrder)
    (element : Element name) :
    (prepareBlock vLog fullBlock).push name element =
      blockOf vLog.blockNumber vLog.blockHash fullBlock [⟨name, element⟩] := by
  simp [Block.push, prepareBlock, blockOf, eventsOf_singleton]

theorem lookup_orderEntries (events : List (Σ name, Element name)) :
    ∀ block : Block Hash Element, block.events = eventsOf events →
      (orderEntries events).map block.lookup = events.map some := by
  induction events using List.reverseRecOn with
  | nil => simp [orderEntries, orderEntriesFrom]
  | append_singleton events event ih =>
    intro block lists
    obtain ⟨name, element⟩ := event
    let shorter : Block Hash Element := { block with events := eventsOf events }
    have earlier := ih shorter rfl
    -- the lists only grow at their ends, so the earlier entries still point where they did
    have grown : ∀ or ∈ orderEntries events, block.lookup or = shorter.lookup or := by
      intro or member
      have found : shorter.lookup or ≠ none := by
        have image := List.mem_map_of_mem (f := shorter.lookup) member
        rw [earlier] at image
        obtain ⟨event, -, pointed⟩ := List.mem_map.mp image
        rw [← pointed]
        simp
      simp only [Block.lookup, shorter, lists, eventsOf_append] at found ⊢
      rw [List.getElem?_append_left]
      by_contra outside
      apply found
      simp [List.getElem?_eq_none (Nat.le_of_not_lt outside)]
    rw [orderEntries_append_singleton, List.map_append, List.map_congr_left grown, earlier]
    simp [Block.lookup, lists, eventsOf_append_singleton]

theorem positions_orderEntries (events : List (Σ name, Element name)) (name : EventOrder) :
    ((orderEntries events).filter (·.name = name)).map (·.pos) =
      List.range (eventsOf events name).length := by
  induction events using List.reverseRecOn with
  | nil => simp [orderEntries, orderEntriesFrom]
  | append_singleton events event ih =>
    obtain ⟨kind, element⟩ := event
    rw [orderEntries_append_singleton, List.filter_append, List.map_append, ih,
      eventsOf_append_singleton]
    by_cases same : kind = name
    · subst same
      simp [List.range_succ]
    · simp [same, Function.update_of_ne (Ne.symm same)]

end Grouping

section Step

variable {ε Hash Data : Type} [DecidableEq Hash] {Element : EventOrder → Type}

theorem recordEvent_new {name : EventOrder} (element : Element name) {vLog : Log Hash Data}
    (fullBlock : Except ε (FullBlock Hash)) {blocks : List (Block Hash Element)}
    (other : ∀ last ∈ blocks.getLast?, last.blockHash ≠ vLog.blockHash)
    (blocksOrder : Hash → List Order) :
    recordEvent name element vLog fullBlock blocks blocksOrder = fullBlock.map fun fetched =>
      (blocks ++ [blockOf vLog.blockNumber vLog.blockHash fetched [⟨name, element⟩]],
        Function.update blocksOrder vLog.blockHash
          (blocksOrder vLog.blockHash ++ [⟨name, 0⟩])) := by
  unfold recordEvent
  cases last : blocks.getLast? with
  | none => cases fullBlock <;> simp [push_prepareBlock, blockOf, eventsOf_singleton, Except.map]
  | some block =>
    have differs := other block (by simp [last])
    cases fullBlock <;> simp [differs, push_prepareBlock, blockOf, eventsOf_singleton, Except.map]

theorem recordEvent_last {name : EventOrder} (element : Element name) {vLog : Log Hash Data}
    (fullBlock : Except ε (FullBlock Hash)) (earlier : List (Block Hash Element))
    {last : Block Hash Element} (hash : last.blockHash = vLog.blockHash)
    (number : last.blockNumber = vLog.blockNumber) (blocksOrder : Hash → List Order) :
    recordEvent name element vLog fullBlock (earlier ++ [last]) blocksOrder =
      .ok (earlier ++ [last.push name element],
        Function.update blocksOrder last.blockHash
          (blocksOrder last.blockHash ++ [⟨name, (last.events name).length⟩])) := by
  simp [recordEvent, hash, number, Block.push]
  rfl

end Step

section Run

variable {ε Hash Data : Type} [DecidableEq Hash] {Element : EventOrder → Type}
  (c : Client ε Hash Data Element)

/-- The event a log records, as its handler builds it before the grouping, or
`none` for the signatures that record nothing. -/
def eventOf (vLog : Log Hash Data) : Except ε (Option (Σ name, Element name)) :=
  match vLog.topics with
  | .sequencedBatches :: _ => (c.sequenceBatches vLog).map fun element => some ⟨_, element⟩
  | .updateGlobalExitRoot :: _ =>
    (c.updateGlobalExitRoot vLog).map fun element => some ⟨_, element⟩
  | .forcedBatch :: _ => do
    let build ← c.forceBatch vLog
    let fullBlock ← c.blockByHash vLog.blockHash
    pure (some ⟨_, build fullBlock⟩)
  | .verifyBatchesTrustedAggregator :: _ =>
    (c.verifyBatchesTrustedAggregator vLog).map fun element => some ⟨_, element⟩
  | .forceSequencedBatches :: _ => do
    let decode ← c.sequenceForceBatches vLog
    let fullBlock ← c.blockByHash vLog.blockHash
    let element ← decode fullBlock
    pure (some ⟨_, element⟩)
  | .updateZkEVMVersion :: _ => (c.updateZkEVMVersion vLog).map fun element => some ⟨_, element⟩
  | _ => pure none

/-- The events the logs record, in log order. -/
def recordedEvents : List (Log Hash Data) → Except ε (List (Σ name, Element name))
  | [] => .ok []
  | vLog :: logs => do
    let event ← eventOf c vLog
    let events ← recordedEvents logs
    pure (event.toList ++ events)

/-- The logs of one L1 block, as `FilterLogs` returns them: all of its number
and hash. -/
structure LogGroup (Hash Data : Type) where
  number : UInt64
  hash : Hash
  logs : List (Log Hash Data)
  uniform : ∀ vLog ∈ logs, vLog.blockNumber = number ∧ vLog.blockHash = hash

theorem processEvent_eq {vLog : Log Hash Data} (topics : vLog.topics ≠ [])
    (blocks : List (Block Hash Element)) (blocksOrder : Hash → List Order) :
    processEvent c vLog blocks blocksOrder = some ((eventOf c vLog).bind fun event =>
      event.elim (.ok (blocks, blocksOrder)) fun event =>
        recordEvent event.1 event.2 vLog (c.blockByHash vLog.blockHash) blocks blocksOrder) := by
  obtain ⟨topic, rest, split⟩ := List.exists_cons_of_ne_nil topics
  cases topic
  case sequencedBatches =>
    simp only [processEvent, eventOf, split, sequencedBatchesEvent, recordParsed]
    cases c.sequenceBatches vLog <;> rfl
  case updateGlobalExitRoot =>
    simp only [processEvent, eventOf, split, updateGlobalExitRootEvent, recordParsed]
    cases c.updateGlobalExitRoot vLog <;> rfl
  case verifyBatchesTrustedAggregator =>
    simp only [processEvent, eventOf, split, verifyBatchesTrustedAggregatorEvent, recordParsed]
    cases c.verifyBatchesTrustedAggregator vLog <;> rfl
  case updateZkEVMVersion =>
    simp only [processEvent, eventOf, split, updateZkevmVersion, recordParsed]
    cases c.updateZkEVMVersion vLog <;> rfl
  -- the two handlers that fetch the block before the grouping
  case forcedBatch =>
    simp only [processEvent, eventOf, split, forcedBatchEvent]
    cases c.forceBatch vLog <;> cases fetched : c.blockByHash vLog.blockHash <;> rfl
  case forceSequencedBatches =>
    simp only [processEvent, eventOf, split, forceSequencedBatchesEvent]
    cases c.sequenceForceBatches vLog
    · rfl
    · cases fetched : c.blockByHash vLog.blockHash
      · rfl
      · rename_i decode fullBlock
        cases built : decode fullBlock <;> simp [bind, Except.bind, built, pure, Except.pure]
  all_goals
    simp only [processEvent, eventOf, split]
    rfl

theorem processLogs_append (first second : List (Log Hash Data))
    (blocks : List (Block Hash Element)) (blocksOrder : Hash → List Order) :
    processLogs c (first ++ second) blocks blocksOrder =
      match processLogs c first blocks blocksOrder with
      | some (.ok (blocks, blocksOrder)) => processLogs c second blocks blocksOrder
      | stopped => stopped := by
  induction first generalizing blocks blocksOrder with
  | nil => rfl
  | cons vLog rest ih =>
    simp only [List.cons_append, processLogs]
    rcases processEvent c vLog blocks blocksOrder with _ | _ | ⟨blocks, blocksOrder⟩
    · rfl
    · rfl
    · exact ih blocks blocksOrder

theorem map_eq_map_of_forall₂ {α β γ : Type} {R : α → β → Prop} {f : α → γ} {g : β → γ}
    (agree : ∀ a b, R a b → f a = g b) {l₁ : List α} {l₂ : List β}
    (related : List.Forall₂ R l₁ l₂) : l₁.map f = l₂.map g := by
  have mapped := List.forall₂_map_left_iff.mpr (List.forall₂_map_right_iff.mpr (related.imp agree))
  rwa [List.forall₂_eq_eq_eq] at mapped

/-- The group `g` opens a new block: no block before it has its hash, and the
order map holds nothing under it. -/
structure Fresh (g : LogGroup Hash Data) (blocks : List (Block Hash Element))
    (blocksOrder : Hash → List Order) : Prop where
  unseen : ∀ block ∈ blocks, block.blockHash ≠ g.hash
  empty : blocksOrder g.hash = []

/-- Where the loop stands inside the group `g`, entered in the state `(blocks,
blocksOrder)`, once its logs so far have recorded `events`: nothing yet, or one
block of the group after `blocks`, with the group's entries under its hash. -/
def InGroup (g : LogGroup Hash Data) (blocks : List (Block Hash Element))
    (blocksOrder : Hash → List Order) (events : List (Σ name, Element name))
    (state : List (Block Hash Element) × (Hash → List Order)) : Prop :=
  (events = [] ∧ state = (blocks, blocksOrder)) ∨
    events ≠ [] ∧ ∃ fullBlock, c.blockByHash g.hash = .ok fullBlock ∧
      state = (blocks ++ [blockOf g.number g.hash fullBlock events],
        Function.update blocksOrder g.hash (orderEntries events))

theorem inGroup_step {g : LogGroup Hash Data} {blocks : List (Block Hash Element)}
    {blocksOrder : Hash → List Order} (fresh : Fresh g blocks blocksOrder)
    {vLog : Log Hash Data} (member : vLog ∈ g.logs) {events : List (Σ name, Element name)}
    {state state' : List (Block Hash Element) × (Hash → List Order)}
    (inGroup : InGroup c g blocks blocksOrder events state)
    (step : processEvent c vLog state.1 state.2 = some (.ok state')) :
    ∃ event, eventOf c vLog = .ok event ∧
      InGroup c g blocks blocksOrder (events ++ event.toList) state' := by
  obtain ⟨number, hash⟩ := g.uniform vLog member
  have topics : vLog.topics ≠ [] := by
    intro empty
    simp [processEvent, empty] at step
  rw [processEvent_eq c topics, Option.some.injEq] at step
  cases recorded : eventOf c vLog with
  | error e => simp [recorded, Except.bind] at step
  | ok event =>
    refine ⟨event, rfl, ?_⟩
    rw [recorded] at step
    cases event with
    | none =>
      simp only [Except.bind, Option.elim, Except.ok.injEq] at step
      subst step
      simpa using inGroup
    | some event =>
      obtain ⟨name, element⟩ := event
      simp only [Except.bind, Option.elim] at step
      refine Or.inr ⟨by simp, ?_⟩
      rcases inGroup with ⟨nothing, rfl⟩ | ⟨-, fullBlock, fetched, rfl⟩
      · -- the group's first event opens its block
        have other : ∀ last ∈ blocks.getLast?, last.blockHash ≠ vLog.blockHash := by
          intro last found
          rw [hash]
          exact fresh.unseen last (List.mem_of_getLast? found)
        rw [recordEvent_new element _ other, hash] at step
        cases fetched : c.blockByHash g.hash with
        | error e => simp [fetched, Except.map] at step
        | ok fullBlock =>
          simp only [fetched, Except.map, Except.ok.injEq] at step
          refine ⟨fullBlock, rfl, ?_⟩
          rw [← step, nothing, number, fresh.empty]
          simp [orderEntries, orderEntriesFrom]
      · -- a later event joins it
        refine ⟨fullBlock, fetched, ?_⟩
        rw [recordEvent_last element _ blocks (by simp [blockOf, hash]) (by simp [blockOf, number]),
          Except.ok.injEq] at step
        rw [← step, push_blockOf, Option.toList_some, orderEntries_append_singleton]
        simp [blockOf]

theorem inGroup_run {g : LogGroup Hash Data} {blocks : List (Block Hash Element)}
    {blocksOrder : Hash → List Order} (fresh : Fresh g blocks blocksOrder) :
    ∀ (logs : List (Log Hash Data)), (∀ vLog ∈ logs, vLog ∈ g.logs) →
      ∀ (events : List (Σ name, Element name)) (state final : List (Block Hash Element) × (Hash → List Order)),
      InGroup c g blocks blocksOrder events state →
      processLogs c logs state.1 state.2 = some (.ok final) →
      ∃ more, recordedEvents c logs = .ok more ∧
        InGroup c g blocks blocksOrder (events ++ more) final := by
  intro logs
  induction logs with
  | nil =>
    intro _ events state final inGroup run
    simp only [processLogs, Option.some.injEq, Except.ok.injEq] at run
    subst run
    exact ⟨[], rfl, by simpa using inGroup⟩
  | cons vLog rest ih =>
    intro within events state final inGroup run
    simp only [processLogs] at run
    cases step : processEvent c vLog state.1 state.2 with
    | none => simp [step] at run
    | some result =>
      cases result with
      | error e => simp [step] at run
      | ok state' =>
        rw [step] at run
        obtain ⟨event, recorded, next⟩ :=
          inGroup_step c fresh (within vLog (by simp)) inGroup step
        obtain ⟨more, recordedRest, final'⟩ :=
          ih (fun l member => within l (by simp [member])) _ state' final next run
        refine ⟨event.toList ++ more, ?_, by simpa using final'⟩
        simp only [recordedEvents, recorded, recordedRest]
        rfl

/-- The loop's state after the whole groups `done`, whose logs recorded the
events `evs`: one block per group that recorded an event, in order, and under
each group's hash the entries of its events. -/
structure Represents (done : List (LogGroup Hash Data)) (evs : List (List (Σ name, Element name)))
    (state : List (Block Hash Element) × (Hash → List Order)) : Prop where
  recorded : List.Forall₂ (fun g events => recordedEvents c g.logs = .ok events) done evs
  blocks : List.Forall₂ (fun block (ge : LogGroup Hash Data × List (Σ name, Element name)) =>
      ∃ fullBlock, c.blockByHash ge.1.hash = .ok fullBlock ∧
        block = blockOf ge.1.number ge.1.hash fullBlock ge.2)
    state.1 ((done.zip evs).filter fun ge => !ge.2.isEmpty)
  entries : ∀ ge ∈ done.zip evs, state.2 ge.1.hash = orderEntries ge.2
  untouched : ∀ hash, hash ∉ done.map LogGroup.hash → state.2 hash = []

omit [DecidableEq Hash] in
theorem represents_nil : Represents c ([] : List (LogGroup Hash Data)) [] ([], fun _ => []) :=
  ⟨.nil, .nil, by simp, by simp⟩

omit [DecidableEq Hash] in
theorem Represents.fresh {done : List (LogGroup Hash Data)} {evs : List (List (Σ name, Element name))}
    {state : List (Block Hash Element) × (Hash → List Order)} (represents : Represents c done evs state)
    {g : LogGroup Hash Data} (unseen : g.hash ∉ done.map LogGroup.hash) :
    Fresh g state.1 state.2 where
  unseen := by
    intro block member same
    have hashes := map_eq_map_of_forall₂ (f := Block.blockHash) (g := fun ge => ge.1.hash)
      (by rintro _ _ ⟨_, _, rfl⟩; rfl) represents.blocks
    have listed := List.mem_map_of_mem (f := Block.blockHash) member
    rw [hashes] at listed
    obtain ⟨ge, inside, named⟩ := List.mem_map.mp listed
    have fromDone : ge.1 ∈ done := (List.of_mem_zip (List.mem_filter.mp inside).1).1
    exact unseen (by rw [← same, ← named]; exact List.mem_map_of_mem fromDone)
  empty := represents.untouched g.hash unseen

theorem Represents.group {done : List (LogGroup Hash Data)} {evs : List (List (Σ name, Element name))}
    {state final : List (Block Hash Element) × (Hash → List Order)}
    (represents : Represents c done evs state) {g : LogGroup Hash Data}
    (unseen : g.hash ∉ done.map LogGroup.hash)
    (run : processLogs c g.logs state.1 state.2 = some (.ok final)) :
    ∃ events, Represents c (done ++ [g]) (evs ++ [events]) final := by
  have fresh := represents.fresh c unseen
  obtain ⟨events, recorded, inGroup⟩ :=
    inGroup_run c fresh g.logs (fun _ member => member) [] state final (Or.inl ⟨rfl, rfl⟩) run
  rw [List.nil_append] at inGroup
  have lengths := represents.recorded.length_eq
  have zipped : (done ++ [g]).zip (evs ++ [events]) = done.zip evs ++ [(g, events)] :=
    List.zip_append lengths
  refine ⟨events, ⟨List.rel_append represents.recorded (.cons recorded .nil), ?_, ?_, ?_⟩⟩
  · rw [zipped]
    rcases inGroup with ⟨nothing, rfl⟩ | ⟨something, fullBlock, fetched, rfl⟩
    · simpa [nothing] using represents.blocks
    · have kept : List.filter (fun ge => !ge.2.isEmpty) [(g, events)] = [(g, events)] := by
        simp [something]
      rw [List.filter_append, kept]
      exact List.rel_append represents.blocks (.cons ⟨fullBlock, fetched, rfl⟩ .nil)
  · rw [zipped]
    intro ge member
    rcases List.mem_append.mp member with before | now
    · -- a group before keeps its entries: its hash is another
      have differs : ge.1.hash ≠ g.hash := by
        intro same
        exact unseen (same ▸ List.mem_map_of_mem (List.of_mem_zip before).1)
      rcases inGroup with ⟨-, rfl⟩ | ⟨-, fullBlock, -, rfl⟩
      · exact represents.entries ge before
      · simp [Function.update_of_ne differs, represents.entries ge before]
    · rw [List.mem_singleton.mp now]
      rcases inGroup with ⟨nothing, rfl⟩ | ⟨-, fullBlock, -, rfl⟩
      · simp [nothing, fresh.empty, orderEntries, orderEntriesFrom]
      · simp
  · intro hash outside
    have notBefore : hash ∉ done.map LogGroup.hash := fun inside => outside (by simp_all)
    have differs : hash ≠ g.hash := fun same => outside (by simp [same])
    rcases inGroup with ⟨-, rfl⟩ | ⟨-, fullBlock, -, rfl⟩
    · exact represents.untouched hash notBefore
    · simp [Function.update_of_ne differs, represents.untouched hash notBefore]

theorem Represents.run : ∀ (rest done : List (LogGroup Hash Data))
    (evs : List (List (Σ name, Element name)))
    (state final : List (Block Hash Element) × (Hash → List Order)),
    Represents c done evs state → ((done ++ rest).map LogGroup.hash).Nodup →
    processLogs c (rest.flatMap LogGroup.logs) state.1 state.2 = some (.ok final) →
    ∃ more, Represents c (done ++ rest) (evs ++ more) final
  | [], done, evs, state, final, represents, _, run => by
    simp only [List.flatMap_nil, processLogs, Option.some.injEq, Except.ok.injEq] at run
    subst run
    exact ⟨[], by simpa using represents⟩
  | g :: rest, done, evs, state, final, represents, distinct, run => by
    rw [List.flatMap_cons, processLogs_append] at run
    have unseen : g.hash ∉ done.map LogGroup.hash := by
      intro inside
      simp only [List.map_append, List.map_cons] at distinct
      exact (List.nodup_append.mp distinct).2.2 _ inside _ (by simp) rfl
    cases first : processLogs c g.logs state.1 state.2 with
    | none => simp [first] at run
    | some result =>
      cases result with
      | error e => simp [first] at run
      | ok middle =>
        rw [first] at run
        obtain ⟨events, next⟩ := represents.group c unseen first
        obtain ⟨more, last⟩ := Represents.run rest (done ++ [g]) (evs ++ [events]) middle final
          next (by simpa using distinct) run
        exact ⟨events :: more, by simpa using last⟩

theorem readEvents_represents {groups : List (LogGroup Hash Data)}
    (distinct : (groups.map LogGroup.hash).Nodup)
    {result : List (Block Hash Element) × (Hash → List Order)}
    (read : readEvents c (.ok (groups.flatMap LogGroup.logs)) = some (.ok result)) :
    ∃ evs, Represents c groups evs result := by
  obtain ⟨evs, represents⟩ :=
    Represents.run c groups [] [] ([], fun _ => []) result (represents_nil c) (by simpa using distinct)
      read
  exact ⟨evs, by simpa using represents⟩

end Run

section Replay

variable {ε σ Hash : Type} {Element : EventOrder → Type} (sync : Synchronizer ε σ Hash Element)

/-- The events of one block handed to the synchronizer in order. -/
def replayEvents (block : Block Hash Element) : List (Σ name, Element name) → σ → Except ε σ
  | [], s => .ok s
  | event :: events, s => do replayEvents block events (← sync.processEvent block event s)

/-- What `processBlockRange` is meant to do with blocks and their events in log
order: each block in its transaction, the block, then its events, then the
commit. -/
def replayBlocks : List (Block Hash Element × List (Σ name, Element name)) → σ → Except ε σ
  | [], s => .ok s
  | (block, events) :: rest, s =>
    match sync.beginStateTransaction s >>= sync.addBlock block >>=
        replayEvents sync block events >>= sync.commit with
    | .error e => .error e
    | .ok s => replayBlocks rest s

theorem processEntries_eq (block : Block Hash Element) :
    ∀ (entries : List Order) (events : List (Σ name, Element name)) (s : σ),
      entries.map block.lookup = events.map some →
      processEntries sync block entries s = some (replayEvents sync block events s)
  | [], [], _, _ => rfl
  | [], _ :: _, _, pointed => by simp at pointed
  | _ :: _, [], _, pointed => by simp at pointed
  | or :: entries, event :: events, s, pointed => by
    simp only [List.map_cons, List.cons.injEq] at pointed
    obtain ⟨found, rest⟩ := pointed
    simp only [processEntries, found, replayEvents]
    cases sync.processEvent block event s with
    | error e => rfl
    | ok s => exact processEntries_eq block entries events s rest

theorem processBlock_eq {block : Block Hash Element} {entries : List Order}
    {events : List (Σ name, Element name)} (pointed : entries.map block.lookup = events.map some)
    (s : σ) :
    processBlock sync block entries s = some (sync.beginStateTransaction s >>=
      sync.addBlock block >>= replayEvents sync block events >>= sync.commit) := by
  unfold processBlock
  cases sync.beginStateTransaction s with
  | error e => rfl
  | ok s =>
    simp only [bind, Except.bind]
    cases sync.addBlock block s with
    | error e => rfl
    | ok s =>
      simp only [processEntries_eq sync block entries events s pointed]
      cases replayEvents sync block events s <;> rfl

theorem processBlockRange_eq (order : Hash → List Order) :
    ∀ (blocks : List (Block Hash Element)) (evs : List (List (Σ name, Element name))) (s : σ),
      List.Forall₂ (fun block events => (order block.blockHash).map block.lookup = events.map some)
        blocks evs →
      processBlockRange sync order blocks s = some (replayBlocks sync (blocks.zip evs) s)
  | [], [], _, _ => rfl
  | block :: blocks, events :: evs, s, .cons pointed rest => by
    simp only [processBlockRange, processBlock_eq sync pointed, List.zip_cons_cons, replayBlocks]
    cases sync.beginStateTransaction s >>= sync.addBlock block >>= replayEvents sync block events >>=
      sync.commit with
    | error e => rfl
    | ok s => exact processBlockRange_eq order blocks evs s rest

end Replay

section Order

variable {ε Hash Data : Type} [DecidableEq Hash] {Element : EventOrder → Type}
  (c : Client ε Hash Data Element)

theorem forall₂_and_of_mem {α β : Type} {R : α → β → Prop} {P : β → Prop} {l₁ : List α}
    {l₂ : List β} (related : List.Forall₂ R l₁ l₂) (all : ∀ b ∈ l₂, P b) :
    List.Forall₂ (fun a b => R a b ∧ P b) l₁ l₂ := by
  induction related with
  | nil => exact .nil
  | cons head _ ih =>
    exact .cons ⟨head, all _ (by simp)⟩ (ih fun b member => all b (by simp [member]))

/-- What `readEvents` and `processBlockRange` make of the log groups `groups`,
whose logs record the events `evs`: one block per group that recorded an event,
in order and with distinct number and hash; under each block's hash one order
entry per event of the block in log order, pointing to that very event in the
list of its kind, and each position of each list once; and a replay of every
event once, block by block, in log order. -/
structure ReadInOrder (groups : List (LogGroup Hash Data))
    (evs : List (List (Σ name, Element name))) (blocks : List (Block Hash Element))
    (blocksOrder : Hash → List Order) : Prop where
  recorded : List.Forall₂ (fun g events => recordedEvents c g.logs = .ok events) groups evs
  keys : (blocks.map fun block => (block.blockNumber, block.blockHash)).Nodup
  described : List.Forall₂ (fun (block : Block Hash Element)
      (ge : LogGroup Hash Data × List (Σ name, Element name)) =>
      block.blockNumber = ge.1.number ∧ block.blockHash = ge.1.hash ∧
      (blocksOrder block.blockHash).map block.lookup = ge.2.map some ∧
      ∀ name, ((blocksOrder block.blockHash).filter (·.name = name)).map (·.pos) =
        List.range (block.events name).length)
    blocks ((groups.zip evs).filter fun ge => !ge.2.isEmpty)
  replayed : ∀ {σ : Type} (sync : Synchronizer ε σ Hash Element) (s : σ),
    processBlockRange sync blocksOrder blocks s = some (replayBlocks sync
      (blocks.zip (((groups.zip evs).filter fun ge => !ge.2.isEmpty).map Prod.snd)) s)

/-- Event grouping: for logs that come block by block, the blocks of distinct
hashes, the blocks and the order map `readEvents` returns are read in order. -/
theorem readEvents_orders_events {groups : List (LogGroup Hash Data)}
    (distinct : (groups.map LogGroup.hash).Nodup) {blocks : List (Block Hash Element)}
    {blocksOrder : Hash → List Order}
    (read : readEvents c (.ok (groups.flatMap LogGroup.logs)) = some (.ok (blocks, blocksOrder))) :
    ∃ evs, ReadInOrder c groups evs blocks blocksOrder := by
  obtain ⟨evs, represents⟩ := readEvents_represents c distinct read
  let recordedGroups := (groups.zip evs).filter fun ge => !ge.2.isEmpty
  have inZip : ∀ ge ∈ recordedGroups, ge ∈ groups.zip evs := fun ge member =>
    (List.mem_filter.mp member).1
  -- each block is the block of its group, and its entries are the group's
  have described := forall₂_and_of_mem represents.blocks inZip
  have pointing : List.Forall₂ (fun (block : Block Hash Element)
      (ge : LogGroup Hash Data × List (Σ name, Element name)) =>
      block.blockNumber = ge.1.number ∧ block.blockHash = ge.1.hash ∧
      (blocksOrder block.blockHash).map block.lookup = ge.2.map some ∧
      ∀ name, ((blocksOrder block.blockHash).filter (·.name = name)).map (·.pos) =
        List.range (block.events name).length) blocks recordedGroups := by
    refine described.imp ?_
    rintro _ ge ⟨⟨fullBlock, -, rfl⟩, member⟩
    have entries := represents.entries ge member
    simp only at entries
    refine ⟨rfl, rfl, ?_, ?_⟩
    · rw [blockOf_blockHash, entries]
      exact lookup_orderEntries ge.2 _ rfl
    · intro name
      rw [blockOf_blockHash, entries]
      exact positions_orderEntries ge.2 name
  refine ⟨evs, represents.recorded, ?_, pointing, ?_⟩
  · -- distinct hashes of the groups give distinct keys of the blocks
    have keys := map_eq_map_of_forall₂ (f := fun block : Block Hash Element =>
      (block.blockNumber, block.blockHash)) (g := fun ge => (ge.1.number, ge.1.hash))
      (fun _ _ described => by rw [described.1, described.2.1]) pointing
    rw [keys]
    apply List.Nodup.of_map Prod.snd
    have lengths := represents.recorded.length_eq
    have hashes : (groups.zip evs).map (LogGroup.hash ∘ Prod.fst) = groups.map LogGroup.hash := by
      rw [← List.map_map, List.map_fst_zip (Nat.le_of_eq lengths)]
    have sub : (recordedGroups.map (LogGroup.hash ∘ Prod.fst)).Sublist
        (groups.map LogGroup.hash) := by
      rw [← hashes]
      exact List.filter_sublist.map _
    simpa [List.map_map, Function.comp_def] using sub.nodup distinct
  · intro σ sync s
    apply processBlockRange_eq
    exact List.forall₂_map_right_iff.mpr (pointing.imp fun _ _ described => described.2.2.1)

def sampleClient : Client Unit Nat Unit fun _ => Nat where
  blockByHash _ := .ok ⟨0, 0⟩
  sequenceBatches vLog := .ok vLog.blockNumber.toNat
  updateGlobalExitRoot vLog := .ok vLog.blockNumber.toNat
  forceBatch vLog := .ok fun _ => vLog.blockNumber.toNat
  verifyBatchesTrustedAggregator vLog := .ok vLog.blockNumber.toNat
  sequenceForceBatches vLog := .ok fun _ => .ok vLog.blockNumber.toNat
  updateZkEVMVersion vLog := .ok vLog.blockNumber.toNat

/-- A log of one topic. -/
def sampleLog (topic : Topic) (number : UInt64) (hash : Nat) : Log Nat Unit :=
  ⟨[topic], number, hash, ()⟩

def sampleGroups : List (LogGroup Nat Unit) :=
  [⟨1, 5, [sampleLog .sequencedBatches 1 5, sampleLog .forcedBatch 1 5], by decide⟩,
   ⟨2, 6, [sampleLog .initialized 2 6], by decide⟩]

theorem readEvents_orders_events_sample :
    ∃ evs, ReadInOrder sampleClient sampleGroups evs
      [blockOf 1 5 ⟨0, 0⟩ [⟨.sequenceBatches, 1⟩, ⟨.forcedBatches, 1⟩]]
      (Function.update (fun _ => []) 5 [⟨.sequenceBatches, 0⟩, ⟨.forcedBatches, 0⟩]) := by
  apply readEvents_orders_events sampleClient (by decide)
  simp [readEvents, sampleGroups, processLogs, processEvent, sampleLog, sequencedBatchesEvent,
    recordParsed, sampleClient, recordEvent, forcedBatchEvent, bind, Except.bind, pure,
    Except.pure, prepareBlock, Block.push, blockOf]
  funext name
  cases name <;> rfl

end Order

end ZkevmNode.Etherman
