import Mathlib.Logic.Basic

set_option autoImplicit false

/-! Polling a filter with `eth_getFilterChanges` (`jsonrpc/endpoints_eth.go`,
`jsonrpc/storage.go`) against the rows of `state.l2block`
(`state/pgstatestorage.go`). Time is a discrete clock. `AddL2Block` stamps a
row's `created_at` with the clock, and the row becomes visible when its
transaction commits. A call of `GetFilterChanges` reads the filter, queries the
rows created at or after its `LastPoll`, and later sets `LastPoll` to the clock
at that moment: the two are separate steps, and any other step can come between
them. The model has one filter and one client, which polls it one call at a
time. -/

namespace ZkevmNode.Jsonrpc

/-- Of a row of `state.log`, the address and topics a log filter compares. -/
structure Log (A H : Type) where
  address : A
  topics : List H
deriving DecidableEq, Repr

/-- A row of `state.l2block`, with the logs of its transactions and whether
the transaction that inserted it has committed. -/
structure L2Block (A H : Type) where
  blockNum : Nat
  blockHash : H
  createdAt : Nat
  logs : List (Log A H)
  committed : Bool
deriving DecidableEq, Repr

/-- `types.BlockNumber` for the values of a log filter's range, without `safe`
and `finalized`. -/
inductive BlockNumber where
  | latest
  | pending
  | earliest
  | number (n : Nat)
deriving DecidableEq, Repr

/-- `LogFilter`, without `Since`, which `GetFilterChanges` sets from the
filter's `LastPoll`. -/
structure LogFilter (A H : Type) where
  blockHash : Option H
  fromBlock : Option BlockNumber
  toBlock : Option BlockNumber
  addresses : List A
  topics : List (List H)
deriving DecidableEq, Repr

/-- The filter types whose changes come from `state.l2block`; a log filter
carries its parameters. -/
inductive FilterType (A H : Type) where
  | block
  | log (parameters : LogFilter A H)
deriving DecidableEq, Repr

/-- `Filter`, without its id and websocket connection. -/
structure Filter (A H : Type) where
  filterType : FilterType A H
  lastPoll : Nat
deriving DecidableEq, Repr

/-- What a poll returns: block hashes for a block filter, logs with their
block for a log filter. -/
inductive Change (A H : Type) where
  | block (blockHash : H)
  | log (blockNum : Nat) (blockHash : H) (log : Log A H)
deriving DecidableEq, Repr

section Queries

variable {A H : Type} [DecidableEq A] [DecidableEq H]

def maxTopics : Nat := 4

/-- `GetL2BlockHashesSince`: `SELECT block_hash FROM state.l2block WHERE
created_at >= $1`, over the committed rows. -/
def getL2BlockHashesSince (blocks : List (L2Block A H)) (since : Nat) : List H :=
  ((blocks.filter (·.committed)).filter fun block => since ≤ block.createdAt).map (·.blockHash)

/-- `GetLastL2BlockNumber`: `none` when no row is committed. -/
def getLastL2BlockNumber (blocks : List (L2Block A H)) : Option Nat :=
  ((blocks.filter (·.committed)).map (·.blockNum)).max?

/-- `GetNumericBlockNumber`, a missing value meaning `latest`; `none` when the
last block number cannot be read. -/
def getNumericBlockNumber (lastBlockNumber : Option Nat) : Option BlockNumber → Option Nat
  | none | some .latest | some .pending => lastBlockNumber
  | some .earliest => some 0
  | some (.number n) => some n

/-- The condition of the `i`-th topic: `(l.topicI = any($..) OR $.. IS NULL)`,
where a log without an `i`-th topic has `NULL`, which matches no value. -/
def topicMatches (topics : List (List H)) (logTopics : List H) (i : Nat) : Bool :=
  match topics[i]? with
  | some wanted => wanted.isEmpty || (logTopics[i]?).any wanted.contains
  | none => true

/-- The address and topic conditions of `getLogsByFilterSQL`. -/
def logMatches (addresses : List A) (topics : List (List H)) (log : Log A H) : Bool :=
  (addresses.isEmpty || addresses.contains log.address) &&
    (List.range maxTopics).all (topicMatches topics log.topics)

/-- `GetLogs` over the committed rows. With a block hash it reads every log of
that block, and neither the range, the addresses, the topics nor `since`. -/
def getLogs (blocks : List (L2Block A H)) (fromBlock toBlock : Nat) (addresses : List A)
    (topics : List (List H)) (blockHash : Option H) (since : Option Nat) : List (Change A H) :=
  let committed := blocks.filter (·.committed)
  match blockHash with
  | some hash =>
    (committed.filter (·.blockHash = hash)).flatMap fun block => block.logs.map (.log block.blockNum block.blockHash)
  | none =>
    (committed.filter fun block => fromBlock ≤ block.blockNum && block.blockNum ≤ toBlock &&
        since.all (· ≤ block.createdAt)).flatMap fun block =>
      (block.logs.filter (logMatches addresses topics)).map (.log block.blockNum block.blockHash)

/-- The start of a log filter's range in `internalGetLogs`: `0` without
`FromBlock`. -/
def fromBlockNumber (lastBlockNumber : Option Nat) : Option BlockNumber → Option Nat
  | none => some 0
  | some fromBlock => getNumericBlockNumber lastBlockNumber (some fromBlock)

/-- The query of `GetFilterChanges` for a filter: `none` when it fails, and
the call returns an error without touching `LastPoll`. -/
def filterChanges (blocks : List (L2Block A H)) (filter : Filter A H) : Option (List (Change A H)) :=
  match filter.filterType with
  | .block => some ((getL2BlockHashesSince blocks filter.lastPoll).map .block)
  | .log parameters =>
    let lastBlockNumber := getLastL2BlockNumber blocks
    match fromBlockNumber lastBlockNumber parameters.fromBlock,
        getNumericBlockNumber lastBlockNumber parameters.toBlock with
    | some fromBlock, some toBlock =>
      some (getLogs blocks fromBlock toBlock parameters.addresses parameters.topics parameters.blockHash
        (some filter.lastPoll))
    | _, _ => none

end Queries

/-- The clock, the table, the filter, the call of `GetFilterChanges` in
progress with the changes its query found, and what the client received. -/
structure World (A H : Type) where
  now : Nat
  blocks : List (L2Block A H)
  filter : Filter A H
  polling : Option (List (Change A H))
  delivered : List (Change A H)
deriving DecidableEq, Repr

/-- The steps that interleave. -/
inductive Action (A H : Type) where
  /-- `AddL2Block` in a transaction that has not committed yet. -/
  | addL2Block (blockNum : Nat) (blockHash : H) (logs : List (Log A H))
  /-- The commit of the transaction that added block `blockNum`. -/
  | commit (blockNum : Nat)
  | tick
  /-- `GetFilter` and the query of `GetFilterChanges`. -/
  | queryChanges
  /-- `UpdateFilterLastPoll`, after which the call returns its changes. -/
  | updateLastPoll
deriving DecidableEq, Repr

namespace World

variable {A H : Type} [DecidableEq A] [DecidableEq H]

/-- `createFilter` at the clock reading `now`, with the table as it is. -/
def start (blocks : List (L2Block A H)) (now : Nat) (filterType : FilterType A H) : World A H :=
  ⟨now, blocks, ⟨filterType, now⟩, none, []⟩

def step (s : World A H) : Action A H → World A H
  | .addL2Block blockNum blockHash logs =>
    -- `block_num` is the key of `state.l2block`: a second insert fails
    if s.blocks.any (·.blockNum = blockNum) then s
    else { s with blocks := s.blocks ++ [⟨blockNum, blockHash, s.now, logs, false⟩] }
  | .commit blockNum =>
    { s with blocks := s.blocks.map fun block =>
        if block.blockNum = blockNum then { block with committed := true } else block }
  | .tick => { s with now := s.now + 1 }
  | .queryChanges =>
    match s.polling, filterChanges s.blocks s.filter with
    | none, some changes => { s with polling := some changes }
    | _, _ => s
  | .updateLastPoll =>
    match s.polling with
    | some changes =>
      { s with filter := { s.filter with lastPoll := s.now }, polling := none, delivered := s.delivered ++ changes }
    | none => s

def run (s : World A H) (actions : List (Action A H)) : World A H := actions.foldl step s

end World

section Since

variable {A H : Type} [DecidableEq A] [DecidableEq H]

/-- `c` is a change of the row `b`. -/
def Change.From (b : L2Block A H) : Change A H → Prop
  | .block blockHash => blockHash = b.blockHash
  | .log blockNum blockHash entry => blockNum = b.blockNum ∧ blockHash = b.blockHash ∧ entry ∈ b.logs

/-- Whether the filter's query reads `LastPoll`: all but a log filter with a
block hash. -/
def FilterType.usesSince : FilterType A H → Bool
  | .block => true
  | .log parameters => parameters.blockHash.isNone

omit [DecidableEq A] [DecidableEq H] in
theorem getL2BlockHashesSince_since {blocks : List (L2Block A H)} {since : Nat} {blockHash : H}
    (member : blockHash ∈ getL2BlockHashesSince blocks since) :
    ∃ b ∈ blocks, b.committed = true ∧ since ≤ b.createdAt ∧ (Change.block blockHash).From b := by
  simp only [getL2BlockHashesSince, List.mem_map, List.mem_filter, decide_eq_true_eq] at member
  obtain ⟨b, ⟨⟨inBlocks, committed⟩, after⟩, rfl⟩ := member
  exact ⟨b, inBlocks, committed, after, rfl⟩

theorem getLogs_since {blocks : List (L2Block A H)} {fromBlock toBlock : Nat} {addresses : List A}
    {topics : List (List H)} {since : Nat} {c : Change A H}
    (member : c ∈ getLogs blocks fromBlock toBlock addresses topics none (some since)) :
    ∃ b ∈ blocks, b.committed = true ∧ since ≤ b.createdAt ∧ c.From b := by
  simp only [getLogs, List.mem_flatMap, List.mem_filter, List.mem_map, Option.all_some,
    Bool.and_eq_true, decide_eq_true_eq] at member
  obtain ⟨b, ⟨⟨inBlocks, committed⟩, _, after⟩, log, ⟨inLogs, _⟩, rfl⟩ := member
  exact ⟨b, inBlocks, committed, after, rfl, rfl, inLogs⟩

theorem filterChanges_since {blocks : List (L2Block A H)} {filter : Filter A H}
    (since : filter.filterType.usesSince = true) {changes : List (Change A H)}
    (found : filterChanges blocks filter = some changes) :
    ∀ c ∈ changes, ∃ b ∈ blocks, b.committed = true ∧ filter.lastPoll ≤ b.createdAt ∧ c.From b := by
  unfold filterChanges at found
  split at found
  · rw [Option.some_inj] at found
    intro c member
    rw [← found, List.mem_map] at member
    obtain ⟨blockHash, inHashes, rfl⟩ := member
    exact getL2BlockHashesSince_since inHashes
  · rename_i parameters isLog
    rw [isLog, FilterType.usesSince, Option.isNone_iff_eq_none] at since
    dsimp only at found
    split at found
    · rw [Option.some_inj] at found
      subst found
      rw [since]
      exact fun c member => getLogs_since member
    · exact absurd found nofun

/-- What holds in every state of a run from a state whose `LastPoll` was
`since`: `LastPoll` has not gone back and is not ahead of the clock, and the
changes of the poll in progress and all changes delivered since come from
committed rows created at or after `since`. -/
structure World.Since (since : Nat) (earlier : List (Change A H)) (s : World A H) : Prop where
  usesSince : s.filter.filterType.usesSince = true
  lastPoll : since ≤ s.filter.lastPoll
  beforeNow : s.filter.lastPoll ≤ s.now
  polled : ∀ changes, s.polling = some changes →
    ∀ c ∈ changes, ∃ b ∈ s.blocks, b.committed = true ∧ since ≤ b.createdAt ∧ c.From b
  delivered : ∃ newer, s.delivered = earlier ++ newer ∧
    ∀ c ∈ newer, ∃ b ∈ s.blocks, b.committed = true ∧ since ≤ b.createdAt ∧ c.From b

theorem World.step_addL2Block_eq (s : World A H) (blockNum : Nat) (blockHash : H) (logs : List (Log A H)) :
    ∃ blocks, s.step (.addL2Block blockNum blockHash logs) = { s with blocks := blocks } := by
  simp only [World.step]
  split
  · exact ⟨s.blocks, rfl⟩
  · exact ⟨_, rfl⟩

theorem World.step_keeps_row (s : World A H) (a : Action A H) {b : L2Block A H} (member : b ∈ s.blocks) :
    ∃ b' ∈ (s.step a).blocks, (b.committed = true → b'.committed = true) ∧ b'.createdAt = b.createdAt ∧
      ∀ c : Change A H, c.From b → c.From b' := by
  cases a with
  | addL2Block blockNum blockHash logs =>
    simp only [World.step]
    split
    · exact ⟨b, member, id, rfl, fun _ holds => holds⟩
    · exact ⟨b, List.mem_append_left _ member, id, rfl, fun _ holds => holds⟩
  | commit blockNum =>
    refine ⟨if b.blockNum = blockNum then { b with committed := true } else b,
      List.mem_map_of_mem member, ?_, ?_, ?_⟩
    · split
      · exact fun _ => rfl
      · exact id
    · split <;> rfl
    · intro c holds
      split
      · cases c <;> exact holds
      · exact holds
  | tick => exact ⟨b, member, id, rfl, fun _ holds => holds⟩
  | queryChanges =>
    simp only [World.step]
    split <;> exact ⟨b, member, id, rfl, fun _ holds => holds⟩
  | updateLastPoll =>
    simp only [World.step]
    split <;> exact ⟨b, member, id, rfl, fun _ holds => holds⟩

theorem World.step_keeps_since (s : World A H) (a : Action A H) {since : Nat} {changes : List (Change A H)}
    (from_rows : ∀ c ∈ changes, ∃ b ∈ s.blocks, b.committed = true ∧ since ≤ b.createdAt ∧ c.From b) :
    ∀ c ∈ changes, ∃ b ∈ (s.step a).blocks, b.committed = true ∧ since ≤ b.createdAt ∧ c.From b := by
  intro c member
  obtain ⟨b, inBlocks, committed, after, holds⟩ := from_rows c member
  obtain ⟨b', kept, stillCommitted, sameTime, carries⟩ := s.step_keeps_row a inBlocks
  exact ⟨b', kept, stillCommitted committed, sameTime ▸ after, carries c holds⟩

theorem World.Since.step {since : Nat} {earlier : List (Change A H)} {s : World A H}
    (holds : s.Since since earlier) (a : Action A H) : (s.step a).Since since earlier := by
  obtain ⟨newer, delivered, newerFrom⟩ := holds.delivered
  cases a with
  | addL2Block blockNum blockHash logs =>
    have keeps : ∀ changes : List (Change A H),
        (∀ c ∈ changes, ∃ b ∈ s.blocks, b.committed = true ∧ since ≤ b.createdAt ∧ c.From b) →
        ∀ c ∈ changes, ∃ b ∈ (s.step (.addL2Block blockNum blockHash logs)).blocks,
          b.committed = true ∧ since ≤ b.createdAt ∧ c.From b :=
      fun _ from_rows => s.step_keeps_since _ from_rows
    obtain ⟨blocks, stepped⟩ := s.step_addL2Block_eq blockNum blockHash logs
    rw [stepped] at keeps ⊢
    exact ⟨holds.usesSince, holds.lastPoll, holds.beforeNow,
      fun changes polling => keeps _ (holds.polled changes polling), ⟨newer, delivered, keeps _ newerFrom⟩⟩
  | commit blockNum =>
    exact ⟨holds.usesSince, holds.lastPoll, holds.beforeNow,
      fun changes polling => s.step_keeps_since _ (holds.polled changes polling),
      ⟨newer, delivered, s.step_keeps_since _ newerFrom⟩⟩
  | tick =>
    exact ⟨holds.usesSince, holds.lastPoll, Nat.le_succ_of_le holds.beforeNow,
      fun changes polling => s.step_keeps_since _ (holds.polled changes polling),
      ⟨newer, delivered, s.step_keeps_since _ newerFrom⟩⟩
  | queryChanges =>
    simp only [World.step]
    split
    · rename_i changes found
      refine ⟨holds.usesSince, holds.lastPoll, holds.beforeNow, ?_, ⟨newer, delivered, newerFrom⟩⟩
      intro polled polling
      rw [Option.some_inj] at polling
      subst polling
      intro c member
      obtain ⟨b, inBlocks, committed, after, carries⟩ := filterChanges_since holds.usesSince found c member
      exact ⟨b, inBlocks, committed, Nat.le_trans holds.lastPoll after, carries⟩
    · exact holds
  | updateLastPoll =>
    simp only [World.step]
    split
    · rename_i changes polling
      refine ⟨holds.usesSince, Nat.le_trans holds.lastPoll holds.beforeNow, Nat.le_refl _, nofun,
        ⟨newer ++ changes, by rw [delivered, List.append_assoc], ?_⟩⟩
      intro c member
      rcases List.mem_append.mp member with old | new
      · exact newerFrom c old
      · exact holds.polled changes polling c new
    · exact holds

theorem World.Since.run {since : Nat} {earlier : List (Change A H)} :
    ∀ (actions : List (Action A H)) (s : World A H), s.Since since earlier → (s.run actions).Since since earlier
  | [], _, holds => holds
  | a :: rest, s, holds => World.Since.run rest (s.step a) (holds.step a)

/-- What holds in every state of a run from the creation of a filter whose
query reads `LastPoll`: `LastPoll` is not ahead of the clock, and the poll in
progress found changes of committed rows created at or after the current
`LastPoll`. -/
structure World.Polled (s : World A H) : Prop where
  usesSince : s.filter.filterType.usesSince = true
  beforeNow : s.filter.lastPoll ≤ s.now
  polled : ∀ changes, s.polling = some changes →
    ∀ c ∈ changes, ∃ b ∈ s.blocks, b.committed = true ∧ s.filter.lastPoll ≤ b.createdAt ∧ c.From b

omit [DecidableEq A] [DecidableEq H] in
theorem World.Polled.since {s : World A H} (polled : s.Polled) : s.Since s.filter.lastPoll s.delivered :=
  ⟨polled.usesSince, Nat.le_refl _, polled.beforeNow, polled.polled, ⟨[], by simp, nofun⟩⟩

theorem World.step_lastPoll_of_polling (s : World A H) (a : Action A H) {changes : List (Change A H)}
    (polling : (s.step a).polling = some changes) : (s.step a).filter.lastPoll = s.filter.lastPoll := by
  cases a with
  | addL2Block blockNum blockHash logs =>
    obtain ⟨blocks, stepped⟩ := s.step_addL2Block_eq blockNum blockHash logs
    rw [stepped]
  | commit blockNum => rfl
  | tick => rfl
  | queryChanges =>
    simp only [World.step]
    split <;> rfl
  | updateLastPoll =>
    simp only [World.step] at polling ⊢
    split
    · rename_i polled
      simp [polled] at polling
    · rfl

theorem World.Polled.step {s : World A H} (polled : s.Polled) (a : Action A H) : (s.step a).Polled := by
  have since := polled.since.step a
  refine ⟨since.usesSince, since.beforeNow, fun changes polling => ?_⟩
  rw [s.step_lastPoll_of_polling a polling]
  exact since.polled changes polling

theorem World.Polled.run : ∀ (actions : List (Action A H)) {s : World A H}, s.Polled → (s.run actions).Polled
  | [], _, polled => polled
  | a :: rest, s, polled => World.Polled.run rest (s := s.step a) (polled.step a)

end Since

section Interleavings

variable {A H : Type} [DecidableEq A] [DecidableEq H]

/-- A block added and committed while a poll of a block filter is between its
query and its `LastPoll` update, with the clock moving on before the update, is
committed and was never returned, and the `LastPoll` stored is later than its
`created_at`: no later poll returns it. -/
theorem filter_loses_block (blocks : List (L2Block A H)) (now : Nat) (blockNum : Nat) (blockHash : H)
    (logs : List (Log A H)) (fresh : ∀ b ∈ blocks, b.blockNum ≠ blockNum)
    (unseen : ∀ b ∈ blocks, b.blockHash ≠ blockHash) :
    ⟨blockNum, blockHash, now, logs, true⟩ ∈ ((World.start blocks now .block).run
        [.queryChanges, .addL2Block blockNum blockHash logs, .commit blockNum, .tick, .updateLastPoll]).blocks ∧
      ((World.start blocks now .block).run
        [.queryChanges, .addL2Block blockNum blockHash logs, .commit blockNum, .tick, .updateLastPoll]).polling = none ∧
      Change.block blockHash ∉ ((World.start blocks now .block).run
        [.queryChanges, .addL2Block blockNum blockHash logs, .commit blockNum, .tick, .updateLastPoll]).delivered ∧
      now < ((World.start blocks now .block).run
        [.queryChanges, .addL2Block blockNum blockHash logs, .commit blockNum, .tick, .updateLastPoll]).filter.lastPoll := by
  have absent : ¬(blocks.any fun b => decide (b.blockNum = blockNum)) = true := by
    simpa using fresh
  simp only [World.run, List.foldl_cons, List.foldl_nil, World.step, World.start, filterChanges, if_neg absent]
  refine ⟨by simp, trivial, ?_, Nat.lt_succ_self now⟩
  simp only [List.nil_append, List.mem_map, Change.block.injEq, not_exists, not_and]
  intro hash member same
  obtain ⟨b, inBlocks, -, -, from_b⟩ := getL2BlockHashesSince_since member
  exact unseen b inBlocks ((from_b : hash = b.blockHash).symm.trans same)

def pollAroundCommit : List (Action Nat Nat) := [.queryChanges, .addL2Block 1 7 [], .commit 1, .tick, .updateLastPoll]

theorem filter_loses_block_sample :
    (∀ b ∈ ([] : List (L2Block Nat Nat)), b.blockNum ≠ 1) ∧ (∀ b ∈ ([] : List (L2Block Nat Nat)), b.blockHash ≠ 7) ∧
    ⟨1, 7, 0, [], true⟩ ∈ ((World.start [] 0 .block).run pollAroundCommit).blocks ∧
      ((World.start [] 0 .block).run pollAroundCommit).polling = none ∧
      Change.block 7 ∉ ((World.start [] 0 .block).run pollAroundCommit).delivered ∧
      0 < ((World.start [] 0 .block).run pollAroundCommit).filter.lastPoll :=
  ⟨nofun, nofun, filter_loses_block [] 0 1 7 [] nofun nofun⟩

/-- A committed row of a block filter created at the clock reading of a poll
is returned by that poll and by the next one: `LastPoll` is set to that same
reading and the query compares with `>=`. -/
theorem filter_repeats_block (s : World A H) (blockFilter : s.filter.filterType = .block)
    (idle : s.polling = none) {b : L2Block A H} (member : b ∈ s.blocks) (committed : b.committed = true)
    (due : s.filter.lastPoll ≤ b.createdAt) (atNow : b.createdAt = s.now) :
    s.delivered.count (.block b.blockHash) + 2 ≤
      (s.run [.queryChanges, .updateLastPoll, .queryChanges, .updateLastPoll]).delivered.count (.block b.blockHash) := by
  have found : ∀ since ≤ b.createdAt, 1 ≤ ((getL2BlockHashesSince s.blocks since).map
      (Change.block : H → Change A H)).count (.block b.blockHash) := by
    intro since after
    apply List.count_pos_iff.mpr
    simp only [getL2BlockHashesSince, List.map_map, List.mem_map, List.mem_filter, decide_eq_true_eq]
    exact ⟨b, ⟨⟨member, committed⟩, after⟩, rfl⟩
  have first := found s.filter.lastPoll due
  have second := found s.now (Nat.le_of_eq atNow.symm)
  simp only [World.run, List.foldl_cons, List.foldl_nil, World.step, idle, filterChanges, blockFilter]
  simp only [List.count_append]
  omega

/-- A log filter with a block hash does not read `LastPoll`: every poll
returns the logs of that block again, however late. -/
theorem hash_filter_repeats_logs (s : World A H) {parameters : LogFilter A H}
    (logFilter : s.filter.filterType = .log parameters) {blockHash : H} (byHash : parameters.blockHash = some blockHash)
    (idle : s.polling = none) {b : L2Block A H} (member : b ∈ s.blocks) (committed : b.committed = true)
    (hashed : b.blockHash = blockHash) {entry : Log A H} (logged : entry ∈ b.logs) :
    s.delivered.count (.log b.blockNum b.blockHash entry) + 2 ≤
      (s.run [.queryChanges, .updateLastPoll, .tick, .queryChanges, .updateLastPoll]).delivered.count
        (.log b.blockNum b.blockHash entry) := by
  -- the range is resolved before `GetLogs`, and a committed row makes it resolvable
  obtain ⟨lastBlockNumber, last⟩ : ∃ n, getLastL2BlockNumber s.blocks = some n := by
    cases read : getLastL2BlockNumber s.blocks with
    | some n => exact ⟨n, rfl⟩
    | none =>
      rw [getLastL2BlockNumber, List.max?_eq_none_iff, List.map_eq_nil_iff, List.filter_eq_nil_iff] at read
      exact absurd committed (read b member)
  obtain ⟨fromBlock, resolvedFrom⟩ : ∃ n, fromBlockNumber (some lastBlockNumber) parameters.fromBlock = some n := by
    cases parameters.fromBlock with
    | none => exact ⟨0, rfl⟩
    | some fromBlock => cases fromBlock <;> exact ⟨_, rfl⟩
  obtain ⟨toBlock, resolvedTo⟩ : ∃ n, getNumericBlockNumber (some lastBlockNumber) parameters.toBlock = some n := by
    cases parameters.toBlock with
    | none => exact ⟨lastBlockNumber, rfl⟩
    | some toBlock => cases toBlock <;> exact ⟨_, rfl⟩
  have found : ∀ since, 1 ≤ (getLogs s.blocks fromBlock toBlock parameters.addresses parameters.topics
      (some blockHash) (some since)).count (.log b.blockNum b.blockHash entry) := by
    intro since
    apply List.count_pos_iff.mpr
    simp only [getLogs, List.mem_flatMap, List.mem_filter, List.mem_map, decide_eq_true_eq]
    exact ⟨b, ⟨⟨member, committed⟩, hashed⟩, entry, logged, rfl⟩
  have first := found s.filter.lastPoll
  have second := found s.now
  simp only [World.run, List.foldl_cons, List.foldl_nil, World.step, idle, filterChanges, logFilter, last,
    resolvedFrom, resolvedTo, byHash]
  simp only [List.count_append]
  omega

end Interleavings

end ZkevmNode.Jsonrpc
