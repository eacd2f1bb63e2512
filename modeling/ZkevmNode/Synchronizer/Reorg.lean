import Mathlib

set_option autoImplicit false

/-! L1 reorg detection (`synchronizer/synchronizer.go`): `checkReorg` walks back
from the last block synced through the stored blocks (`GetPreviousBlock` with
`OFFSET depth`) until it meets one whose hash and parent hash agree with L1, or
one at or below the genesis block; `syncBlocks` then resets the state to the
block found (`Reset` deletes the blocks above it). The stored blocks are the rows
of `state.block`, ordered by their primary key `block_num`; L1 answers
`EthBlockByNumber`. The `for` loop runs on fuel. -/

namespace ZkevmNode.Synchronizer

/-- Of `state.Block`, the number and the two hashes. -/
structure Block (H : Type) where
  blockNumber : Nat
  blockHash : H
  parentHash : H
deriving DecidableEq, Repr

/-- `&state.Block{}`, zero in every field. -/
def emptyBlock {H : Type} [Zero H] : Block H := ⟨0, 0, 0⟩

/-- What `EthBlockByNumber` returns of an L1 block. -/
structure EthBlock (H : Type) where
  number : Nat
  hash : H
  parentHash : H
deriving DecidableEq, Repr

/-- The rows of `state.block`, in the order of `block_num`, which is their key. -/
structure BlockTable (H : Type) where
  blocks : List (Block H)
  ordered : blocks.Pairwise (·.blockNumber < ·.blockNumber)

/-- The errors `checkReorg` returns. -/
inductive SyncError (ε : Type) where
  /-- The error of `EthBlockByNumber`. -/
  | ethBlockByNumber (err : ε)
  /-- "wrong ethereum block retrieved from blockchain. Block numbers don't
  match", with the number stored and the one retrieved. -/
  | wrongBlock (stored retrieved : Nat)
deriving DecidableEq, Repr

namespace BlockTable

variable {H : Type}

/-- `GetPreviousBlock(offset)`: `ORDER BY block_num DESC LIMIT 1 OFFSET offset`;
`none` is `ErrNotFound`. -/
def getPreviousBlock (table : BlockTable H) (offset : Nat) : Option (Block H) :=
  table.blocks.reverse[offset]?

/-- `Reset(blockNumber)`: `DELETE FROM state.block WHERE block_num > blockNumber`. -/
def reset (table : BlockTable H) (blockNumber : Nat) : BlockTable H :=
  ⟨table.blocks.filter (·.blockNumber ≤ blockNumber), table.ordered.filter _⟩

theorem reverse_eq_cons {table : BlockTable H} {latestBlock : Block H}
    (last : table.blocks.getLast? = some latestBlock) :
    table.blocks.reverse = latestBlock :: table.blocks.dropLast.reverse := by
  conv => lhs; rw [← List.dropLast_append_getLast? latestBlock last]
  simp

theorem reset_getLast? {table : BlockTable H} {b : Block H} (mem : b ∈ table.blocks) :
    (table.reset b.blockNumber).blocks.getLast? = some b := by
  obtain ⟨pre, post, split⟩ := List.append_of_mem mem
  have ordered := table.ordered
  rw [split, List.pairwise_append, List.pairwise_cons] at ordered
  have kept : pre.filter (·.blockNumber ≤ b.blockNumber) = pre :=
    List.filter_eq_self.mpr fun a mem => by
      simpa using Nat.le_of_lt (ordered.2.2 a mem b List.mem_cons_self)
  have dropped : post.filter (·.blockNumber ≤ b.blockNumber) = [] :=
    List.filter_eq_nil_iff.mpr fun a mem => by simpa using ordered.2.1.1 a mem
  simp [reset, split, List.filter_append, kept, dropped]

theorem reset_eq_nil {table : BlockTable H} {n : Nat}
    (above : ∀ b ∈ table.blocks, n < b.blockNumber) : (table.reset n).blocks = [] :=
  List.filter_eq_nil_iff.mpr fun b mem => by simpa using above b mem

end BlockTable

section CheckReorg

variable {ε H : Type} [DecidableEq H] [Zero H] (ethBlockByNumber : Nat → Except ε (EthBlock H))
  (table : BlockTable H) (genesisBlockNum : Nat)

/-- The loop of `checkReorg` at `depth`, with `latestBlock` the block it
compares: the block it stops at, `none` when `GetPreviousBlock` finds no more
blocks, or the error it returns. -/
def checkReorgLoop : Nat → Nat → Block H → Option (Except (SyncError ε) (Option (Block H)))
  | 0, _, _ => none
  | fuel + 1, depth, latestBlock =>
    match ethBlockByNumber latestBlock.blockNumber with
    | .error err => some (.error (.ethBlockByNumber err))
    | .ok block =>
      if block.number ≠ latestBlock.blockNumber then
        some (.error (.wrongBlock latestBlock.blockNumber block.number))
      else if (block.hash ≠ latestBlock.blockHash ∨ block.parentHash ≠ latestBlock.parentHash) ∧
          latestBlock.blockNumber > genesisBlockNum then
        match table.getPreviousBlock (depth + 1) with
        | none => some (.ok none)
        | some previous => checkReorgLoop fuel (depth + 1) previous
      else some (.ok (some latestBlock))

/-- `checkReorg(latestBlock)`: `nil` when the block the loop stops at has the
hash of `latestBlock`, the empty block when the stored blocks ran out. -/
def checkReorg (fuel : Nat) (latestBlock : Block H) : Option (Except (SyncError ε) (Option (Block H))) :=
  (checkReorgLoop ethBlockByNumber table genesisBlockNum fuel 0 latestBlock).map fun result =>
    result.map fun
      | none => some emptyBlock
      | some block => if latestBlock.blockHash ≠ block.blockHash then some block else none

/-- The start of `syncBlocks`: `checkReorg`, and on a reorg `resetState` to the
block found, which `syncBlocks` returns as the last block synced. -/
def syncBlocksReorg (fuel : Nat) (lastEthBlockSynced : Block H) :
    Option (Except (SyncError ε) (BlockTable H × Option (Block H))) :=
  (checkReorg ethBlockByNumber table genesisBlockNum fuel lastEthBlockSynced).map fun result =>
    result.map fun
      | some block => (table.reset block.blockNumber, some block)
      | none => (table, none)

end CheckReorg

section Walk

variable {ε H : Type} [DecidableEq H]

/-- L1 as a function of the block number: its hash and parent hash, and
`EthBlockByNumber` answering with them. -/
def answering (l1 : Nat → H × H) (n : Nat) : Except ε (EthBlock H) := .ok ⟨n, (l1 n).1, (l1 n).2⟩

/-- Where the walk stops: the block agrees with L1, or is at or below the
genesis block. -/
def stops (l1 : Nat → H × H) (genesisBlockNum : Nat) (b : Block H) : Bool :=
  decide ((l1 b.blockNumber).1 = b.blockHash ∧ (l1 b.blockNumber).2 = b.parentHash) ||
    decide (b.blockNumber ≤ genesisBlockNum)

variable (l1 : Nat → H × H) (table : BlockTable H) (genesisBlockNum : Nat)

theorem stops_eq_false_iff (b : Block H) :
    stops l1 genesisBlockNum b = false ↔
      ((l1 b.blockNumber).1 ≠ b.blockHash ∨ (l1 b.blockNumber).2 ≠ b.parentHash) ∧
        b.blockNumber > genesisBlockNum := by
  simp only [stops, Bool.or_eq_false_iff, decide_eq_false_iff_not, not_and_or, not_le, ne_eq]

theorem checkReorgLoop_find :
    ∀ (fuel depth : Nat) (latestBlock : Block H), table.blocks.reverse[depth]? = some latestBlock →
      table.blocks.length ≤ fuel + depth →
      checkReorgLoop (answering (ε := ε) l1) table genesisBlockNum fuel depth latestBlock =
        some (.ok ((table.blocks.reverse.drop depth).find? (stops l1 genesisBlockNum)))
  | 0, depth, latestBlock, stored, enough => by
    have inside := (List.getElem?_eq_some_iff.mp stored).1
    simp only [List.length_reverse] at inside
    omega
  | fuel + 1, depth, latestBlock, stored, enough => by
    obtain ⟨inside, here⟩ := List.getElem?_eq_some_iff.mp stored
    have unfolded : table.blocks.reverse.drop depth = latestBlock :: table.blocks.reverse.drop (depth + 1) := by
      rw [List.drop_eq_getElem_cons inside, here]
    rw [unfolded, List.find?_cons]
    simp only [checkReorgLoop, answering, ne_eq, not_true_eq_false, if_false]
    cases stop : stops l1 genesisBlockNum latestBlock with
    | true =>
      have agrees := mt (stops_eq_false_iff l1 genesisBlockNum latestBlock).mpr (by simp [stop])
      simp only [ne_eq] at agrees
      rw [if_neg agrees]
    | false =>
      have goesOn := (stops_eq_false_iff l1 genesisBlockNum latestBlock).mp stop
      simp only [ne_eq] at goesOn
      rw [if_pos goesOn]
      -- the next stored block, or the end of the table
      cases previous : table.getPreviousBlock (depth + 1) with
      | none =>
        have past : table.blocks.reverse.length ≤ depth + 1 := by
          simpa [BlockTable.getPreviousBlock] using previous
        simp [List.drop_eq_nil_of_le past]
      | some previous' =>
        exact checkReorgLoop_find fuel (depth + 1) previous' previous (by omega)

variable {table}

theorem find?_hash_ne {latestBlock b : Block H} (last : table.blocks.getLast? = some latestBlock)
    (distinct : table.blocks.Pairwise (·.blockHash ≠ ·.blockHash))
    (goesOn : stops l1 genesisBlockNum latestBlock = false)
    (found : table.blocks.reverse.find? (stops l1 genesisBlockNum) = some b) :
    latestBlock.blockHash ≠ b.blockHash := by
  rw [BlockTable.reverse_eq_cons last, List.find?_cons, goesOn] at found
  have earlier : b ∈ table.blocks.dropLast := List.mem_reverse.mp (List.mem_of_find?_eq_some found)
  rw [← List.dropLast_append_getLast? latestBlock last, List.pairwise_append] at distinct
  exact (distinct.2.2 b earlier latestBlock (List.mem_singleton_self _)).symm

variable [Zero H]

theorem checkReorg_answering {latestBlock : Block H} (last : table.blocks.getLast? = some latestBlock)
    (fuel : Nat) (enough : table.blocks.length ≤ fuel) :
    checkReorg (answering (ε := ε) l1) table genesisBlockNum fuel latestBlock =
      some (.ok (match table.blocks.reverse.find? (stops l1 genesisBlockNum) with
        | none => some emptyBlock
        | some block => if latestBlock.blockHash ≠ block.blockHash then some block else none)) := by
  have start : table.blocks.reverse[0]? = some latestBlock := by simp [BlockTable.reverse_eq_cons last]
  rw [checkReorg, checkReorgLoop_find l1 table genesisBlockNum fuel 0 latestBlock start (by omega)]
  rfl

theorem checkReorg_distinct {latestBlock : Block H} (last : table.blocks.getLast? = some latestBlock)
    (distinct : table.blocks.Pairwise (·.blockHash ≠ ·.blockHash)) (fuel : Nat)
    (enough : table.blocks.length ≤ fuel) :
    checkReorg (answering (ε := ε) l1) table genesisBlockNum fuel latestBlock =
      some (.ok (if stops l1 genesisBlockNum latestBlock then none
        else some ((table.blocks.reverse.find? (stops l1 genesisBlockNum)).getD emptyBlock))) := by
  rw [checkReorg_answering l1 genesisBlockNum last fuel enough]
  cases goesOn : stops l1 genesisBlockNum latestBlock with
  | true =>
    -- the walk stops at once, at the block itself
    rw [BlockTable.reverse_eq_cons last, List.find?_cons, goesOn]
    simp
  | false =>
    cases found : table.blocks.reverse.find? (stops l1 genesisBlockNum) with
    | none => rfl
    | some b => simp [find?_hash_ne l1 genesisBlockNum last distinct goesOn found]

/-- L1 reorg detection finds the last common block. For a table whose last block
is `latestBlock`, with distinct stored hashes and enough fuel: `checkReorg` returns
`nil` exactly when `latestBlock` agrees with L1 or lies at or below the genesis
block; otherwise it returns the most recent stored block at which the walk back
stops, and `syncBlocks` resets the table to it, leaving it the last stored block;
or, when no stored block stops the walk, the empty block, and the reset empties
the table. -/
theorem syncBlocksReorg_last_common {latestBlock : Block H}
    (last : table.blocks.getLast? = some latestBlock)
    (distinct : table.blocks.Pairwise (·.blockHash ≠ ·.blockHash)) (fuel : Nat)
    (enough : table.blocks.length ≤ fuel) :
    ∃ result, checkReorg (answering (ε := ε) l1) table genesisBlockNum fuel latestBlock = some (.ok result) ∧
      (result = none ↔ stops l1 genesisBlockNum latestBlock = true) ∧
      ∀ b, result = some b →
        syncBlocksReorg (answering (ε := ε) l1) table genesisBlockNum fuel latestBlock =
            some (.ok (table.reset b.blockNumber, some b)) ∧
          ((table.blocks.reverse.find? (stops l1 genesisBlockNum) = some b ∧
              stops l1 genesisBlockNum b = true ∧ (table.reset b.blockNumber).blocks.getLast? = some b) ∨
            (table.blocks.reverse.find? (stops l1 genesisBlockNum) = none ∧ b = emptyBlock ∧
              (table.reset b.blockNumber).blocks = [])) := by
  have computed := checkReorg_distinct (ε := ε) l1 genesisBlockNum last distinct fuel enough
  refine ⟨_, computed, by split <;> simp_all, ?_⟩
  intro b returned
  cases goesOn : stops l1 genesisBlockNum latestBlock with
  | true => simp [goesOn] at returned
  | false =>
    simp only [goesOn, Bool.false_eq_true, if_false, Option.some.injEq] at returned
    refine ⟨by simp [syncBlocksReorg, computed, goesOn, returned, Except.map], ?_⟩
    cases found : table.blocks.reverse.find? (stops l1 genesisBlockNum) with
    | none =>
      -- no stored block stops the walk: all lie above the genesis block
      have above : ∀ c ∈ table.blocks, 0 < c.blockNumber := fun c mem => by
        have goesOn' := List.find?_eq_none.mp found c (List.mem_reverse.mpr mem)
        have := ((stops_eq_false_iff l1 genesisBlockNum c).mp (by simpa using goesOn')).2
        omega
      rw [found, Option.getD_none] at returned
      subst returned
      exact Or.inr ⟨rfl, rfl, BlockTable.reset_eq_nil above⟩
    | some c =>
      rw [found, Option.getD_some] at returned
      subst returned
      have mem := List.mem_reverse.mp (List.mem_of_find?_eq_some found)
      exact Or.inl ⟨rfl, List.find?_some found, BlockTable.reset_getLast? mem⟩

def reorgTable : BlockTable Nat := ⟨[⟨5, 10, 1⟩, ⟨6, 20, 10⟩, ⟨7, 30, 20⟩], by decide⟩

/-- L1 after the reorg: block 7 has another hash, blocks 5 and 6 are unchanged. -/
def reorgL1 (n : Nat) : Nat × Nat :=
  if n = 7 then (31, 20) else if n = 6 then (20, 10) else (10, 1)

theorem syncBlocksReorg_last_common_sample :
    syncBlocksReorg (answering (ε := Unit) reorgL1) reorgTable 0 3 ⟨7, 30, 20⟩ =
      some (.ok (reorgTable.reset 6, some ⟨6, 20, 10⟩)) := by
  obtain ⟨result, computed, -, returned⟩ :=
    syncBlocksReorg_last_common (ε := Unit) reorgL1 0
      (show reorgTable.blocks.getLast? = some ⟨7, 30, 20⟩ by decide) (by decide) 3 (by decide)
  have known : checkReorg (answering (ε := Unit) reorgL1) reorgTable 0 3 ⟨7, 30, 20⟩ =
      some (.ok (some ⟨6, 20, 10⟩)) := rfl
  rw [known, Option.some.injEq, Except.ok.injEq] at computed
  exact (returned _ computed.symm).1

/-- Two ways the walk misses a block common with L1. The genesis bound stops it
at a block L1 does not have: with the genesis block at 5, a table of blocks 5 and
6 that both disagree with L1 is reset to block 5, which still disagrees. And an
older stored block with the hash of the last one makes `checkReorg` return `nil`
although the last block disagrees with L1 and lies above the genesis block. -/
theorem syncBlocksReorg_not_common :
    (∃ (table : BlockTable Nat) (l1 : Nat → Nat × Nat) (latestBlock b : Block Nat),
      table.blocks.getLast? = some latestBlock ∧ table.blocks.Pairwise (·.blockHash ≠ ·.blockHash) ∧
      syncBlocksReorg (answering (ε := Unit) l1) table 5 2 latestBlock =
        some (.ok (table.reset b.blockNumber, some b)) ∧
      (table.reset b.blockNumber).blocks.getLast? = some b ∧ (l1 b.blockNumber).1 ≠ b.blockHash) ∧
    (∃ (table : BlockTable Nat) (l1 : Nat → Nat × Nat) (latestBlock : Block Nat),
      table.blocks.getLast? = some latestBlock ∧ (l1 latestBlock.blockNumber).1 ≠ latestBlock.blockHash ∧
      5 < latestBlock.blockNumber ∧
      checkReorg (answering (ε := Unit) l1) table 5 2 latestBlock = some (.ok none)) :=
  ⟨⟨⟨[⟨5, 10, 1⟩, ⟨6, 20, 10⟩], by decide⟩, fun n => (n + 100, n + 99), ⟨6, 20, 10⟩, ⟨5, 10, 1⟩,
      rfl, by decide, rfl, rfl, by decide⟩,
    ⟨⟨[⟨5, 30, 1⟩, ⟨6, 30, 30⟩], by decide⟩, fun n => (n + 100, n + 99), ⟨6, 30, 30⟩,
      rfl, by decide, by decide, rfl⟩⟩

end Walk

end ZkevmNode.Synchronizer
