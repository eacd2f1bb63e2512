import ZkevmNode.Go.Bytes
import ZkevmNode.Lib.Machine
import Mathlib.Data.List.Sort

set_option autoImplicit false

/-! The last-n-blocks gas price suggester (`gasprice/lastnbatches.go`). A call
of `UpdateGasPriceAvg` that sees a new last L2 block starts one goroutine per
recent block, each sampling the lowest tips of its block. It then stores a
percentile of the samples, capped by `MaxPrice`, as the price. A `*big.Int`
that may be nil is an `Option Int`. The goroutines' results arrive in an order
the scheduler picks, which is a parameter of the call. `sort.Sort` is modelled
by insertion sort: only the values are read after it, and every sorted
permutation of them is the same list. -/

namespace ZkevmNode.Gasprice

/-- `sampleNumber`: the transactions sampled in a block. -/
def sampleNumber : Nat := 3

/-- The fields of `Config` the strategy reads. -/
structure Config where
  maxPrice : Option Int
  ignorePrice : Option Int
  checkBlocks : Int
  percentile : Int
deriving DecidableEq, Repr

/-- `LastNL2BlocksGasPrice`: the cached last block number and price. -/
structure LastNL2BlocksGasPrice where
  lastL2BlockNumber : Nat
  lastPrice : Option Int
deriving DecidableEq, Repr

/-- `newLastNL2BlocksGasPriceSuggester`: block zero and a nil price. -/
def newLastNL2BlocksGasPriceSuggester : LastNL2BlocksGasPrice := ⟨0, none⟩

/-- What `GetTxsByBlockNumber` returns: the tips of the block's transactions,
or nil, and the error. -/
structure TxsAnswer (ε : Type) where
  txs : Option (List Int)
  err : Option ε
deriving DecidableEq, Repr

/-- `results`: the prices a goroutine sampled and its error. -/
structure Results (ε : Type) where
  values : List (Option Int)
  err : Option ε
deriving DecidableEq, Repr

section Code

variable {ε : Type}

/-- The loop of `getL2BlockTxsTips` over the transactions sorted by tip: a tip
below `ignorePrice` is skipped, and the loop breaks once `limit` are taken. -/
def collectTips (ignorePrice : Option Int) (limit : Nat) (prices : List Int) : List Int → List Int
  | [] => prices
  | tip :: txs =>
    if ignorePrice.isSome && Go.BigInt.cmp (some tip) ignorePrice == some .lt then
      collectTips ignorePrice limit prices txs
    else if limit ≤ (prices ++ [tip]).length then prices ++ [tip]
    else collectTips ignorePrice limit (prices ++ [tip]) txs

/-- `getL2BlockTxsTips`: the error when the block's transactions are nil, and
otherwise the tips the loop collects from the transactions sorted by tip. -/
def getL2BlockTxsTips (ignorePrice : Option Int) (limit : Nat) (answer : TxsAnswer ε) : Results ε :=
  match answer.txs with
  | none => ⟨[], answer.err⟩
  | some txs => ⟨(collectTips ignorePrice limit [] (txs.insertionSort (· ≤ ·))).map some, none⟩

/-- The blocks the sampling goroutines start for: from `number` down, while
fewer than `checkBlocks` have started and `number > 0`. -/
def sampledBlocks (checkBlocks : Int) (sent : Nat) : Nat → List Nat
  | 0 => []
  | number + 1 =>
    if sent < checkBlocks then (number + 1) :: sampledBlocks checkBlocks (sent + 1) number else []

/-- The receive loop over the results in their order of arrival: the first
error closes `quit` and returns, and a block without prices contributes
`lastPrice`. -/
def receiveResults (lastPrice : Option Int) (results : List (Option Int)) :
    List (Results ε) → Except ε (List (Option Int))
  | [] => .ok results
  | res :: rest =>
    match res.err with
    | some err => .error err
    | none =>
      receiveResults lastPrice (results ++ if res.values.length = 0 then [lastPrice] else res.values) rest

/-- `sort.Sort(bigIntArray(results))`. `Less` calls `Cmp`, which panics on a nil
price against a non-nil one, while two nils compare equal. A comparison sort
that did not compare some nil with some non-nil price could not place them, so
a list with both panics. -/
def sortPrices (results : List (Option Int)) : Option (List (Option Int)) :=
  if results.all Option.isSome then some ((results.reduceOption.insertionSort (· ≤ ·)).map some)
  else if results.all Option.isNone then some results
  else none

/-- The price before the cap: the element at `(len(results)-1)*Percentile/100`
of the sorted results, or the cached price when there are none. -/
def pickPrice (percentile : Int) (lastPrice : Option Int) (results : List (Option Int)) :
    Option (Option Int) :=
  if results.length > 0 then do
    let sorted ← sortPrices results
    -- Go's integer division truncates toward zero
    Go.index sorted ((((results.length : Int) - 1) * percentile).tdiv 100)
  else some lastPrice

/-- `MaxPrice` when the price is above it, and the `g.lastPrice.Uint64()` given
to `SetGasPrice` after the cache is updated. -/
def storePrice (maxPrice price : Option Int) : Option (Option Int × UInt64) := do
  let order ← Go.BigInt.cmp price maxPrice
  let price := if order = .gt then maxPrice else price
  let stored ← Go.BigInt.uint64 price
  some (price, stored)

/-- `UpdateGasPriceAvg` when `GetLastL2BlockNumber` returns `l2BlockNumber`: the
new state and the price given to `SetGasPrice`, or `none` at a panic. -/
def updateGasPriceAvg (cfg : Config) (txsByBlock : Nat → TxsAnswer ε) (schedule : List Nat → List Nat)
    (l2BlockNumber : Nat) (g : LastNL2BlocksGasPrice) : Option (LastNL2BlocksGasPrice × Option UInt64) :=
  if l2BlockNumber = g.lastL2BlockNumber then some (g, none)
  -- `make(chan results, g.cfg.CheckBlocks)` panics on a negative size
  else if cfg.checkBlocks < 0 then none
  else
    -- the window counts down from the cached block number
    let arrived := (schedule (sampledBlocks cfg.checkBlocks 0 g.lastL2BlockNumber)).map fun number =>
      getL2BlockTxsTips cfg.ignorePrice sampleNumber (txsByBlock number)
    match receiveResults g.lastPrice [] arrived with
    | .error _ => some (g, none)
    | .ok results => do
      let price ← pickPrice cfg.percentile g.lastPrice results
      let (price, stored) ← storePrice cfg.maxPrice price
      some (⟨l2BlockNumber, price⟩, some stored)

/-- What one call sees: the last L2 block number, each block's transactions,
and the order in which the sampling goroutines deliver. -/
structure Call (ε : Type) where
  l2BlockNumber : Nat
  txsByBlock : Nat → TxsAnswer ε
  schedule : List Nat → List Nat

/-- One call of the suggester's update loop, as a step on its state. -/
def callStep (cfg : Config) (g : LastNL2BlocksGasPrice) (call : Call ε) : Option LastNL2BlocksGasPrice :=
  (updateGasPriceAvg cfg call.txsByBlock call.schedule call.l2BlockNumber g).map Prod.fst

end Code

/-- The blocks a call samples: the `checkBlocks` most recent blocks from `last`
down, stopping at block 1. -/
def recentBlocks (checkBlocks last : Nat) : List Nat :=
  (List.range (min checkBlocks last)).map (last - ·)

/-- The up to `limit` lowest tips that are not below `ignorePrice`. -/
def lowestTips (ignorePrice : Option Int) (limit : Nat) (tips : List Int) : List Int :=
  ((tips.filter fun tip => ignorePrice.all (· ≤ tip)).insertionSort (· ≤ ·)).take limit

/-- What a block contributes to the samples: its lowest tips, or the cached
price when it has none. -/
def blockSamples {ε : Type} (ignorePrice : Option Int) (lastPrice : Int) (answer : TxsAnswer ε) : List Int :=
  match answer.txs.map (lowestTips ignorePrice sampleNumber) with
  | some (tip :: tips) => tip :: tips
  | _ => [lastPrice]

/-- The `percentile`-th percentile of the samples: the element at
`(n-1)*percentile/100` of the `n` sorted samples. -/
def percentileOf (percentile : Nat) (samples : List Int) : Int :=
  (samples.insertionSort (· ≤ ·)).getD ((samples.length - 1) * percentile / 100) 0

/-- The price a call from the cached block `last` stores: the percentile of the
samples of the window, or the cached price `p` without samples, capped by `M`. -/
def windowPrice {ε : Type} (cfg : Config) (txsByBlock : Nat → TxsAnswer ε) (p M : Int) (last : Nat) : Int :=
  let samples := (recentBlocks cfg.checkBlocks.toNat last).flatMap fun n => blockSamples cfg.ignorePrice p (txsByBlock n)
  min M (if samples = [] then p else percentileOf cfg.percentile.toNat samples)

theorem sampledBlocks_eq (checkBlocks : Int) :
    ∀ (number sent : Nat), sampledBlocks checkBlocks sent number =
      (List.range (min (checkBlocks - sent).toNat number)).map (number - ·)
  | 0, sent => by simp [sampledBlocks]
  | number + 1, sent => by
    unfold sampledBlocks
    split_ifs with fewer
    · -- block `number + 1`, then one fewer to start from block `number`
      have left : (checkBlocks - sent).toNat = (checkBlocks - (sent + 1 : Nat)).toNat + 1 := by omega
      rw [sampledBlocks_eq checkBlocks number (sent + 1), left, Nat.add_min_add_right,
        List.range_succ_eq_map, List.map_cons, List.map_map]
      simp [Function.comp_def]
    · have none : (checkBlocks - sent).toNat = 0 := by omega
      simp [none]

theorem sampledBlocks_recentBlocks (checkBlocks : Int) (last : Nat) :
    sampledBlocks checkBlocks 0 last = recentBlocks checkBlocks.toNat last := by
  rw [sampledBlocks_eq, recentBlocks, Nat.cast_zero, Int.sub_zero]

theorem skipped_iff (ignorePrice : Option Int) (tip : Int) :
    (ignorePrice.isSome && Go.BigInt.cmp (some tip) ignorePrice == some .lt) = !ignorePrice.all (· ≤ tip) := by
  cases ignorePrice with
  | none => rfl
  | some ignore =>
    by_cases below : tip < ignore
    · simp [Go.BigInt.cmp, compare_lt_iff_lt.mpr below, not_le.mpr below]
    · have order : compare tip ignore ≠ .lt := fun order => below (compare_lt_iff_lt.mp order)
      simp [Go.BigInt.cmp, order, not_lt.mp below]

theorem collectTips_eq (ignorePrice : Option Int) (limit : Nat) :
    ∀ (tips prices : List Int), prices.length < limit →
      collectTips ignorePrice limit prices tips =
        prices ++ (tips.filter fun tip => ignorePrice.all (· ≤ tip)).take (limit - prices.length)
  | [], prices, _ => by simp [collectTips]
  | tip :: txs, prices, room => by
    rw [collectTips, skipped_iff]
    by_cases kept : ignorePrice.all (· ≤ tip)
    · obtain ⟨more, spare⟩ : ∃ more, limit - prices.length = more + 1 := ⟨limit - prices.length - 1, by omega⟩
      rw [if_neg (by simp [kept]), List.filter_cons, if_pos kept, spare, List.take_succ_cons]
      split_ifs with full
      · -- this tip fills the sample
        have last : more = 0 := by rw [List.length_append, List.length_singleton] at full; omega
        simp [last]
      · rw [collectTips_eq ignorePrice limit txs (prices ++ [tip]) (by rw [List.length_append, List.length_singleton] at full ⊢; omega)]
        have left : limit - (prices ++ [tip]).length = more := by
          rw [List.length_append, List.length_singleton]; omega
        rw [left, List.append_assoc, List.singleton_append]
    · rw [if_pos (by simp [kept]), List.filter_cons, if_neg kept]
      exact collectTips_eq ignorePrice limit txs prices room

theorem insertionSort_perm {l l' : List Int} (reordered : l.Perm l') :
    l.insertionSort (· ≤ ·) = l'.insertionSort (· ≤ ·) :=
  List.Perm.eq_of_pairwise' (List.pairwise_insertionSort _ l) (List.pairwise_insertionSort _ l')
    ((List.perm_insertionSort _ l).trans (reordered.trans (List.perm_insertionSort _ l').symm))

theorem filter_insertionSort (p : Int → Bool) (tips : List Int) :
    (tips.insertionSort (· ≤ ·)).filter p = (tips.filter p).insertionSort (· ≤ ·) :=
  List.Perm.eq_of_pairwise' ((List.pairwise_insertionSort _ tips).filter p) (List.pairwise_insertionSort _ _)
    (((List.perm_insertionSort _ tips).filter p).trans (List.perm_insertionSort _ _).symm)

section Spec

variable {ε : Type}

theorem getL2BlockTxsTips_err_eq_none (ignorePrice : Option Int) (limit : Nat) (answer : TxsAnswer ε) :
    (getL2BlockTxsTips ignorePrice limit answer).err = none ↔ (answer.txs = none → answer.err = none) := by
  unfold getL2BlockTxsTips
  cases answer.txs <;> simp

theorem getL2BlockTxsTips_of_txs (ignorePrice : Option Int) {limit : Nat} (positive : 0 < limit)
    {answer : TxsAnswer ε} {tips : List Int} (listed : answer.txs = some tips) :
    getL2BlockTxsTips ignorePrice limit answer = ⟨(lowestTips ignorePrice limit tips).map some, none⟩ := by
  unfold getL2BlockTxsTips
  rw [listed]
  dsimp only
  rw [collectTips_eq _ _ _ [] positive, List.nil_append, List.length_nil,
    Nat.sub_zero, filter_insertionSort, lowestTips]

theorem received_getL2BlockTxsTips (ignorePrice : Option Int) (p : Int) (answer : TxsAnswer ε) :
    (if (getL2BlockTxsTips ignorePrice sampleNumber answer).values.length = 0 then [some p]
      else (getL2BlockTxsTips ignorePrice sampleNumber answer).values) =
      (blockSamples ignorePrice p answer).map some := by
  cases listed : answer.txs with
  | none => simp [getL2BlockTxsTips, blockSamples, listed]
  | some tips =>
    rw [getL2BlockTxsTips_of_txs ignorePrice (by decide) listed, blockSamples, listed, Option.map_some]
    cases lowestTips ignorePrice sampleNumber tips <;> simp

theorem receiveResults_answered (ignorePrice : Option Int) (p : Int) (txsByBlock : Nat → TxsAnswer ε) :
    ∀ (order : List Nat) (results : List (Option Int)),
      (∀ n ∈ order, (txsByBlock n).txs = none → (txsByBlock n).err = none) →
      receiveResults (some p) results (order.map fun n => getL2BlockTxsTips ignorePrice sampleNumber (txsByBlock n)) =
        .ok (results ++ (order.flatMap fun n => blockSamples ignorePrice p (txsByBlock n)).map some)
  | [], results, _ => by simp [receiveResults]
  | n :: order, results, answered => by
    have first := answered n List.mem_cons_self
    rw [List.map_cons, receiveResults, (getL2BlockTxsTips_err_eq_none _ _ _).mpr first]
    dsimp only
    rw [received_getL2BlockTxsTips ignorePrice p _,
      receiveResults_answered ignorePrice p txsByBlock order _ fun m member => answered m (List.mem_cons_of_mem n member)]
    simp [List.flatMap_cons, List.append_assoc]

theorem receiveResults_failed (lastPrice : Option Int) (ignorePrice : Option Int) (txsByBlock : Nat → TxsAnswer ε) :
    ∀ (order : List Nat) (results : List (Option Int)),
      (∃ n ∈ order, (txsByBlock n).txs = none ∧ (txsByBlock n).err ≠ none) →
      ∃ err, receiveResults lastPrice results
        (order.map fun n => getL2BlockTxsTips ignorePrice sampleNumber (txsByBlock n)) = .error err
  | [], results, failed => by simp at failed
  | n :: order, results, failed => by
    rw [List.map_cons, receiveResults]
    cases reported : (getL2BlockTxsTips ignorePrice sampleNumber (txsByBlock n)).err with
    | some err => exact ⟨err, rfl⟩
    | none =>
      -- this block answered, so the failing one comes later
      have answered := (getL2BlockTxsTips_err_eq_none _ _ _).mp reported
      obtain ⟨m, member, failing⟩ := failed
      rcases List.mem_cons.mp member with rfl | later
      · exact absurd (answered failing.1) failing.2
      · exact receiveResults_failed lastPrice ignorePrice txsByBlock order _ ⟨m, later, failing⟩

theorem percentile_index {n : Nat} (positive : 0 < n) {percentile : Int} (nonneg : 0 ≤ percentile)
    (atMost : percentile ≤ 100) :
    (((n : Int) - 1) * percentile).tdiv 100 = (((n - 1) * percentile.toNat / 100 : Nat) : Int) ∧
      (n - 1) * percentile.toNat / 100 < n := by
  have product : ((n : Int) - 1) * percentile = (((n - 1) * percentile.toNat : Nat) : Int) := by
    rw [Nat.cast_mul, Nat.cast_sub positive, Int.toNat_of_nonneg nonneg, Nat.cast_one]
  have scaled : (n - 1) * percentile.toNat ≤ (n - 1) * 100 := Nat.mul_le_mul_left _ (by omega)
  refine ⟨by rw [product, Int.tdiv_eq_ediv_of_nonneg (by omega)]; omega, ?_⟩
  have below : (n - 1) * percentile.toNat / 100 ≤ n - 1 := Nat.div_le_of_le_mul (by omega)
  omega

theorem pickPrice_samples {percentile : Int} (nonneg : 0 ≤ percentile) (atMost : percentile ≤ 100)
    (lastPrice : Option Int) {samples : List Int} (nonempty : samples ≠ []) :
    pickPrice percentile lastPrice (samples.map some) = some (some (percentileOf percentile.toNat samples)) := by
  have positive : 0 < samples.length := List.length_pos_iff.mpr nonempty
  obtain ⟨index, inside⟩ := percentile_index positive nonneg atMost
  have reduced : (samples.map some).reduceOption = samples := by
    change (samples.map some).filterMap id = samples
    simp [List.filterMap_map]
  have sorted : sortPrices (samples.map some) = some ((samples.insertionSort (· ≤ ·)).map some) := by
    simp [sortPrices, reduced]
  have fits : (samples.length - 1) * percentile.toNat / 100 < ((samples.insertionSort (· ≤ ·)).map some).length := by
    rwa [List.length_map, List.length_insertionSort]
  rw [pickPrice, if_pos (by rwa [List.length_map]), List.length_map, sorted, Option.bind_eq_bind, Option.bind_some, index,
    Go.index_of_lt fits, percentileOf, List.getElem_map, List.getD_eq_getElem?_getD,
    List.getElem?_eq_getElem (by rwa [List.length_map] at fits), Option.getD_some]

theorem pickPrice_nil (percentile : Int) (lastPrice : Option Int) :
    pickPrice percentile lastPrice [] = some lastPrice := rfl

theorem storePrice_some (x M : Int) :
    storePrice (some M) (some x) = some (some (min M x), UInt64.ofNat (min M x).natAbs) := by
  by_cases above : M < x
  · simp [storePrice, Go.BigInt.cmp, Go.BigInt.uint64, compare_gt_iff_gt.mpr above, min_eq_left above.le]
  · have kept : compare x M ≠ .gt := fun order => above (compare_gt_iff_gt.mp order)
    simp [storePrice, Go.BigInt.cmp, Go.BigInt.uint64, kept, min_eq_right (not_lt.mp above)]

theorem storePrice_none (maxPrice : Option Int) : storePrice maxPrice none = none := by
  cases maxPrice <;> rfl

variable (cfg : Config) (txsByBlock : Nat → TxsAnswer ε) (schedule : List Nat → List Nat)
  (l2BlockNumber : Nat) (g : LastNL2BlocksGasPrice)

theorem updateGasPriceAvg_of_error (fair : ∀ blocks, (schedule blocks).Perm blocks)
    (moved : l2BlockNumber ≠ g.lastL2BlockNumber) (nonneg : 0 ≤ cfg.checkBlocks)
    (failed : ∃ n ∈ recentBlocks cfg.checkBlocks.toNat g.lastL2BlockNumber,
      (txsByBlock n).txs = none ∧ (txsByBlock n).err ≠ none) :
    updateGasPriceAvg cfg txsByBlock schedule l2BlockNumber g = some (g, none) := by
  obtain ⟨n, member, failing⟩ := failed
  obtain ⟨err, received⟩ := receiveResults_failed g.lastPrice cfg.ignorePrice txsByBlock
    (schedule (recentBlocks cfg.checkBlocks.toNat g.lastL2BlockNumber)) [] ⟨n, (fair _).mem_iff.mpr member, failing⟩
  simp only [updateGasPriceAvg, if_neg moved, if_neg (Int.not_lt.mpr nonneg), sampledBlocks_recentBlocks, received]

theorem updateGasPriceAvg_of_answered (fair : ∀ blocks, (schedule blocks).Perm blocks)
    (moved : l2BlockNumber ≠ g.lastL2BlockNumber) (nonneg : 0 ≤ cfg.checkBlocks)
    (percent : 0 ≤ cfg.percentile ∧ cfg.percentile ≤ 100) {p M : Int} (cached : g.lastPrice = some p)
    (capped : cfg.maxPrice = some M)
    (answered : ∀ n ∈ recentBlocks cfg.checkBlocks.toNat g.lastL2BlockNumber,
      (txsByBlock n).txs = none → (txsByBlock n).err = none) :
    updateGasPriceAvg cfg txsByBlock schedule l2BlockNumber g =
      some (⟨l2BlockNumber, some (windowPrice cfg txsByBlock p M g.lastL2BlockNumber)⟩,
        some (UInt64.ofNat (windowPrice cfg txsByBlock p M g.lastL2BlockNumber).natAbs)) := by
  let samples := (recentBlocks cfg.checkBlocks.toNat g.lastL2BlockNumber).flatMap fun n =>
    blockSamples cfg.ignorePrice p (txsByBlock n)
  -- the results arrive in the scheduler's order: a permutation of the samples
  have reordered : ((schedule (recentBlocks cfg.checkBlocks.toNat g.lastL2BlockNumber)).flatMap fun n =>
      blockSamples cfg.ignorePrice p (txsByBlock n)).Perm samples := (fair _).flatMap_right _
  have received := receiveResults_answered cfg.ignorePrice p txsByBlock
    (schedule (recentBlocks cfg.checkBlocks.toNat g.lastL2BlockNumber)) [] fun n member =>
      answered n ((fair _).mem_iff.mp member)
  rw [List.nil_append] at received
  have picked : pickPrice cfg.percentile (some p)
      (((schedule (recentBlocks cfg.checkBlocks.toNat g.lastL2BlockNumber)).flatMap fun n =>
        blockSamples cfg.ignorePrice p (txsByBlock n)).map some) =
      some (some (if samples = [] then p else percentileOf cfg.percentile.toNat samples)) := by
    by_cases empty : samples = []
    · rw [if_pos empty, List.Perm.eq_nil (reordered.trans (List.Perm.of_eq empty)), List.map_nil, pickPrice_nil]
    · rw [if_neg empty, pickPrice_samples percent.1 percent.2 _ fun arrivedNil => empty
        (List.Perm.nil_eq (arrivedNil ▸ reordered)).symm]
      rw [percentileOf, percentileOf, insertionSort_perm reordered, reordered.length_eq]
  simp only [updateGasPriceAvg, if_neg moved, if_neg (Int.not_lt.mpr nonneg), sampledBlocks_recentBlocks, cached,
    received, picked, capped, storePrice_some, Option.bind_eq_bind, Option.bind_some]
  -- what is left is the definition of `windowPrice`
  rfl

/-- A call that sees a new block, with a cached price, a `MaxPrice` and a
percentile in `[0, 100]`, whatever the order in which the results arrive: where
a sampled block fails, the cache stays as it is; where every sampled block
answers, the cache moves to the new block with the capped percentile of the
samples. -/
theorem updateGasPriceAvg_spec (fair : ∀ blocks, (schedule blocks).Perm blocks)
    (moved : l2BlockNumber ≠ g.lastL2BlockNumber) (nonneg : 0 ≤ cfg.checkBlocks)
    (percent : 0 ≤ cfg.percentile ∧ cfg.percentile ≤ 100) {p M : Int} (cached : g.lastPrice = some p)
    (capped : cfg.maxPrice = some M) :
    ((∃ n ∈ recentBlocks cfg.checkBlocks.toNat g.lastL2BlockNumber,
        (txsByBlock n).txs = none ∧ (txsByBlock n).err ≠ none) →
      updateGasPriceAvg cfg txsByBlock schedule l2BlockNumber g = some (g, none)) ∧
    ((∀ n ∈ recentBlocks cfg.checkBlocks.toNat g.lastL2BlockNumber,
        (txsByBlock n).txs = none → (txsByBlock n).err = none) →
      updateGasPriceAvg cfg txsByBlock schedule l2BlockNumber g =
        some (⟨l2BlockNumber, some (windowPrice cfg txsByBlock p M g.lastL2BlockNumber)⟩,
          some (UInt64.ofNat (windowPrice cfg txsByBlock p M g.lastL2BlockNumber).natAbs))) :=
  ⟨updateGasPriceAvg_of_error cfg txsByBlock schedule l2BlockNumber g fair moved nonneg,
    updateGasPriceAvg_of_answered cfg txsByBlock schedule l2BlockNumber g fair moved nonneg percent cached capped⟩

/-- Blocks 4, 2 and 1 with the tips 100, 7 and 5. -/
def windowTxs (n : Nat) : TxsAnswer Unit :=
  if n = 4 then ⟨some [100], none⟩ else if n = 2 then ⟨some [7], none⟩ else ⟨some [5], none⟩

/-- From block 2 to block 4 the window is blocks 2 and 1: the tip 100 of block 4
is not sampled. -/
theorem updateGasPriceAvg_spec_window :
    ((∃ n ∈ recentBlocks 5 2, (windowTxs n).txs = none ∧ (windowTxs n).err ≠ none) →
        updateGasPriceAvg ⟨some 1000, none, 5, 50⟩ windowTxs id 4 ⟨2, some 10⟩ = some (⟨2, some 10⟩, none)) ∧
      ((∀ n ∈ recentBlocks 5 2, (windowTxs n).txs = none → (windowTxs n).err = none) →
        updateGasPriceAvg ⟨some 1000, none, 5, 50⟩ windowTxs id 4 ⟨2, some 10⟩ = some (⟨4, some 5⟩, some 5)) :=
  updateGasPriceAvg_spec ⟨some 1000, none, 5, 50⟩ windowTxs id 4 ⟨2, some 10⟩ (fun _ => List.Perm.refl _)
    (by decide) (by decide) ⟨by decide, by decide⟩ rfl rfl

theorem updateGasPriceAvg_new (fair : (schedule []).Perm []) (moved : l2BlockNumber ≠ 0) :
    updateGasPriceAvg cfg txsByBlock schedule l2BlockNumber newLastNL2BlocksGasPriceSuggester = none := by
  by_cases negative : cfg.checkBlocks < 0
  · simp only [updateGasPriceAvg, newLastNL2BlocksGasPriceSuggester, if_neg moved, if_pos negative]
  · have nothing : schedule (sampledBlocks cfg.checkBlocks 0 0) = [] := List.Perm.eq_nil fair
    simp only [updateGasPriceAvg, newLastNL2BlocksGasPriceSuggester, if_neg moved, if_neg negative, nothing,
      List.map_nil, receiveResults, pickPrice_nil, storePrice_none, Option.bind_eq_bind, Option.bind_some,
      Option.bind_none]

/-- The update loop from `newLastNL2BlocksGasPriceSuggester`: the state stays
the initial one while every call sees block zero, and the first call that sees
another block panics. -/
theorem run_callStep_new (cfg : Config) :
    ∀ calls : List (Call ε), (∀ call ∈ calls, ∀ blocks, (call.schedule blocks).Perm blocks) →
      Machine.run (callStep cfg) newLastNL2BlocksGasPriceSuggester calls =
        if ∀ call ∈ calls, call.l2BlockNumber = 0 then some newLastNL2BlocksGasPriceSuggester else none
  | [], _ => by simp
  | call :: calls, fair => by
    rw [Machine.run_cons]
    by_cases zero : call.l2BlockNumber = 0
    · -- the block number is the cached one, so the call returns at once
      have same : callStep cfg newLastNL2BlocksGasPriceSuggester call = some newLastNL2BlocksGasPriceSuggester := by
        simp [callStep, updateGasPriceAvg, newLastNL2BlocksGasPriceSuggester, zero]
      rw [same, Option.bind_some, run_callStep_new cfg calls fun c member => fair c (List.mem_cons_of_mem call member)]
      simp [zero]
    · have panics : callStep cfg newLastNL2BlocksGasPriceSuggester call = none := by
        rw [callStep, updateGasPriceAvg_new cfg _ _ _ (fair call List.mem_cons_self []) zero, Option.map_none]
      rw [panics, Option.bind_none, if_neg fun all => zero (all call List.mem_cons_self)]

theorem run_callStep_new_sample :
    Machine.run (callStep (ε := Unit) ⟨some 1000, none, 5, 50⟩) newLastNL2BlocksGasPriceSuggester
      [⟨0, fun _ => ⟨some [], none⟩, id⟩, ⟨1, fun _ => ⟨some [7], none⟩, id⟩] = none := by
  rw [run_callStep_new _ _ fun call member blocks => by
    simp only [List.mem_cons, List.mem_nil_iff, or_false] at member
    rcases member with rfl | rfl <;> exact List.Perm.refl blocks]
  decide

end Spec

end ZkevmNode.Gasprice
