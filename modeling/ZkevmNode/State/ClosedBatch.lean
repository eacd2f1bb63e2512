import ZkevmNode.Lib.Loop
import ZkevmNode.Go.Bytes
import Mathlib

set_option autoImplicit false

/-! `State.ProcessAndStoreClosedBatch` (`state/batch.go`) between the executor's
answer and the storing of the batch: a loop removes the unprocessed transactions
from the executor's responses and, at the same index, from the decoded
transactions, and `convertToProcessBatchResponse` (`state/converters.go`) then
converts each remaining response with the transaction at its index. Both slices
are the two projections of one list of pairs: the loop's state at index `i` is
the pairs it kept, followed by the pairs it has not looked at yet. -/

namespace ZkevmNode.Executor

/-- `ROM_ERROR_OUT_OF_COUNTERS_STEP`. -/
def romErrorOutOfCountersStep : Int32 := 8

/-- `ROM_ERROR_OUT_OF_COUNTERS_POSEIDON`. -/
def romErrorOutOfCountersPoseidon : Int32 := 14

/-- `ROM_ERROR_INTRINSIC_INVALID_SIGNATURE`. -/
def romErrorIntrinsicInvalidSignature : Int32 := 19

/-- `ROM_ERROR_INTRINSIC_TX_GAS_OVERFLOW`. -/
def romErrorIntrinsicTxGasOverflow : Int32 := 26

/-- `EXECUTOR_ERROR_NO_ERROR`. -/
def executorErrorNoError : Int32 := 1

/-- `executor.IsROMOutOfCountersError`. -/
def isROMOutOfCountersError (error : Int32) : Bool :=
  decide (romErrorOutOfCountersStep ≤ error) && decide (error ≤ romErrorOutOfCountersPoseidon)

/-- `executor.IsIntrinsicError`. -/
def isIntrinsicError (error : Int32) : Bool :=
  decide (romErrorIntrinsicInvalidSignature ≤ error) &&
    decide (error ≤ romErrorIntrinsicTxGasOverflow)

/-- A `pb.ProcessTransactionResponse`: its ROM error, its execution trace, and
its other fields (hash, type, return value, gas, logs, call trace, RLP), which
the conversion copies. -/
structure ProcessTransactionResponse (X P : Type) where
  error : Int32
  executionTrace : X
  fields : P
deriving DecidableEq, Repr

/-- A `pb.ProcessBatchResponse`: its executor error, its transaction responses
and its read and write addresses. The roots and counters, which are copied, are
left out. -/
structure ProcessBatchResponse (X P W : Type) where
  error : Int32
  responses : List (ProcessTransactionResponse X P)
  readWriteAddresses : W
deriving DecidableEq, Repr

end ZkevmNode.Executor

namespace ZkevmNode.State

open Executor Go

/-- `isProcessed`. -/
def isProcessed (error : Int32) : Bool :=
  !isIntrinsicError error && !isROMOutOfCountersError error

theorem isProcessed_of_outOfCounters {error : Int32} (outOfCounters : isROMOutOfCountersError error = true) :
    isProcessed error = false := by
  simp [isProcessed, outOfCounters]

/-- A `state.ProcessTransactionResponse`: the copied fields, the ROM error,
whether the transaction was processed, the converted execution trace, and the
transaction. -/
structure ProcessTransactionResponse (Y P T : Type) where
  fields : P
  romError : Int32
  isProcessed : Bool
  executionTrace : Y
  tx : T
deriving DecidableEq, Repr

/-- A `state.ProcessBatchResponse` without the roots and counters. -/
structure ProcessBatchResponse (Y P T V : Type) where
  responses : List (ProcessTransactionResponse Y P T)
  executorError : Int32
  isBatchProcessed : Bool
  readWriteAddresses : V
deriving DecidableEq, Repr

section Filter

variable {X P T : Type}

/-- The filtering loop of `ProcessAndStoreClosedBatch` from index `i` on, on
`fuel` rounds. The slices of `processed.Responses` are in range by the loop's
condition; those of `decodedTransactions` panic past its end. -/
def filterUnprocessedLoop : Nat → Nat → List (Executor.ProcessTransactionResponse X P) → List T →
    Outcome (List (Executor.ProcessTransactionResponse X P) × List T)
  | 0, _, _, _ => .outOfFuel
  | fuel + 1, i, responses, decodedTransactions =>
    if h : i < responses.length then
      if !isProcessed responses[i].error then
        if isROMOutOfCountersError responses[i].error then .returns ([], decodedTransactions)
        -- both removals end with i--, which the loop's i++ undoes
        else if i = responses.length - 1 then
          match slice decodedTransactions 0 i with
          | some txs => filterUnprocessedLoop fuel i (responses.take i) txs
          | none => .panics
        else
          match slice decodedTransactions 0 i,
              slice decodedTransactions (i + 1) decodedTransactions.length with
          | some front, some back =>
            filterUnprocessedLoop fuel i (responses.take i ++ responses.drop (i + 1)) (front ++ back)
          | _, _ => .panics
      else filterUnprocessedLoop fuel (i + 1) responses decodedTransactions
    else .returns (responses, decodedTransactions)

/-- The filtering loop from index 0: a round for each response, and one in
which the condition fails. -/
def filterUnprocessed (responses : List (Executor.ProcessTransactionResponse X P))
    (decodedTransactions : List T) :
    Outcome (List (Executor.ProcessTransactionResponse X P) × List T) :=
  filterUnprocessedLoop (responses.length + 1) 0 responses decodedTransactions

theorem filterUnprocessedLoop_exit (fuel : Nat) (kept : List (Executor.ProcessTransactionResponse X P × T)) :
    filterUnprocessedLoop (fuel + 1) kept.length (kept.map Prod.fst) (kept.map Prod.snd) =
      .returns (kept.map Prod.fst, kept.map Prod.snd) := by
  simp [filterUnprocessedLoop]

theorem filterUnprocessedLoop_keep (fuel : Nat) (kept rest : List (Executor.ProcessTransactionResponse X P × T))
    {response : Executor.ProcessTransactionResponse X P} {tx : T}
    (processed : isProcessed response.error = true) :
    filterUnprocessedLoop (fuel + 1) kept.length ((kept ++ (response, tx) :: rest).map Prod.fst)
        ((kept ++ (response, tx) :: rest).map Prod.snd) =
      filterUnprocessedLoop fuel (kept ++ [(response, tx)]).length
        ((kept ++ [(response, tx)] ++ rest).map Prod.fst)
        ((kept ++ [(response, tx)] ++ rest).map Prod.snd) := by
  simp [filterUnprocessedLoop, List.getElem_append_right, processed]

theorem filterUnprocessedLoop_break (fuel : Nat) (kept rest : List (Executor.ProcessTransactionResponse X P × T))
    {response : Executor.ProcessTransactionResponse X P} {tx : T}
    (outOfCounters : isROMOutOfCountersError response.error = true) :
    filterUnprocessedLoop (fuel + 1) kept.length ((kept ++ (response, tx) :: rest).map Prod.fst)
        ((kept ++ (response, tx) :: rest).map Prod.snd) =
      .returns ([], (kept ++ (response, tx) :: rest).map Prod.snd) := by
  simp [filterUnprocessedLoop, List.getElem_append_right, outOfCounters,
    isProcessed_of_outOfCounters outOfCounters]

theorem filterUnprocessedLoop_remove (fuel : Nat) (kept rest : List (Executor.ProcessTransactionResponse X P × T))
    {response : Executor.ProcessTransactionResponse X P} {tx : T}
    (unprocessed : isProcessed response.error = false)
    (counted : isROMOutOfCountersError response.error = false) :
    filterUnprocessedLoop (fuel + 1) kept.length ((kept ++ (response, tx) :: rest).map Prod.fst)
        ((kept ++ (response, tx) :: rest).map Prod.snd) =
      filterUnprocessedLoop fuel kept.length ((kept ++ rest).map Prod.fst)
        ((kept ++ rest).map Prod.snd) := by
  have front : slice (kept.map Prod.snd ++ tx :: rest.map Prod.snd) 0 kept.length =
      some (kept.map Prod.snd) :=
    slice_middle [] (kept.map Prod.snd) (tx :: rest.map Prod.snd) (by simp) rfl (by simp)
  simp only [filterUnprocessedLoop, List.map_append, List.map_cons, List.length_append, List.length_map,
    List.length_cons, lt_add_iff_pos_right, Order.lt_add_one_iff, zero_le, ↓reduceDIte, Std.le_refl,
    List.getElem_append_right, tsub_self, List.getElem_cons_zero, unprocessed, Bool.not_false, ↓reduceIte, counted,
    Bool.false_eq_true, Nat.add_succ_sub_one, Nat.left_eq_add, List.length_eq_zero_iff, front, List.take_left']
  split_ifs with last
  · simp [last]
  · have back : slice (kept.map Prod.snd ++ tx :: rest.map Prod.snd) (kept.length + 1)
        (kept.length + (rest.length + 1)) = some (rest.map Prod.snd) :=
      slice_middle (kept.map Prod.snd ++ [tx]) (rest.map Prod.snd) [] (by simp) (by simp) (by simp; omega)
    simp [back, List.drop_append, List.drop_eq_nil_of_le]

theorem filterUnprocessedLoop_filter (rest : List (Executor.ProcessTransactionResponse X P × T)) :
    ∀ (kept : List (Executor.ProcessTransactionResponse X P × T)) (fuel : Nat),
      (∀ pair ∈ rest, isROMOutOfCountersError pair.1.error = false) → rest.length < fuel →
      filterUnprocessedLoop fuel kept.length ((kept ++ rest).map Prod.fst) ((kept ++ rest).map Prod.snd) =
        .returns ((kept ++ rest.filter fun pair => isProcessed pair.1.error).map Prod.fst,
          (kept ++ rest.filter fun pair => isProcessed pair.1.error).map Prod.snd) := by
  induction rest with
  | nil =>
    intro kept fuel _ enough
    obtain ⟨fuel, rfl⟩ := Nat.exists_eq_add_of_lt enough
    simpa using filterUnprocessedLoop_exit (0 + fuel) kept
  | cons pair rest ih =>
    intro kept fuel counted enough
    obtain ⟨response, tx⟩ := pair
    obtain ⟨fuel, rfl⟩ : ∃ fuel', fuel = fuel' + 1 := ⟨fuel - 1, by simp at enough; omega⟩
    have restCounted : ∀ pair ∈ rest, isROMOutOfCountersError pair.1.error = false :=
      fun pair member => counted pair (List.mem_cons_of_mem _ member)
    have restEnough : rest.length < fuel := by simp at enough; omega
    cases processed : isProcessed response.error with
    | true =>
      rw [filterUnprocessedLoop_keep fuel kept rest processed,
        ih (kept ++ [(response, tx)]) fuel restCounted restEnough]
      simp [processed]
    | false =>
      rw [filterUnprocessedLoop_remove fuel kept rest processed (counted (response, tx) List.mem_cons_self),
        ih kept fuel restCounted restEnough]
      simp [processed]

theorem filterUnprocessedLoop_outOfCounters (rest : List (Executor.ProcessTransactionResponse X P × T)) :
    ∀ (kept : List (Executor.ProcessTransactionResponse X P × T)) (fuel : Nat),
      (∃ pair ∈ rest, isROMOutOfCountersError pair.1.error = true) → rest.length < fuel →
      ∃ txs, filterUnprocessedLoop fuel kept.length ((kept ++ rest).map Prod.fst)
        ((kept ++ rest).map Prod.snd) = .returns ([], txs) := by
  induction rest with
  | nil =>
    intro kept fuel present _
    simp at present
  | cons pair rest ih =>
    intro kept fuel present enough
    obtain ⟨response, tx⟩ := pair
    obtain ⟨fuel, rfl⟩ : ∃ fuel', fuel = fuel' + 1 := ⟨fuel - 1, by simp at enough; omega⟩
    have restEnough : rest.length < fuel := by simp at enough; omega
    cases outOfCounters : isROMOutOfCountersError response.error with
    | true => exact ⟨_, filterUnprocessedLoop_break fuel kept rest outOfCounters⟩
    | false =>
      -- the out-of-counters response is further on
      have later : ∃ pair ∈ rest, isROMOutOfCountersError pair.1.error = true := by
        obtain ⟨found, member, found_outOfCounters⟩ := present
        rcases List.mem_cons.mp member with rfl | member
        · simp [outOfCounters] at found_outOfCounters
        · exact ⟨found, member, found_outOfCounters⟩
      cases processed : isProcessed response.error with
      | true =>
        rw [filterUnprocessedLoop_keep fuel kept rest processed]
        exact ih (kept ++ [(response, tx)]) fuel later restEnough
      | false =>
        rw [filterUnprocessedLoop_remove fuel kept rest processed outOfCounters]
        exact ih kept fuel later restEnough

section Aligned

variable {responses : List (Executor.ProcessTransactionResponse X P)} {decodedTransactions : List T}

theorem filterUnprocessed_eq_loop (sameLength : responses.length = decodedTransactions.length) :
    filterUnprocessed responses decodedTransactions =
      filterUnprocessedLoop ((responses.zip decodedTransactions).length + 1) 0
        ((responses.zip decodedTransactions).map Prod.fst)
        ((responses.zip decodedTransactions).map Prod.snd) := by
  rw [List.map_fst_zip (by omega), List.map_snd_zip (by omega)]
  simp [filterUnprocessed, sameLength]

theorem filterUnprocessed_filter (sameLength : responses.length = decodedTransactions.length)
    (counted : ∀ response ∈ responses, isROMOutOfCountersError response.error = false) :
    filterUnprocessed responses decodedTransactions =
      .returns (((responses.zip decodedTransactions).filter fun pair => isProcessed pair.1.error).map Prod.fst,
        ((responses.zip decodedTransactions).filter fun pair => isProcessed pair.1.error).map Prod.snd) := by
  have pairsCounted : ∀ pair ∈ responses.zip decodedTransactions,
      isROMOutOfCountersError pair.1.error = false := by
    rintro ⟨response, tx⟩ member
    exact counted response (List.of_mem_zip member).1
  have loop := filterUnprocessedLoop_filter (responses.zip decodedTransactions) []
    ((responses.zip decodedTransactions).length + 1) pairsCounted (by omega)
  rw [filterUnprocessed_eq_loop sameLength]
  simpa using loop

theorem filterUnprocessed_outOfCounters (sameLength : responses.length = decodedTransactions.length)
    (present : ∃ response ∈ responses, isROMOutOfCountersError response.error = true) :
    ∃ txs, filterUnprocessed responses decodedTransactions = .returns ([], txs) := by
  have pairsPresent : ∃ pair ∈ responses.zip decodedTransactions,
      isROMOutOfCountersError pair.1.error = true := by
    obtain ⟨response, member, outOfCounters⟩ := present
    have fsts : (responses.zip decodedTransactions).map Prod.fst = responses :=
      List.map_fst_zip (by omega)
    rw [← fsts] at member
    obtain ⟨pair, inZip, rfl⟩ := List.mem_map.mp member
    exact ⟨pair, inZip, outOfCounters⟩
  have loop := filterUnprocessedLoop_outOfCounters (responses.zip decodedTransactions) []
    ((responses.zip decodedTransactions).length + 1) pairsPresent (by omega)
  rw [filterUnprocessed_eq_loop sameLength]
  simpa using loop

end Aligned

end Filter

section Convert

variable {X Y P T W V ε : Type} (convertToStructLogArray : X → Except ε Y)

/-- The loop of `convertToProcessTransactionResponse` from index `i` on: the
trace's conversion may fail, and then the transaction at the response's index is
read, which panics past the end of `txs`. -/
def convertToProcessTransactionResponseLoop (txs : List T) :
    Nat → List (Executor.ProcessTransactionResponse X P) →
      Option (Except ε (List (ProcessTransactionResponse Y P T)))
  | _, [] => some (.ok [])
  | i, response :: responses =>
    match convertToStructLogArray response.executionTrace with
    | .error err => some (.error err)
    | .ok trace =>
      match txs[i]? with
      | some tx =>
        (convertToProcessTransactionResponseLoop txs (i + 1) responses).map
          (Except.map fun results =>
            ⟨response.fields, response.error, isProcessed response.error, trace, tx⟩ :: results)
      | none => none

/-- `convertToProcessTransactionResponse`; `none` is a panic. -/
def convertToProcessTransactionResponse (txs : List T)
    (responses : List (Executor.ProcessTransactionResponse X P)) :
    Option (Except ε (List (ProcessTransactionResponse Y P T))) :=
  convertToProcessTransactionResponseLoop convertToStructLogArray txs 0 responses

/-- A response converted with a given transaction. -/
def convertedResponse (pair : Executor.ProcessTransactionResponse X P × T) :
    Except ε (ProcessTransactionResponse Y P T) :=
  (convertToStructLogArray pair.1.executionTrace).map fun trace =>
    ⟨pair.1.fields, pair.1.error, isProcessed pair.1.error, trace, pair.2⟩

theorem convertedResponse_error {response : Executor.ProcessTransactionResponse X P} {err : ε}
    (failed : convertToStructLogArray response.executionTrace = .error err) (tx : T) :
    convertedResponse (Y := Y) convertToStructLogArray (response, tx) = .error err := by
  simp [convertedResponse, failed, Except.map]

theorem convertedResponse_ok {response : Executor.ProcessTransactionResponse X P} {trace : Y}
    (converted : convertToStructLogArray response.executionTrace = .ok trace) (tx : T) :
    convertedResponse convertToStructLogArray (response, tx) =
      .ok ⟨response.fields, response.error, isProcessed response.error, trace, tx⟩ := by
  simp [convertedResponse, converted, Except.map]

theorem convertToProcessTransactionResponseLoop_pairs
    (pairs : List (Executor.ProcessTransactionResponse X P × T)) :
    ∀ before : List T,
      convertToProcessTransactionResponseLoop convertToStructLogArray
          (before ++ pairs.map Prod.snd) before.length (pairs.map Prod.fst) =
        some (pairs.mapM (convertedResponse convertToStructLogArray)) := by
  induction pairs with
  | nil => intro before; rfl
  | cons pair pairs ih =>
    intro before
    obtain ⟨response, tx⟩ := pair
    have next := ih (before ++ [tx])
    simp only [List.append_assoc, List.singleton_append, List.length_append,
      List.length_singleton] at next
    have found : (before ++ tx :: pairs.map Prod.snd)[before.length]? = some tx := by simp
    cases converted : convertToStructLogArray response.executionTrace with
    | error err =>
      rw [List.mapM_cons, convertedResponse_error convertToStructLogArray converted]
      simp only [List.map_cons, convertToProcessTransactionResponseLoop, converted]
      rfl
    | ok trace =>
      rw [List.mapM_cons, convertedResponse_ok convertToStructLogArray converted]
      simp only [List.map_cons, convertToProcessTransactionResponseLoop, converted, found, next]
      cases pairs.mapM (convertedResponse convertToStructLogArray) <;> rfl

section Batch

variable (convertToReadWriteAddresses : W → Except ε V)

/-- `convertToProcessBatchResponse`; `none` is a panic. -/
def convertToProcessBatchResponse (txs : List T) (response : Executor.ProcessBatchResponse X P W) :
    Option (Except ε (ProcessBatchResponse Y P T V)) :=
  (convertToProcessTransactionResponse convertToStructLogArray txs response.responses).map
    fun converted => do
      let responses ← converted
      let readWriteAddresses ← convertToReadWriteAddresses response.readWriteAddresses
      let isBatchProcessed := response.error == executorErrorNoError
      -- with no executor error, the last response's error decides
      let isBatchProcessed :=
        match isBatchProcessed, response.responses.getLast? with
        | true, some last => !isROMOutOfCountersError last.error
        | _, _ => isBatchProcessed
      pure ⟨responses, response.error, isBatchProcessed, readWriteAddresses⟩

/-- `ProcessAndStoreClosedBatch` from the filtering loop to
`convertToProcessBatchResponse`: the batch response whose transaction responses
it stores. -/
def closedBatchResponse (processed : Executor.ProcessBatchResponse X P W)
    (decodedTransactions : List T) : Outcome (Except ε (ProcessBatchResponse Y P T V)) :=
  match filterUnprocessed processed.responses decodedTransactions with
  | .returns (responses, txs) =>
    match convertToProcessBatchResponse convertToStructLogArray convertToReadWriteAddresses txs
        { processed with responses := responses } with
    | some result => .returns result
    | none => .panics
  | .panics => .panics
  | .outOfFuel => .outOfFuel

theorem closedBatchResponse_of_filtered {processed : Executor.ProcessBatchResponse X P W}
    {decodedTransactions txs : List T} {responses : List (Executor.ProcessTransactionResponse X P)}
    {converted : Except ε (List (ProcessTransactionResponse Y P T))}
    (filtered : filterUnprocessed processed.responses decodedTransactions = .returns (responses, txs))
    (paired : convertToProcessTransactionResponse convertToStructLogArray txs responses = some converted) :
    ∃ result, closedBatchResponse convertToStructLogArray convertToReadWriteAddresses processed
        decodedTransactions = .returns result ∧
      ∀ batch, result = .ok batch → converted = .ok batch.responses := by
  simp only [closedBatchResponse, filtered, convertToProcessBatchResponse, paired, Option.map_some]
  refine ⟨_, rfl, ?_⟩
  intro batch stored
  cases converted with
  | error err => cases stored
  | ok results =>
    cases addresses : convertToReadWriteAddresses processed.readWriteAddresses with
    | error err =>
      simp only [addresses] at stored
      cases stored
    | ok readWriteAddresses =>
      simp only [addresses] at stored
      cases stored
      rfl

/-- The filtering keeps each response with the transaction it came with: with no
out-of-counters response, the two slices end as the projections of the
processed pairs, in their order, and each stored response is converted with its
own transaction; with one, no response is left. Neither case panics. -/
theorem closedBatchResponse_aligned (processed : Executor.ProcessBatchResponse X P W)
    (decodedTransactions : List T)
    (sameLength : processed.responses.length = decodedTransactions.length) :
    let kept := (processed.responses.zip decodedTransactions).filter fun pair =>
      isProcessed pair.1.error
    ((∀ response ∈ processed.responses, isROMOutOfCountersError response.error = false) →
      filterUnprocessed processed.responses decodedTransactions =
        .returns (kept.map Prod.fst, kept.map Prod.snd) ∧
      ∃ result, closedBatchResponse convertToStructLogArray convertToReadWriteAddresses processed
          decodedTransactions = .returns result ∧
        ∀ batch, result = .ok batch →
          kept.mapM (convertedResponse convertToStructLogArray) = .ok batch.responses) ∧
    ((∃ response ∈ processed.responses, isROMOutOfCountersError response.error = true) →
      (∃ txs, filterUnprocessed processed.responses decodedTransactions = .returns ([], txs)) ∧
      ∃ result, closedBatchResponse convertToStructLogArray convertToReadWriteAddresses processed
          decodedTransactions = .returns result ∧
        ∀ batch, result = .ok batch → batch.responses = []) := by
  intro kept
  constructor
  · intro counted
    have filtered := filterUnprocessed_filter sameLength counted
    have paired := convertToProcessTransactionResponseLoop_pairs convertToStructLogArray kept []
    exact ⟨filtered, closedBatchResponse_of_filtered convertToStructLogArray
      convertToReadWriteAddresses filtered paired⟩
  · intro present
    obtain ⟨txs, filtered⟩ := filterUnprocessed_outOfCounters sameLength present
    have paired : convertToProcessTransactionResponse convertToStructLogArray txs [] =
        some (.ok ([] : List (ProcessTransactionResponse Y P T))) := rfl
    obtain ⟨result, returned, stored⟩ := closedBatchResponse_of_filtered convertToStructLogArray
      convertToReadWriteAddresses filtered paired
    refine ⟨⟨txs, filtered⟩, result, returned, fun batch ok => ?_⟩
    injection stored batch ok with empty
    exact empty.symm

def nonceFailureBatch : Executor.ProcessBatchResponse Unit Nat Unit :=
  ⟨executorErrorNoError, [⟨1, (), 0⟩, ⟨21, (), 1⟩, ⟨1, (), 2⟩], ()⟩

theorem closedBatchResponse_aligned_nonceFailure :
    (∀ response ∈ nonceFailureBatch.responses, isROMOutOfCountersError response.error = false) ∧
      filterUnprocessed nonceFailureBatch.responses [10, 11, 12] =
        .returns ([⟨1, (), 0⟩, ⟨1, (), 2⟩], [10, 12]) := by
  have counted : ∀ response ∈ nonceFailureBatch.responses,
      isROMOutOfCountersError response.error = false := by decide
  have aligned := closedBatchResponse_aligned (fun _ => (.ok () : Except Unit Unit))
    (fun _ => (.ok () : Except Unit Unit)) nonceFailureBatch ([10, 11, 12] : List Nat) rfl
  refine ⟨counted, (aligned.1 counted).1.trans ?_⟩
  decide

end Batch

end Convert

end ZkevmNode.State
