import ZkevmNode.Encoding.Decode

set_option autoImplicit false

/-! The block and batch numbers of the JSON-RPC requests (`jsonrpc/types/codec.go`).
A `BlockNumber` is an `int64` whose negative values are the tags; a number is
parsed as a `uint64` and converted to `int64`, which wraps from `2^63` on. -/

namespace ZkevmNode

open Go Encoding

namespace Hex

/-- `hex.EncodeUint64`: `0x` and the lowercase hexadecimal digits. -/
def encodeUint64 (i : UInt64) : List Char := ['0', 'x'] ++ text 16 i.toNat

end Hex

namespace Jsonrpc.Types

/-- `BlockNumber`, an `int64`. -/
structure BlockNumber where
  toInt64 : Int64
deriving DecidableEq, Repr

/-- `BatchNumber`, an `int64`. -/
structure BatchNumber where
  toInt64 : Int64
deriving DecidableEq, Repr

def pendingBlockNumber : BlockNumber := ⟨-3⟩
def latestBlockNumber : BlockNumber := ⟨-2⟩
def earliestBlockNumber : BlockNumber := ⟨-1⟩
def safeBlockNumber : BlockNumber := ⟨-4⟩
def finalizedBlockNumber : BlockNumber := ⟨-5⟩

def latestBatchNumber : BatchNumber := ⟨-2⟩
def earliestBatchNumber : BatchNumber := ⟨-1⟩

def earliest : List Char := "earliest".toList
def latest : List Char := "latest".toList
def pending : List Char := "pending".toList
def safe : List Char := "safe".toList
def finalized : List Char := "finalized".toList

/-- The double quote, the cutset of the `strings.Trim` of a number. -/
def quote : Char := Char.ofNat 34

/-- `strings.Trim` with the double quote as cutset: the quotes at the front,
then those at the back, removed. -/
def trimQuotes (str : List Char) : List Char :=
  ((str.dropWhile (· == quote)).reverse.dropWhile (· == quote)).reverse

/-- `StringToBlockNumber`. -/
def stringToBlockNumber (str : List Char) : Except NumError BlockNumber :=
  let str := trimQuotes str
  if str = earliest then .ok earliestBlockNumber
  else if str = pending then .ok pendingBlockNumber
  else if str = latest ∨ str = [] then .ok latestBlockNumber
  else if str = safe then .ok safeBlockNumber
  else if str = finalized then .ok finalizedBlockNumber
  -- `BlockNumber(n)` of the `uint64`
  else (decodeUint64orHex (some str)).map fun n => ⟨(UInt64.ofNat n).toInt64⟩

/-- `stringToBatchNumber`. -/
def stringToBatchNumber (str : List Char) : Except NumError BatchNumber :=
  let str := trimQuotes str
  if str = earliest then .ok earliestBatchNumber
  else if str = latest ∨ str = [] then .ok latestBatchNumber
  else (decodeUint64orHex (some str)).map fun n => ⟨(UInt64.ofNat n).toInt64⟩

/-- `BlockNumber.StringOrHex`: the tag's name, or `hex.EncodeUint64(uint64(b))`. -/
def stringOrHex (b : BlockNumber) : List Char :=
  if b = earliestBlockNumber then earliest
  else if b = pendingBlockNumber then pending
  else if b = latestBlockNumber then latest
  else if b = safeBlockNumber then safe
  else if b = finalizedBlockNumber then finalized
  else Hex.encodeUint64 b.toInt64.toUInt64

/-- `rpcError`: the code and the message. -/
structure RPCError where
  code : Int
  message : List Char
deriving DecidableEq, Repr

def defaultErrorCode : Int := -32000
def invalidParamsErrorCode : Int := -32602

/-- What the state answers to the three queries `GetNumericBlockNumber` may
make, `none` for an error. -/
structure BlockQueries where
  lastL2BlockNumber : Option UInt64
  lastVirtualizedL2BlockNumber : Option UInt64
  lastConsolidatedL2BlockNumber : Option UInt64
deriving DecidableEq, Repr

/-- `BlockNumber.GetNumericBlockNumber`, a nil block number meaning `latest`. -/
def getNumericBlockNumber (b : Option BlockNumber) (s : BlockQueries) : Except RPCError UInt64 :=
  let bValue := b.getD latestBlockNumber
  if bValue = latestBlockNumber ∨ bValue = pendingBlockNumber then
    match s.lastL2BlockNumber with
    | some n => .ok n
    | none => .error ⟨defaultErrorCode, "failed to get the last block number from state".toList⟩
  else if bValue = earliestBlockNumber then .ok 0
  else if bValue = safeBlockNumber then
    match s.lastVirtualizedL2BlockNumber with
    | some n => .ok n
    | none => .error ⟨defaultErrorCode, "failed to get the last virtualized block number from state".toList⟩
  else if bValue = finalizedBlockNumber then
    match s.lastConsolidatedL2BlockNumber with
    | some n => .ok n
    | none => .error ⟨defaultErrorCode, "failed to get the last verified block number from state".toList⟩
  else if bValue.toInt64 < 0 then
    .error ⟨invalidParamsErrorCode, "invalid block number: ".toList ++ (toString bValue.toInt64.toInt).toList⟩
  else .ok bValue.toInt64.toUInt64

theorem toInt_toInt64_ofNat {n : Nat} (fits : n < 2 ^ 64) :
    (UInt64.ofNat n).toInt64.toInt = if n < 2 ^ 63 then (n : Int) else n - 2 ^ 64 := by
  rw [UInt64.toInt64_ofNat', Int64.toInt_ofNat', Int.bmod_def]
  simp only [Int64.size]
  split_ifs <;> omega

theorem dropWhile_quote {s : List Char} (unquoted : ∀ c ∈ s, c ≠ quote) : s.dropWhile (· == quote) = s := by
  cases s with
  | nil => rfl
  | cons c rest => rw [List.dropWhile_cons_of_neg (by simpa using unquoted c List.mem_cons_self)]

theorem trimQuotes_of_unquoted {s : List Char} (unquoted : ∀ c ∈ s, c ≠ quote) : trimQuotes s = s := by
  rw [trimQuotes, dropWhile_quote unquoted,
    dropWhile_quote fun c member => unquoted c (List.mem_reverse.mp member), List.reverse_reverse]

theorem trimQuotes_numeral {s : List Char} {n : Nat} (numeral : Numeral s n) : trimQuotes s = s := by
  refine trimQuotes_of_unquoted fun c member quoted => ?_
  rcases numeral.mem c member with digit | ex
  · rw [quoted] at digit
    exact absurd digit (by decide)
  · rw [quoted] at ex
    exact absurd ex (by decide)

theorem map_rangeChecked {β : Type} (n : Nat) (f : Nat → β) :
    (if n < 2 ^ 64 then Except.ok n else .error NumError.errRange).map f =
      if n < 2 ^ 64 then .ok (f n) else .error .errRange := by
  split_ifs <;> rfl

theorem stringToBlockNumber_numeral {s : List Char} {n : Nat} (numeral : Numeral s n) :
    stringToBlockNumber s = if n < 2 ^ 64 then .ok ⟨(UInt64.ofNat n).toInt64⟩ else .error .errRange := by
  -- the tag names start with a letter
  have notEarliest : s ≠ earliest := numeral.ne_cons (c := 'e') (by decide) _
  have notPending : s ≠ pending := numeral.ne_cons (c := 'p') (by decide) _
  have notLatest : s ≠ latest := numeral.ne_cons (c := 'l') (by decide) _
  have notSafe : s ≠ safe := numeral.ne_cons (c := 's') (by decide) _
  have notFinalized : s ≠ finalized := numeral.ne_cons (c := 'f') (by decide) _
  rw [stringToBlockNumber]
  rw [trimQuotes_numeral numeral, if_neg notEarliest, if_neg notPending,
    if_neg (not_or.mpr ⟨notLatest, numeral.ne_nil⟩), if_neg notSafe, if_neg notFinalized,
    decodeUint64orHex_numeral numeral]
  exact map_rangeChecked n _

theorem stringToBatchNumber_numeral {s : List Char} {n : Nat} (numeral : Numeral s n) :
    stringToBatchNumber s = if n < 2 ^ 64 then .ok ⟨(UInt64.ofNat n).toInt64⟩ else .error .errRange := by
  -- the tag names start with a letter
  have notEarliest : s ≠ earliest := numeral.ne_cons (c := 'e') (by decide) _
  have notLatest : s ≠ latest := numeral.ne_cons (c := 'l') (by decide) _
  rw [stringToBatchNumber]
  rw [trimQuotes_numeral numeral, if_neg notEarliest, if_neg (not_or.mpr ⟨notLatest, numeral.ne_nil⟩),
    decodeUint64orHex_numeral numeral]
  exact map_rangeChecked n _

theorem numeral_encodeUint64 (i : UInt64) : Numeral (Hex.encodeUint64 i) i.toNat := by
  obtain ⟨hex, value⟩ := hexValue_text i.toNat
  have numeral := Numeral.hex hex Nat.toDigits_ne_nil
  rwa [value] at numeral

theorem stringToBlockNumber_stringOrHex (b : BlockNumber) : stringToBlockNumber (stringOrHex b) = .ok b := by
  -- the five tags are written as their names, which read back by evaluation
  by_cases isEarliest : b = earliestBlockNumber
  · rw [isEarliest]; decide
  by_cases isPending : b = pendingBlockNumber
  · rw [isPending]; decide
  by_cases isLatest : b = latestBlockNumber
  · rw [isLatest]; decide
  by_cases isSafe : b = safeBlockNumber
  · rw [isSafe]; decide
  by_cases isFinalized : b = finalizedBlockNumber
  · rw [isFinalized]; decide
  -- every other number goes through its `uint64`, and the conversions are inverse
  rw [stringOrHex, if_neg isEarliest, if_neg isPending, if_neg isLatest, if_neg isSafe, if_neg isFinalized,
    stringToBlockNumber_numeral (numeral_encodeUint64 _), if_pos (UInt64.toNat_lt _), UInt64.ofNat_toNat,
    Int64.toInt64_toUInt64]

theorem ne_tags {b : BlockNumber} (untagged : ¬(-5 ≤ b.toInt64.toInt ∧ b.toInt64.toInt ≤ -1)) :
    b ≠ earliestBlockNumber ∧ b ≠ pendingBlockNumber ∧ b ≠ latestBlockNumber ∧ b ≠ safeBlockNumber ∧
      b ≠ finalizedBlockNumber := by
  refine ⟨?_, ?_, ?_, ?_, ?_⟩ <;> rintro rfl <;> exact untagged (by decide)

/-- What `GetNumericBlockNumber` reads for `BlockNumber(n)`: block `n` below
`2^63`, and from there the invalid block number `n - 2^64`, but for the last
five numbers, which are the tags. -/
theorem getNumericBlockNumber_ofNat {n : Nat} (queries : BlockQueries) :
    (n < 2 ^ 63 → getNumericBlockNumber (some ⟨(UInt64.ofNat n).toInt64⟩) queries = .ok (UInt64.ofNat n)) ∧
    (2 ^ 63 ≤ n → n < 2 ^ 64 - 5 → getNumericBlockNumber (some ⟨(UInt64.ofNat n).toInt64⟩) queries =
      .error ⟨invalidParamsErrorCode, "invalid block number: ".toList ++ (toString ((n : Int) - 2 ^ 64)).toList⟩) := by
  refine ⟨fun small => ?_, fun large fits => ?_⟩
  · have value : (UInt64.ofNat n).toInt64.toInt = n := by
      rw [toInt_toInt64_ofNat (by omega), if_pos small]
    obtain ⟨e, p, l, s, f⟩ := ne_tags (b := ⟨(UInt64.ofNat n).toInt64⟩) (by dsimp only; omega)
    have nonneg : ¬(UInt64.ofNat n).toInt64 < 0 := by
      rw [Int64.lt_iff_toInt_lt, value, Int64.toInt_zero]
      omega
    rw [getNumericBlockNumber, Option.getD_some, if_neg (not_or.mpr ⟨l, p⟩), if_neg e, if_neg s, if_neg f,
      if_neg nonneg, UInt64.toUInt64_toInt64]
  · have value : (UInt64.ofNat n).toInt64.toInt = n - 2 ^ 64 := by
      rw [toInt_toInt64_ofNat (by omega), if_neg (by omega)]
    obtain ⟨e, p, l, s, f⟩ := ne_tags (b := ⟨(UInt64.ofNat n).toInt64⟩) (by dsimp only; omega)
    have negative : (UInt64.ofNat n).toInt64 < 0 := by
      rw [Int64.lt_iff_toInt_lt, value, Int64.toInt_zero]
      omega
    rw [getNumericBlockNumber, Option.getD_some, if_neg (not_or.mpr ⟨l, p⟩), if_neg e, if_neg s, if_neg f,
      if_pos negative, value]

/-- Numbers are parsed into an `int64` modulo `2^64`. A numeral of `n` below
`2^64` gives the block and batch number `n` below `2^63` and `n - 2^64` from
there, so the numerals of `2^64-1` to `2^64-5` give the five tags; from `2^64`
on the parse fails. `StringToBlockNumber` reads back every `StringOrHex`. -/
theorem stringToBlockNumber_wraps :
    (∀ s n, Numeral s n → n < 2 ^ 64 → ∃ b, stringToBlockNumber s = .ok b ∧
      b.toInt64.toInt = if n < 2 ^ 63 then (n : Int) else n - 2 ^ 64) ∧
    (∀ s n, Numeral s n → n < 2 ^ 64 → ∃ b, stringToBatchNumber s = .ok b ∧
      b.toInt64.toInt = if n < 2 ^ 63 then (n : Int) else n - 2 ^ 64) ∧
    (∀ s n, Numeral s n → 2 ^ 64 ≤ n →
      stringToBlockNumber s = .error .errRange ∧ stringToBatchNumber s = .error .errRange) ∧
    (List.range 5).map (fun k => (⟨(UInt64.ofNat (2 ^ 64 - 1 - k)).toInt64⟩ : BlockNumber)) =
      [earliestBlockNumber, latestBlockNumber, pendingBlockNumber, safeBlockNumber, finalizedBlockNumber] ∧
    ∀ b, stringToBlockNumber (stringOrHex b) = .ok b := by
  refine ⟨fun s n numeral fits => ?_, fun s n numeral fits => ?_, fun s n numeral beyond => ?_, by decide,
    stringToBlockNumber_stringOrHex⟩
  · rw [stringToBlockNumber_numeral numeral, if_pos fits]
    exact ⟨_, rfl, toInt_toInt64_ofNat fits⟩
  · rw [stringToBatchNumber_numeral numeral, if_pos fits]
    exact ⟨_, rfl, toInt_toInt64_ofNat fits⟩
  · have tooLarge : ¬n < 2 ^ 64 := by omega
    rw [stringToBlockNumber_numeral numeral, stringToBatchNumber_numeral numeral, if_neg tooLarge, if_neg tooLarge]
    exact ⟨rfl, rfl⟩

theorem stringToBlockNumber_wraps_max :
    stringToBlockNumber "18446744073709551615".toList = .ok earliestBlockNumber ∧
      stringToBlockNumber "0xfffffffffffffffe".toList = .ok latestBlockNumber := by
  obtain ⟨blocks, -, -, -, -⟩ := stringToBlockNumber_wraps
  obtain ⟨b, parsed, value⟩ := blocks _ _ (Numeral.decimal (s := "18446744073709551615".toList) (by decide))
    (by decide)
  obtain ⟨b', parsed', value'⟩ := blocks _ _
    (Numeral.hex (h := "fffffffffffffffe".toList) (by decide) (by decide)) (by decide)
  have earliestValue : b = earliestBlockNumber := by
    cases b
    rw [BlockNumber.mk.injEq, ← Int64.toInt_inj, value]
    decide
  have latestValue : b' = latestBlockNumber := by
    cases b'
    rw [BlockNumber.mk.injEq, ← Int64.toInt_inj, value']
    decide
  exact ⟨parsed ▸ earliestValue ▸ rfl, parsed' ▸ latestValue ▸ rfl⟩

end Jsonrpc.Types

end ZkevmNode
