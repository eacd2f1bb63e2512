import ZkevmNode.Go.Strconv
import ZkevmNode.Go.Ethereum
import ZkevmNode.State.Transaction
import ZkevmNode.State.EstimateGas

set_option autoImplicit false

/-! The argument types of the JSON-RPC requests (`jsonrpc/types/types.go`).
`ArgUint64`, `ArgBytes` and `ArgBig` write and read hexadecimal text, and
`TxArgs.ToTransaction` builds the transaction `eth_call` and `eth_estimateGas`
run. A request reaches the `UnmarshalText` methods through `encoding/json`, which
runs them on a fresh zero value for each string field of pointer type and fails
the request on the first error they return. -/

namespace ZkevmNode.Jsonrpc.Types

open Go

/-- `ArgUint64`, a `uint64`. -/
structure ArgUint64 where
  toUInt64 : UInt64
deriving DecidableEq, Repr

/-- `ArgBytes`, a `[]byte`. -/
structure ArgBytes where
  bytes : List UInt8
deriving DecidableEq, Repr

/-- `ArgBig`, a `big.Int`. -/
structure ArgBig where
  toInt : Int
deriving DecidableEq, Repr

/-- `decodeToHex`: the `0x` prefix dropped, an odd length padded with a leading
zero, then `hex.DecodeString`. -/
def decodeToHex (b : List Char) : Except HexError (List UInt8) :=
  let str := trimPrefix ['0', 'x'] b
  let str := if str.length % 2 ≠ 0 then '0' :: str else str
  decodeString str

/-- `encodeToHex`. -/
def encodeToHex (b : List UInt8) : List Char :=
  let str := encodeToString b
  let str := if str.length % 2 ≠ 0 then '0' :: str else str
  ['0', 'x'] ++ str

/-- `ArgUint64.MarshalText`. -/
def ArgUint64.marshalText (b : ArgUint64) : List Char := ['0', 'x'] ++ text 16 b.toUInt64.toNat

/-- `ArgUint64.UnmarshalText`: the target's new value and the error. -/
def ArgUint64.unmarshalText (input : List Char) (b : ArgUint64) : ArgUint64 × Option NumError :=
  let str := trimPrefix ['0', 'x'] input
  match parseUint str 16 64 with
  | .error err => (b, some err)
  | .ok num => (⟨num.toUInt64⟩, none)

/-- `ArgBytes.MarshalText`. -/
def ArgBytes.marshalText (b : ArgBytes) : List Char := encodeToHex b.bytes

/-- `ArgBytes.UnmarshalText`: the target's new value and the error. A decoding
error is dropped: the method returns `nil` and leaves the target. -/
def ArgBytes.unmarshalText (input : List Char) (b : ArgBytes) : ArgBytes × Option HexError :=
  match decodeToHex input with
  | .error _ => (b, none)
  | .ok hh => (⟨hh⟩, none)

/-- `ArgBig.MarshalText`. -/
def ArgBig.marshalText (a : ArgBig) : List Char := ['0', 'x'] ++ intText 16 a.toInt

/-- `ArgBig.UnmarshalText`: the target's new value and the error. -/
def ArgBig.unmarshalText (input : List Char) (a : ArgBig) : ArgBig × Option HexError :=
  match decodeToHex input with
  | .error err => (a, some err)
  | .ok buf => (⟨(setBytes buf : Int)⟩, none)

theorem decodeToHex_prefixed (h : List Char) :
    decodeToHex (['0', 'x'] ++ h) = decodeString (if h.length % 2 ≠ 0 then '0' :: h else h) := by
  simp only [decodeToHex, trimPrefix_append]

theorem decodeToHex_hex {h : List Char} (hex : IsHex h) :
    ∃ bs, decodeToHex (['0', 'x'] ++ h) = .ok bs ∧ setBytes bs = hexValue h := by
  rw [decodeToHex_prefixed]
  by_cases odd : h.length % 2 ≠ 0
  · have padded : IsHex ('0' :: h) := by
      intro c member
      rcases List.mem_cons.mp member with rfl | member
      · rfl
      · exact hex c member
    obtain ⟨bs, decoded, value, -⟩ := decodeString_ok padded (by simp; omega)
    refine ⟨bs, by rw [if_pos odd, decoded], ?_⟩
    rw [value]
    exact hexValue_zeros_append 1 h
  · obtain ⟨bs, decoded, value, -⟩ := decodeString_ok hex (by omega)
    exact ⟨bs, by rw [if_neg odd, decoded], value⟩

theorem ArgUint64.unmarshalText_marshalText (b target : ArgUint64) :
    ArgUint64.unmarshalText b.marshalText target = (b, none) := by
  have parsed := parseUint_text b.toUInt64.toNat_lt
  simp only [ArgUint64.unmarshalText, ArgUint64.marshalText, trimPrefix_append, parsed]
  simp

theorem ArgBytes.unmarshalText_marshalText (b target : ArgBytes) :
    ArgBytes.unmarshalText b.marshalText target = (b, none) := by
  have even : (encodeToString b.bytes).length % 2 = 0 := by simp
  have decoded : decodeToHex b.marshalText = .ok b.bytes := by
    simp only [ArgBytes.marshalText, encodeToHex, even, decodeToHex_prefixed]
    simp [decodeString_encodeToString]
  simp [ArgBytes.unmarshalText, decoded]

theorem ArgBig.unmarshalText_marshalText (a target : ArgBig) (nonneg : 0 ≤ a.toInt) :
    ArgBig.unmarshalText a.marshalText target = (a, none) := by
  obtain ⟨hex, value⟩ := hexValue_text a.toInt.natAbs
  obtain ⟨bs, decoded, bytesValue⟩ := decodeToHex_hex hex
  have written : a.marshalText = ['0', 'x'] ++ text 16 a.toInt.natAbs := by
    simp [ArgBig.marshalText, intText, Int.not_lt.mpr nonneg]
  rw [ArgBig.unmarshalText, written, decoded]
  simp only [bytesValue, value, Int.natAbs_of_nonneg nonneg]

/-- An optional `0x` followed by hexadecimal digits. -/
def HexText (text : List Char) : Prop := IsHex text ∨ ∃ h, text = ['0', 'x'] ++ h ∧ IsHex h

theorem hexText_iff (text : List Char) : HexText text ↔ IsHex (trimPrefix ['0', 'x'] text) := by
  constructor
  · rintro (hex | ⟨h, rfl, hex⟩)
    · -- what the prefix leaves of hexadecimal text is a part of it
      intro c member
      unfold trimPrefix at member
      split_ifs at member
      · exact hex c (List.mem_of_mem_drop member)
      · exact hex c member
    · rw [trimPrefix_append]
      exact hex
  · intro hex
    unfold trimPrefix at hex
    split_ifs at hex with prefixed
    · have split : ['0', 'x'] ++ text.drop 2 = text :=
        List.prefix_iff_eq_append.mp (List.isPrefixOf_iff_prefix.mp prefixed)
      exact Or.inr ⟨text.drop 2, split.symm, hex⟩
    · exact Or.inl hex

instance (text : List Char) : Decidable (HexText text) :=
  decidable_of_iff _ (hexText_iff text).symm

theorem decodeToHex_malformed {text : List Char} (malformed : ¬ HexText text) :
    ∃ err, decodeToHex text = .error err := by
  cases decoded : decodeToHex text with
  | error err => exact ⟨err, rfl⟩
  | ok bs =>
    -- the decoded digits are the stripped text, behind a leading zero when it is odd
    refine absurd ((hexText_iff text).mpr ?_) malformed
    simp only [decodeToHex] at decoded
    split_ifs at decoded
    · intro c member
      exact isHex_of_decodeString decoded c (List.mem_cons_of_mem _ member)
    · exact isHex_of_decodeString decoded

theorem ArgUint64.unmarshalText_malformed {text : List Char} (malformed : ¬ HexText text)
    (target : ArgUint64) : ∃ err, ArgUint64.unmarshalText text target = (target, some err) := by
  cases parsed : parseUint (trimPrefix ['0', 'x'] text) 16 64 with
  | error err => exact ⟨err, by simp only [ArgUint64.unmarshalText, parsed]⟩
  | ok num => exact absurd ((hexText_iff text).mpr (parseUint_isHex parsed).2) malformed

theorem ArgBig.unmarshalText_malformed {text : List Char} (malformed : ¬ HexText text)
    (target : ArgBig) : ∃ err, ArgBig.unmarshalText text target = (target, some err) := by
  obtain ⟨err, failed⟩ := decodeToHex_malformed malformed
  exact ⟨err, by simp only [ArgBig.unmarshalText, failed]⟩

theorem ArgBytes.unmarshalText_malformed {text : List Char} (malformed : ¬ HexText text)
    (target : ArgBytes) : ArgBytes.unmarshalText text target = (target, none) := by
  obtain ⟨err, failed⟩ := decodeToHex_malformed malformed
  simp only [ArgBytes.unmarshalText, failed]

/-- What `encoding/json` does with a string for a field of pointer type whose
element has an `UnmarshalText` method: the pointer gets a new zero value on which
`UnmarshalText` runs, and an error it returns fails the request. An absent or
null field leaves the pointer nil. -/
def unmarshalTextField {A E : Type} (unmarshalText : List Char → A → A × Option E) (zero : A) :
    Option (List Char) → Except E (Option A)
  | none => .ok none
  | some text =>
    match unmarshalText text zero with
    | (_, some err) => .error err
    | (value, none) => .ok (some value)

/-- `TxArgs`. -/
structure TxArgs where
  fromAddress : Option Address
  toAddress : Option Address
  gas : Option ArgUint64
  gasPrice : Option ArgBytes
  value : Option ArgBytes
  data : Option ArgBytes
  input : Option ArgBytes
  nonce : Option ArgUint64
deriving DecidableEq

/-- A JSON object for `TxArgs` as a request carries it: the addresses as
go-ethereum decodes them, and the text of each other string field; `none` for an
absent or null field. -/
structure TxArgsJSON where
  fromAddress : Option Address
  toAddress : Option Address
  gas : Option (List Char)
  gasPrice : Option (List Char)
  value : Option (List Char)
  data : Option (List Char)
  input : Option (List Char)
  nonce : Option (List Char)
deriving DecidableEq

/-- `json.Unmarshal` of a `TxArgs` object; `none` when a field's
`UnmarshalText` fails, where the request is answered with that error. -/
def unmarshalTxArgs (json : TxArgsJSON) : Option TxArgs := do
  let gas ← (unmarshalTextField ArgUint64.unmarshalText ⟨0⟩ json.gas).toOption
  let gasPrice ← (unmarshalTextField ArgBytes.unmarshalText ⟨[]⟩ json.gasPrice).toOption
  let value ← (unmarshalTextField ArgBytes.unmarshalText ⟨[]⟩ json.value).toOption
  let data ← (unmarshalTextField ArgBytes.unmarshalText ⟨[]⟩ json.data).toOption
  let input ← (unmarshalTextField ArgBytes.unmarshalText ⟨[]⟩ json.input).toOption
  let nonce ← (unmarshalTextField ArgUint64.unmarshalText ⟨0⟩ json.nonce).toOption
  pure ⟨json.fromAddress, json.toAddress, gas, gasPrice, value, data, input, nonce⟩

/-- `state.ZeroAddress`. -/
def zeroAddress : Address := ⟨List.replicate 20 0, rfl⟩

/-- The errors of `ToTransaction`: the state's, or its own message. -/
inductive ToTransactionError (ε : Type) where
  | state (err : ε)
  | message (text : List Char)
deriving DecidableEq, Repr

section ToTransaction

variable {ε : Type}

/-- The sender and nonce of `ToTransaction`: a sender the request names, other
than the zero address, with its nonce in the state at the given root; else the
default sender with nonce zero. -/
def TxArgs.senderNonce (args : TxArgs) (getNonce : Address → Except ε UInt64)
    (defaultSenderAddress : Address) : Except (ToTransactionError ε) (Address × UInt64) :=
  match args.fromAddress with
  | some sender =>
    if sender ≠ zeroAddress then
      match getNonce sender with
      | .error err => .error (.state err)
      | .ok n => .ok (sender, n)
    else .ok (defaultSenderAddress, 0)
  | none => .ok (defaultSenderAddress, 0)

/-- The data of `ToTransaction`: `Data`, else `Input`, else none for a call to an
address; a contract creation needs one of them. -/
def TxArgs.txData (args : TxArgs) : Except (ToTransactionError ε) (List UInt8) :=
  match args.data, args.input, args.toAddress with
  | some data, _, _ => .ok data.bytes
  | none, some input, _ => .ok input.bytes
  | none, none, none => .error (.message "contract creation without data provided".toList)
  | none, none, some _ => .ok []

/-- `TxArgs.ToTransaction`: the sender and the transaction. -/
def TxArgs.toTransaction (args : TxArgs) (getNonce : Address → Except ε UInt64)
    (maxCumulativeGasUsed : UInt64) (defaultSenderAddress : Address) :
    Except (ToTransactionError ε) (Address × State.LegacyTx) := do
  let (sender, nonce) ← args.senderNonce getNonce defaultSenderAddress
  let value := match args.value with
    | some value => setBytes value.bytes
    | none => 0
  let gasPrice := match args.gasPrice with
    | some gasPrice => setBytes gasPrice.bytes
    | none => 0
  let data ← args.txData
  let gas := State.toTransactionGas (args.gas.map ArgUint64.toUInt64) maxCumulativeGasUsed
  pure (sender, ⟨nonce, gasPrice, gas, args.toAddress, value, data, 0, 0, 0⟩)

theorem TxArgs.senderNonce_ok (args : TxArgs) {getNonce : Address → Except ε UInt64}
    (answers : ∀ sender, ∃ n, getNonce sender = .ok n) (defaultSenderAddress : Address) :
    ∃ sender nonce, args.senderNonce getNonce defaultSenderAddress = .ok (sender, nonce) := by
  unfold TxArgs.senderNonce
  cases args.fromAddress with
  | none => exact ⟨_, _, rfl⟩
  | some sender =>
    by_cases zero : sender = zeroAddress
    · exact ⟨defaultSenderAddress, 0, by simp [zero]⟩
    · obtain ⟨n, read⟩ := answers sender
      exact ⟨sender, n, by simp [zero, read]⟩

theorem TxArgs.txData_ok (args : TxArgs)
    (target : args.data.isSome ∨ args.input.isSome ∨ args.toAddress.isSome) :
    args.txData (ε := ε) = .ok (((args.data.orElse fun _ => args.input).map ArgBytes.bytes).getD []) := by
  unfold TxArgs.txData
  rcases args with ⟨_, toAddress, _, _, _, data, input, _⟩
  cases data <;> cases input <;> cases toAddress <;> simp_all

/-- Once the sender's nonce is read, `ToTransaction` fails only on a contract
creation without data. Otherwise its transaction carries the request's
recipient, its `data` or else its `input`, and the gas capped by
`maxCumulativeGasUsed`. -/
theorem TxArgs.toTransaction_ok (args : TxArgs) {getNonce : Address → Except ε UInt64}
    (answers : ∀ sender, ∃ n, getNonce sender = .ok n) (maxCumulativeGasUsed : UInt64)
    (defaultSenderAddress : Address)
    (target : args.data.isSome ∨ args.input.isSome ∨ args.toAddress.isSome) :
    ∃ sender tx, args.toTransaction getNonce maxCumulativeGasUsed defaultSenderAddress = .ok (sender, tx) ∧
      tx.toAddress = args.toAddress ∧
      tx.data = ((args.data.orElse fun _ => args.input).map ArgBytes.bytes).getD [] ∧
      tx.gas = State.toTransactionGas (args.gas.map ArgUint64.toUInt64) maxCumulativeGasUsed := by
  obtain ⟨sender, nonce, read⟩ := args.senderNonce_ok answers defaultSenderAddress
  simp only [TxArgs.toTransaction, read, args.txData_ok target]
  exact ⟨_, _, rfl, rfl, rfl, rfl⟩

end ToTransaction

theorem unmarshalTextField_malformed {text : List Char} (malformed : ¬ HexText text) :
    unmarshalTextField ArgBytes.unmarshalText ⟨[]⟩ (some text) =
      unmarshalTextField ArgBytes.unmarshalText ⟨[]⟩ (some []) := by
  have empty : ArgBytes.unmarshalText [] ⟨[]⟩ = (⟨[]⟩, none) := rfl
  simp only [unmarshalTextField, ArgBytes.unmarshalText_malformed malformed, empty]

theorem unmarshalTxArgs_malformed {text : List Char} (malformed : ¬ HexText text) (json : TxArgsJSON) :
    unmarshalTxArgs { json with data := some text } = unmarshalTxArgs { json with data := some [] } ∧
      unmarshalTxArgs { json with value := some text } =
        unmarshalTxArgs { json with value := some [] } ∧
      unmarshalTxArgs { json with gasPrice := some text } =
        unmarshalTxArgs { json with gasPrice := some [] } := by
  refine ⟨?_, ?_, ?_⟩ <;> simp only [unmarshalTxArgs, unmarshalTextField_malformed malformed]

/-- The hexadecimal codecs give back what they write, a non-negative number for
`ArgBig`. On malformed text `ArgUint64` and `ArgBig` fail and keep their target,
but `ArgBytes` keeps its target with no error, so that a request with a
malformed `data`, `value` or `gasPrice` runs with an empty one. -/
theorem argCodecs_malformed_bytes :
    (∀ b target : ArgBytes, ArgBytes.unmarshalText b.marshalText target = (b, none)) ∧
    (∀ a target : ArgBig, 0 ≤ a.toInt → ArgBig.unmarshalText a.marshalText target = (a, none)) ∧
    (∀ b target : ArgUint64, ArgUint64.unmarshalText b.marshalText target = (b, none)) ∧
    ∀ text, ¬ HexText text →
      (∀ target : ArgUint64, ∃ err, ArgUint64.unmarshalText text target = (target, some err)) ∧
      (∀ target : ArgBig, ∃ err, ArgBig.unmarshalText text target = (target, some err)) ∧
      (∀ target : ArgBytes, ArgBytes.unmarshalText text target = (target, none)) ∧
      ∀ json : TxArgsJSON,
        unmarshalTxArgs { json with data := some text } =
          unmarshalTxArgs { json with data := some [] } ∧
        unmarshalTxArgs { json with value := some text } =
          unmarshalTxArgs { json with value := some [] } ∧
        unmarshalTxArgs { json with gasPrice := some text } =
          unmarshalTxArgs { json with gasPrice := some [] } := by
  refine ⟨ArgBytes.unmarshalText_marshalText, ArgBig.unmarshalText_marshalText,
    ArgUint64.unmarshalText_marshalText, ?_⟩
  intro text malformed
  exact ⟨ArgUint64.unmarshalText_malformed malformed, ArgBig.unmarshalText_malformed malformed,
    ArgBytes.unmarshalText_malformed malformed, unmarshalTxArgs_malformed malformed⟩

theorem argCodecs_malformed_bytes_zz :
    ¬ HexText ['0', 'x', 'z', 'z'] ∧
      ArgBytes.unmarshalText ['0', 'x', 'z', 'z'] ⟨[1]⟩ = (⟨[1]⟩, none) ∧
      ArgBig.unmarshalText (ArgBig.marshalText ⟨255⟩) ⟨0⟩ = (⟨255⟩, none) := by
  have malformed : ¬ HexText ['0', 'x', 'z', 'z'] := by decide
  obtain ⟨-, big, -, bad⟩ := argCodecs_malformed_bytes
  exact ⟨malformed, (bad _ malformed).2.2.1 ⟨[1]⟩, big ⟨255⟩ ⟨0⟩ (by decide)⟩

end ZkevmNode.Jsonrpc.Types
