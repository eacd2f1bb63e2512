import ZkevmNode.Go.Strconv

set_option autoImplicit false

/-! The parts of `go-ethereum` that the transaction codecs rely on: the 20-byte
`common.Address`, `common.BytesToAddress`, and the RLP encoding of a flat list
(the canonical list header, and the byte string each kind of Go value becomes).
The RLP package itself is not part of this development: models take its
`EncodeToBytes` and `DecodeBytes` as parameters, and the behaviour they rely on
is stated with the definitions below. -/

namespace Go

/-- `common.Address`: exactly twenty bytes. -/
structure Address where
  bytes : List UInt8
  length : bytes.length = 20
  deriving DecidableEq

/-- `common.BytesToAddress(b)`: the last twenty bytes of `b`, left-padded with
zeros when `b` is shorter. -/
def bytesToAddress (b : List UInt8) : Address where
  bytes := List.replicate (20 - b.length) 0 ++ b.drop (b.length - 20)
  length := by simp; omega

@[simp] theorem Address.bytes_ne_nil (a : Address) : a.bytes ≠ [] := by
  intro empty
  simpa [empty] using a.length

@[simp] theorem bytesToAddress_bytes (a : Address) : bytesToAddress a.bytes = a := by
  cases a with
  | mk bytes length => simp [bytesToAddress, length]

/-- `common.Hex2Bytes`: the bytes `hex.DecodeString` returns, its error dropped. -/
def hex2Bytes (str : List Char) : List UInt8 := (decode str).1

/-- `has0xPrefix`: a `0x` or `0X` prefix. -/
def has0xPrefix : List Char → Bool
  | '0' :: x :: _ => x == 'x' || x == 'X'
  | _ => false

/-- `common.FromHex`: the prefix dropped, an odd length padded with a leading
zero, then `Hex2Bytes`. -/
def fromHex (s : List Char) : List UInt8 :=
  let s := if has0xPrefix s then s.drop 2 else s
  let s := if s.length % 2 = 1 then '0' :: s else s
  hex2Bytes s

/-- `common.HexToAddress`. -/
def hexToAddress (s : List Char) : Address := bytesToAddress (fromHex s)

theorem hexDigit_lt (c : Char) : (fromHexChar c).getD 0 < 16 := by
  cases digit : fromHexChar c with
  | none => decide
  | some d => exact fromHexChar_lt digit

theorem setBytes_hex2Bytes {h : List Char} (hex : IsHex h) :
    setBytes (hex2Bytes h) = hexValue h / 16 ^ (h.length % 2) := by
  rcases List.eq_nil_or_concat h with rfl | ⟨init, c, rfl⟩
  · simp [hex2Bytes, decode]
  rw [List.concat_eq_append] at hex ⊢
  have front : IsHex init := fun d member => hex d (by simp [member])
  by_cases even : init.length % 2 = 0
  · -- an odd number of digits: the last one meets the length error
    obtain ⟨bs, decoded, value, -⟩ := decodeString_ok front even
    have last : hexValue [c] < 16 := by simpa [hexValue] using hexDigit_lt c
    have odd : (init ++ [c]).length % 2 = 1 := by simp; omega
    rw [hex2Bytes, decode_append [c] decoded, odd, hexValue_append, ← value]
    simp only [Prod.map_fst, decode, List.append_nil, List.length_singleton, pow_one]
    omega
  · -- an even number of digits: all of them decode
    have whole : (init ++ [c]).length % 2 = 0 := by simp; omega
    obtain ⟨bs, decoded, value, -⟩ := decodeString_ok hex whole
    rw [hex2Bytes, decode_of_decodeString decoded, whole, value]
    simp

theorem setBytes_hex2Bytes_invalid {front : List Char} (hex : IsHex front)
    (even : front.length % 2 = 0) {c : Char} (invalid : fromHexChar c = none) (rest : List Char) :
    setBytes (hex2Bytes (front ++ c :: rest)) = hexValue front := by
  obtain ⟨bs, decoded, value, -⟩ := decodeString_ok hex even
  rw [hex2Bytes, decode_append (c :: rest) decoded, Prod.map_fst, decode_invalid rest invalid,
    List.append_nil, value]

namespace Rlp

/-- The canonical RLP header of a list whose payload has `n` bytes. -/
def listHeader (n : Nat) : List UInt8 :=
  if n ≤ 55 then [(192 + n).toUInt8]
  else (247 + (bytes n).length).toUInt8 :: bytes n

/-- A Go value handed to `rlp.EncodeToBytes` as a list element. -/
inductive Value where
  /-- `uint64`, `uint` and `*big.Int` alike: an unsigned integer. -/
  | uint (n : Nat)
  /-- `[]byte`. -/
  | str (b : List UInt8)
  /-- `*common.Address`: a nil pointer is encoded as the empty string. -/
  | address (a : Option Address)

/-- The byte string an element is encoded as, which `rlp.DecodeBytes` into a
`[][]byte` gives back: integers in minimal big-endian form, zero as the empty
string. -/
def Value.content : Value → List UInt8
  | .uint n => bytes n
  | .str b => b
  | .address none => []
  | .address (some a) => a.bytes

end Rlp

end Go
