import ZkevmNode.Go.Strconv
import Mathlib.Data.Int.Bitwise

set_option autoImplicit false

/-! `merkletree/split.go`: the conversions between the four forms a value of the
state tree takes (an integer, eight 32-bit limbs in `uint64` slots, four 64-bit
words, and a 64-digit hexadecimal string), with the wrappers of the node's `hex`
package they use, and the value paths of `merkletree/tree.go` that compose them.
A `*big.Int` is an `Int`, or a `Nat` where the code only builds non-negative
ones; `none` is a panic. -/

namespace ZkevmNode

open Go

namespace Hex

/-- `hex.EncodeToHex`: the hexadecimal text with the `0x` prefix. -/
def encodeToHex (str : List UInt8) : List Char := ['0', 'x'] ++ encodeToString str

/-- `hex.DecodeHex`: an optional `0x` prefix, then `hex.DecodeString`. -/
def decodeHex (str : List Char) : Except HexError (List UInt8) :=
  decodeString (trimPrefix ['0', 'x'] str)

end Hex

namespace Merkletree

/-- `maxBigIntLen`: a scalar fills 32 bytes. -/
def maxBigIntLen : Nat := 32

/-- `wordLength`: the bits of one word of a key or root. -/
def wordLength : Nat := 64

/-- `poseidon.NROUNDSF` of go-iden3-crypto's `goldenposeidon`, the length
`fea2scalar` expects. -/
def nRoundsF : Nat := 8

/-- The error `string2fea` and `StringToh4` return:
`Could not convert %q into big int`, with the text they could not read. -/
inductive SplitError where
  | notBigInt (s : List Char)
  deriving DecidableEq, Repr

/-- `fea2scalar`: eight limbs, least significant first, each shifted by 32 bits
more than the one before; any other length gives zero. -/
def fea2scalar (v : List UInt64) : Nat :=
  if v.length ≠ nRoundsF then 0 else
  let limb (i : Nat) : Nat := (v.getD i 0).toNat
  limb 0 + limb 1 <<< 32 + limb 2 <<< 64 + limb 3 <<< 96 + limb 4 <<< 128 +
    limb 5 <<< 160 + limb 6 <<< 192 + limb 7 <<< 224

/-- `scalar2fea`: the eight 32-bit limbs of `value`, least significant first,
each cut out by a shift and the mask `FFFFFFFF`. -/
def scalar2fea (value : Int) : List UInt64 :=
  let mask : Int := 0xFFFFFFFF
  let limb (k : Nat) : UInt64 := (Int.land (value >>> k) mask).toNat.toUInt64
  [limb 0, limb 32, limb 64, limb 96, limb 128, limb 160, limb 192, limb 224]

/-- `h4ToScalar`: the four words, least significant first. The loop reads
`h4[1]` to `h4[3]` whatever the length, so one to three words panic. -/
def h4ToScalar (h4 : List UInt64) : Option Nat :=
  if h4.length = 0 then some 0
  else if h4.length < 4 then none
  else
    let word (i : Nat) : Nat := (h4.getD i 0).toNat
    some ((List.range' 1 3).foldl (fun result i => result + word i <<< (wordLength * i)) (word 0))

/-- `H4ToString`: `0x` and the bytes of the scalar in hexadecimal, zero-padded to
64 digits by `%064s`. -/
def h4ToString (h4 : List UInt64) : Option (List Char) :=
  (h4ToScalar h4).map fun sc => ['0', 'x'] ++ sprintfZeroPad 64 (encodeToString (bytes sc))

/-- `ScalarToFilledByteSlice`: `FillBytes` into 32 bytes, which writes the
absolute value and panics when it does not fit. -/
def scalarToFilledByteSlice (s : Int) : Option (List UInt8) :=
  fillBytes maxBigIntLen s.natAbs

/-- `scalarToh4`: the 32 filled bytes read as four big-endian words, the most
significant first into `r[3]`, each masked with `FFFFFFFFFFFFFFFF`. -/
def scalarToh4 (s : Int) : Option (List UInt64) := do
  let b ← scalarToFilledByteSlice s
  -- the decoding error of `f, _ := hex.DecodeHex(..)` is dropped: a nil `f` would
  -- make `Uint64` panic
  let fbe ← bigEndianUint64 ((Hex.decodeHex "0xFFFFFFFFFFFFFFFF".toList).toOption.getD [])
  let r3 ← bigEndianUint64 (← slice b 0 8)
  let r2 ← bigEndianUint64 (← slice b 8 16)
  let r1 ← bigEndianUint64 (← slice b 16 24)
  let r0 ← bigEndianUint64 (← slice b 24 b.length)
  return [r0 &&& fbe, r1 &&& fbe, r2 &&& fbe, r3 &&& fbe]

/-- `StringToh4`: an optional `0x` prefix, then the hexadecimal number as four
words. -/
def stringToh4 (str : List Char) : Option (Except SplitError (List UInt64)) :=
  let str := trimPrefix ['0', 'x'] str
  match setString str 16 with
  | none => some (.error (.notBigInt str))
  | some bi => (scalarToh4 bi).map .ok

/-- `string2fea`: the hexadecimal number as eight limbs. -/
def string2fea (s : List Char) : Except SplitError (List UInt64) :=
  match setString s 16 with
  | none => .error (.notBigInt s)
  | some bi => .ok (scalar2fea bi)

/-- `fea2string`: the scalar of the limbs in 32 bytes, as `0x`-prefixed
hexadecimal. -/
def fea2string (fea : List UInt64) : Option (List Char) :=
  (scalarToFilledByteSlice (fea2scalar fea)).map Hex.encodeToHex

/-- The value string `StateTree.set` sends to the StateDB service for the limbs
`value`: `fea2string` without its `0x` prefix. -/
def feaValue (value : List UInt64) : Option (List Char) :=
  (fea2string value).map (trimPrefix ['0', 'x'])

/-- What `GetBalance`, `GetNonce` and `GetStorageAt` return for a leaf whose
value string the service gives back as `stored`: `StateTree.get` reads it into
limbs, which are never nil after a successful read, and `fea2scalar` joins them. -/
def getLeafScalar (stored : List Char) : Except SplitError Nat :=
  (string2fea stored).map fea2scalar

/-- The limbs `SetCode` stores as the code-hash leaf of the program hash
`scCodeHash4`: `H4ToString`, decoded by `hex.DecodeHex`, read by `SetBytes` and
split by `scalar2fea`. -/
def setCodeHashLeaf (scCodeHash4 : List UInt64) : Option (Except HexError (List UInt64)) :=
  (h4ToString scCodeHash4).map fun str =>
    (Hex.decodeHex str).map fun scCodeHash => scalar2fea (setBytes scCodeHash)

/-- The key `GetCode` asks the program store for, given the value string of the
code-hash leaf: `GetCodeHash` fills the leaf's scalar into 32 bytes, and
`GetCode` reads them back with `SetBytes` and splits them by `scalarToh4`. -/
def getCodeProgramKey (stored : List Char) : Option (Except SplitError (List UInt64)) :=
  match string2fea stored with
  | .error e => some (.error e)
  | .ok value => do
    let scCodeHash ← scalarToFilledByteSlice (fea2scalar value)
    let key ← scalarToh4 (setBytes scCodeHash)
    return .ok key

theorem limb_natCast (n k : Nat) :
    (Int.land ((n : Int) >>> k) 0xFFFFFFFF).toNat = n / 2 ^ k % 2 ^ 32 := by
  rw [← Int.natCast_shiftRight]
  show (((n >>> k) &&& (2 ^ 32 - 1) : Nat) : Int).toNat = _
  rw [Int.toNat_natCast, Nat.and_two_pow_sub_one_eq_mod, Nat.shiftRight_eq_div_pow]

theorem scalar2fea_natCast (n : Nat) :
    scalar2fea n = ((BigEndian.fixed (2 ^ 32) 8 n).reverse).map Nat.toUInt64 := by
  simp only [scalar2fea, limb_natCast]
  simp [BigEndian.fixed, Nat.div_div_eq_div_mul]

theorem fea2scalar_eq_ofDigits {v : List UInt64} (eight : v.length = 8) :
    fea2scalar v = Nat.ofDigits (2 ^ 32) (v.map UInt64.toNat) := by
  match v, eight with
  | [v0, v1, v2, v3, v4, v5, v6, v7], _ =>
    simp only [fea2scalar, nRoundsF, List.length_cons, List.length_nil, ne_eq, not_true_eq_false,
      ↓reduceIte, List.getD_eq_getElem?_getD, Nat.shiftLeft_eq]
    simp [Nat.ofDigits]
    ring

theorem fea2scalar_scalar2fea (n : Nat) : fea2scalar (scalar2fea n) = n % 2 ^ 256 := by
  have small : ∀ d ∈ (BigEndian.fixed (2 ^ 32) 8 n).reverse, d < 2 ^ 64 := by
    intro d member
    have := BigEndian.fixed_lt (b := 2 ^ 32) (by omega) 8 n d (List.mem_reverse.mp member)
    omega
  rw [scalar2fea_natCast, fea2scalar_eq_ofDigits (by simp), map_toNat_toUInt64 small]
  have value := BigEndian.value_fixed (2 ^ 32) 8 n
  rw [BigEndian.value, ← Nat.pow_mul] at value
  exact value

theorem fixed_four_words (n : Nat) :
    BigEndian.fixed 256 32 n =
      BigEndian.fixed 256 8 (n / 2 ^ 192) ++ BigEndian.fixed 256 8 (n / 2 ^ 128) ++
        BigEndian.fixed 256 8 (n / 2 ^ 64) ++ BigEndian.fixed 256 8 n := by
  have high := BigEndian.fixed_add 256 8 24 n
  have middle := BigEndian.fixed_add 256 8 16 n
  have low := BigEndian.fixed_add 256 8 8 n
  norm_num at high middle low ⊢
  rw [high, middle, low]

theorem scalarToh4_of_lt {n : Nat} (small : n < 2 ^ 256) :
    scalarToh4 n = some [(n % 2 ^ 64).toUInt64, (n / 2 ^ 64 % 2 ^ 64).toUInt64,
      (n / 2 ^ 128 % 2 ^ 64).toUInt64, (n / 2 ^ 192 % 2 ^ 64).toUInt64] := by
  let block (x : Nat) : List UInt8 := (BigEndian.fixed 256 8 x).map Nat.toUInt8
  let b := block (n / 2 ^ 192) ++ block (n / 2 ^ 128) ++ block (n / 2 ^ 64) ++ block n
  have eight : ∀ x, (block x).length = 8 := by simp [block]
  have total : b.length = 32 := by simp [b, eight]
  have filled : scalarToFilledByteSlice n = some b := by
    rw [scalarToFilledByteSlice, Int.natAbs_natCast, maxBigIntLen,
      fillBytes_of_lt (by norm_num at small ⊢; omega), fixed_four_words]
    simp [b, block]
  have mask : bigEndianUint64 ((Hex.decodeHex "0xFFFFFFFFFFFFFFFF".toList).toOption.getD []) =
      some (-1) := by decide
  have word3 : slice b 0 8 = some (block (n / 2 ^ 192)) :=
    slice_middle [] (block (n / 2 ^ 192)) (block (n / 2 ^ 128) ++ block (n / 2 ^ 64) ++ block n)
      (by simp [b]) rfl (by rw [eight])
  have word2 : slice b 8 16 = some (block (n / 2 ^ 128)) :=
    slice_middle (block (n / 2 ^ 192)) (block (n / 2 ^ 128)) (block (n / 2 ^ 64) ++ block n)
      (by simp [b]) (eight _).symm (by rw [eight])
  have word1 : slice b 16 24 = some (block (n / 2 ^ 64)) :=
    slice_middle (block (n / 2 ^ 192) ++ block (n / 2 ^ 128)) (block (n / 2 ^ 64)) (block n)
      (by simp [b]) (by simp [eight]) (by rw [eight])
  have word0 : slice b 24 b.length = some (block n) :=
    slice_middle (block (n / 2 ^ 192) ++ block (n / 2 ^ 128) ++ block (n / 2 ^ 64)) (block n) []
      (by simp [b]) (by simp [eight]) (by rw [total, eight])
  simp only [scalarToh4, filled, mask, word3, word2, word1, word0, block, bigEndianUint64_fixed,
    Option.bind_eq_bind, Option.bind_some, UInt64.and_neg_one]
  rfl

theorem h4ToScalar_four (a b c d : UInt64) :
    h4ToScalar [a, b, c, d] =
      some (a.toNat + b.toNat <<< 64 + c.toNat <<< 128 + d.toNat <<< 192) := by
  rw [h4ToScalar, if_neg (by simp), if_neg (by simp)]
  rfl

theorem scalarToh4_four (a b c d : UInt64) :
    scalarToh4 ((a.toNat + b.toNat <<< 64 + c.toNat <<< 128 + d.toNat <<< 192 : Nat) : Int) =
      some [a, b, c, d] := by
  have ha := a.toNat_lt
  have hb := b.toNat_lt
  have hc := c.toNat_lt
  have hd := d.toNat_lt
  simp only [Nat.shiftLeft_eq]
  rw [scalarToh4_of_lt (by omega)]
  have word0 : (a.toNat + b.toNat * 2 ^ 64 + c.toNat * 2 ^ 128 + d.toNat * 2 ^ 192) % 2 ^ 64 =
      a.toNat := by omega
  have word1 : (a.toNat + b.toNat * 2 ^ 64 + c.toNat * 2 ^ 128 + d.toNat * 2 ^ 192) / 2 ^ 64 %
      2 ^ 64 = b.toNat := by omega
  have word2 : (a.toNat + b.toNat * 2 ^ 64 + c.toNat * 2 ^ 128 + d.toNat * 2 ^ 192) / 2 ^ 128 %
      2 ^ 64 = c.toNat := by omega
  have word3 : (a.toNat + b.toNat * 2 ^ 64 + c.toNat * 2 ^ 128 + d.toNat * 2 ^ 192) / 2 ^ 192 %
      2 ^ 64 = d.toNat := by omega
  rw [word0, word1, word2, word3]
  simp

theorem h4Scalar_lt (a b c d : UInt64) :
    a.toNat + b.toNat <<< 64 + c.toNat <<< 128 + d.toNat <<< 192 < 2 ^ 256 := by
  have ha := a.toNat_lt
  have hb := b.toNat_lt
  have hc := c.toNat_lt
  have hd := d.toNat_lt
  simp only [Nat.shiftLeft_eq]
  omega

theorem paddedHex_spec {sc : Nat} (small : sc < 2 ^ 256) :
    IsHex (sprintfZeroPad 64 (encodeToString (bytes sc))) ∧
      (sprintfZeroPad 64 (encodeToString (bytes sc))).length = 64 ∧
      hexValue (sprintfZeroPad 64 (encodeToString (bytes sc))) = sc := by
  have fits : (bytes sc).length ≤ 32 := bytes_length_le (by norm_num at small ⊢; omega)
  refine ⟨isHex_sprintfZeroPad (isHex_encodeToString _), ?_, ?_⟩
  · exact length_sprintfZeroPad 64 _ (by simp; omega)
  · rw [hexValue_sprintfZeroPad, hexValue_encodeToString, setBytes_bytes]

theorem scalarToFilledByteSlice_of_lt {n : Nat} (small : n < 2 ^ 256) :
    ∃ fill, scalarToFilledByteSlice n = some fill ∧ fill.length = 32 ∧ setBytes fill = n := by
  have fits : n < 256 ^ maxBigIntLen := by norm_num [maxBigIntLen] at small ⊢; omega
  refine ⟨_, by rw [scalarToFilledByteSlice, Int.natAbs_natCast, fillBytes_of_lt fits], ?_, ?_⟩
  · simp [maxBigIntLen]
  · rw [setBytes_fixed, Nat.mod_eq_of_lt fits]

theorem string2fea_encodeToString {fill : List UInt8} (nonempty : fill ≠ []) :
    string2fea (encodeToString fill) = .ok (scalar2fea (setBytes fill)) := by
  have text : encodeToString fill ≠ [] := by
    intro empty
    have := congrArg List.length empty
    simp at this
    exact nonempty this
  rw [string2fea, setString_of_isHex (isHex_encodeToString fill) text, hexValue_encodeToString]

theorem feaValue_scalar2fea {n : Nat} (small : n < 2 ^ 256) :
    ∃ fill, feaValue (scalar2fea n) = some (encodeToString fill) ∧ fill.length = 32 ∧
      setBytes fill = n := by
  obtain ⟨fill, filled, length, value⟩ := scalarToFilledByteSlice_of_lt small
  refine ⟨fill, ?_, length, value⟩
  rw [feaValue, fea2string, fea2scalar_scalar2fea, Nat.mod_eq_of_lt small, filled, Option.map_some,
    Option.map_some, Hex.encodeToHex, trimPrefix_append]

theorem stringToh4_h4ToString (a b c d : UInt64) :
    (h4ToString [a, b, c, d]).bind stringToh4 = some (.ok [a, b, c, d]) := by
  obtain ⟨hex, length, value⟩ := paddedHex_spec (h4Scalar_lt a b c d)
  have nonempty : sprintfZeroPad 64
      (encodeToString (bytes (a.toNat + b.toNat <<< 64 + c.toNat <<< 128 + d.toNat <<< 192))) ≠
      [] := by
    intro empty
    simp [empty] at length
  simp only [h4ToString, h4ToScalar_four, Option.map_some, Option.bind_some, stringToh4,
    trimPrefix_append, setString_of_isHex hex nonempty, value, scalarToh4_four, Option.map_some]

theorem setCodeHashLeaf_four (a b c d : UInt64) :
    setCodeHashLeaf [a, b, c, d] = some (.ok (scalar2fea
      ((a.toNat + b.toNat <<< 64 + c.toNat <<< 128 + d.toNat <<< 192 : Nat) : Int))) := by
  obtain ⟨hex, length, value⟩ := paddedHex_spec (h4Scalar_lt a b c d)
  obtain ⟨bs, decoded, bValue, -⟩ := decodeString_ok hex (by rw [length])
  simp only [setCodeHashLeaf, h4ToString, h4ToScalar_four, Option.map_some, Hex.decodeHex,
    trimPrefix_append, decoded, Except.map, bValue, value]

theorem getCodeProgramKey_encodeToString {n : Nat} (small : n < 2 ^ 256) {fill : List UInt8}
    (length : fill.length = 32) (value : setBytes fill = n) :
    getCodeProgramKey (encodeToString fill) = (scalarToh4 n).map .ok := by
  have nonempty : fill ≠ [] := by
    intro empty
    simp [empty] at length
  obtain ⟨refill, filled, -, revalue⟩ := scalarToFilledByteSlice_of_lt small
  rw [getCodeProgramKey, string2fea_encodeToString nonempty, value]
  dsimp only
  rw [fea2scalar_scalar2fea, Nat.mod_eq_of_lt small, filled]
  simp only [revalue, Option.bind_eq_bind, Option.bind_some]
  cases scalarToh4 n <;> rfl

/-- The leaf codecs of the state tree round-trip: a value below `2^256` that
`SetBalance`, `SetNonce` or `SetStorageAt` writes reads back as itself, and the
program key `GetCode` derives from the code-hash leaf `SetCode` writes is the
key of the program, as are `scalarToh4 ∘ h4ToScalar` and
`StringToh4 ∘ H4ToString` on every four words. -/
theorem leafCodec_roundTrip :
    (∀ v : Nat, v < 2 ^ 256 →
      ∃ s, feaValue (scalar2fea v) = some s ∧ getLeafScalar s = .ok v) ∧
    ∀ a b c d : UInt64,
      (∃ leaf s, setCodeHashLeaf [a, b, c, d] = some (.ok leaf) ∧ feaValue leaf = some s ∧
        getCodeProgramKey s = some (.ok [a, b, c, d])) ∧
      (h4ToScalar [a, b, c, d]).bind (fun sc => scalarToh4 sc) = some [a, b, c, d] ∧
      (h4ToString [a, b, c, d]).bind stringToh4 = some (.ok [a, b, c, d]) := by
  refine ⟨?_, ?_⟩
  · intro v small
    obtain ⟨fill, written, length, value⟩ := feaValue_scalar2fea small
    have nonempty : fill ≠ [] := by
      intro empty
      simp [empty] at length
    refine ⟨_, written, ?_⟩
    rw [getLeafScalar, string2fea_encodeToString nonempty, value]
    simp only [Except.map, fea2scalar_scalar2fea, Nat.mod_eq_of_lt small]
  · intro a b c d
    have small := h4Scalar_lt a b c d
    obtain ⟨fill, written, length, value⟩ := feaValue_scalar2fea small
    refine ⟨⟨_, _, setCodeHashLeaf_four a b c d, written, ?_⟩, ?_,
      stringToh4_h4ToString a b c d⟩
    · rw [getCodeProgramKey_encodeToString small length value, scalarToh4_four]
      rfl
    · rw [h4ToScalar_four, Option.bind_some, scalarToh4_four]

theorem leafCodec_roundTrip_sample :
    (∃ s, feaValue (scalar2fea 100) = some s ∧ getLeafScalar s = .ok 100) ∧
      (∃ leaf s, setCodeHashLeaf [0, 1, 2, 3] = some (.ok leaf) ∧ feaValue leaf = some s ∧
        getCodeProgramKey s = some (.ok [0, 1, 2, 3])) :=
  ⟨leafCodec_roundTrip.1 100 (by norm_num), (leafCodec_roundTrip.2 0 1 2 3).1⟩

end Merkletree

end ZkevmNode
