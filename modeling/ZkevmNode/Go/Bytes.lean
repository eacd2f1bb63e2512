import ZkevmNode.Lib.BigEndian

set_option autoImplicit false

/-! What the models use of the Go run time and of the packages `math/big`,
`encoding/binary` and `encoding/hex` on byte strings. A Go call that can panic
returns an `Option`: `none` is the run-time panic. Slices are modelled with
their capacity equal to their length, so a slice expression that reaches past
`len(s)` panics instead of reading spare capacity. -/

namespace Go

/-- The slice expression `s[lo:hi]`; it panics unless `lo ≤ hi ≤ len(s)`. -/
def slice {α : Type} (s : List α) (lo hi : Nat) : Option (List α) :=
  if lo ≤ hi ∧ hi ≤ s.length then some ((s.drop lo).take (hi - lo)) else none

theorem slice_of_le {α : Type} {s : List α} {lo hi : Nat} (ordered : lo ≤ hi)
    (inside : hi ≤ s.length) : slice s lo hi = some ((s.drop lo).take (hi - lo)) := by
  simp [slice, ordered, inside]

theorem slice_of_lt {α : Type} {s : List α} {lo hi : Nat} (outside : s.length < hi) :
    slice s lo hi = none := by
  simp only [slice, ite_eq_right_iff, reduceCtorEq, imp_false, not_and, Nat.not_le]
  exact fun _ => outside

theorem slice_middle {α : Type} (front mid back : List α) {s : List α} {lo hi : Nat}
    (layout : s = front ++ mid ++ back) (start : lo = front.length)
    (stop : hi = lo + mid.length) : slice s lo hi = some mid := by
  subst layout start stop
  rw [slice_of_le (by omega) (by simp), List.append_assoc, List.drop_left]
  simp

/-- The index expression `s[i]`; it panics unless `0 ≤ i < len(s)`. -/
def index {α : Type} (s : List α) (i : Int) : Option α :=
  if 0 ≤ i then s[i.toNat]? else none

theorem index_of_lt {α : Type} {s : List α} {i : Nat} (inside : i < s.length) :
    index s i = some s[i] := by
  simp [index, inside]

/-- `new(big.Int).SetBytes(buf)`: the big-endian unsigned value of `buf`. -/
def setBytes (buf : List UInt8) : Nat := BigEndian.value 256 (buf.map UInt8.toNat)

/-- `x.Bytes()` of a non-negative `x`: its minimal big-endian bytes. -/
def bytes (x : Nat) : List UInt8 := (BigEndian.digits 256 x).map Nat.toUInt8

/-- `x.FillBytes(buf)` with `len(buf) = n`: the value zero-padded to `n` bytes;
it panics when `x` does not fit. -/
def fillBytes (n x : Nat) : Option (List UInt8) :=
  if x < 256 ^ n then some ((BigEndian.fixed 256 n x).map Nat.toUInt8) else none

/-- `x.Uint64()`: the low 64 bits of a non-negative `x`. -/
def uint64 (x : Nat) : Nat := x % 2 ^ 64

/-- `binary.BigEndian.Uint64(b)`: the first eight bytes as a big-endian word; it
panics on fewer than eight. -/
def bigEndianUint64 (b : List UInt8) : Option UInt64 :=
  if 8 ≤ b.length then some (setBytes (b.take 8)).toUInt64 else none

namespace BigInt

/-- `x.Cmp(y)`: it returns at once when the two pointers are equal, so two nils
compare equal; otherwise it reads both signs, which panics on a nil. -/
def cmp : Option Int → Option Int → Option Ordering
  | none, none => some .eq
  | some x, some y => some (compare x y)
  | _, _ => none

/-- `x.Uint64()`: the low 64 bits of `|x|`; it panics on a nil `x`. -/
def uint64 : Option Int → Option UInt64
  | none => none
  | some x => some (UInt64.ofNat x.natAbs)

end BigInt

theorem map_toNat_toUInt8 {ds : List Nat} (small : ∀ d ∈ ds, d < 256) :
    (ds.map Nat.toUInt8).map UInt8.toNat = ds := by
  simp only [List.map_map]
  conv => rhs; rw [← List.map_id ds]
  apply List.map_congr_left
  intro d member
  simp [Nat.mod_eq_of_lt (small d member)]

theorem map_toNat_toUInt64 {ds : List Nat} (small : ∀ d ∈ ds, d < 2 ^ 64) :
    (ds.map Nat.toUInt64).map UInt64.toNat = ds := by
  simp only [List.map_map]
  conv => rhs; rw [← List.map_id ds]
  apply List.map_congr_left
  intro d member
  simpa using small d member

@[simp] theorem setBytes_nil : setBytes [] = 0 := rfl

theorem setBytes_append (xs ys : List UInt8) :
    setBytes (xs ++ ys) = setBytes xs * 256 ^ ys.length + setBytes ys := by
  simp [setBytes, BigEndian.value_append]

theorem setBytes_lt (buf : List UInt8) : setBytes buf < 256 ^ buf.length := by
  have bound := @BigEndian.value_lt 256 (by omega) (buf.map UInt8.toNat)
    (by simpa using fun a (_ : a ∈ buf) => UInt8.toNat_lt a)
  simpa [setBytes] using bound

theorem setBytes_inj {buf buf' : List UInt8} (same : buf.length = buf'.length)
    (equal : setBytes buf = setBytes buf') : buf = buf' := by
  have digits := BigEndian.value_inj (by omega : 1 < 256) (by simpa using same)
    (by simpa using fun a (_ : a ∈ buf) => UInt8.toNat_lt a)
    (by simpa using fun a (_ : a ∈ buf') => UInt8.toNat_lt a) equal
  exact List.map_injective_iff.mpr (fun _ _ same => UInt8.toNat_inj.mp same) digits

@[simp] theorem setBytes_bytes (x : Nat) : setBytes (bytes x) = x := by
  rw [setBytes, bytes, map_toNat_toUInt8 (BigEndian.digits_lt (by omega) x),
    BigEndian.value_digits]

theorem bytes_length_le {x k : Nat} (small : x < 256 ^ k) : (bytes x).length ≤ k := by
  simpa [bytes] using BigEndian.digits_length_le (by omega) small

theorem fillBytes_of_lt {n x : Nat} (small : x < 256 ^ n) :
    fillBytes n x = some ((BigEndian.fixed 256 n x).map Nat.toUInt8) := by
  simp [fillBytes, small]

theorem setBytes_fixed (n x : Nat) :
    setBytes ((BigEndian.fixed 256 n x).map Nat.toUInt8) = x % 256 ^ n := by
  rw [setBytes, map_toNat_toUInt8 (BigEndian.fixed_lt (by omega) n x), BigEndian.value_fixed]

theorem bigEndianUint64_fixed (x : Nat) :
    bigEndianUint64 ((BigEndian.fixed 256 8 x).map Nat.toUInt8) = some (x % 2 ^ 64).toUInt64 := by
  have eight : ((BigEndian.fixed 256 8 x).map Nat.toUInt8).length = 8 := by simp
  rw [bigEndianUint64, if_pos eight.ge, List.take_of_length_le eight.le, setBytes_fixed]
  rfl

/-- `fromHexChar`: the value of a hexadecimal digit of either case. -/
def fromHexChar (c : Char) : Option Nat :=
  if '0' ≤ c ∧ c ≤ '9' then some (c.toNat - '0'.toNat)
  else if 'a' ≤ c ∧ c ≤ 'f' then some (c.toNat - 'a'.toNat + 10)
  else if 'A' ≤ c ∧ c ≤ 'F' then some (c.toNat - 'A'.toNat + 10)
  else none

/-- `hex.EncodeToString`: two lowercase digits per byte. -/
def encodeToString (src : List UInt8) : List Char :=
  src.flatMap fun b => [Nat.digitChar (b.toNat / 16), Nat.digitChar (b.toNat % 16)]

/-- The errors of `hex.DecodeString`. -/
inductive HexError where
  | invalidByte (c : Char)
  | length
  deriving DecidableEq, Repr

/-- `hex.DecodeString`: pairs of digits to bytes. An invalid digit is reported
before an odd length, as `hex.Decode` checks the last digit first. -/
def decodeString : List Char → Except HexError (List UInt8)
  | [] => .ok []
  | [c] => if (fromHexChar c).isSome then .error .length else .error (.invalidByte c)
  | p :: q :: rest =>
    match fromHexChar p, fromHexChar q with
    | some a, some b => (decodeString rest).map fun bs => (a * 16 + b).toUInt8 :: bs
    | none, _ => .error (.invalidByte p)
    | some _, none => .error (.invalidByte q)

/-- Both results of `hex.DecodeString`, which returns `src[:n]` beside the error:
the bytes of the pairs read before the first error, and that error. -/
def decode : List Char → List UInt8 × Option HexError
  | [] => ([], none)
  | [c] => ([], some (if (fromHexChar c).isSome then .length else .invalidByte c))
  | p :: q :: rest =>
    match fromHexChar p, fromHexChar q with
    | some a, some b => Prod.map ((a * 16 + b).toUInt8 :: ·) id (decode rest)
    | none, _ => ([], some (.invalidByte p))
    | some _, none => ([], some (.invalidByte q))

/-- The value of a string of hexadecimal digits, most significant first. -/
def hexValue (s : List Char) : Nat := BigEndian.value 16 (s.map fun c => (fromHexChar c).getD 0)

/-- Every character is a hexadecimal digit. -/
def IsHex (s : List Char) : Prop := ∀ c ∈ s, (fromHexChar c).isSome

instance (s : List Char) : Decidable (IsHex s) :=
  decidable_of_iff (s.all fun c => (fromHexChar c).isSome) (by simp [IsHex])

@[simp] theorem hexValue_nil : hexValue [] = 0 := rfl

theorem hexValue_append (s t : List Char) :
    hexValue (s ++ t) = hexValue s * 16 ^ t.length + hexValue t := by
  simp [hexValue, BigEndian.value_append]

@[simp] theorem hexValue_zeros_append (k : Nat) (s : List Char) :
    hexValue (List.replicate k '0' ++ s) = hexValue s := by
  have zero : (fromHexChar '0').getD 0 = 0 := by decide
  simp [hexValue, List.map_replicate, zero]

theorem char_toNat_le {a b : Char} (le : a ≤ b) : a.toNat ≤ b.toNat :=
  UInt32.le_iff_toNat_le.mp le

theorem fromHexChar_lt {c : Char} {d : Nat} (digit : fromHexChar c = some d) : d < 16 := by
  unfold fromHexChar at digit
  split_ifs at digit with decimal lower upper <;> cases digit
  · have top := char_toNat_le decimal.2
    simp at top ⊢
    omega
  · have top := char_toNat_le lower.2
    simp at top ⊢
    omega
  · have top := char_toNat_le upper.2
    simp at top ⊢
    omega

theorem fromHexChar_digitChar {d : Nat} (small : d < 16) :
    fromHexChar (Nat.digitChar d) = some d := by
  interval_cases d <;> decide

theorem decodeString_ok : ∀ {s : List Char}, IsHex s → s.length % 2 = 0 →
    ∃ bs, decodeString s = .ok bs ∧ setBytes bs = hexValue s ∧ 2 * bs.length = s.length
  | [], _, _ => ⟨[], rfl, rfl, rfl⟩
  | [_], _, even => by simp at even
  | p :: q :: rest, hex, even => by
    obtain ⟨a, hp⟩ := Option.isSome_iff_exists.mp (hex p (by simp))
    obtain ⟨b, hq⟩ := Option.isSome_iff_exists.mp (hex q (by simp))
    have tail : IsHex rest := fun c member => hex c (by simp [member])
    have evenTail : rest.length % 2 = 0 := by
      simp only [List.length_cons] at even
      omega
    obtain ⟨bs, decoded, value, len⟩ := decodeString_ok tail evenTail
    have byte : (a * 16 + b) % 256 = a * 16 + b := by
      have := fromHexChar_lt hp
      have := fromHexChar_lt hq
      omega
    refine ⟨(a * 16 + b).toUInt8 :: bs, ?_, ?_, ?_⟩
    · simp only [decodeString, hp, hq, decoded]
      rfl
    · have split : p :: q :: rest = [p, q] ++ rest := rfl
      rw [split, hexValue_append, ← value, ← len]
      simp [setBytes, hexValue, BigEndian.value_cons, hp, hq, byte, pow_mul]
    · simp only [List.length_cons]
      omega

theorem length_decodeString : ∀ {s : List Char} {bs : List UInt8}, decodeString s = .ok bs →
    2 * bs.length = s.length
  | [], bs, decoded => by
    simp only [decodeString, Except.ok.injEq] at decoded
    subst decoded
    rfl
  | [c], bs, decoded => by
    simp only [decodeString] at decoded
    split at decoded <;> cases decoded
  | p :: q :: rest, bs, decoded => by
    unfold decodeString at decoded
    split at decoded
    · cases tail : decodeString rest with
      | error err => simp [tail, Except.map] at decoded
      | ok rest' =>
        simp only [tail, Except.map, Except.ok.injEq] at decoded
        subst decoded
        have len := length_decodeString tail
        simp only [List.length_cons]
        omega
    · cases decoded
    · cases decoded

theorem decodeString_append : ∀ {s t : List Char} {a b : List UInt8},
    decodeString s = .ok a → decodeString t = .ok b → s.length % 2 = 0 →
    decodeString (s ++ t) = .ok (a ++ b)
  | [], _, a, _, front, back, _ => by
    simp only [decodeString, Except.ok.injEq] at front
    simpa [← front] using back
  | [_], _, _, _, _, _, even => by simp at even
  | p :: q :: rest, t, a, b, front, back, even => by
    have evenTail : rest.length % 2 = 0 := by
      simp only [List.length_cons] at even
      omega
    unfold decodeString at front
    split at front
    · rename_i x y hp hq
      cases decoded : decodeString rest with
      | error e => simp [decoded, Except.map] at front
      | ok tail =>
        simp only [decoded, Except.map, Except.ok.injEq] at front
        rw [← front, List.cons_append, List.cons_append, decodeString, hp, hq]
        simp [decodeString_append decoded back evenTail, Except.map]
    · cases front
    · cases front

theorem decode_append : ∀ {s : List Char} (t : List Char) {a : List UInt8},
    decodeString s = .ok a → decode (s ++ t) = Prod.map (a ++ ·) id (decode t)
  | [], t, a, front => by
    simp only [decodeString, Except.ok.injEq] at front
    subst front
    rw [List.nil_append]
    generalize decode t = decoded
    rfl
  | [c], _, _, front => by
    unfold decodeString at front
    split at front <;> cases front
  | p :: q :: rest, t, a, front => by
    unfold decodeString at front
    split at front
    · rename_i x y hp hq
      cases decoded : decodeString rest with
      | error e => simp [decoded, Except.map] at front
      | ok tail =>
        simp only [decoded, Except.map, Except.ok.injEq] at front
        rw [← front, List.cons_append, List.cons_append, decode, hp, hq]
        dsimp only
        rw [decode_append t decoded]
        generalize decode t = after
        rfl
    · cases front
    · cases front

theorem decode_of_decodeString {s : List Char} {a : List UInt8} (decoded : decodeString s = .ok a) :
    decode s = (a, none) := by
  rw [← List.append_nil s, decode_append [] decoded]
  simp [decode]

theorem decode_invalid {c : Char} (rest : List Char) (invalid : fromHexChar c = none) :
    (decode (c :: rest)).1 = [] := by
  cases rest with
  | nil => rfl
  | cons q rest => simp [decode, invalid]

theorem decodeString_encodeToString (src : List UInt8) :
    decodeString (encodeToString src) = .ok src := by
  induction src with
  | nil => rfl
  | cons x rest ih =>
    have high := fromHexChar_digitChar (d := x.toNat / 16) (by have := x.toNat_lt; omega)
    have low := fromHexChar_digitChar (d := x.toNat % 16) (by omega)
    have byte : (x.toNat / 16 * 16 + x.toNat % 16).toUInt8 = x := by
      rw [show x.toNat / 16 * 16 + x.toNat % 16 = x.toNat by omega]
      simp
    have split : encodeToString (x :: rest) =
        Nat.digitChar (x.toNat / 16) :: Nat.digitChar (x.toNat % 16) :: encodeToString rest := by
      simp [encodeToString]
    rw [split, decodeString, high, low, ih]
    simp [Except.map, byte]

theorem isHex_of_decodeString : ∀ {s : List Char} {bs : List UInt8}, decodeString s = .ok bs → IsHex s
  | [], _, _ => by simp [IsHex]
  | [c], _, decoded => by
    unfold decodeString at decoded
    split_ifs at decoded
  | p :: q :: rest, bs, decoded => by
    unfold decodeString at decoded
    cases high : fromHexChar p with
    | none => simp [high] at decoded
    | some a =>
      cases low : fromHexChar q with
      | none => simp [high, low] at decoded
      | some b =>
        simp only [high, low] at decoded
        cases tail : decodeString rest with
        | error err => simp [tail, Except.map] at decoded
        | ok tailBytes =>
          have restHex := isHex_of_decodeString tail
          intro c member
          rcases List.mem_cons.mp member with rfl | member
          · simp [high]
          rcases List.mem_cons.mp member with rfl | member
          · simp [low]
          · exact restHex c member

theorem isHex_encodeToString (src : List UInt8) : IsHex (encodeToString src) := by
  intro c member
  simp only [encodeToString, List.mem_flatMap, List.mem_cons, List.not_mem_nil,
    or_false] at member
  obtain ⟨b, -, high | low⟩ := member
  · rw [high, fromHexChar_digitChar (by have := b.toNat_lt; omega)]
    rfl
  · rw [low, fromHexChar_digitChar (by omega)]
    rfl

@[simp] theorem length_encodeToString (src : List UInt8) :
    (encodeToString src).length = 2 * src.length := by
  induction src with
  | nil => rfl
  | cons b rest ih => simp [encodeToString] at *; omega

theorem hexValue_encodeToString (src : List UInt8) :
    hexValue (encodeToString src) = setBytes src := by
  induction src using List.reverseRecOn with
  | nil => rfl
  | append_singleton rest b ih =>
    have high := fromHexChar_digitChar (d := b.toNat / 16) (by have := b.toNat_lt; omega)
    have low := fromHexChar_digitChar (d := b.toNat % 16) (by omega)
    have pair : encodeToString (rest ++ [b]) =
        encodeToString rest ++ [Nat.digitChar (b.toNat / 16), Nat.digitChar (b.toNat % 16)] := by
      simp [encodeToString]
    rw [pair, hexValue_append, ih, setBytes_append]
    simp [hexValue, BigEndian.value_cons, high, low, setBytes]
    omega

end Go
