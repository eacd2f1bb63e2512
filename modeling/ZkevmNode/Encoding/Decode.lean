import ZkevmNode.Go.Ethereum

set_option autoImplicit false

/-! The number decoders of the node's `encoding` package (`encoding/encoding.go`),
which read a decimal numeral, or one with a `0x` prefix as hexadecimal: into a
`uint64` through `strconv`, and into a `*big.Int` through `common.Hex2Bytes`,
which reads only whole pairs of digits and drops its error. -/

namespace ZkevmNode.Encoding

open Go

/-- `hex.BitSize64`. -/
def bitSize64 : Nat := 64

/-- `Base10`. -/
def base10 : Nat := 10

/-- `DecodeUint64orHex`: nil is zero, and a `0x` prefix selects base 16. -/
def decodeUint64orHex : Option (List Char) → Except NumError Nat
  | none => .ok 0
  | some str =>
    if ['0', 'x'].isPrefixOf str then parseUint (str.drop 2) 16 bitSize64 else parseUint str 10 bitSize64

/-- `DecodeBigIntHexOrDecimal`: after a `0x` prefix the value of the bytes
`common.Hex2Bytes` makes of the rest, otherwise `SetString` in base ten. -/
def decodeBigIntHexOrDecimal (s : List Char) : Except (List Char) Int :=
  if ['0', 'x'].isPrefixOf s then .ok (setBytes (hex2Bytes (s.drop 2)))
  else
    match setString s base10 with
    | some value => .ok value
    | none => .error ("Could not set base10 ".toList ++ quoted s ++ " to big.Int".toList)

/-- A decimal numeral: one or more digits `0` to `9`. -/
def IsDecimal (s : List Char) : Prop := s ≠ [] ∧ ∀ c ∈ s, '0' ≤ c ∧ c ≤ '9'

instance (s : List Char) : Decidable (IsDecimal s) :=
  decidable_of_iff (!s.isEmpty && s.all fun c => decide ('0' ≤ c ∧ c ≤ '9')) (by simp [IsDecimal])

/-- The value of a decimal numeral. -/
def decimalValue (s : List Char) : Nat := BigEndian.value 10 (s.map fun c => c.toNat - '0'.toNat)

/-- `s` writes `n` in decimal, or as `0x` and hexadecimal digits. -/
inductive Numeral : List Char → Nat → Prop
  | decimal {s : List Char} : IsDecimal s → Numeral s (decimalValue s)
  | hex {h : List Char} : IsHex h → h ≠ [] → Numeral (['0', 'x'] ++ h) (hexValue h)

theorem digitValue_of_decimal {c : Char} (decimal : '0' ≤ c ∧ c ≤ '9') :
    digitValue c = some (c.toNat - '0'.toNat) := by
  simp [digitValue, decimal]

theorem decimal_digit_lt {c : Char} (decimal : '0' ≤ c ∧ c ≤ '9') : c.toNat - '0'.toNat < 10 := by
  have top := char_toNat_le decimal.2
  simp at top ⊢
  omega

theorem not_isPrefixOf_of_decimal {s : List Char} (decimal : IsDecimal s) : ¬ ['0', 'x'].isPrefixOf s := by
  intro prefixed
  have member : 'x' ∈ s := (List.isPrefixOf_iff_prefix.mp prefixed).subset (by simp)
  exact absurd (decimal.2 'x' member) (by decide)

theorem map_digitValue_of_decimal {s : List Char} (decimal : IsDecimal s) :
    s.map digitValue = (s.map fun c => c.toNat - '0'.toNat).map some := by
  rw [List.map_map]
  exact List.map_congr_left fun c member => digitValue_of_decimal (decimal.2 c member)

theorem decimalDigits_lt {s : List Char} (decimal : IsDecimal s) :
    ∀ d ∈ s.map (fun c => c.toNat - '0'.toNat), d < 10 := by
  intro d member
  obtain ⟨c, inside, rfl⟩ := List.mem_map.mp member
  exact decimal_digit_lt (decimal.2 c inside)

theorem decodeUint64orHex_decimal {s : List Char} (decimal : IsDecimal s) :
    decodeUint64orHex (some s) =
      if decimalValue s < 2 ^ 64 then .ok (decimalValue s) else .error .errRange := by
  rw [decodeUint64orHex, if_neg (not_isPrefixOf_of_decimal decimal), bitSize64,
    parseUint_digits (by omega) decimal.1 (map_digitValue_of_decimal decimal) (decimalDigits_lt decimal),
    decimalValue]

theorem decodeUint64orHex_hex {h : List Char} (hex : IsHex h) (nonempty : h ≠ []) :
    decodeUint64orHex (some (['0', 'x'] ++ h)) =
      if hexValue h < 2 ^ 64 then .ok (hexValue h) else .error .errRange := by
  have prefixed : ['0', 'x'].isPrefixOf (['0', 'x'] ++ h) = true :=
    List.isPrefixOf_iff_prefix.mpr (List.prefix_append _ _)
  have dropped : (['0', 'x'] ++ h).drop 2 = h := rfl
  rw [decodeUint64orHex, if_pos prefixed, bitSize64, dropped,
    parseUint_digits (by omega) nonempty (map_digitValue_of_isHex hex) (hexDigits_lt hex)]
  rfl

theorem decodeUint64orHex_numeral {s : List Char} {n : Nat} (numeral : Numeral s n) :
    decodeUint64orHex (some s) = if n < 2 ^ 64 then .ok n else .error .errRange := by
  cases numeral with
  | decimal decimal => exact decodeUint64orHex_decimal decimal
  | hex hex nonempty => exact decodeUint64orHex_hex hex nonempty

theorem decodeBigIntHexOrDecimal_decimal {s : List Char} (decimal : IsDecimal s) :
    decodeBigIntHexOrDecimal s = .ok (decimalValue s : Nat) := by
  obtain ⟨c, rest, split⟩ := List.exists_cons_of_ne_nil decimal.1
  have unsigned : splitSign s = (false, s) := by
    rw [split]
    exact splitSign_of_hex (by simp [fromHexChar, decimal.2 c (by simp [split])])
  rw [decodeBigIntHexOrDecimal, if_neg (not_isPrefixOf_of_decimal decimal), base10,
    setString_digits unsigned decimal.1 (map_digitValue_of_decimal decimal) (decimalDigits_lt decimal)]
  rfl

theorem decodeBigIntHexOrDecimal_prefixed (t : List Char) :
    decodeBigIntHexOrDecimal (['0', 'x'] ++ t) = .ok (setBytes (hex2Bytes t) : Nat) := by
  have prefixed : ['0', 'x'].isPrefixOf (['0', 'x'] ++ t) = true :=
    List.isPrefixOf_iff_prefix.mpr (List.prefix_append _ _)
  rw [decodeBigIntHexOrDecimal, if_pos prefixed]
  rfl

theorem decodeBigIntHexOrDecimal_hex {h : List Char} (hex : IsHex h) :
    decodeBigIntHexOrDecimal (['0', 'x'] ++ h) = .ok (hexValue h / 16 ^ (h.length % 2) : Nat) := by
  rw [decodeBigIntHexOrDecimal_prefixed, setBytes_hex2Bytes hex]

theorem decodeBigIntHexOrDecimal_invalid {front : List Char} (hex : IsHex front)
    (even : front.length % 2 = 0) {c : Char} (invalid : fromHexChar c = none) (rest : List Char) :
    decodeBigIntHexOrDecimal (['0', 'x'] ++ front ++ c :: rest) = .ok (hexValue front : Nat) := by
  rw [List.append_assoc, decodeBigIntHexOrDecimal_prefixed, setBytes_hex2Bytes_invalid hex even invalid]

theorem decodeBigIntHexOrDecimal_numeral {s : List Char} {n : Nat} (numeral : Numeral s n)
    (whole : IsDecimal s ∨ s.length % 2 = 0) : decodeBigIntHexOrDecimal s = .ok (n : Int) := by
  cases numeral with
  | decimal decimal => exact decodeBigIntHexOrDecimal_decimal decimal
  | @hex h hex _ =>
    have notDecimal : ¬ IsDecimal (['0', 'x'] ++ h) := fun decimal =>
      absurd (decimal.2 'x' (by simp)) (by decide)
    have even : h.length % 2 = 0 := by
      have := whole.resolve_left notDecimal
      simp only [List.length_append, List.length_cons, List.length_nil] at this
      omega
    rw [decodeBigIntHexOrDecimal_hex hex, even, pow_zero, Nat.div_one]

theorem Numeral.head {s : List Char} {n : Nat} (numeral : Numeral s n) :
    ∃ c rest, s = c :: rest ∧ '0' ≤ c ∧ c ≤ '9' := by
  cases numeral with
  | decimal decimal =>
    obtain ⟨c, rest, split⟩ := List.exists_cons_of_ne_nil decimal.1
    exact ⟨c, rest, split, decimal.2 c (by simp [split])⟩
  | hex => exact ⟨'0', _, rfl, by decide⟩

theorem Numeral.ne_nil {s : List Char} {n : Nat} (numeral : Numeral s n) : s ≠ [] := by
  obtain ⟨c, rest, rfl, -⟩ := numeral.head
  exact List.cons_ne_nil c rest

theorem Numeral.ne_cons {s : List Char} {n : Nat} (numeral : Numeral s n) {c : Char}
    (letter : ¬('0' ≤ c ∧ c ≤ '9')) (rest : List Char) : s ≠ c :: rest := by
  obtain ⟨d, others, rfl, digit⟩ := numeral.head
  intro same
  rw [List.cons.injEq] at same
  exact letter (same.1 ▸ digit)

theorem Numeral.mem {s : List Char} {n : Nat} (numeral : Numeral s n) :
    ∀ c ∈ s, (fromHexChar c).isSome ∨ c = 'x' := by
  cases numeral with
  | decimal decimal =>
    intro c member
    exact .inl (by simp [fromHexChar, decimal.2 c member])
  | hex hex =>
    intro c member
    rcases List.mem_append.mp member with prefixed | digit
    · simp only [List.mem_cons, List.mem_nil_iff, or_false] at prefixed
      rcases prefixed with rfl | rfl
      · exact .inl rfl
      · exact .inr rfl
    · exact .inl (hex c digit)

end ZkevmNode.Encoding
