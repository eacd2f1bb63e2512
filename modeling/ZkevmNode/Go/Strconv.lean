import ZkevmNode.Go.Bytes
import Mathlib.Data.Nat.Digits.Defs

set_option autoImplicit false

/-! Numbers written as text: `strconv.ParseUint`/`ParseInt` for an explicit base,
`big.Int.SetString` and `Text` for an explicit base, and the zero padding of
`fmt`'s `%0Ns` verb. Strings are lists of characters; every string these
functions meet in the models is ASCII, where Go's bytes are the characters. -/

namespace Go

/-- The digit value `strconv` and `math/big` give a character, in bases up to 36:
`'0'`–`'9'`, then letters of either case from ten on. -/
def digitValue (c : Char) : Option Nat :=
  if '0' ≤ c ∧ c ≤ '9' then some (c.toNat - '0'.toNat)
  else if 'a' ≤ c ∧ c ≤ 'z' then some (c.toNat - 'a'.toNat + 10)
  else if 'A' ≤ c ∧ c ≤ 'Z' then some (c.toNat - 'A'.toNat + 10)
  else none

/-- The errors of `strconv.ParseUint` and `ParseInt`. -/
inductive NumError where
  | errSyntax
  | errRange
  deriving DecidableEq, Repr

/-- The digit loop of `strconv.ParseUint` in base `base`, with accumulator `n`.
It stops at the first invalid digit and at the first overflow of `maxVal`. -/
def parseUintLoop (base maxVal : Nat) : Nat → List Char → Except NumError Nat
  | n, [] => .ok n
  | n, c :: rest =>
    match digitValue c with
    | none => .error .errSyntax
    | some d =>
      if base ≤ d then .error .errSyntax
      else if (2 ^ 64 - 1) / base + 1 ≤ n then .error .errRange
      else if maxVal < n * base + d then .error .errRange
      else parseUintLoop base maxVal (n * base + d) rest

/-- `strconv.ParseUint(s, base, bitSize)` for `2 ≤ base ≤ 36` and `0 < bitSize ≤ 64`. -/
def parseUint (s : List Char) (base bitSize : Nat) : Except NumError Nat :=
  if s = [] then .error .errSyntax else parseUintLoop base (2 ^ bitSize - 1) 0 s

/-- The optional leading sign both `strconv` and `math/big` accept: whether the
number is negative, and the digits after the sign. -/
def splitSign : List Char → Bool × List Char
  | '+' :: rest => (false, rest)
  | '-' :: rest => (true, rest)
  | s => (false, s)

/-- `strconv.ParseInt(s, base, bitSize)`: an optional sign, then `ParseUint`, then
the signed range check. -/
def parseInt (s : List Char) (base bitSize : Nat) : Except NumError Int :=
  if s = [] then .error .errSyntax else
  let (neg, digits) := splitSign s
  match parseUint digits base bitSize with
  | .error .errSyntax => .error .errSyntax
  | .error .errRange => .error .errRange
  | .ok un =>
    if !neg && 2 ^ (bitSize - 1) ≤ un then .error .errRange
    else if neg && 2 ^ (bitSize - 1) < un then .error .errRange
    else .ok (if neg then -(un : Int) else un)

/-- A property of every character of a string is decided along the string, not
over every character there is. -/
instance decidableBAllChars (p : Char → Prop) [DecidablePred p] (l : List Char) :
    Decidable (∀ c ∈ l, p c) :=
  List.decidableBAll p l

/-- `new(big.Int).SetString(s, base)` for `2 ≤ base ≤ 36`: an optional sign and at
least one digit, all of `s` consumed; `none` is the `ok = false` result. -/
def setString (s : List Char) (base : Nat) : Option Int :=
  let (neg, digits) := splitSign s
  if digits ≠ [] ∧ ∀ c ∈ digits, ∃ d, digitValue c = some d ∧ d < base then
    let value : Int := BigEndian.value base (digits.map fun c => (digitValue c).getD 0)
    some (if neg then -value else value)
  else none

/-- `x.Text(base)` of a non-negative `x`: lowercase digits, `"0"` for zero. -/
def text (base x : Nat) : List Char := Nat.toDigits base x

/-- `x.Text(base)`: a minus sign before the digits of a negative `x`. -/
def intText (base : Nat) (x : Int) : List Char :=
  if x < 0 then '-' :: text base x.natAbs else text base x.natAbs

/-- `fmt.Sprintf("%0<width>s", s)`: `s` left-padded with zeros to `width`
characters. -/
def sprintfZeroPad (width : Nat) (s : List Char) : List Char :=
  List.replicate (width - s.length) '0' ++ s

/-- The `%q` verb of `fmt` on a string: the string between double quotes, with a
backslash before each double quote and backslash in it. Go writes control and
other non-printable characters as escapes too; they are kept as they are here. -/
def quoted (s : List Char) : List Char :=
  let quote := Char.ofNat 34
  let backslash := Char.ofNat 92
  quote :: s.flatMap (fun c => if c = quote ∨ c = backslash then [backslash, c] else [c]) ++ [quote]

/-- `strings.TrimPrefix(s, p)`, which is also what `HasPrefix` followed by
slicing the prefix off does. -/
def trimPrefix (p s : List Char) : List Char := if p.isPrefixOf s then s.drop p.length else s

@[simp] theorem trimPrefix_append (p s : List Char) : trimPrefix p (p ++ s) = s := by
  simp [trimPrefix]

@[simp] theorem length_sprintfZeroPad (width : Nat) (s : List Char) (short : s.length ≤ width) :
    (sprintfZeroPad width s).length = width := by
  simp [sprintfZeroPad]
  omega

@[simp] theorem hexValue_sprintfZeroPad (width : Nat) (s : List Char) :
    hexValue (sprintfZeroPad width s) = hexValue s := by
  simp [sprintfZeroPad]

theorem isHex_sprintfZeroPad {width : Nat} {s : List Char} (hex : IsHex s) :
    IsHex (sprintfZeroPad width s) := by
  intro c member
  simp only [sprintfZeroPad, List.mem_append, List.mem_replicate] at member
  rcases member with ⟨-, zero⟩ | digit
  · rw [zero]
    rfl
  · exact hex c digit

theorem hex_text_succ {x : Nat} (large : 16 ≤ x) :
    text 16 x = text 16 (x / 16) ++ [Nat.digitChar (x % 16)] :=
  Nat.toDigits_of_base_le (by omega) large

theorem hexValue_text (x : Nat) : IsHex (text 16 x) ∧ hexValue (text 16 x) = x := by
  induction x using Nat.strongRecOn with
  | ind x ih =>
    by_cases large : 16 ≤ x
    · obtain ⟨hex, value⟩ := ih (x / 16) (by omega)
      have digit := fromHexChar_digitChar (d := x % 16) (by omega)
      rw [hex_text_succ large]
      refine ⟨?_, ?_⟩
      · intro c member
        rcases List.mem_append.mp member with high | low
        · exact hex c high
        · rw [List.mem_singleton.mp low, digit]
          rfl
      · rw [hexValue_append, value]
        simp [hexValue, digit]
        omega
    · have single : text 16 x = [Nat.digitChar x] := Nat.toDigits_of_lt_base (by omega)
      have digit := fromHexChar_digitChar (d := x) (by omega)
      rw [single]
      refine ⟨?_, by simp [hexValue, digit]⟩
      intro c member
      rw [List.mem_singleton.mp member, digit]
      rfl

theorem length_text_le {x k : Nat} (positive : 0 < k) (small : x < 16 ^ k) :
    (text 16 x).length ≤ k :=
  Nat.toDigits_length 16 x k positive small

theorem decodeString_sprintfZeroPad (width : Nat) {x : Nat} (positive : 0 < width)
    (even : width % 2 = 0) (small : x < 16 ^ width) :
    ∃ b, decodeString (sprintfZeroPad width (text 16 x)) = .ok b ∧ 2 * b.length = width ∧
      setBytes b = x := by
  obtain ⟨hex, value⟩ := hexValue_text x
  have short := length_text_le positive small
  obtain ⟨b, decoded, bValue, bLength⟩ := decodeString_ok (isHex_sprintfZeroPad hex)
    (by rw [length_sprintfZeroPad _ _ short]; exact even)
  refine ⟨b, decoded, ?_, ?_⟩
  · rw [bLength, length_sprintfZeroPad _ _ short]
  · rw [bValue, hexValue_sprintfZeroPad, value]

theorem digitValue_of_fromHexChar {c : Char} {d : Nat} (digit : fromHexChar c = some d) :
    digitValue c = some d := by
  unfold fromHexChar at digit
  unfold digitValue
  split_ifs at digit with decimal lower upper <;> cases digit
  · simp [decimal]
  · have top := char_toNat_le lower.2
    have z : c ≤ 'z' := by
      simp only [Char.le_def, UInt32.le_iff_toNat_le]
      simp at top ⊢
      omega
    have notDecimal : ¬('0' ≤ c ∧ c ≤ '9') := decimal
    simp [notDecimal, lower.1, z]
  · have top := char_toNat_le upper.2
    simp at top
    have capitalZ : c ≤ 'Z' := by
      simp only [Char.le_def, UInt32.le_iff_toNat_le]
      change c.toNat ≤ 90
      omega
    have notLower : ¬('a' ≤ c ∧ c ≤ 'z') := by
      intro both
      have bottom := char_toNat_le both.1
      simp at bottom
      omega
    simp [decimal, notLower, upper.1, capitalZ]

theorem fromHexChar_of_digitValue {c : Char} {d : Nat} (digit : digitValue c = some d) (small : d < 16) :
    fromHexChar c = some d := by
  unfold digitValue at digit
  unfold fromHexChar
  split_ifs at digit with decimal lower upper <;> cases digit
  · simp [decimal]
  · have f : c ≤ 'f' := by
      simp only [Char.le_def, UInt32.le_iff_toNat_le]
      have bottom := char_toNat_le lower.1
      simp at bottom small ⊢
      omega
    simp [decimal, lower.1, f]
  · have capitalF : c ≤ 'F' := by
      simp only [Char.le_def, UInt32.le_iff_toNat_le]
      have bottom := char_toNat_le upper.1
      simp at bottom small ⊢
      omega
    have notLower : ¬('a' ≤ c ∧ c ≤ 'f') := by
      intro both
      have bottom := char_toNat_le both.1
      have top := char_toNat_le upper.2
      simp at bottom top
      omega
    simp [decimal, notLower, upper.1, capitalF]

theorem parseUintLoop_isHex {maxVal : Nat} : ∀ {n v : Nat} {s : List Char},
    parseUintLoop 16 maxVal n s = .ok v → IsHex s
  | _, _, [], _ => by simp [IsHex]
  | n, v, c :: rest, parsed => by
    unfold parseUintLoop at parsed
    cases digit : digitValue c with
    | none => simp [digit] at parsed
    | some d =>
      simp only [digit] at parsed
      split_ifs at parsed with large
      have restHex := parseUintLoop_isHex parsed
      intro x member
      rcases List.mem_cons.mp member with rfl | member
      · simp [fromHexChar_of_digitValue digit (by omega)]
      · exact restHex x member

theorem parseUint_isHex {s : List Char} {bitSize v : Nat} (parsed : parseUint s 16 bitSize = .ok v) :
    s ≠ [] ∧ IsHex s := by
  unfold parseUint at parsed
  split_ifs at parsed with empty
  exact ⟨empty, parseUintLoop_isHex parsed⟩

theorem parseUintLoop_digits {base maxVal : Nat} (hb : 2 ≤ base) (bounded : maxVal < 2 ^ 64) :
    ∀ (n : Nat) (s : List Char) (ds : List Nat), s.map digitValue = ds.map some →
      (∀ d ∈ ds, d < base) → n ≤ maxVal →
      parseUintLoop base maxVal n s =
        if n * base ^ ds.length + BigEndian.value base ds ≤ maxVal
        then .ok (n * base ^ ds.length + BigEndian.value base ds) else .error .errRange
  | n, [], [], _, _, _ => by simp [parseUintLoop]; omega
  | _, [], _ :: _, digits, _, _ => by simp at digits
  | _, _ :: _, [], digits, _, _ => by simp at digits
  | n, c :: rest, d :: ds, digits, small, within => by
    simp only [List.map_cons, List.cons.injEq] at digits
    obtain ⟨first, others⟩ := digits
    have dSmall : d < base := small d (by simp)
    have grow : n * base ^ (ds.length + 1) + BigEndian.value base (d :: ds) =
        (n * base + d) * base ^ ds.length + BigEndian.value base ds := by
      rw [BigEndian.value_cons, Nat.pow_succ]
      ring
    have lower : n * base + d ≤ (n * base + d) * base ^ ds.length + BigEndian.value base ds := by
      have := Nat.le_mul_of_pos_right (n * base + d) (Nat.pow_pos (n := ds.length)
        (show 0 < base by omega))
      omega
    simp only [parseUintLoop, first, Nat.not_le.mpr dSmall, ↓reduceIte, List.length_cons]
    rw [grow]
    -- the cutoff test only fires when the next value overflows 64 bits anyway
    by_cases cut : (2 ^ 64 - 1) / base + 1 ≤ n
    · have wide : 2 ^ 64 - 1 < n * base :=
        (Nat.div_lt_iff_lt_mul (show 0 < base by omega)).mp (by omega)
      rw [if_pos cut, if_neg (by omega)]
    · rw [if_neg cut]
      by_cases overflows : maxVal < n * base + d
      · rw [if_pos overflows, if_neg (by omega)]
      · rw [if_neg overflows]
        exact parseUintLoop_digits hb bounded (n * base + d) rest ds others
          (fun x member => small x (by simp [member])) (by omega)

theorem parseUint_digits {base : Nat} (hb : 2 ≤ base) {s : List Char} {ds : List Nat} (nonempty : s ≠ [])
    (digits : s.map digitValue = ds.map some) (small : ∀ d ∈ ds, d < base) :
    parseUint s base 64 =
      if BigEndian.value base ds < 2 ^ 64 then .ok (BigEndian.value base ds) else .error .errRange := by
  have loop := parseUintLoop_digits hb (show 2 ^ 64 - 1 < 2 ^ 64 by omega) 0 s ds digits small (by omega)
  rw [Nat.zero_mul, Nat.zero_add] at loop
  rw [parseUint, if_neg nonempty, loop]
  by_cases fits : BigEndian.value base ds < 2 ^ 64
  · rw [if_pos (by omega), if_pos fits]
  · rw [if_neg (by omega), if_neg fits]

theorem splitSign_of_hex {c : Char} {rest : List Char} (digit : (fromHexChar c).isSome) :
    splitSign (c :: rest) = (false, c :: rest) := by
  by_cases plusSign : c = '+'
  · rw [plusSign] at digit
    exact absurd digit (by decide)
  by_cases minusSign : c = '-'
  · rw [minusSign] at digit
    exact absurd digit (by decide)
  simp [splitSign, plusSign, minusSign]

theorem map_digitValue_of_isHex {s : List Char} (hex : IsHex s) :
    s.map digitValue = (s.map fun c => (fromHexChar c).getD 0).map some := by
  rw [List.map_map]
  apply List.map_congr_left
  intro c member
  obtain ⟨d, digit⟩ := Option.isSome_iff_exists.mp (hex c member)
  simp [digitValue_of_fromHexChar digit, digit]

theorem hexDigits_lt {s : List Char} (hex : IsHex s) :
    ∀ d ∈ s.map (fun c => (fromHexChar c).getD 0), d < 16 := by
  intro d member
  obtain ⟨c, inside, rfl⟩ := List.mem_map.mp member
  obtain ⟨e, digit⟩ := Option.isSome_iff_exists.mp (hex c inside)
  simpa [digit] using fromHexChar_lt digit

theorem parseUint_text {x : Nat} (fits : x < 2 ^ 64) : parseUint (text 16 x) 16 64 = .ok x := by
  obtain ⟨hex, value⟩ := hexValue_text x
  have nonempty : text 16 x ≠ [] := by
    simp [text, Nat.toDigits_ne_nil]
  rw [parseUint_digits (by omega) nonempty (map_digitValue_of_isHex hex) (hexDigits_lt hex)]
  have read : BigEndian.value 16 ((text 16 x).map fun c => (fromHexChar c).getD 0) = x := value
  rw [read, if_pos fits]

theorem setString_digits {base : Nat} {s : List Char} {ds : List Nat} (unsigned : splitSign s = (false, s))
    (nonempty : s ≠ []) (digits : s.map digitValue = ds.map some) (small : ∀ d ∈ ds, d < base) :
    setString s base = some (BigEndian.value base ds : Int) := by
  have valid : ∀ c ∈ s, ∃ d, digitValue c = some d ∧ d < base := by
    intro c member
    have listed : digitValue c ∈ ds.map some := digits ▸ List.mem_map_of_mem member
    obtain ⟨d, inside, found⟩ := List.mem_map.mp listed
    exact ⟨d, found.symm, small d inside⟩
  have values : s.map (fun c => (digitValue c).getD 0) = ds := by
    have read := congrArg (List.map fun o => Option.getD o 0) digits
    simpa [List.map_map, Function.comp_def] using read
  simp only [setString, unsigned, if_pos (And.intro nonempty valid), values]
  rfl

theorem setString_of_isHex {s : List Char} (hex : IsHex s) (nonempty : s ≠ []) :
    setString s 16 = some (hexValue s : Int) := by
  obtain ⟨c, rest, split⟩ := List.exists_cons_of_ne_nil nonempty
  have unsigned : splitSign s = (false, s) := by
    rw [split]
    exact splitSign_of_hex (hex c (by simp [split]))
  exact setString_digits unsigned nonempty (map_digitValue_of_isHex hex) (hexDigits_lt hex)

theorem parseInt_encodeToString {b : List UInt8} (nonempty : b ≠ [])
    (fits : setBytes b < 2 ^ 63) :
    parseInt (encodeToString b) 16 64 = .ok (setBytes b) := by
  obtain ⟨first, rest, split⟩ := List.exists_cons_of_ne_nil nonempty
  have hex := isHex_encodeToString b
  have nonemptyText : encodeToString b ≠ [] := by
    intro empty
    have := congrArg List.length empty
    simp [split] at this
  obtain ⟨c, chars, text⟩ := List.exists_cons_of_ne_nil nonemptyText
  have sign : splitSign (encodeToString b) = (false, encodeToString b) := by
    rw [text]
    exact splitSign_of_hex (hex c (by simp [text]))
  have loop := parseUintLoop_digits (show 2 ≤ 16 by omega) (show 2 ^ 64 - 1 < 2 ^ 64 by omega) 0
    (encodeToString b) _ (map_digitValue_of_isHex hex) (hexDigits_lt hex) (by omega)
  have value : BigEndian.value 16 ((encodeToString b).map fun c => (fromHexChar c).getD 0) =
      setBytes b := hexValue_encodeToString b
  rw [value] at loop
  simp only [Nat.zero_mul, Nat.zero_add, if_pos (show setBytes b ≤ 2 ^ 64 - 1 by omega)] at loop
  simp only [parseInt, if_neg nonemptyText, sign, parseUint, loop]
  simpa using fits

end Go
