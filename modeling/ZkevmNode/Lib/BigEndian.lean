import Mathlib.Data.Nat.Digits.Lemmas

set_option autoImplicit false

/-! Big-endian digit strings over an arbitrary base: the value of a digit list
read most significant digit first, the minimal digits of a number, and the
fixed-width digits of a number. Byte strings (base 256), hexadecimal text
(base 16) and machine-word limbs (base `2 ^ w`) are all read through these. -/

namespace BigEndian

/-- Value of the digits `ds` in base `b`, most significant digit first. -/
def value (b : Nat) (ds : List Nat) : Nat := Nat.ofDigits b ds.reverse

@[simp] theorem value_nil (b : Nat) : value b [] = 0 := rfl

theorem value_append (b : Nat) (xs ys : List Nat) :
    value b (xs ++ ys) = value b xs * b ^ ys.length + value b ys := by
  simp only [value, List.reverse_append, Nat.ofDigits_append, List.length_reverse]
  ring

@[simp] theorem value_snoc (b : Nat) (xs : List Nat) (d : Nat) :
    value b (xs ++ [d]) = value b xs * b + d := by
  rw [value_append]
  simp [value]

@[simp] theorem value_singleton (b d : Nat) : value b [d] = d := by
  simp [value]

theorem value_cons (b : Nat) (d : Nat) (ds : List Nat) :
    value b (d :: ds) = d * b ^ ds.length + value b ds := by
  simpa [value] using value_append b [d] ds

@[simp] theorem value_replicate_zero_append (b k : Nat) (ds : List Nat) :
    value b (List.replicate k 0 ++ ds) = value b ds := by
  rw [value_append]
  simp [value]

theorem value_lt {b : Nat} (hb : 1 < b) {ds : List Nat} (small : ∀ d ∈ ds, d < b) :
    value b ds < b ^ ds.length := by
  have bound := Nat.ofDigits_lt_base_pow_length hb (l := ds.reverse) (by simpa using small)
  simpa [value] using bound

theorem value_inj {b : Nat} (hb : 1 < b) {ds ds' : List Nat} (same : ds.length = ds'.length)
    (small : ∀ d ∈ ds, d < b) (small' : ∀ d ∈ ds', d < b) (equal : value b ds = value b ds') :
    ds = ds' := by
  have reversed := Nat.ofDigits_inj_of_len_eq hb (by simpa using same) (by simpa using small)
    (by simpa using small') equal
  exact List.reverse_inj.mp reversed

/-- The minimal big-endian digits of `n`; zero has none. -/
def digits (b n : Nat) : List Nat := (Nat.digits b n).reverse

@[simp] theorem value_digits (b n : Nat) : value b (digits b n) = n := by
  simp [value, digits, Nat.ofDigits_digits]

theorem digits_lt {b : Nat} (hb : 1 < b) (n : Nat) : ∀ d ∈ digits b n, d < b := by
  intro d member
  exact Nat.digits_lt_base hb (List.mem_reverse.mp member)

theorem digits_length_le {b : Nat} (hb : 1 < b) {n k : Nat} (small : n < b ^ k) :
    (digits b n).length ≤ k := by
  simpa [digits] using (Nat.digits_length_le_iff hb n).mpr small

/-- The `w` low digits of `n` in base `b`, most significant first. -/
def fixed (b : Nat) : Nat → Nat → List Nat
  | 0, _ => []
  | w + 1, n => fixed b w (n / b) ++ [n % b]

@[simp] theorem length_fixed (b w n : Nat) : (fixed b w n).length = w := by
  induction w generalizing n with
  | zero => rfl
  | succ w ih => simp [fixed, ih]

theorem value_fixed (b w n : Nat) : value b (fixed b w n) = n % b ^ w := by
  induction w generalizing n with
  | zero => simp [fixed, Nat.mod_one]
  | succ w ih =>
    rw [fixed, value_snoc, ih, Nat.pow_succ, Nat.mul_comm (b ^ w) b, Nat.mod_mul]
    ring

theorem fixed_lt {b : Nat} (hb : 0 < b) (w n : Nat) : ∀ d ∈ fixed b w n, d < b := by
  induction w generalizing n with
  | zero => simp [fixed]
  | succ w ih =>
    intro d member
    simp only [fixed, List.mem_append, List.mem_singleton] at member
    rcases member with inner | last
    · exact ih (n / b) d inner
    · rw [last]
      exact Nat.mod_lt n hb

theorem fixed_add (b : Nat) (high low n : Nat) :
    fixed b (high + low) n = fixed b high (n / b ^ low) ++ fixed b low n := by
  induction low generalizing n with
  | zero => simp [fixed]
  | succ low ih =>
    rw [← Nat.add_assoc, fixed, ih, fixed, List.append_assoc, Nat.div_div_eq_div_mul,
      Nat.pow_succ, Nat.mul_comm]

end BigEndian
