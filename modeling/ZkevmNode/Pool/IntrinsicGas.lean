import Mathlib

set_option autoImplicit false

/-! The intrinsic gas of a pool transaction (`pool/pool.go`): `IntrinsicGas`
adds to the base gas 16 per non-zero byte of data and 4 per zero byte, in
`uint64`, guarding each addition against overflow with an integer division, and
`Pool.validateTx` rejects a transaction whose gas limit is below it. -/

namespace ZkevmNode.Pool

def txDataNonZeroGas : UInt64 := 16
def txGasContractCreation : UInt64 := 53000
def txGas : UInt64 := 21000
def txDataZeroGas : UInt64 := 4

def maxUint64 : UInt64 := 0xFFFFFFFFFFFFFFFF

/-- The errors of the intrinsic gas check. -/
inductive PoolError where
  /-- `ErrGasUintOverflow`, "gas uint64 overflow". -/
  | errGasUintOverflow
  /-- `ErrIntrinsicGas`, "intrinsic gas too low". -/
  | errIntrinsicGas
deriving DecidableEq, Repr

/-- The fields of a transaction the check reads: the recipient `To()` (nil for a
contract creation), the data and the gas limit. The data is a Go slice, whose
length is an `int`. -/
structure Transaction (A : Type) where
  recipient : Option A
  data : List UInt8
  gas : UInt64
  dataFits : data.length < 2 ^ 63

section Code

variable {A : Type}

/-- The loop counting the non-zero bytes of the data in a `uint64`. -/
def countNonZero (data : List UInt8) : UInt64 :=
  data.foldl (fun nz byt => if byt ≠ 0 then nz + 1 else nz) 0

/-- `IntrinsicGas`. -/
def intrinsicGas (tx : Transaction A) : Except PoolError UInt64 :=
  let gas : UInt64 := if tx.recipient.isNone then txGasContractCreation else txGas
  let dataLen : UInt64 := UInt64.ofNat tx.data.length
  if dataLen > 0 then
    let nz := countNonZero tx.data
    if (maxUint64 - gas) / txDataNonZeroGas < nz then .error .errGasUintOverflow
    else
      let gas := gas + nz * txDataNonZeroGas
      let z := dataLen - nz
      if (maxUint64 - gas) / txDataZeroGas < z then .error .errGasUintOverflow
      else .ok (gas + z * txDataZeroGas)
  else .ok gas

/-- The intrinsic gas check of `Pool.validateTx`. -/
def checkIntrinsicGas (tx : Transaction A) : Except PoolError Unit := do
  let intrGas ← intrinsicGas tx
  if tx.gas < intrGas then .error .errIntrinsicGas else .ok ()

/-- The intrinsic gas as a natural number: the base, 16 per non-zero byte of
data and 4 per zero byte. -/
def exactIntrinsicGas (tx : Transaction A) : Nat :=
  (if tx.recipient.isNone then 53000 else 21000) + 16 * tx.data.countP (· != 0) +
    4 * (tx.data.length - tx.data.countP (· != 0))

theorem foldl_countNonZero :
    ∀ (data : List UInt8) (nz : UInt64), nz.toNat + data.length < 2 ^ 64 →
      (data.foldl (fun nz byt => if byt ≠ 0 then nz + 1 else nz) nz).toNat = nz.toNat + data.countP (· != 0)
  | [], nz, _ => rfl
  | byt :: data, nz, fits => by
    rw [List.foldl_cons, List.countP_cons]
    by_cases zero : byt = 0
    · rw [if_neg (not_not.mpr zero), foldl_countNonZero data nz (by simp at fits; omega)]
      simp [zero]
    · have next : (nz + 1).toNat = nz.toNat + 1 := by
        rw [UInt64.toNat_add, UInt64.toNat_one]
        simp only [List.length_cons] at fits
        omega
      rw [if_pos zero, foldl_countNonZero data (nz + 1) (by simp at fits; omega), next]
      simp [zero]
      omega

theorem countNonZero_toNat {data : List UInt8} (fits : data.length < 2 ^ 64) :
    (countNonZero data).toNat = data.countP (· != 0) := by
  rw [countNonZero, foldl_countNonZero data 0 (by simpa using fits), UInt64.toNat_zero, Nat.zero_add]

theorem guard_iff (gas k count : UInt64) (positive : 0 < k.toNat) :
    (maxUint64 - gas) / k < count ↔ 2 ^ 64 ≤ gas.toNat + count.toNat * k.toNat := by
  have room : (maxUint64 - gas).toNat = 2 ^ 64 - 1 - gas.toNat := by
    rw [UInt64.toNat_sub_of_le _ _ (UInt64.le_iff_toNat_le.mpr (by have := gas.toNat_lt; simp [maxUint64]; omega))]
    rfl
  rw [UInt64.lt_iff_toNat_lt, UInt64.toNat_div, room, Nat.div_lt_iff_lt_mul positive]
  have := gas.toNat_lt
  omega

theorem add_mul_toNat {gas k count : UInt64} (fits : gas.toNat + count.toNat * k.toNat < 2 ^ 64) :
    (gas + count * k).toNat = gas.toNat + count.toNat * k.toNat := by
  rw [UInt64.toNat_add, UInt64.toNat_mul, Nat.mod_eq_of_lt (show count.toNat * k.toNat < 2 ^ 64 by omega),
    Nat.mod_eq_of_lt fits]

theorem guarded_add {gas k count : UInt64} {g rate n : Nat} (worth : gas.toNat = g)
    (counted : count.toNat = n) (price : k.toNat = rate) (positive : 0 < rate) :
    ((maxUint64 - gas) / k < count ↔ 2 ^ 64 ≤ g + n * rate) ∧
      (g + n * rate < 2 ^ 64 → (gas + count * k).toNat = g + n * rate) := by
  subst worth counted price
  exact ⟨guard_iff gas k count positive, add_mul_toNat⟩

theorem intrinsicGas_eq (tx : Transaction A) :
    intrinsicGas tx =
      if exactIntrinsicGas tx < 2 ^ 64 then .ok (UInt64.ofNat (exactIntrinsicGas tx)) else .error .errGasUintOverflow := by
  have lengthFits : tx.data.length < 2 ^ 64 := by have := tx.dataFits; omega
  have dataLen : (UInt64.ofNat tx.data.length).toNat = tx.data.length := UInt64.toNat_ofNat_of_lt' lengthFits
  have nz := countNonZero_toNat lengthFits
  have counted : tx.data.countP (· != 0) ≤ tx.data.length := List.countP_le_length
  have nonZeroGas : txDataNonZeroGas.toNat = 16 := rfl
  have zeroGas : txDataZeroGas.toNat = 4 := rfl
  unfold intrinsicGas exactIntrinsicGas
  dsimp only
  -- the base gas, as a word and as a number
  generalize baseDef : (if tx.recipient.isNone then txGasContractCreation else txGas) = gas
  generalize baseValueDef : (if tx.recipient.isNone = true then 53000 else 21000) = base
  have baseWord : gas.toNat = base := by
    rw [← baseDef, ← baseValueDef]
    split <;> rfl
  have small : base ≤ 53000 := by
    rw [← baseValueDef]
    split <;> omega
  generalize countDef : tx.data.countP (· != 0) = c at nz counted
  by_cases empty : tx.data = []
  · -- no data: the base alone
    have none : UInt64.ofNat tx.data.length = 0 := by rw [empty]; rfl
    have length : tx.data.length = 0 := by rw [empty]; rfl
    rw [if_neg (show ¬(UInt64.ofNat tx.data.length > 0) by rw [none]; decide),
      if_pos (show base + 16 * c + 4 * (tx.data.length - c) < 2 ^ 64 by omega)]
    congr
    rw [← UInt64.toNat_inj, baseWord, UInt64.toNat_ofNat_of_lt' (by simp only [UInt64.size]; omega)]
    omega
  · have positive : 0 < tx.data.length := List.length_pos_iff.mpr empty
    rw [if_pos (show UInt64.ofNat tx.data.length > 0 from
      UInt64.lt_iff_toNat_lt.mpr (by rw [dataLen]; exact positive))]
    -- the first guard, on the non-zero bytes
    obtain ⟨firstGuard, firstSum⟩ := guarded_add baseWord nz nonZeroGas (by decide)
    by_cases first : 2 ^ 64 ≤ base + c * 16
    · rw [if_pos (firstGuard.mpr first),
        if_neg (show ¬(base + 16 * c + 4 * (tx.data.length - c) < 2 ^ 64) by omega)]
    rw [if_neg (mt firstGuard.mp first)]
    have zeros : (UInt64.ofNat tx.data.length - countNonZero tx.data).toNat = tx.data.length - c := by
      rw [UInt64.toNat_sub_of_le _ _ (UInt64.le_iff_toNat_le.mpr (by rw [dataLen, nz]; exact counted)), dataLen, nz]
    -- the second guard, on the zero bytes
    obtain ⟨secondGuard, secondSum⟩ := guarded_add (firstSum (by omega)) zeros zeroGas (by decide)
    by_cases second : 2 ^ 64 ≤ base + c * 16 + (tx.data.length - c) * 4
    · rw [if_pos (secondGuard.mpr second),
        if_neg (show ¬(base + 16 * c + 4 * (tx.data.length - c) < 2 ^ 64) by omega)]
    rw [if_neg (mt secondGuard.mp second),
      if_pos (show base + 16 * c + 4 * (tx.data.length - c) < 2 ^ 64 by omega)]
    congr
    rw [← UInt64.toNat_inj, secondSum (by omega),
      UInt64.toNat_ofNat_of_lt' (by simp only [UInt64.size]; omega)]
    omega

theorem checkIntrinsicGas_eq (tx : Transaction A) :
    checkIntrinsicGas tx =
      if exactIntrinsicGas tx < 2 ^ 64 then
        (if tx.gas.toNat < exactIntrinsicGas tx then .error .errIntrinsicGas else .ok ())
      else .error .errGasUintOverflow := by
  rw [checkIntrinsicGas, intrinsicGas_eq]
  by_cases fits : exactIntrinsicGas tx < 2 ^ 64
  · have below : tx.gas < UInt64.ofNat (exactIntrinsicGas tx) ↔ tx.gas.toNat < exactIntrinsicGas tx := by
      rw [UInt64.lt_iff_toNat_lt, UInt64.toNat_ofNat_of_lt' (Nat.lt_of_lt_of_eq fits rfl)]
    rw [if_pos fits, if_pos fits]
    change (if tx.gas < UInt64.ofNat (exactIntrinsicGas tx) then (.error .errIntrinsicGas : Except PoolError Unit)
      else .ok ()) = _
    by_cases short : tx.gas.toNat < exactIntrinsicGas tx
    · rw [if_pos (below.mpr short), if_pos short]
    · rw [if_neg (fun less => short (below.mp less)), if_neg short]
  · rw [if_neg fits, if_neg fits]
    rfl

/-- Intrinsic gas is exact or reports overflow: `IntrinsicGas` returns the base
gas plus 16 per non-zero byte and 4 per zero byte when it fits in 64 bits, and
`ErrGasUintOverflow` exactly when it does not. The check of `validateTx` then
returns `ErrIntrinsicGas` exactly when the value fits and the gas limit is
below it, and passes exactly when the gas limit reaches it. -/
theorem intrinsicGas_exact (tx : Transaction A) :
    (exactIntrinsicGas tx ≤ 2 ^ 64 - 1 → intrinsicGas tx = .ok (UInt64.ofNat (exactIntrinsicGas tx))) ∧
      (intrinsicGas tx = .error .errGasUintOverflow ↔ 2 ^ 64 - 1 < exactIntrinsicGas tx) ∧
      (checkIntrinsicGas tx = .error .errIntrinsicGas ↔
        exactIntrinsicGas tx ≤ 2 ^ 64 - 1 ∧ tx.gas.toNat < exactIntrinsicGas tx) ∧
      (checkIntrinsicGas tx = .ok () ↔ exactIntrinsicGas tx ≤ tx.gas.toNat) := by
  have gasFits := tx.gas.toNat_lt
  rw [intrinsicGas_eq, checkIntrinsicGas_eq]
  by_cases fits : exactIntrinsicGas tx < 2 ^ 64
  · rw [if_pos fits, if_pos fits]
    -- the value fits: only the gas limit decides
    by_cases short : tx.gas.toNat < exactIntrinsicGas tx
    · rw [if_pos short]
      refine ⟨fun _ => rfl, ⟨(fun wrong => by cases wrong), fun tooLarge => by omega⟩, ⟨fun _ => ⟨by omega, short⟩,
        fun _ => rfl⟩, ⟨(fun wrong => by cases wrong), fun reaches => by omega⟩⟩
    · rw [if_neg short]
      refine ⟨fun _ => rfl, ⟨(fun wrong => by cases wrong), fun tooLarge => by omega⟩, ⟨(fun wrong => by cases wrong),
        fun both => absurd both.2 short⟩, ⟨fun _ => by omega, fun _ => rfl⟩⟩
  · -- the value does not fit: both report the overflow
    rw [if_neg fits, if_neg fits]
    refine ⟨fun small => by omega, ⟨fun _ => by omega, fun _ => rfl⟩, ⟨(fun wrong => by cases wrong),
      fun both => by omega⟩, ⟨(fun wrong => by cases wrong), fun reaches => by omega⟩⟩

/-- A contract creation with one zero and one non-zero byte. -/
example : intrinsicGas ⟨(none : Option Unit), [0, 1], 60000, by decide⟩ = .ok 53020 := by decide

end Code

end ZkevmNode.Pool
