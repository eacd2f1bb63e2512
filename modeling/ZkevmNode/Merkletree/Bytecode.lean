import ZkevmNode.Go.Bytes
import ZkevmNode.Lib.Chain
import Mathlib.Data.List.GetD

set_option autoImplicit false

/-! `hashContractBytecode` (`merkletree/key.go`), the hash `StateTree.SetCode`
stores a contract's code under. The code gets `0x01`, zeros to a multiple of
56 bytes and the top bit of its last byte set; each 56 bytes become eight
elements of seven bytes read little-endian, and Poseidon compresses them with
the four capacity elements the previous call returned, starting from zero.
Poseidon is a parameter: its capacity and result have a type `C` with a zero,
which is `[4]uint64` in the code. -/

namespace ZkevmNode.Merkletree

open Go

/-- The padding loop `for len(code)%56 != 0 { code = append(code, 0x00) }`. -/
def padZeros (code : List UInt8) : List UInt8 :=
  if code.length % 56 = 0 then code else padZeros (code ++ [0])
termination_by (56 - code.length % 56) % 56
decreasing_by simp only [List.length_append, List.length_singleton]; omega

/-- The code `hashContractBytecode` hashes: `0x01` appended, zeros to a multiple
of 56 bytes, and `code[len(code)-1] |= 0x80`, in range since the code is not
empty. -/
def padBytecode (code : List UInt8) : List UInt8 :=
  let code := padZeros (code ++ [0x01])
  code.set (code.length - 1) (code.getD (code.length - 1) 0 ||| 0x80)

/-- The inner loop's state: `elementsToHash[4:index]`, `tmpElem` and `counter`. -/
structure PackState where
  elements : List UInt64
  tmpElem : List UInt8
  counter : Nat
deriving DecidableEq, Repr

/-- One `j` of the inner loop over a chunk: the byte (zero past the slice) goes
to `tmpElem[bytecodeBytesElement-1-counter]`, and every seven bytes `tmpElem`
becomes an element. -/
def packStep (subsetBytecode : List UInt8) (s : PackState) (j : Nat) : PackState :=
  let byteToAdd := subsetBytecode.getD j 0
  let tmpElem := s.tmpElem.set (7 - 1 - s.counter) byteToAdd
  let counter := s.counter + 1
  if counter = 7 then ⟨s.elements ++ [(uint64 (setBytes tmpElem)).toUInt64], List.replicate 7 0, 0⟩
  else ⟨s.elements, tmpElem, counter⟩

/-- The eight elements the inner loop `for j := 0; j < maxBytesToAdd; j++` makes
of a chunk. -/
def packChunk (subsetBytecode : List UInt8) : List UInt64 :=
  ((List.range 56).foldl (packStep subsetBytecode) ⟨[], List.replicate 7 0, 0⟩).elements

section Hash

variable {C ε : Type} (poseidonHash : List UInt64 → C → Except ε C)

/-- The outer loop, with `n` chunks left: the slice
`code[bytesPointer : min(len(code)-1, bytesPointer+maxBytesToAdd)+1]` is packed
and hashed with the capacity `tmpHash`. -/
def hashChunks (code : List UInt8) : Nat → Nat → C → Option (Except ε C)
  | 0, _, tmpHash => some (.ok tmpHash)
  | n + 1, bytesPointer, tmpHash => do
    let subsetBytecode ← slice code bytesPointer (min (code.length - 1) (bytesPointer + 56) + 1)
    match poseidonHash (packChunk subsetBytecode) tmpHash with
    | .error err => some (.error err)
    | .ok tmpHash => hashChunks code n (bytesPointer + 56) tmpHash

/-- `hashContractBytecode`; `none` is a panic. `numHashes` is
`math.Ceil(float64(len(code)) / float64(maxBytesToAdd))`, exact in floats for
these lengths. -/
def hashContractBytecode [Zero C] (code : List UInt8) : Option (Except ε C) :=
  let code := padBytecode code
  hashChunks poseidonHash code ((code.length + 55) / 56) 0 0

end Hash

theorem padZeros_eq (code : List UInt8) :
    padZeros code = code ++ List.replicate ((56 - code.length % 56) % 56) 0 := by
  fun_induction padZeros code with
  | case1 code aligned => simp [aligned]
  | case2 code unaligned ih =>
    -- one zero now and the rest in the recursive call
    have fewer : (56 - code.length % 56) % 56 = (56 - (code.length + 1) % 56) % 56 + 1 := by omega
    rw [ih, List.length_append, List.length_singleton, fewer, List.replicate_succ, List.append_assoc,
      List.singleton_append]

/-- What the padding appends to a code of `n` bytes: `0x81` when the `0x01`
completes a chunk, and otherwise `0x01`, zeros and `0x80`. -/
def paddingOf (n : Nat) : List UInt8 :=
  if (n + 1) % 56 = 0 then [0x81]
  else 0x01 :: List.replicate ((56 - (n + 1) % 56) % 56 - 1) 0 ++ [0x80]

theorem set_last (front : List UInt8) (last : UInt8) :
    (front ++ [last]).set ((front ++ [last]).length - 1) ((front ++ [last]).getD ((front ++ [last]).length - 1) 0 ||| 0x80) =
      front ++ [last ||| 0x80] := by
  simp [List.set_append_right, List.getD_eq_getElem?_getD]

theorem padBytecode_eq (code : List UInt8) : padBytecode code = code ++ paddingOf code.length := by
  unfold padBytecode paddingOf
  rw [padZeros_eq, List.length_append, List.length_singleton]
  split_ifs with completes
  · -- no zeros: the `0x01` itself gets the top bit
    rw [completes, Nat.sub_zero, Nat.mod_self, List.replicate_zero, List.append_nil, set_last]
    rfl
  · -- `0x01`, zeros, and a last zero that gets the top bit
    obtain ⟨zeros, more⟩ : ∃ zeros, (56 - (code.length + 1) % 56) % 56 = zeros + 1 :=
      ⟨(56 - (code.length + 1) % 56) % 56 - 1, by omega⟩
    rw [more, List.replicate_succ', ← List.append_assoc, set_last, Nat.add_sub_cancel]
    simp

theorem length_padBytecode (code : List UInt8) :
    (padBytecode code).length = 56 * ((code.length + 56) / 56) := by
  rw [padBytecode_eq, List.length_append]
  unfold paddingOf
  split_ifs <;> simp <;> omega

/-- The code a padded code came from: drop `0x81`, or drop `0x80`, the zeros
before it and the `0x01`. -/
def unpadBytecode (padded : List UInt8) : List UInt8 :=
  if padded.getLast? = some 0x81 then padded.dropLast
  else (padded.dropLast.reverse.dropWhile (· == 0)).reverse.dropLast

theorem unpadBytecode_padBytecode (code : List UInt8) : unpadBytecode (padBytecode code) = code := by
  rw [padBytecode_eq]
  unfold paddingOf
  split_ifs with completes
  · simp [unpadBytecode]
  · -- the last byte is `0x80`; before it come zeros, then the `0x01`
    have shape : code ++ (0x01 :: List.replicate ((56 - (code.length + 1) % 56) % 56 - 1) 0 ++ [0x80]) =
        (code ++ [0x01] ++ List.replicate ((56 - (code.length + 1) % 56) % 56 - 1) 0) ++ [0x80] := by
      simp
    rw [shape, unpadBytecode, if_neg (by rw [List.getLast?_concat]; decide), List.dropLast_concat,
      List.reverse_append, List.reverse_replicate, List.dropWhile_append_of_pos (by simp)]
    simp

theorem padBytecode_injective {c c' : List UInt8} (padded : padBytecode c = padBytecode c') : c = c' := by
  rw [← unpadBytecode_padBytecode c, padded, unpadBytecode_padBytecode]

/-- Bytes `7g` to `7g+6` of a chunk, zero past its end. -/
def chunkGroup (subsetBytecode : List UInt8) (g : Nat) : List UInt8 :=
  (List.range 7).map fun c => subsetBytecode.getD (7 * g + c) 0

/-- The element the inner loop makes of a group: `SetBytes` of its bytes in
reverse, which reads them little-endian. -/
def chunkElement (subsetBytecode : List UInt8) (g : Nat) : UInt64 :=
  (uint64 (setBytes (chunkGroup subsetBytecode g).reverse)).toUInt64

/-- The inner loop's state after `j` bytes: the elements of the groups so far,
and in `tmpElem` the bytes of the current group, last first, behind zeros. -/
def packedAfter (subsetBytecode : List UInt8) (j : Nat) : PackState :=
  ⟨(List.range (j / 7)).map (chunkElement subsetBytecode),
    List.replicate (7 - j % 7) 0 ++ ((List.range (j % 7)).map fun c => subsetBytecode.getD (7 * (j / 7) + c) 0).reverse,
    j % 7⟩

theorem set_replicate_append {α : Type} (m : Nat) (a b : α) (rest : List α) :
    (List.replicate (m + 1) a ++ rest).set m b = List.replicate m a ++ b :: rest := by
  induction m with
  | zero => rfl
  | succ m ih =>
    simp only [List.replicate_succ, List.cons_append, List.set_cons_succ] at ih ⊢
    rw [ih]

theorem packStep_packedAfter (subsetBytecode : List UInt8) (j : Nat) :
    packStep subsetBytecode (packedAfter subsetBytecode j) j = packedAfter subsetBytecode (j + 1) := by
  -- byte `r` of group `q`
  obtain ⟨q, r, small, rfl⟩ : ∃ q r, r < 7 ∧ j = 7 * q + r :=
    ⟨j / 7, j % 7, Nat.mod_lt j (by omega), (Nat.div_add_mod j 7).symm⟩
  have now : (7 * q + r) / 7 = q ∧ (7 * q + r) % 7 = r := by omega
  obtain ⟨free, spare⟩ : ∃ free, 7 - r = free + 1 := ⟨6 - r, by omega⟩
  simp only [packStep, packedAfter, now.1, now.2]
  rw [spare, show 7 - 1 - r = free by omega, set_replicate_append]
  by_cases closes : r + 1 = 7
  · -- the seventh byte: the group becomes an element
    obtain rfl : r = 6 := by omega
    obtain rfl : free = 0 := by omega
    have next : (7 * q + 6 + 1) / 7 = q + 1 ∧ (7 * q + 6 + 1) % 7 = 0 := by omega
    rw [if_pos closes, next.1, next.2, @List.range_succ q, List.map_append, List.map_singleton]
    rfl
  · have next : (7 * q + r + 1) / 7 = q ∧ (7 * q + r + 1) % 7 = r + 1 := by omega
    rw [if_neg closes, next.1, next.2, show 7 - (r + 1) = free by omega, @List.range_succ r,
      List.map_append, List.reverse_append]
    simp only [List.map_singleton, List.reverse_singleton, List.singleton_append]

theorem foldl_packStep (subsetBytecode : List UInt8) (j : Nat) :
    (List.range j).foldl (packStep subsetBytecode) ⟨[], List.replicate 7 0, 0⟩ = packedAfter subsetBytecode j := by
  induction j with
  | zero => rfl
  | succ j ih => rw [List.range_succ, List.foldl_append, ih, List.foldl_cons, List.foldl_nil, packStep_packedAfter]

theorem packChunk_eq (subsetBytecode : List UInt8) :
    packChunk subsetBytecode = (List.range 8).map (chunkElement subsetBytecode) := by
  rw [packChunk, foldl_packStep]
  rfl

theorem length_chunkGroup (subsetBytecode : List UInt8) (g : Nat) : (chunkGroup subsetBytecode g).length = 7 := by
  simp [chunkGroup]

theorem chunkElement_toNat (subsetBytecode : List UInt8) (g : Nat) :
    (chunkElement subsetBytecode g).toNat = setBytes (chunkGroup subsetBytecode g).reverse := by
  have small := setBytes_lt (chunkGroup subsetBytecode g).reverse
  rw [List.length_reverse, length_chunkGroup] at small
  simp only [chunkElement, uint64, Nat.toUInt64]
  rw [Nat.mod_eq_of_lt (by omega), UInt64.toNat_ofNat_of_lt' (by simp only [UInt64.size]; omega)]

theorem chunkElement_lt (subsetBytecode : List UInt8) (g : Nat) :
    (chunkElement subsetBytecode g).toNat < 2 ^ 56 := by
  have small := setBytes_lt (chunkGroup subsetBytecode g).reverse
  rw [List.length_reverse, length_chunkGroup] at small
  rw [chunkElement_toNat]
  omega

theorem chunkGroup_of_chunkElement {s t : List UInt8} {g : Nat} (same : chunkElement s g = chunkElement t g) :
    chunkGroup s g = chunkGroup t g := by
  have values : setBytes (chunkGroup s g).reverse = setBytes (chunkGroup t g).reverse := by
    rw [← chunkElement_toNat, ← chunkElement_toNat, same]
  exact List.reverse_inj.mp (setBytes_inj (by simp [length_chunkGroup]) values)

theorem packChunk_congr {s t : List UInt8} (agree : ∀ j < 56, s.getD j 0 = t.getD j 0) :
    packChunk s = packChunk t := by
  rw [packChunk_eq, packChunk_eq]
  refine List.map_congr_left fun g member => ?_
  have inside := List.mem_range.mp member
  simp only [chunkElement, chunkGroup]
  congr 4
  exact List.map_congr_left fun c within => agree _ (by have := List.mem_range.mp within; omega)

theorem getD_of_packChunk {s t : List UInt8} (same : packChunk s = packChunk t) :
    ∀ j < 56, s.getD j 0 = t.getD j 0 := by
  intro j inside
  rw [packChunk_eq, packChunk_eq] at same
  have element := List.map_inj_left.mp same (j / 7) (List.mem_range.mpr (by omega))
  have group := congrArg (·.getD (j % 7) 0) (chunkGroup_of_chunkElement element)
  simp only [chunkGroup, List.getD_eq_getElem?_getD, List.getElem?_map,
    List.getElem?_range (show j % 7 < 7 by omega), Option.map_some, Option.getD_some] at group
  rwa [Nat.div_add_mod] at group

/-- The Poseidon inputs `hashContractBytecode` builds: the elements of each 56
bytes of the padded code. -/
def bytecodeBlocks (code : List UInt8) : List (List UInt64) :=
  (List.range ((padBytecode code).length / 56)).map fun i => packChunk ((padBytecode code).drop (56 * i))

theorem length_bytecodeBlocks (code : List UInt8) :
    (bytecodeBlocks code).length = (code.length + 56) / 56 := by
  simp [bytecodeBlocks, length_padBytecode]

theorem bytecodeBlocks_elements {code : List UInt8} {block : List UInt64} (member : block ∈ bytecodeBlocks code) :
    block.length = 8 ∧ ∀ e ∈ block, e.toNat < 2 ^ 56 := by
  obtain ⟨i, -, rfl⟩ := List.mem_map.mp member
  rw [packChunk_eq]
  refine ⟨by simp, fun e element => ?_⟩
  obtain ⟨g, -, rfl⟩ := List.mem_map.mp element
  exact chunkElement_lt _ g

theorem getD_take_drop {padded : List UInt8} {lo n j : Nat} (within : j < n) :
    ((padded.drop lo).take n).getD j 0 = (padded.drop lo).getD j 0 := by
  simp [List.getD_eq_getElem?_getD, within]

section Hash

variable {C ε : Type} (poseidonHash : List UInt64 → C → Except ε C)

theorem hashChunks_eq (padded : List UInt8) :
    ∀ (n i : Nat) (tmpHash : C), 56 * (i + n) ≤ padded.length →
      hashChunks poseidonHash padded n (56 * i) tmpHash =
        some (Chain.run poseidonHash tmpHash ((List.range' i n).map fun k => packChunk (padded.drop (56 * k))))
  | 0, i, tmpHash, _ => rfl
  | n + 1, i, tmpHash, fits => by
    -- the slice reaches past the chunk's 56 bytes and stays in the code
    have sliced : slice padded (56 * i) (min (padded.length - 1) (56 * i + 56) + 1) =
        some ((padded.drop (56 * i)).take (min (padded.length - 1) (56 * i + 56) + 1 - 56 * i)) :=
      slice_of_le (by omega) (by omega)
    have chunk : packChunk ((padded.drop (56 * i)).take (min (padded.length - 1) (56 * i + 56) + 1 - 56 * i)) =
        packChunk (padded.drop (56 * i)) :=
      packChunk_congr fun j inside => getD_take_drop (by omega)
    simp only [hashChunks, sliced, Option.bind_eq_bind, Option.bind_some, chunk, List.range'_succ, List.map_cons,
      Chain.run_cons]
    cases poseidonHash (packChunk (padded.drop (56 * i))) tmpHash with
    | error err => rfl
    | ok tmpHash' =>
      show hashChunks poseidonHash padded n (56 * i + 56) tmpHash' =
        some (Chain.run poseidonHash tmpHash' ((List.range' (i + 1) n).map fun k => packChunk (padded.drop (56 * k))))
      rw [show 56 * i + 56 = 56 * (i + 1) by omega]
      exact hashChunks_eq padded n (i + 1) tmpHash' (by omega)

theorem hashContractBytecode_eq [Zero C] (code : List UInt8) :
    hashContractBytecode poseidonHash code = some (Chain.run poseidonHash 0 (bytecodeBlocks code)) := by
  have aligned := length_padBytecode code
  have chained := hashChunks_eq poseidonHash (padBytecode code) ((padBytecode code).length / 56) 0 0
    (by omega)
  rw [Nat.mul_zero, ← List.range_eq_range'] at chained
  rw [hashContractBytecode, show ((padBytecode code).length + 55) / 56 = (padBytecode code).length / 56 by omega,
    chained]
  rfl

end Hash

theorem bytecodeBlocks_injective {c c' : List UInt8} (same : bytecodeBlocks c = bytecodeBlocks c') : c = c' := by
  have count := congrArg List.length same
  rw [length_bytecodeBlocks, length_bytecodeBlocks] at count
  have lengths : (padBytecode c).length = (padBytecode c').length := by
    rw [length_padBytecode, length_padBytecode, count]
  apply padBytecode_injective
  refine List.ext_getElem lengths fun m inside inside' => ?_
  -- byte `m` is byte `m % 56` of chunk `m / 56`
  have blocks := congrArg (·.getD (m / 56) []) same
  have chunkIndex : m / 56 < (padBytecode c).length / 56 := by rw [length_padBytecode] at inside ⊢; omega
  have chunkIndex' : m / 56 < (padBytecode c').length / 56 := by rw [← lengths]; exact chunkIndex
  simp only [bytecodeBlocks, List.getD_eq_getElem?_getD, List.getElem?_map, List.getElem?_range chunkIndex,
    List.getElem?_range chunkIndex', Option.map_some, Option.getD_some] at blocks
  have byte := getD_of_packChunk blocks (m % 56) (Nat.mod_lt m (by omega))
  simp only [List.getD_eq_getElem?_getD, List.getElem?_drop, Nat.div_add_mod, List.getElem?_eq_getElem inside,
    List.getElem?_eq_getElem inside', Option.getD_some] at byte
  exact byte

theorem paddingOf_add (n : Nat) : paddingOf (n + 56) = paddingOf n := by
  have same : (n + 56 + 1) % 56 = (n + 1) % 56 := by omega
  simp only [paddingOf, same]

theorem bytecodeBlocks_chunk_append {chunk : List UInt8} (full : chunk.length = 56) (rest : List UInt8) :
    bytecodeBlocks (chunk ++ rest) = packChunk chunk :: bytecodeBlocks rest := by
  have padded : padBytecode (chunk ++ rest) = chunk ++ padBytecode rest := by
    rw [padBytecode_eq, padBytecode_eq, List.length_append, full, Nat.add_comm, paddingOf_add,
      List.append_assoc]
  have first : packChunk (chunk ++ padBytecode rest) = packChunk chunk :=
    packChunk_congr fun j inside => by
      simp [List.getD_eq_getElem?_getD, List.getElem?_append_left (show j < chunk.length by omega)]
  have later : ∀ i, (chunk ++ padBytecode rest).drop (56 * (i + 1)) = (padBytecode rest).drop (56 * i) := by
    intro i
    rw [show 56 * (i + 1) = chunk.length + 56 * i by omega, List.drop_append]
    simp
  rw [bytecodeBlocks, bytecodeBlocks, padded, List.length_append, full,
    show (56 + (padBytecode rest).length) / 56 = (padBytecode rest).length / 56 + 1 by omega,
    List.range_succ_eq_map, List.map_cons, List.map_map, Nat.mul_zero, List.drop_zero, first]
  simp only [Function.comp_def, Nat.succ_eq_add_one, later]

section Injective

variable {C ε : Type} [Zero C]

/-- Bytecode padding and packing are injective, and so is the hash when Poseidon
is injective and never returns the zero capacity. Different codes give different
blocks; every element is below `2^56`; there is one block for each 56 bytes of
the code and its `0x01`, rounded up, and one Poseidon call per block; and two
codes with the same hash are equal. -/
theorem hashContractBytecode_injective (poseidonHash : List UInt64 → C → Except ε C)
    (injective : ∀ x x' h h' out, poseidonHash x h = .ok out → poseidonHash x' h' = .ok out → x = x' ∧ h = h')
    (nonzero : ∀ x h, poseidonHash x h ≠ .ok 0) :
    (∀ c c' : List UInt8, c ≠ c' → bytecodeBlocks c ≠ bytecodeBlocks c') ∧
      (∀ code, ∀ block ∈ bytecodeBlocks code, block.length = 8 ∧ ∀ e ∈ block, e.toNat < 2 ^ 56) ∧
      (∀ code, (bytecodeBlocks code).length = (code.length + 56) / 56 ∧
        hashContractBytecode poseidonHash code = some (Chain.run poseidonHash 0 (bytecodeBlocks code))) ∧
      ∀ c c' out, hashContractBytecode poseidonHash c = some (.ok out) →
        hashContractBytecode poseidonHash c' = some (.ok out) → c = c' := by
  refine ⟨fun c c' differ same => differ (bytecodeBlocks_injective same), fun code block member =>
    bytecodeBlocks_elements member, fun code => ⟨length_bytecodeBlocks code, hashContractBytecode_eq poseidonHash code⟩,
    fun c c' out hashed hashed' => ?_⟩
  -- the chain determines its blocks, and the blocks the code
  rw [hashContractBytecode_eq, Option.some.injEq] at hashed hashed'
  exact bytecodeBlocks_injective (Chain.run_injective injective nonzero _ _ hashed hashed')

end Injective

/-- The capacity of an ideal Poseidon that keeps its inputs. -/
inductive FreeCapacity where
  | zero
  | hashed (elements : List UInt64) (capacity : FreeCapacity)
deriving DecidableEq, Repr

instance : Zero FreeCapacity := ⟨.zero⟩

/-- A Poseidon that records its inputs: injective, and never zero. -/
def freePoseidon (elements : List UInt64) (capacity : FreeCapacity) : Except Unit FreeCapacity :=
  .ok (.hashed elements capacity)

theorem freePoseidon_injective (x x' : List UInt64) (h h' out : FreeCapacity)
    (hashed : freePoseidon x h = .ok out) (hashed' : freePoseidon x' h' = .ok out) : x = x' ∧ h = h' := by
  simp only [freePoseidon, Except.ok.injEq] at hashed hashed'
  rw [← hashed'] at hashed
  injection hashed with elements capacity
  exact ⟨elements, capacity⟩

theorem run_freePoseidon (blocks : List (List UInt64)) (capacity : FreeCapacity) :
    ∃ out, Chain.run freePoseidon capacity blocks = .ok out := by
  induction blocks generalizing capacity with
  | nil => exact ⟨capacity, rfl⟩
  | cons block blocks ih => exact ih (.hashed block capacity)

theorem hashContractBytecode_injective_free :
    hashContractBytecode freePoseidon [] ≠ hashContractBytecode freePoseidon (List.replicate 56 0) := by
  obtain ⟨-, -, -, collisionFree⟩ := hashContractBytecode_injective freePoseidon freePoseidon_injective
    (fun x h hashed => by cases hashed)
  obtain ⟨out, ran⟩ := run_freePoseidon (bytecodeBlocks []) 0
  have hashed : hashContractBytecode freePoseidon [] = some (.ok out) := by
    rw [hashContractBytecode_eq, ran]
  intro same
  exact absurd (collisionFree [] _ out hashed (same ▸ hashed)) (by simp)

/-- A Poseidon that is injective but sends the zero block and the zero capacity
back to zero. -/
def zeroFixingPoseidon (elements : List UInt64) (capacity : FreeCapacity) : Except Unit FreeCapacity :=
  if elements = List.replicate 8 0 ∧ capacity = .zero then .ok .zero else .ok (.hashed elements capacity)

/-- An injective Poseidon is not enough: when it fixes zero, the empty code and
56 zero bytes collide, since the second block of the longer code meets the zero
capacity again and is the only block of the shorter. -/
theorem hashContractBytecode_zero_collision :
    ∃ poseidonHash : List UInt64 → FreeCapacity → Except Unit FreeCapacity,
      (∀ x x' h h' out, poseidonHash x h = .ok out → poseidonHash x' h' = .ok out → x = x' ∧ h = h') ∧
      hashContractBytecode poseidonHash [] = hashContractBytecode poseidonHash (List.replicate 56 0) ∧
      ([] : List UInt8) ≠ List.replicate 56 0 := by
  refine ⟨zeroFixingPoseidon, fun x x' h h' out hashed hashed' => ?_, ?_, by simp⟩
  · unfold zeroFixingPoseidon at hashed hashed'
    rw [← hashed'] at hashed
    split_ifs at hashed with fixes fixes'
    · exact ⟨fixes.1.trans fixes'.1.symm, fixes.2.trans fixes'.2.symm⟩
    · cases hashed
    · cases hashed
    · injection hashed with same
      injection same with elements capacity
      exact ⟨elements, capacity⟩
  · -- 56 zero bytes are a zero block, which brings the capacity back to zero
    have zeroGroup : ∀ g, chunkGroup (List.replicate 56 0) g = List.replicate 7 0 := fun g => by
      simp only [chunkGroup, List.getD_eq_getElem?_getD, List.getElem?_getD_replicate_default_eq, List.map_const',
        List.length_range]
    have zeros : packChunk (List.replicate 56 0) = List.replicate 8 0 := by
      have zeroElement : chunkElement (List.replicate 56 0) = fun _ => 0 := funext fun g => by
        rw [chunkElement, zeroGroup]
        rfl
      simp only [packChunk_eq, zeroElement, List.map_const', List.length_range]
    rw [hashContractBytecode_eq, hashContractBytecode_eq, ← List.append_nil (List.replicate 56 0),
      bytecodeBlocks_chunk_append (by simp), zeros, Chain.run_cons]
    rfl

end ZkevmNode.Merkletree
