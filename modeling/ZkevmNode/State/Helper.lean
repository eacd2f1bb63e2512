import ZkevmNode.State.Transaction
import ZkevmNode.Lib.Except

set_option autoImplicit false

/-! `EncodeTransactions` and `DecodeTxs` from `state/helper.go`: batch L2 data
is a run of frames, each an RLP list of transaction fields followed by the 65
signature bytes `r ‖ s ‖ v`. The RLP package enters as parameters
`encodeToBytes` and `decodeBytes`, standing for `rlp.EncodeToBytes` and for
`rlp.DecodeBytes` into a `[][]byte`, and `chainId` stands for go-ethereum's
`Transaction.ChainId`. The decoding loop is split into the header step
`headerLength`, the pass `decodeStep` and the loop `decodeLoop`; the theorems
then say which inputs decode, and to what. -/

namespace ZkevmNode.State

open Go

/-- The errors `EncodeTransactions` returns, `ε` being those of the RLP package. -/
inductive EncodeError (ε : Type) where
  /-- `rlp.EncodeToBytes` failed. -/
  | rlp (e : ε)
  /-- `hex.DecodeString` rejected the assembled hexadecimal text. -/
  | hex (e : HexError)

section Encode

variable {ε : Type} (encodeToBytes : List Rlp.Value → Except ε (List UInt8))
  (chainId : LegacyTx → Nat)

/-- The list `EncodeTransactions` hands to the RLP encoder: the fields without
the signature, and `chainID, 0, 0` when the chain id is not zero. -/
def rlpFieldsToEncode (tx : LegacyTx) : List Rlp.Value :=
  [.uint tx.nonce.toNat, .uint tx.gasPrice, .uint tx.gas.toNat, .address tx.toAddress,
    .uint tx.value, .str tx.data] ++
  if 0 < uint64 (chainId tx) then [.uint (chainId tx), .uint 0, .uint 0] else []

/-- The body of the `EncodeTransactions` loop for one transaction: the RLP list,
then `r` and `s` as 64 hexadecimal digits and `v` rewritten to `27` or `28` from
its parity, all decoded from one hexadecimal string. -/
def encodeTxFrame (tx : LegacyTx) : Except (EncodeError ε) (List UInt8) := do
  let sign := 1 - tx.v.natAbs % 2 ^ 64 % 2
  let txCodedRlp ← (encodeToBytes (rlpFieldsToEncode chainId tx)).mapError .rlp
  let newV := 27 + sign
  let newRPadded := sprintfZeroPad 64 (text 16 tx.r)
  let newSPadded := sprintfZeroPad 64 (text 16 tx.s)
  let newVPadded := sprintfZeroPad 2 (text 16 newV)
  (decodeString (encodeToString txCodedRlp ++ newRPadded ++ newSPadded ++ newVPadded)).mapError
    .hex

/-- `EncodeTransactions`: the frames of the transactions, one after the other;
the first error stops the loop. -/
def encodeTransactions : List LegacyTx → Except (EncodeError ε) (List UInt8)
  | [] => .ok []
  | tx :: txs => do
    let txData ← encodeTxFrame encodeToBytes chainId tx
    let batchL2Data ← encodeTransactions txs
    return txData ++ batchL2Data

theorem length_encodeTxFrame {tx : LegacyTx} {frame : List UInt8}
    (encoded : encodeTxFrame encodeToBytes chainId tx = .ok frame) : 65 ≤ frame.length := by
  unfold encodeTxFrame at encoded
  obtain ⟨txCodedRlp, -, decoded⟩ := Except.bind_eq_ok.mp encoded
  have doubled := length_decodeString (Except.mapError_eq_ok.mp decoded)
  -- the padding never shortens a text
  have padded : ∀ width s, width ≤ (sprintfZeroPad width s).length := fun width s => by
    simp only [sprintfZeroPad, List.length_append, List.length_replicate]
    omega
  have r := padded 64 (text 16 tx.r)
  have s := padded 64 (text 16 tx.s)
  have v := padded 2 (text 16 (27 + (1 - tx.v.natAbs % 2 ^ 64 % 2)))
  simp only [List.length_append] at doubled
  omega

theorem encodeTransactions_ne_nil {tx : LegacyTx} {txs : List LegacyTx} {data : List UInt8}
    (encoded : encodeTransactions encodeToBytes chainId (tx :: txs) = .ok data) : data ≠ [] := by
  obtain ⟨frame, framed, rest⟩ := Except.bind_eq_ok.mp encoded
  obtain ⟨batchL2Data, -, joined⟩ := Except.bind_eq_ok.mp rest
  have long := length_encodeTxFrame encodeToBytes chainId framed
  cases joined
  intro empty
  rw [(List.append_eq_nil_iff.mp empty).1] at long
  cases long

end Encode

/-- The errors `DecodeTxs` returns, `ε` being those of `rlp.DecodeBytes`. -/
inductive DecodeError (ε : Type) where
  /-- `strconv.ParseInt` rejected the long-form length bytes. -/
  | parseLength (e : NumError)
  /-- `ErrInvalidData`: the frame length is negative or exceeds the data. -/
  | invalidData
  /-- `rlp.DecodeBytes` rejected the frame. -/
  | rlp (e : ε)
  /-- `RlpFieldsToLegacyTx` rejected the fields. -/
  | tx (e : TxError)

/-- How one pass of the `DecodeTxs` loop ends. -/
inductive Pass (ε : Type) where
  /-- The function returns `result` from inside the loop. -/
  | exit (result : Except (DecodeError ε) (List LegacyTx))
  /-- A frame of declared length `len` decoded to `tx`; the loop goes on. -/
  | decoded (len : Nat) (tx : LegacyTx)
  /-- A slice expression reached past the data. -/
  | panic

section Decode

variable {ε : Type} (decodeBytes : List UInt8 → Except ε (List (List UInt8)))

/-- The frame length `len` computed from the header byte at `pos`, or the early
return taken while computing it. The long-form bounds check returns `err`, which
is still `nil` there: the data is reported as an empty batch without error. -/
def headerLength (txsData : List UInt8) (pos : Nat) :
    Except (Except (DecodeError ε) (List LegacyTx)) Int :=
  let num : Int := (txsData.getD pos 0).toNat
  if num - 192 ≤ 55 then .ok (num - 192)
  else if (txsData.length : Int) < pos + 1 + num - 247 then .error (.ok [])
  else
    -- the slice `txsData[pos+1 : pos+1+num-f7]` is in range: it was just checked
    let lengthBytes := (txsData.drop (pos + 1)).take (num - 247).toNat
    match parseInt (encodeToString lengthBytes) 16 64 with
    | .error e => .error (.error (.parseLength e))
    | .ok n => .ok (n + num - 247)

/-- One pass of the loop at `pos`: the bounds check on `len`, the five slices
`fullDataTx`, `txInfo`, `rData`, `sData`, `vData` in the order the code takes
them, then the RLP decoding and `RlpFieldsToLegacyTx`. -/
def decodeStep (txsData : List UInt8) (pos : Nat) : Pass ε :=
  match headerLength txsData pos with
  | .error result => .exit result
  | .ok len =>
    if (txsData.length : Int) < len ∨ len < 0 then .exit (.error .invalidData) else
    let l := len.toNat
    match slice txsData pos (pos + l + 66), slice txsData pos (pos + l + 1),
      slice txsData (pos + l + 1) (pos + l + 33), slice txsData (pos + l + 33) (pos + l + 65),
      slice txsData (pos + l + 65) (pos + l + 66) with
    | some _, some txInfo, some rData, some sData, some vData =>
      match decodeBytes txInfo with
      | .error e => .exit (.error (.rlp e))
      | .ok rlpFields =>
        match rlpFieldsToLegacyTx rlpFields vData rData sData with
        | .error e => .exit (.error (.tx e))
        | .ok tx => .decoded l tx
    | _, _, _, _, _ => .panic

/-- The `for pos < len(txsData)` loop, with the decoded transactions `txs` so
far; `none` is a panic. -/
def decodeLoop (txsData : List UInt8) (pos : Nat) (txs : List LegacyTx) :
    Option (Except (DecodeError ε) (List LegacyTx)) :=
  if pos < txsData.length then
    match decodeStep decodeBytes txsData pos with
    | .exit result => some result
    | .panic => none
    | .decoded len tx => decodeLoop txsData (pos + len + 66) (txs ++ [tx])
  else some (.ok txs)
termination_by txsData.length - pos

/-- `DecodeTxs`; the returned `txsData` is the argument itself and is left out. -/
def decodeTxs (txsData : List UInt8) : Option (Except (DecodeError ε) (List LegacyTx)) :=
  if txsData.length = 0 then some (.ok []) else decodeLoop decodeBytes txsData 0 []

theorem decodeLoop_done {txsData : List UInt8} {pos : Nat} (done : txsData.length ≤ pos)
    (txs : List LegacyTx) : decodeLoop decodeBytes txsData pos txs = some (.ok txs) := by
  rw [decodeLoop, if_neg (by omega)]

theorem decodeLoop_step {txsData : List UInt8} {pos : Nat} (running : pos < txsData.length)
    (txs : List LegacyTx) :
    decodeLoop decodeBytes txsData pos txs =
      match decodeStep decodeBytes txsData pos with
      | .exit result => some result
      | .panic => none
      | .decoded len tx => decodeLoop decodeBytes txsData (pos + len + 66) (txs ++ [tx]) := by
  rw [decodeLoop, if_pos running]

end Decode

/-- The RLP list header `header` declares a payload of `n` bytes in a form the
header step reads: `0xc0 + n` with `n ≤ 55`, or `0xf7 + k` followed by `k`
big-endian length bytes, `1 ≤ k ≤ 8`, of a length that fits an `int64`. -/
inductive DeclaresLength : List UInt8 → Nat → Prop
  | short {n : Nat} (small : n ≤ 55) : DeclaresLength [(192 + n).toUInt8] n
  | long {lengthBytes : List UInt8} (nonempty : lengthBytes ≠ [])
      (atMost : lengthBytes.length ≤ 8) (fits : setBytes lengthBytes < 2 ^ 63) :
      DeclaresLength ((247 + lengthBytes.length).toUInt8 :: lengthBytes) (setBytes lengthBytes)

theorem DeclaresLength.length_pos {header : List UInt8} {n : Nat}
    (declares : DeclaresLength header n) : 0 < header.length := by
  cases declares <;> simp

theorem DeclaresLength.fits {header : List UInt8} {n : Nat}
    (declares : DeclaresLength header n) : n < 2 ^ 63 := by
  cases declares with
  | short small => omega
  | long _ _ fits => exact fits

section Frames

variable {ε : Type} (decodeBytes : List UInt8 → Except ε (List (List UInt8)))

/-- `txsData` splits exactly into frames `header ++ payload ++ r ++ s ++ [v]`
whose RLP lists decode to the fields of the transactions `txs`, in order. -/
inductive Frames : List UInt8 → List LegacyTx → Prop
  | nil : Frames [] []
  | cons {header payload r s rest : List UInt8} {v : UInt8} {n : Nat}
      {fields : List (List UInt8)} {tx : LegacyTx} {txs : List LegacyTx}
      (declares : DeclaresLength header n) (sized : payload.length = n)
      (rSized : r.length = 32) (sSized : s.length = 32)
      (decoded : decodeBytes (header ++ payload) = .ok fields)
      (built : rlpFieldsToLegacyTx fields [v] r s = .ok tx) (tail : Frames rest txs) :
      Frames (header ++ payload ++ r ++ s ++ v :: rest) (tx :: txs)

theorem getD_length_append (pre rest : List UInt8) (x : UInt8) :
    (pre ++ x :: rest).getD pre.length 0 = x := by
  simp

theorem headerLength_declares {header : List UInt8} {n : Nat}
    (declares : DeclaresLength header n) (pre rest : List UInt8) :
    headerLength (ε := ε) (pre ++ header ++ rest) pre.length =
      .ok ((header.length - 1 + n : Nat) : Int) := by
  cases declares with
  | short bounded =>
    have first : (pre ++ [(192 + n).toUInt8] ++ rest).getD pre.length 0 = (192 + n).toUInt8 := by
      simp
    have byte : ((192 + n).toUInt8).toNat = 192 + n := by simp; omega
    simp only [headerLength, first, byte]
    rw [if_pos (by omega)]
    simp
  | long nonempty atMost small =>
    rename_i lengthBytes
    have first : (pre ++ ((247 + lengthBytes.length).toUInt8 :: lengthBytes) ++
        rest).getD pre.length 0 = (247 + lengthBytes.length).toUInt8 := by
      simp
    have byte : ((247 + lengthBytes.length).toUInt8).toNat = 247 + lengthBytes.length := by
      simp; omega
    have window : ((pre ++ ((247 + lengthBytes.length).toUInt8 :: lengthBytes) ++
        rest).drop (pre.length + 1)).take lengthBytes.length = lengthBytes := by
      simp
    have positive : 0 < lengthBytes.length := List.length_pos_iff.mpr nonempty
    simp only [headerLength, first, byte]
    rw [if_neg (by omega), if_neg (by simp; omega)]
    simp only [show ((247 + lengthBytes.length : Nat) : Int) - 247 = lengthBytes.length by omega,
      Int.toNat_natCast, window, parseInt_encodeToString nonempty small]
    simp
    omega

theorem decodeStep_frame {header payload r s rest : List UInt8} {v : UInt8} {n : Nat}
    {fields : List (List UInt8)} {tx : LegacyTx}
    (declares : DeclaresLength header n) (sized : payload.length = n)
    (rSized : r.length = 32) (sSized : s.length = 32)
    (decoded : decodeBytes (header ++ payload) = .ok fields)
    (built : rlpFieldsToLegacyTx fields [v] r s = .ok tx) (pre : List UInt8) :
    decodeStep decodeBytes (pre ++ (header ++ payload ++ r ++ s ++ v :: rest)) pre.length =
      .decoded (header.length - 1 + n) tx := by
  have headerNonempty := declares.length_pos
  have layout : pre ++ (header ++ payload ++ r ++ s ++ v :: rest) =
      pre ++ header ++ (payload ++ r ++ s ++ v :: rest) := by simp
  have step := headerLength_declares (ε := ε) declares pre (payload ++ r ++ s ++ v :: rest)
  rw [← layout] at step
  have within : ¬((pre ++ (header ++ payload ++ r ++ s ++ v :: rest)).length <
      ((header.length - 1 + n : Nat) : Int) ∨ ((header.length - 1 + n : Nat) : Int) < 0) := by
    simp only [List.length_append, List.length_cons]
    omega
  rw [decodeStep, step]
  simp only [if_neg within, Int.toNat_natCast]
  rw [slice_middle pre (header ++ payload ++ r ++ s ++ [v]) rest (by simp) rfl (by simp; omega),
    slice_middle pre (header ++ payload) (r ++ s ++ v :: rest) (by simp) rfl (by simp; omega),
    slice_middle (pre ++ header ++ payload) r (s ++ v :: rest) (by simp) (by simp; omega)
      (by omega),
    slice_middle (pre ++ header ++ payload ++ r) s (v :: rest) (by simp) (by simp; omega)
      (by omega),
    slice_middle (pre ++ header ++ payload ++ r ++ s) [v] rest (by simp) (by simp; omega)
      (by simp)]
  simp only [decoded, built]

theorem decodeLoop_frames {data : List UInt8} {txs : List LegacyTx}
    (frames : Frames decodeBytes data txs) :
    ∀ (pre suffix : List UInt8) (done : List LegacyTx),
      decodeLoop decodeBytes (pre ++ data ++ suffix) pre.length done =
        decodeLoop decodeBytes (pre ++ data ++ suffix) (pre ++ data).length (done ++ txs) := by
  induction frames with
  | nil =>
    intro pre suffix done
    simp
  | cons declares sized rSized sSized decoded built tail ih =>
    rename_i header payload r s rest v n fields tx txs
    intro pre suffix done
    have regroup : pre ++ (header ++ payload ++ r ++ s ++ v :: rest) ++ suffix =
        pre ++ (header ++ payload ++ r ++ s ++ v :: (rest ++ suffix)) := by simp
    have running : pre.length < (pre ++ (header ++ payload ++ r ++ s ++ v :: rest) ++
        suffix).length := by simp
    have next : pre.length + (header.length - 1 + n) + 66 =
        (pre ++ (header ++ payload ++ r ++ s ++ [v])).length := by
      have := declares.length_pos
      simp only [List.length_append, List.length_singleton]
      omega
    have shifted : pre ++ (header ++ payload ++ r ++ s ++ v :: rest) ++ suffix =
        pre ++ (header ++ payload ++ r ++ s ++ [v]) ++ rest ++ suffix := by simp
    rw [decodeLoop_step decodeBytes running, regroup,
      decodeStep_frame decodeBytes declares sized rSized sSized decoded built pre]
    simp only
    rw [next, ← regroup, shifted, ih]
    simp

theorem decodeTxs_frames {data : List UInt8} {txs : List LegacyTx}
    (frames : Frames decodeBytes data txs) :
    decodeTxs decodeBytes data = some (.ok txs) := by
  unfold decodeTxs
  split
  · rename_i empty
    cases frames with
    | nil => rfl
    | cons => simp at empty
  · have run := decodeLoop_frames decodeBytes frames [] [] []
    simp only [List.nil_append, List.append_nil, List.length_nil] at run
    rw [run, decodeLoop_done decodeBytes (Nat.le_refl _)]

theorem decodeTxs_truncated_header {pre : List UInt8} {txs : List LegacyTx}
    (frames : Frames decodeBytes pre txs) {h : UInt8} {rest : List UInt8}
    (long : 248 ≤ h.toNat) (truncated : rest.length < h.toNat - 247) :
    decodeTxs decodeBytes (pre ++ h :: rest) = some (.ok []) := by
  have run := decodeLoop_frames decodeBytes frames [] (h :: rest) []
  have running : pre.length < (pre ++ h :: rest).length := by simp
  have header : headerLength (ε := ε) (pre ++ h :: rest) pre.length = .error (.ok []) := by
    simp only [headerLength, getD_length_append]
    rw [if_neg (by omega), if_pos (by simp; omega)]
  simp only [List.nil_append, List.length_nil, List.nil_append] at run
  rw [decodeTxs, if_neg (by simp), run, decodeLoop_step decodeBytes running, decodeStep, header]

theorem decodeTxs_overrun {pre : List UInt8} {txs : List LegacyTx}
    (frames : Frames decodeBytes pre txs) {header rest : List UInt8} {n : Nat}
    (declares : DeclaresLength header n)
    (accepted : header.length - 1 + n ≤ (pre ++ header ++ rest).length)
    (overrun : rest.length < n + 65) :
    decodeTxs decodeBytes (pre ++ header ++ rest) = none := by
  have nonempty := declares.length_pos
  have total : (pre ++ header ++ rest).length = pre.length + header.length + rest.length := by
    simp only [List.length_append]
  have run := decodeLoop_frames decodeBytes frames [] (header ++ rest) []
  have running : pre.length < (pre ++ header ++ rest).length := by omega
  have step := headerLength_declares (ε := ε) declares pre rest
  have within : ¬((pre ++ header ++ rest).length < ((header.length - 1 + n : Nat) : Int) ∨
      ((header.length - 1 + n : Nat) : Int) < 0) := by omega
  have panics : slice (pre ++ header ++ rest) pre.length
      (pre.length + (header.length - 1 + n) + 66) = none :=
    slice_of_lt (by omega)
  simp only [List.nil_append, List.length_nil, ← List.append_assoc] at run
  rw [decodeTxs, if_neg (by omega), run, decodeLoop_step decodeBytes running, decodeStep,
    step]
  simp only [if_neg within, Int.toNat_natCast, panics]

/-- On the single byte `0xf9`, a long-form header without its length bytes,
`DecodeTxs` reports an empty batch and no error; on the single byte `0xc0`, an
empty list header without its signature bytes, it panics. -/
theorem decodeTxs_unchecked_frame_bounds :
    decodeTxs decodeBytes [0xf9] = some (.ok []) ∧ decodeTxs decodeBytes [0xc0] = none := by
  have silent : decodeTxs decodeBytes ([] ++ [0xf9]) = some (.ok []) :=
    decodeTxs_truncated_header decodeBytes Frames.nil (by decide) (by decide)
  have panics : decodeTxs decodeBytes ([] ++ [(192 + 0).toUInt8] ++ []) = none :=
    decodeTxs_overrun decodeBytes Frames.nil (DeclaresLength.short (by decide)) (by decide)
      (by decide)
  exact ⟨silent, panics⟩

end Frames

end ZkevmNode.State
