import ZkevmNode.State.Helper

set_option autoImplicit false

/-! The round trip of batch L2 data. The proof has two halves that meet at
`Frames`: `Helper` shows that `DecodeTxs` reads every well-framed batch, and this
module shows that `EncodeTransactions` only writes well-framed batches, the RLP
list of each transaction followed by its 32-byte `r`, its 32-byte `s` and the
rewritten `v`. -/

namespace ZkevmNode.State

open Go

/-- The transactions `EncodeTransactions` writes without loss: `r` and `s` fit
their 32-byte slots, and `v` is `27` or `28` (signed before EIP-155), or
`2 * chainId + 35 + p` with a chain id the frame can carry. -/
def Encodable (tx : LegacyTx) : Prop :=
  tx.r < 2 ^ 256 ∧ tx.s < 2 ^ 256 ∧
    (tx.v = 27 ∨ tx.v = 28 ∨
      ∃ c p : Nat, 0 < c ∧ c < 2 ^ 64 ∧ p ≤ 1 ∧ tx.v = 2 * c + 35 + p)

section RoundTrip

variable {ε : Type} (encodeToBytes : List Rlp.Value → Except ε (List UInt8))
  (decodeBytes : List UInt8 → Except ε (List (List UInt8))) (chainId : LegacyTx → Nat)

/-- What the frame of `tx` relies on from go-ethereum: `ChainId` reads the chain
id back from `v`, `rlp.EncodeToBytes` writes the field list canonically as a Go
slice, and `rlp.DecodeBytes` gives back the byte string of each element. -/
structure LibraryBehaviour (tx : LegacyTx) : Prop where
  chainIdPre : (tx.v = 27 ∨ tx.v = 28) → chainId tx = 0
  chainIdEip155 : ∀ c p : Nat, p ≤ 1 → tx.v = 2 * c + 35 + p → chainId tx = c
  canonical : ∃ payload : List UInt8, payload.length < 2 ^ 63 ∧
    encodeToBytes (rlpFieldsToEncode chainId tx) = .ok (Rlp.listHeader payload.length ++ payload)
  decodes : ∀ b, encodeToBytes (rlpFieldsToEncode chainId tx) = .ok b →
    decodeBytes b = .ok ((rlpFieldsToEncode chainId tx).map Rlp.Value.content)

theorem declaresLength_listHeader {n : Nat} (fits : n < 2 ^ 63) :
    DeclaresLength (Rlp.listHeader n) n := by
  unfold Rlp.listHeader
  split
  · rename_i small
    exact .short small
  · rename_i large
    have nonempty : bytes n ≠ [] := by
      intro empty
      have zero := setBytes_bytes n
      rw [empty, setBytes_nil] at zero
      omega
    have atMost : (bytes n).length ≤ 8 := bytes_length_le (by norm_num at fits ⊢; omega)
    have declares := DeclaresLength.long nonempty atMost (by rwa [setBytes_bytes])
    rwa [setBytes_bytes] at declares

theorem encodeTxFrame_ok {tx : LegacyTx} {txCodedRlp : List UInt8}
    (rSmall : tx.r < 2 ^ 256) (sSmall : tx.s < 2 ^ 256)
    (encoded : encodeToBytes (rlpFieldsToEncode chainId tx) = .ok txCodedRlp) :
    ∃ (rB sB : List UInt8) (vB : UInt8),
      encodeTxFrame encodeToBytes chainId tx = .ok (txCodedRlp ++ rB ++ sB ++ [vB]) ∧
      rB.length = 32 ∧ setBytes rB = tx.r ∧ sB.length = 32 ∧ setBytes sB = tx.s ∧
      vB.toNat = 27 + (1 - tx.v.natAbs % 2 ^ 64 % 2) := by
  have wide : (2 : Nat) ^ 256 = 16 ^ 64 := by norm_num
  obtain ⟨rB, rDecoded, rLength, rValue⟩ :=
    decodeString_sprintfZeroPad 64 (by omega) (by omega) (wide ▸ rSmall)
  obtain ⟨sB, sDecoded, sLength, sValue⟩ :=
    decodeString_sprintfZeroPad 64 (by omega) (by omega) (wide ▸ sSmall)
  obtain ⟨vs, vDecoded, vLength, vValue⟩ :=
    decodeString_sprintfZeroPad 2 (x := 27 + (1 - tx.v.natAbs % 2 ^ 64 % 2))
      (by omega) (by omega) (by omega)
  obtain ⟨vB, single⟩ : ∃ vB, vs = [vB] := List.length_eq_one_iff.mp (by omega)
  subst single
  -- the four texts have even lengths, so decoding their concatenation splits
  have decoded := decodeString_append (decodeString_append (decodeString_append
    (decodeString_encodeToString txCodedRlp) rDecoded (by simp)) sDecoded
      (by simp [length_sprintfZeroPad _ _ (length_text_le (k := 64) (by omega)
        (wide ▸ rSmall))])) vDecoded
      (by simp [length_sprintfZeroPad _ _ (length_text_le (k := 64) (by omega) (wide ▸ rSmall)),
        length_sprintfZeroPad _ _ (length_text_le (k := 64) (by omega) (wide ▸ sSmall))])
  refine ⟨rB, sB, vB, ?_, by omega, rValue, by omega, sValue, by simpa [setBytes] using vValue⟩
  simp only [encodeTxFrame, encoded, Except.mapError, bind, Except.bind, decoded]

theorem rlpFieldsToLegacyTx_rlpFieldsToEncode_eq (tx : LegacyTx) {rB sB : List UInt8} {vB : UInt8}
    (rValue : setBytes rB = tx.r) (sValue : setBytes sB = tx.s) :
    rlpFieldsToLegacyTx ((rlpFieldsToEncode chainId tx).map Rlp.Value.content) [vB] rB sB =
      .ok { tx with
        v := if 0 < uint64 (chainId tx) then ((vB.toNat : Int) - 27) + (chainId tx * 2 + 35)
          else vB.toNat } := by
  have vByte : setBytes [vB] = vB.toNat := by simp [setBytes]
  rw [← rValue, ← sValue]
  by_cases chained : 0 < uint64 (chainId tx)
  all_goals
    rcases tx with ⟨nonce, gasPrice, gas, _ | a, value, data, v, r, s⟩
    all_goals simp [rlpFieldsToEncode, rlpFieldsToLegacyTx, chained, Rlp.Value.content, vByte]

theorem rlpFieldsToLegacyTx_rlpFieldsToEncode {tx : LegacyTx} (encodable : Encodable tx)
    (library : LibraryBehaviour encodeToBytes decodeBytes chainId tx) {rB sB : List UInt8}
    {vB : UInt8} (rValue : setBytes rB = tx.r) (sValue : setBytes sB = tx.s)
    (vValue : vB.toNat = 27 + (1 - tx.v.natAbs % 2 ^ 64 % 2)) :
    rlpFieldsToLegacyTx ((rlpFieldsToEncode chainId tx).map Rlp.Value.content) [vB] rB sB =
      .ok tx := by
  have restored : (if 0 < uint64 (chainId tx) then ((vB.toNat : Int) - 27) + (chainId tx * 2 + 35)
      else vB.toNat) = tx.v := by
    obtain ⟨-, -, signed⟩ := encodable
    rcases signed with pre | pre | ⟨c, p, positive, fits, parity, eip155⟩
    · rw [library.chainIdPre (by omega), if_neg (by simp [uint64])]
      omega
    · rw [library.chainIdPre (by omega), if_neg (by simp [uint64])]
      omega
    · have wrapped : uint64 c = c := Nat.mod_eq_of_lt fits
      rw [library.chainIdEip155 c p parity eip155, wrapped, if_pos positive]
      omega
  rw [rlpFieldsToLegacyTx_rlpFieldsToEncode_eq chainId tx rValue sValue, restored]

theorem encodeTxFrame_frames {tx : LegacyTx} (encodable : Encodable tx)
    (library : LibraryBehaviour encodeToBytes decodeBytes chainId tx) {rest : List UInt8}
    {txs : List LegacyTx} (tail : Frames decodeBytes rest txs) :
    ∃ frame, encodeTxFrame encodeToBytes chainId tx = .ok frame ∧
      Frames decodeBytes (frame ++ rest) (tx :: txs) := by
  obtain ⟨payload, fits, encoded⟩ := library.canonical
  obtain ⟨rB, sB, vB, frame, rLength, rValue, sLength, sValue, vValue⟩ :=
    encodeTxFrame_ok encodeToBytes chainId encodable.1 encodable.2.1 encoded
  have built := rlpFieldsToLegacyTx_rlpFieldsToEncode encodeToBytes decodeBytes chainId
    encodable library rValue sValue vValue
  have layout : Rlp.listHeader payload.length ++ payload ++ rB ++ sB ++ [vB] ++ rest =
      Rlp.listHeader payload.length ++ payload ++ rB ++ sB ++ vB :: rest := by simp
  refine ⟨_, frame, ?_⟩
  rw [layout]
  exact Frames.cons (declaresLength_listHeader fits) rfl rLength sLength
    (library.decodes _ encoded) built tail

theorem encodeTransactions_frames : ∀ {txs : List LegacyTx}, (∀ tx ∈ txs, Encodable tx) →
    (∀ tx ∈ txs, LibraryBehaviour encodeToBytes decodeBytes chainId tx) →
    ∃ data, encodeTransactions encodeToBytes chainId txs = .ok data ∧
      Frames decodeBytes data txs
  | [], _, _ => ⟨[], rfl, .nil⟩
  | tx :: txs, encodable, library => by
    obtain ⟨encodableHead, encodableRest⟩ := List.forall_mem_cons.mp encodable
    obtain ⟨libraryHead, libraryRest⟩ := List.forall_mem_cons.mp library
    obtain ⟨rest, encodedRest, tail⟩ := encodeTransactions_frames encodableRest libraryRest
    obtain ⟨frame, encoded, frames⟩ :=
      encodeTxFrame_frames encodeToBytes decodeBytes chainId encodableHead libraryHead tail
    refine ⟨frame ++ rest, ?_, frames⟩
    simp only [encodeTransactions, encoded, encodedRest]
    rfl

/-- The batch round trip: what `EncodeTransactions` writes for encodable
transactions, `DecodeTxs` reads back without error as the same transactions. -/
theorem decodeTxs_encodeTransactions {txs : List LegacyTx}
    (encodable : ∀ tx ∈ txs, Encodable tx)
    (library : ∀ tx ∈ txs, LibraryBehaviour encodeToBytes decodeBytes chainId tx) :
    ∃ data, encodeTransactions encodeToBytes chainId txs = .ok data ∧
      decodeTxs decodeBytes data = some (.ok txs) := by
  obtain ⟨data, encoded, frames⟩ :=
    encodeTransactions_frames encodeToBytes decodeBytes chainId encodable library
  exact ⟨data, encoded, decodeTxs_frames decodeBytes frames⟩

end RoundTrip

/-- go-ethereum's `deriveChainId`, as `Transaction.ChainId` applies it to the `v`
of a legacy transaction. -/
def deriveChainId (tx : LegacyTx) : Nat :=
  if tx.v = 27 ∨ tx.v = 28 then 0 else ((tx.v - 35) / 2).toNat

def chainOneTx : LegacyTx :=
  { nonce := 0, gasPrice := 0, gas := 0, toAddress := none, value := 0, data := [], v := 37,
    r := 1, s := 1 }

/-- The canonical RLP encoding of the fields of chainOneTx: six empty strings,
the chain id 1 and two more empty strings, after the list header 0xc9. -/
def chainOneRlp : List UInt8 := [0xc9, 0x80, 0x80, 0x80, 0x80, 0x80, 0x80, 0x01, 0x80, 0x80]

/-- rlp.EncodeToBytes on the fields of chainOneTx. -/
def chainOneEncode (items : List Rlp.Value) : Except Unit (List UInt8) :=
  if items.map Rlp.Value.content = [[], [], [], [], [], [], [1], [], []] then .ok chainOneRlp
  else .error ()

/-- rlp.DecodeBytes on the encoding of the fields of chainOneTx. -/
def chainOneDecode (b : List UInt8) : Except Unit (List (List UInt8)) :=
  if b = chainOneRlp then .ok [[], [], [], [], [], [], [1], [], []] else .error ()

theorem chainOneTx_library :
    LibraryBehaviour chainOneEncode chainOneDecode deriveChainId chainOneTx where
  chainIdPre := by decide
  chainIdEip155 := by
    intro c p _ signed
    simp only [chainOneTx] at signed
    rw [deriveChainId, if_neg (by decide)]
    simp only [chainOneTx]
    omega
  canonical := ⟨[0x80, 0x80, 0x80, 0x80, 0x80, 0x80, 0x01, 0x80, 0x80], by decide, by decide⟩
  decodes := by
    intro b encoded
    have known : chainOneEncode (rlpFieldsToEncode deriveChainId chainOneTx) = .ok chainOneRlp := by
      decide
    rw [known, Except.ok.injEq] at encoded
    rw [← encoded]
    decide

theorem decodeTxs_encodeTransactions_chainOne :
    ∃ data, encodeTransactions chainOneEncode deriveChainId [chainOneTx] = .ok data ∧
      decodeTxs chainOneDecode data = some (.ok [chainOneTx]) :=
  decodeTxs_encodeTransactions chainOneEncode chainOneDecode deriveChainId
    (fun tx member => by
      rw [List.mem_singleton.mp member]
      exact ⟨by decide, by decide,
        .inr (.inr ⟨1, 0, by decide, by decide, by decide, by decide⟩)⟩)
    (fun tx member => by
      rw [List.mem_singleton.mp member]
      exact chainOneTx_library)

end ZkevmNode.State
