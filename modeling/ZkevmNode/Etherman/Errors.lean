import Mathlib.Data.List.Infix

set_option autoImplicit false

/-! The errors of the etherman (`etherman/errors.go`). An error of a contract
call carries only its text; `tryParseError` gives back the etherman's own error
value when the text is the text of one, or contains one, so that callers can
compare it with `errors.Is`. The texts it looks for inside others are tried in
the order in which the range over `errorsCache` visits them; `errorsCache` is a
Go map, so that order is any order of its entries. -/

namespace ZkevmNode.Etherman

/-- An error of the etherman: one of the values of `errors.go`, or another,
known by its text only. -/
inductive Error where
  | gasRequiredExceedsAllowance
  | contentLengthTooLarge
  | timestampMustBeInsideRange
  | insufficientAllowance
  | bothGasPriceAndMaxFeeGasAreSpecified
  | maxFeeGasAreSpecifiedButLondonNotActive
  | noSigner
  | missingTrieNode
  | other (text : List Char)
deriving DecidableEq, Repr

namespace Error

/-- `err.Error()`. -/
def error : Error → List Char
  | gasRequiredExceedsAllowance => "gas required exceeds allowance".toList
  | contentLengthTooLarge => "content length too large".toList
  | timestampMustBeInsideRange => "timestamp must be inside range".toList
  | insufficientAllowance => "insufficient allowance".toList
  | bothGasPriceAndMaxFeeGasAreSpecified =>
    "both gasPrice and (maxFeePerGas or maxPriorityFeePerGas) specified".toList
  | maxFeeGasAreSpecifiedButLondonNotActive =>
    "maxFeePerGas or maxPriorityFeePerGas specified but london is not active yet".toList
  | noSigner => "no signer to authorize the transaction with".toList
  | missingTrieNode => "missing trie node".toList
  | other text => text

end Error

open Error

/-- `errorsCache`, its entries in the order of the source. -/
def errorsCache : List (List Char × Error) :=
  [gasRequiredExceedsAllowance, contentLengthTooLarge, timestampMustBeInsideRange,
    insufficientAllowance, bothGasPriceAndMaxFeeGasAreSpecified,
    maxFeeGasAreSpecifiedButLondonNotActive, noSigner, missingTrieNode].map fun err => (err.error, err)

/-- `strings.Contains`. -/
def contains (s substr : List Char) : Bool := decide (substr <:+: s)

/-- `tryParseError`, with `order` the entries of `errorsCache` in the order the
range over the map visits them: the cached error of the text, else the first
in that order whose text the error's contains. -/
def tryParseError (order : List (List Char × Error)) (err : Error) : Option Error :=
  match errorsCache.lookup err.error with
  | some parsed => some parsed
  | none => (order.find? fun entry => contains err.error entry.1).map Prod.snd

/-- The error the contract calls of the etherman return, `sequenceBatches`'
among them: the parsed error where there is one, else the error itself. -/
def parseError (order : List (List Char × Error)) (err : Error) : Error :=
  (tryParseError order err).getD err

theorem mem_of_lookup_errorsCache {text : List Char} {parsed : Error}
    (found : errorsCache.lookup text = some parsed) : (text, parsed) ∈ errorsCache := by
  obtain ⟨before, after, split, _⟩ := List.lookup_eq_some_iff.mp found
  rw [split]
  exact List.mem_append_right _ (.head _)

theorem tryParseError_sound {order : List (List Char × Error)} {err parsed : Error}
    (cached : ∀ entry ∈ order, entry ∈ errorsCache) (result : tryParseError order err = some parsed) :
    ∃ text, (text, parsed) ∈ errorsCache ∧ text <:+: err.error := by
  unfold tryParseError at result
  cases found : errorsCache.lookup err.error with
  | some parsed' =>
    rw [found, Option.some_inj] at result
    subst result
    exact ⟨err.error, mem_of_lookup_errorsCache found, List.infix_refl _⟩
  | none =>
    rw [found] at result
    obtain ⟨⟨text, parsed'⟩, first, rfl⟩ := Option.map_eq_some_iff.mp result
    have visited := List.mem_of_find?_eq_some first
    have inside := List.find?_some first
    exact ⟨text, cached _ visited, of_decide_eq_true inside⟩

/-- The order of the range does not matter to an error whose text contains the
text of one error of the cache at most, and what the parse gives is an error of
the cache whose text the error's text contains. -/
theorem tryParseError_order {order order' : List (List Char × Error)} {err : Error}
    (cached : ∀ entry ∈ order, entry ∈ errorsCache) (cached' : ∀ entry ∈ order', entry ∈ errorsCache)
    (perm : order.Perm order')
    (single : ∀ text text' parsed parsed', (text, parsed) ∈ errorsCache → (text', parsed') ∈ errorsCache →
      text <:+: err.error → text' <:+: err.error → parsed = parsed') :
    tryParseError order err = tryParseError order' err ∧
      ∀ parsed, tryParseError order err = some parsed → ∃ text, (text, parsed) ∈ errorsCache ∧ text <:+: err.error := by
  refine ⟨?_, fun parsed result => tryParseError_sound cached result⟩
  cases first : tryParseError order err with
  | none =>
    refine (?_ : tryParseError order' err = none).symm
    unfold tryParseError at first ⊢
    cases found : errorsCache.lookup err.error with
    | some parsed => simp [found] at first
    | none =>
      simp only [found, Option.map_eq_none_iff, List.find?_eq_none] at first ⊢
      exact fun entry visited => first entry (perm.mem_iff.mpr visited)
  | some parsed =>
    obtain ⟨text, entry, inside⟩ := tryParseError_sound cached first
    cases second : tryParseError order' err with
    | none =>
      unfold tryParseError at first second
      cases found : errorsCache.lookup err.error with
      | some parsed' => simp [found] at second
      | none =>
        simp only [found, Option.map_eq_none_iff, List.find?_eq_none] at first second
        obtain ⟨⟨text'', parsed''⟩, chosen, _⟩ := Option.map_eq_some_iff.mp first
        exact absurd (List.find?_some chosen)
          (by simpa using second _ (perm.mem_iff.mp (List.mem_of_find?_eq_some chosen)))
    | some parsed' =>
      obtain ⟨text', entry', inside'⟩ := tryParseError_sound cached' second
      rw [single text text' parsed parsed' entry entry' inside inside']

def revertedAllowance : List Char := "execution reverted: insufficient allowance".toList

theorem tryParseError_order_revert :
    (tryParseError errorsCache (.other revertedAllowance) =
        tryParseError errorsCache.reverse (.other revertedAllowance) ∧
      ∀ parsed, tryParseError errorsCache (.other revertedAllowance) = some parsed →
        ∃ text, (text, parsed) ∈ errorsCache ∧ text <:+: revertedAllowance) ∧
    tryParseError errorsCache (.other revertedAllowance) = some insufficientAllowance :=
  have one : ∀ entry ∈ errorsCache, entry.1 <:+: revertedAllowance → entry.2 = insufficientAllowance := by
    decide
  ⟨tryParseError_order (fun _ entry => entry) (fun _ entry => List.mem_reverse.mp entry)
    (List.reverse_perm _).symm fun _ _ _ _ entry entry' inside inside' =>
      (one _ entry inside).trans (one _ entry' inside').symm, by decide⟩

/-- Where an error's text contains the texts of two errors of the cache, what
the parse gives depends on the order of the range: here the order of the source
and its reverse. -/
theorem tryParseError_depends_on_order :
    ∃ order order' : List (List Char × Error), ∃ err : Error,
      order.Perm errorsCache ∧ order'.Perm errorsCache ∧ tryParseError order err ≠ tryParseError order' err :=
  ⟨errorsCache, errorsCache.reverse, .other "insufficient allowance, missing trie node".toList,
    List.Perm.refl _, List.reverse_perm _, by decide⟩

end ZkevmNode.Etherman
