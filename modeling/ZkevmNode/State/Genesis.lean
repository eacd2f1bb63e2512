import ZkevmNode.Encoding.Decode
import ZkevmNode.Merkletree.Split
import Mathlib.Data.List.ReduceOption

set_option autoImplicit false

/-! How the node writes its genesis into the state tree: the actions
`loadGenesisFromJSONString` (`config/network.go`) makes of the accounts of a
genesis file, and the loop of `State.SetGenesis` (`state/genesis.go`) that
decodes each action's numbers and makes one call of the tree's setters for it.
The tree itself is a parameter: a call takes the root and returns the new one,
or an error. -/

namespace ZkevmNode

open Go Encoding

namespace Merkletree

/-- `leafType`: what a leaf of the state tree holds. -/
inductive LeafType where
  | balance
  | nonce
  | code
  | storage
  | sCLength
  deriving DecidableEq, Repr

/-- The numbers `leaf.go` gives the leaf types. -/
def LeafType.toInt : LeafType → Int
  | .balance => 0
  | .nonce => 1
  | .code => 2
  | .storage => 3
  | .sCLength => 4

end Merkletree

open Merkletree

namespace State

/-- `GenesisAction`, without its `Key` and `Root`, which `SetGenesis` does not read. -/
structure GenesisAction where
  address : List Char := []
  type : Int := 0
  storagePosition : List Char := []
  bytecode : List Char := []
  value : List Char := []
  deriving DecidableEq, Repr

/-- One call of the state tree's setters, with its decoded arguments. -/
inductive TreeWrite where
  | balance (address : Address) (balance : Int)
  | nonce (address : Address) (nonce : Int)
  | code (address : Address) (code : List UInt8)
  | storage (address : Address) (position value : Int)
  deriving DecidableEq

/-- The errors of `SetGenesis`. The two it formats itself keep their arguments:
`%q` of an address writes its checksummed form, which needs Keccak. -/
inductive GenesisError (ε : Type) where
  /-- The error of `DecodeBigIntHexOrDecimal`, returned as it is. -/
  | decode (message : List Char)
  /-- "could not decode SC bytecode for address %q: %v" -/
  | bytecode (address : Address) (err : HexError)
  /-- "unknown genesis action type %q" -/
  | unknownType (type : Int)
  /-- The error of a setter of the tree, returned as it is. -/
  | tree (err : ε)
  deriving DecidableEq

section

variable {ε σ : Type}

/-- The body of the loop of `SetGenesis` up to the tree call: the call the action
asks for, its numbers decoded, or `none` for a skipped `LeafTypeSCLength`. -/
def actionWrite (action : GenesisAction) : Except (GenesisError ε) (Option TreeWrite) :=
  let address := hexToAddress action.address
  let decode (s : List Char) : Except (GenesisError ε) Int :=
    (decodeBigIntHexOrDecimal s).mapError .decode
  if action.type = LeafType.balance.toInt then do
    let balance ← decode action.value
    pure (some (.balance address balance))
  else if action.type = LeafType.nonce.toInt then do
    let nonce ← decode action.value
    pure (some (.nonce address nonce))
  else if action.type = LeafType.code.toInt then
    match Hex.decodeHex action.bytecode with
    | .error err => .error (.bytecode address err)
    | .ok code => pure (some (.code address code))
  else if action.type = LeafType.storage.toInt then do
    let positionBI ← decode action.storagePosition
    let valueBI ← decode action.value
    pure (some (.storage address positionBI valueBI))
  else if action.type = LeafType.sCLength.toInt then pure none
  else .error (.unknownType action.type)

/-- The loop of `SetGenesis`: each action's tree call in turn, `newRoot` threaded
through them, and the first error returned. The checks of `dbTx` and `s.tree`
before it, and the flush and the genesis batch after it, are left out. -/
def setGenesis (tree : σ → TreeWrite → Except ε σ) :
    List GenesisAction → σ → Except (GenesisError ε) σ
  | [], newRoot => .ok newRoot
  | action :: actions, newRoot =>
    match actionWrite action with
    | .error err => .error err
    | .ok none => setGenesis tree actions newRoot
    | .ok (some write) =>
      match tree newRoot write with
      | .error err => .error (.tree err)
      | .ok newRoot => setGenesis tree actions newRoot

/-- A sequence of tree calls, stopping at the first error. -/
def applyWrites (tree : σ → TreeWrite → Except ε σ) :
    List TreeWrite → σ → Except (GenesisError ε) σ
  | [], root => .ok root
  | write :: writes, root =>
    match tree root write with
    | .error err => .error (.tree err)
    | .ok root => applyWrites tree writes root

variable (tree : σ → TreeWrite → Except ε σ)

@[simp] theorem applyWrites_nil (root : σ) : applyWrites tree [] root = .ok root := rfl

theorem setGenesis_eq_applyWrites : ∀ (actions : List GenesisAction) (writes : List (Option TreeWrite))
    (root : σ), actions.mapM (actionWrite (ε := ε)) = .ok writes →
      setGenesis tree actions root = applyWrites tree writes.reduceOption root
  | [], writes, root, decoded => by
    simp only [List.mapM_nil, pure, Except.pure, Except.ok.injEq] at decoded
    simp [← decoded, setGenesis, List.reduceOption_nil]
  | action :: actions, writes, root, decoded => by
    rw [List.mapM_cons] at decoded
    cases first : actionWrite (ε := ε) action with
    | error err => simp [first, bind, Except.bind] at decoded
    | ok write =>
      cases others : actions.mapM (actionWrite (ε := ε)) with
      | error err => simp [first, others, bind, Except.bind] at decoded
      | ok rest =>
        simp only [first, others, bind, Except.bind, pure, Except.pure, Except.ok.injEq] at decoded
        subst decoded
        cases write with
        | none =>
          rw [setGenesis, first, List.reduceOption_cons_of_none]
          exact setGenesis_eq_applyWrites actions rest root others
        | some write =>
          rw [setGenesis, first, List.reduceOption_cons_of_some, applyWrites]
          dsimp only
          cases tree root write with
          | error err => rfl
          | ok root => exact setGenesis_eq_applyWrites actions rest root others

end

section

variable {ε : Type} {action : GenesisAction}

theorem actionWrite_balance (balance : action.type = LeafType.balance.toInt) {n : Int}
    (decoded : decodeBigIntHexOrDecimal action.value = .ok n) :
    actionWrite (ε := ε) action = .ok (some (.balance (hexToAddress action.address) n)) := by
  simp only [actionWrite, balance, decoded, ↓reduceIte, Except.mapError]
  rfl

theorem actionWrite_nonce (nonce : action.type = LeafType.nonce.toInt) {n : Int}
    (decoded : decodeBigIntHexOrDecimal action.value = .ok n) :
    actionWrite (ε := ε) action = .ok (some (.nonce (hexToAddress action.address) n)) := by
  simp only [actionWrite, nonce, decoded, ↓reduceIte, Except.mapError]
  rfl

theorem actionWrite_storage (storage : action.type = LeafType.storage.toInt) {position n : Int}
    (decodedPosition : decodeBigIntHexOrDecimal action.storagePosition = .ok position)
    (decoded : decodeBigIntHexOrDecimal action.value = .ok n) :
    actionWrite (ε := ε) action =
      .ok (some (.storage (hexToAddress action.address) position n)) := by
  simp only [actionWrite, storage, decodedPosition, decoded, ↓reduceIte, Except.mapError]
  rfl

theorem actionWrite_code (code : action.type = LeafType.code.toInt) {bytes : List UInt8}
    (decoded : Hex.decodeHex action.bytecode = .ok bytes) :
    actionWrite (ε := ε) action = .ok (some (.code (hexToAddress action.address) bytes)) := by
  simp only [actionWrite, code, decoded, ↓reduceIte]
  rfl

theorem actionWrite_sCLength (skipped : action.type = LeafType.sCLength.toInt) :
    actionWrite (ε := ε) action = .ok none := by
  simp only [actionWrite, skipped, ↓reduceIte]
  rfl

end

/-- A number that `DecodeBigIntHexOrDecimal` reads as written: a decimal numeral
of `n`, or a hexadecimal one with an even number of digits. -/
def WholeNumeral (s : List Char) (n : Nat) : Prop := Numeral s n ∧ (IsDecimal s ∨ s.length % 2 = 0)

theorem WholeNumeral.decoded {s : List Char} {n : Nat} (whole : WholeNumeral s n) :
    decodeBigIntHexOrDecimal s = .ok (n : Int) :=
  decodeBigIntHexOrDecimal_numeral whole.1 whole.2

/-- The tree call an action states, its numbers read as written: the spec the
loop of `SetGenesis` is held to. -/
inductive States : GenesisAction → Option TreeWrite → Prop
  | balance {action : GenesisAction} {n : Nat} : action.type = LeafType.balance.toInt →
      WholeNumeral action.value n → States action (some (.balance (hexToAddress action.address) n))
  | nonce {action : GenesisAction} {n : Nat} : action.type = LeafType.nonce.toInt →
      WholeNumeral action.value n → States action (some (.nonce (hexToAddress action.address) n))
  | code {action : GenesisAction} {bytes : List UInt8} : action.type = LeafType.code.toInt →
      Hex.decodeHex action.bytecode = .ok bytes → States action (some (.code (hexToAddress action.address) bytes))
  | storage {action : GenesisAction} {position n : Nat} : action.type = LeafType.storage.toInt →
      WholeNumeral action.storagePosition position → WholeNumeral action.value n →
      States action (some (.storage (hexToAddress action.address) position n))
  | sCLength {action : GenesisAction} : action.type = LeafType.sCLength.toInt → States action none

section

variable {ε σ : Type} (tree : σ → TreeWrite → Except ε σ)

theorem actionWrite_of_states {action : GenesisAction} {write : Option TreeWrite}
    (stated : States action write) : actionWrite (ε := ε) action = .ok write := by
  cases stated with
  | balance balance whole => exact actionWrite_balance balance whole.decoded
  | nonce nonce whole => exact actionWrite_nonce nonce whole.decoded
  | code code decoded => exact actionWrite_code code decoded
  | storage storage position whole => exact actionWrite_storage storage position.decoded whole.decoded
  | sCLength skipped => exact actionWrite_sCLength skipped

/-- Where every number is written whole and every bytecode decodes, `SetGenesis`
makes exactly the tree calls the actions state, in their order. -/
theorem setGenesis_states {actions : List GenesisAction} {writes : List (Option TreeWrite)}
    (stated : List.Forall₂ States actions writes) (root : σ) :
    setGenesis tree actions root = applyWrites tree writes.reduceOption root := by
  have decoded : actions.mapM (actionWrite (ε := ε)) = .ok writes := by
    induction stated with
    | nil => rfl
    | cons first _ ih =>
      rw [List.mapM_cons, actionWrite_of_states first, ih]
      rfl
  exact setGenesis_eq_applyWrites tree actions writes root decoded

end

end State

namespace Config

open State

/-- `genesisAccountFromJSON`, with its `storage` map as the list of its entries
in the order the loop's `range` visits them, which Go leaves open. The contract
name only picks the two L2 addresses of the network configuration. -/
structure GenesisAccount where
  balance : List Char := []
  nonce : List Char := []
  address : List Char := []
  bytecode : List Char := []
  storage : List (List Char × List Char) := []
  deriving DecidableEq, Repr

/-- The actions the loop of `loadGenesisFromJSONString` appends for one account:
a balance and a nonce unless empty or `"0"`, the code unless empty, and one
action per storage entry. -/
def accountActions (account : GenesisAccount) : List GenesisAction :=
  (if account.balance ≠ [] ∧ account.balance ≠ ['0'] then
    [{ address := account.address, type := LeafType.balance.toInt, value := account.balance }]
  else []) ++
  (if account.nonce ≠ [] ∧ account.nonce ≠ ['0'] then
    [{ address := account.address, type := LeafType.nonce.toInt, value := account.nonce }]
  else []) ++
  (if account.bytecode ≠ [] then
    [{ address := account.address, type := LeafType.code.toInt, bytecode := account.bytecode }]
  else []) ++
  account.storage.map fun (storageKey, storageValue) =>
    { address := account.address, type := LeafType.storage.toInt,
      storagePosition := storageKey, value := storageValue }

/-- The genesis actions of `loadGenesisFromJSONString`, in the order of the accounts. -/
def genesisActions (accounts : List GenesisAccount) : List GenesisAction :=
  accounts.flatMap accountActions

section

variable {ε σ : Type} (tree : σ → TreeWrite → Except ε σ) (root : σ)

theorem setGenesis_balanceAccount (address balance : List Char) (shown : balance ≠ [] ∧ balance ≠ ['0'])
    {n : Int} (decoded : decodeBigIntHexOrDecimal balance = .ok n) :
    setGenesis tree (genesisActions [{ address, balance }]) root =
      applyWrites tree [.balance (hexToAddress address) n] root := by
  have actions : genesisActions [{ address, balance }] =
      [{ address, type := LeafType.balance.toInt, value := balance }] := by
    simp [genesisActions, accountActions, shown]
  have write : actionWrite (ε := ε) { address, type := LeafType.balance.toInt, value := balance } =
      .ok (some (.balance (hexToAddress address) n)) := actionWrite_balance rfl decoded
  have writes : [({ address, type := LeafType.balance.toInt, value := balance } : GenesisAction)].mapM
      (actionWrite (ε := ε)) = .ok [some (.balance (hexToAddress address) n)] := by
    rw [List.mapM_cons, write, List.mapM_nil]
    rfl
  rw [actions, setGenesis_eq_applyWrites tree _ _ root writes]
  rfl

/-- A balance written as `0x` and hexadecimal digits: `SetGenesis` sets the
value of the digits short of the last one when their number is odd, and from
an invalid digit where a pair starts it drops the rest of the text without an
error. -/
theorem setGenesis_hexBalance (address : List Char) :
    (∀ h : List Char, IsHex h → h.length % 2 = 1 →
      setGenesis tree (genesisActions [{ address, balance := ['0', 'x'] ++ h }]) root =
        applyWrites tree [.balance (hexToAddress address) (hexValue h / 16 : Nat)] root) ∧
    (∀ (front : List Char) (c : Char) (rest : List Char), IsHex front → front.length % 2 = 0 →
      fromHexChar c = none →
      setGenesis tree (genesisActions [{ address, balance := ['0', 'x'] ++ front ++ c :: rest }]) root =
        applyWrites tree [.balance (hexToAddress address) (hexValue front : Nat)] root) := by
  constructor
  · intro h hex odd
    have decoded := decodeBigIntHexOrDecimal_hex hex
    rw [odd, pow_one] at decoded
    exact setGenesis_balanceAccount tree root address _ (by simp) decoded
  · intro front c rest hex even invalid
    exact setGenesis_balanceAccount tree root address _ (by simp)
      (decodeBigIntHexOrDecimal_invalid hex even invalid rest)

end

/-- `"0x1"` sets a balance of zero, and so does `"0xzz"`. -/
theorem setGenesis_hexBalance_one :
    let tree : Nat → TreeWrite → Except Unit Nat := fun root _ => .ok (root + 1)
    (IsHex ['1'] ∧ ['1'].length % 2 = 1 ∧ hexValue ['1'] / 16 = 0 ∧
      setGenesis tree (genesisActions [{ balance := ['0', 'x'] ++ ['1'] }]) 0 =
        applyWrites tree [.balance (hexToAddress []) (hexValue ['1'] / 16 : Nat)] 0) ∧
    (IsHex [] ∧ ([] : List Char).length % 2 = 0 ∧ fromHexChar 'z' = none ∧
      setGenesis tree (genesisActions [{ balance := ['0', 'x'] ++ [] ++ 'z' :: ['z'] }]) 0 =
        applyWrites tree [.balance (hexToAddress []) (hexValue [] : Nat)] 0) :=
  let tree : Nat → TreeWrite → Except Unit Nat := fun root _ => .ok (root + 1)
  ⟨⟨by decide, by decide, by decide,
      (setGenesis_hexBalance tree 0 []).1 ['1'] (by decide) (by decide)⟩,
    ⟨by decide, by decide, by decide,
      (setGenesis_hexBalance tree 0 []).2 [] 'z' ['z'] (by decide) (by decide) (by decide)⟩⟩

end Config

end ZkevmNode
