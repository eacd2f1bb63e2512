import ZkevmNode.Go.Ethereum

set_option autoImplicit false

/-! The legacy transaction of `go-ethereum` as the batch codecs of `state`
build and read it, and `RlpFieldsToLegacyTx` from `state/transaction.go`. -/

namespace ZkevmNode.State

open Go

/-- `types.LegacyTx`, its `To` named `toAddress`. Every `big.Int` field but `V`
is non-negative wherever the node builds one (from `SetBytes`, or from a signed
transaction); `V` is computed by a subtraction, so it is kept signed. -/
structure LegacyTx where
  nonce : UInt64
  gasPrice : Nat
  gas : UInt64
  toAddress : Option Address
  value : Nat
  data : List UInt8
  v : Int
  r : Nat
  s : Nat
  deriving DecidableEq

/-- The error `RlpFieldsToLegacyTx` returns: `types.ErrTxTypeNotSupported`. -/
inductive TxError where
  | txTypeNotSupported
  deriving DecidableEq, Repr

/-- `RlpFieldsToLegacyTx`: the six required fields, and with a seventh (the chain
id) the EIP-155 value `v - 27 + chainId * 2 + 35`. -/
def rlpFieldsToLegacyTx (fields : List (List UInt8)) (v r s : List UInt8) :
    Except TxError LegacyTx :=
  if fields.length < 6 then .error .txTypeNotSupported else
  let field (i : Nat) : List UInt8 := fields.getD i []
  let toAddress : Option Address :=
    if field 3 ≠ [] then some (bytesToAddress (field 3)) else none
  let txV : Int :=
    if 7 ≤ fields.length then ((setBytes v : Int) - 27) + (setBytes (field 6) * 2 + 35)
    else setBytes v
  .ok { nonce := (setBytes (field 0)).toUInt64, gasPrice := setBytes (field 1),
        gas := (setBytes (field 2)).toUInt64, toAddress := toAddress, value := setBytes (field 4),
        data := field 5, v := txV, r := setBytes r, s := setBytes s }

end ZkevmNode.State
