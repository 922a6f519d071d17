import ChainGateway.Wire.OnWire

namespace ChainGateway.Provider

open Wire

/-- A user operation in the layout of entry point v0.6. -/
structure UserOperation where
  sender : Address
  nonce : Word 256
  initCode : List UInt8
  callData : List UInt8
  callGasLimit : Word 256
  verificationGasLimit : Word 256
  preVerificationGas : Word 256
  maxFeePerGas : Word 256
  maxPriorityFeePerGas : Word 256
  paymasterAndData : List UInt8
  signature : List UInt8
deriving DecidableEq, Repr

instance : OnWire UserOperation where
  shape := .record "UserOperation" <|
    .cons "sender" .required (.fixed 20) <|
    .cons "nonce" .required (.quantity 256) <|
    .cons "initCode" .required .bytes <|
    .cons "callData" .required .bytes <|
    .cons "callGasLimit" .required (.quantity 256) <|
    .cons "verificationGasLimit" .required (.quantity 256) <|
    .cons "preVerificationGas" .required (.quantity 256) <|
    .cons "maxFeePerGas" .required (.quantity 256) <|
    .cons "maxPriorityFeePerGas" .required (.quantity 256) <|
    .cons "paymasterAndData" .required .bytes <|
    .cons "signature" .required .bytes .nil
  pack o := (o.sender, o.nonce, o.initCode, o.callData, o.callGasLimit, o.verificationGasLimit,
    o.preVerificationGas, o.maxFeePerGas, o.maxPriorityFeePerGas, o.paymasterAndData,
    o.signature, ())
  unpack
    | (sender, nonce, initCode, callData, callGasLimit, verificationGasLimit, preVerificationGas,
        maxFeePerGas, maxPriorityFeePerGas, paymasterAndData, signature, ()) =>
      { sender, nonce, initCode, callData, callGasLimit, verificationGasLimit, preVerificationGas,
        maxFeePerGas, maxPriorityFeePerGas, paymasterAndData, signature }

/-- The receipt of an included user operation, with the receipt of the transaction that included it
as the node returned it. -/
structure OperationReceipt where
  userOpHash : Hash
  sender : Address
  paymaster : Address
  nonce : Word 256
  success : Bool
  actualGasCost : Word 256
  actualGasUsed : Word 256
  source : Address
  receipt : Json
  logs : List Json

instance : OnWire OperationReceipt where
  shape := .record "UserOperationReceipt" <|
    .cons "userOpHash" .required (.fixed 32) <|
    .cons "sender" .required (.fixed 20) <|
    .cons "paymaster" .required (.fixed 20) <|
    .cons "nonce" .required (.quantity 256) <|
    .cons "success" .required .boolean <|
    .cons "actualGasCost" .required (.quantity 256) <|
    .cons "actualGasUsed" .required (.quantity 256) <|
    .cons "from" .required (.fixed 20) <|
    .cons "receipt" .required .value <|
    .cons "logs" .defaulted (.list .value) .nil
  pack r := (r.userOpHash, r.sender, r.paymaster, r.nonce, r.success, r.actualGasCost,
    r.actualGasUsed, r.source, r.receipt, r.logs, ())
  unpack
    | (userOpHash, sender, paymaster, nonce, success, actualGasCost, actualGasUsed, source,
        receipt, logs, ()) =>
      { userOpHash, sender, paymaster, nonce, success, actualGasCost, actualGasUsed, source,
        receipt, logs }

/-- A user operation that was found by its hash, with the block that included it. -/
structure OperationLookup where
  userOperation : UserOperation
  entryPoint : Address
  blockNumber : Word 256
  blockHash : Hash
  transactionHash : Hash
deriving DecidableEq, Repr

instance : OnWire OperationLookup where
  shape := .record "HashLookupResult" <|
    .cons "userOperation" .required (OnWire.shape UserOperation) <|
    .cons "entryPoint" .required (.fixed 20) <|
    .cons "blockNumber" .required (.quantity 256) <|
    .cons "blockHash" .required (.fixed 32) <|
    .cons "transactionHash" .required (.fixed 32) .nil
  pack r := (OnWire.pack r.userOperation, r.entryPoint, r.blockNumber, r.blockHash,
    r.transactionHash, ())
  unpack
    | (userOperation, entryPoint, blockNumber, blockHash, transactionHash, ()) =>
      ⟨OnWire.unpack userOperation, entryPoint, blockNumber, blockHash, transactionHash⟩

structure GasPrices where
  maxFeePerGas : Word 256
  maxPriorityFeePerGas : Word 256
deriving DecidableEq, Repr, Inhabited

instance : OnWire GasPrices where
  shape := .record "GasPrices" <|
    .cons "maxFeePerGas" .required (.quantity 256) <|
    .cons "maxPriorityFeePerGas" .required (.quantity 256) .nil
  pack p := (p.maxFeePerGas, p.maxPriorityFeePerGas, ())
  unpack | (maxFeePerGas, maxPriorityFeePerGas, ()) => ⟨maxFeePerGas, maxPriorityFeePerGas⟩

/-- What is put in place of an account's state while an operation is simulated. -/
structure AccountOverride where
  nonce : Option (Word 64)
  code : Option (List UInt8)
  balance : Option (Word 256)
  state : Option (OrderedMap Hash Hash)
  stateDiff : Option (OrderedMap Hash Hash)
deriving DecidableEq

instance : OnWire AccountOverride where
  shape := .record "AccountOverride" <|
    .cons "nonce" .omittable (.nullable (.quantity 64)) <|
    .cons "code" .omittable (.nullable .bytes) <|
    .cons "balance" .omittable (.nullable (.quantity 256)) <|
    .cons "state" .omittable (.nullable (.dictionary 32 (.fixed 32))) <|
    .cons "stateDiff" .omittable (.nullable (.dictionary 32 (.fixed 32))) .nil
  pack o := (o.nonce, o.code, o.balance, o.state, o.stateDiff, ())
  unpack | (nonce, code, balance, state, stateDiff, ()) => ⟨nonce, code, balance, state, stateDiff⟩

structure StateOverrides where
  accounts : OrderedMap Address AccountOverride
deriving DecidableEq

instance : OnWire StateOverrides where
  shape := .dictionary 20 (OnWire.shape AccountOverride)
  pack o := OrderedMap.mapValues OnWire.pack o.accounts
  unpack m := ⟨OrderedMap.mapValues OnWire.unpack m⟩

/-- Gas that is charged for a user operation on top of its own execution. -/
structure GasOverhead where
  fixed : Word 64
  perUserOp : Word 64
  perUserOpWord : Word 64
  zeroByte : Word 64
  nonZeroByte : Word 64
  minBundleSize : Word 64
deriving DecidableEq, Repr

instance : Inhabited GasOverhead where
  default :=
    { fixed := ⟨21000, by decide⟩
      perUserOp := ⟨18300, by decide⟩
      perUserOpWord := ⟨4, by decide⟩
      zeroByte := ⟨4, by decide⟩
      nonZeroByte := ⟨16, by decide⟩
      minBundleSize := ⟨1, by decide⟩ }

instance : OnWire GasOverhead where
  shape := .record "GasOverhead" <|
    .cons "fixed" .required (.unsigned 64) <|
    .cons "perUserOp" .required (.unsigned 64) <|
    .cons "perUserOpWord" .required (.unsigned 64) <|
    .cons "zeroByte" .required (.unsigned 64) <|
    .cons "nonZeroByte" .required (.unsigned 64) <|
    .cons "minBundleSize" .required (.unsigned 64) .nil
  pack g := (g.fixed, g.perUserOp, g.perUserOpWord, g.zeroByte, g.nonZeroByte, g.minBundleSize, ())
  unpack
    | (fixed, perUserOp, perUserOpWord, zeroByte, nonZeroByte, minBundleSize, ()) =>
      { fixed, perUserOp, perUserOpWord, zeroByte, nonZeroByte, minBundleSize }

end ChainGateway.Provider
