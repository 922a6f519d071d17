import ChainGateway.Bridge.Export
import ChainGateway.Ethereum.ExportCall
import ChainGateway.Ethereum.Transaction
import ChainGateway.Rpc.Exchange
import ChainGateway.Text.Blank
import ChainGateway.Text.Described

namespace ChainGateway.Bridge

open Crypto.Ecdsa (PrivateKey Signature)
open Ethereum (ExportCall Fee Transaction)
open Rpc (Exchange)

structure ContractBridge where
  nodeUrl : String
  key : PrivateKey
  contract : Address
  chainId : Word 64

namespace ContractBridge

/-- The key that a hexadecimal text denotes, without regard to white space around it. Nothing of a
rejected text goes into the error. -/
def keyOfText (s : String) : Except GatewayError PrivateKey :=
  let rejected : GatewayError := .encoding "private key is not a valid secp256k1 key"
  match (FixedBytes.ofText (Text.trim s) : Except Hex.Fault Hash) with
  | .error _ => .error rejected
  | .ok b =>
    match PrivateKey.ofNat? (BigEndian.toNat b.toList) with
    | some key => .ok key
    | none => .error rejected

def ofSettings (nodeUrl : String) (key : PrivateKey) (settings : ContractSettings) :
    Except GatewayError ContractBridge :=
  match FixedBytes.ofText settings.contractAddress with
  | .ok contract => .ok ⟨nodeUrl, key, contract, settings.chainId⟩
  | .error fault =>
    .error (.encoding ("invalid meerchange address "
      ++ Text.Quoted.text settings.contractAddress ++ ": " ++ Json.hexMessage fault))

def sender (b : ContractBridge) : Address := b.key.address

def described (b : ContractBridge) : Text.Described where
  name := "MeerchangeBridge"
  parts := [("eth", Text.Quoted.text b.nodeUrl), ("sender", b.sender.text),
    ("contract", b.contract.text), ("chain_id", toString b.chainId.toNat)]

end ContractBridge

def Export.call (e : Export) : Except GatewayError ExportCall :=
  match Export.txidBytes e.txid with
  | .ok txid => .ok ⟨txid, e.idx, e.fee, Text.utf8 e.sig⟩
  | .error fault => .error (.encoding fault.message)

def Export.callData (e : Export) : Except GatewayError (List UInt8) :=
  e.call.map ExportCall.encode

def baseFee? (block : Json) : Except GatewayError (Option (Word 256)) :=
  match block.member? "baseFeePerGas" with
  | none => .ok none
  | some .null => .ok none
  | some v =>
    match Wire.quantityOfJson 256 v with
    | .ok w => .ok (some w)
    | .error cause => .error (.decode ⟨cause, none⟩)

/-- A fee as it is written into a transaction, which has half the bits. -/
def narrow (field : String) (w : Word 256) : Except GatewayError (Word 128) :=
  match Word.ofNat? w.toNat with
  | some w => .ok w
  | none =>
    .error (.protocol (field ++ " " ++ toString w.toNat ++ " does not fit in 128 bits"))

/-- The tip on top of twice the base fee, so that the cap holds while the base fee doubles. -/
def feeCap (base tip : Word 256) : Word 256 :=
  Word.saturate (tip.toNat + (Word.saturate (2 * base.toNat) : Word 256).toNat)

def marketFee (base tip : Word 256) : Except GatewayError Fee := do
  let cap ← narrow "maxFeePerGas" (feeCap base tip)
  let tip ← narrow "maxPriorityFeePerGas" tip
  return .market tip cap

def legacyFee (price : Word 256) : Except GatewayError Fee :=
  (narrow "gasPrice" price).map .legacy

namespace ContractBridge

/-- Ask for what a fee needs: a tip where there is a base fee, and a price elsewhere. -/
def fee (base : Option (Word 256)) : Exchange Fee :=
  match base with
  | some base => do
    let tip : Word 256 ← Rpc.call (.quantity 256) Rpc.fixedId "eth_maxPriorityFeePerGas" []
    Exchange.lift (marketFee base tip)
  | none => do
    let price : Word 256 ← Rpc.call (.quantity 256) Rpc.fixedId "eth_gasPrice" []
    Exchange.lift (legacyFee price)

def relayable (t : Transaction) : Option Signature → Except GatewayError (List UInt8)
  | some sig => .ok (t.raw sig)
  | none => .error (.signing "signature error")

def signed (b : ContractBridge) (t : Transaction) : Except GatewayError (List UInt8) :=
  relayable t (t.sign b.key)

/-- Sign and relay a call of the contract; the hash is that of the relayed bytes. -/
def submit (b : ContractBridge) (input : List UInt8) : Exchange Hash := do
  let sender := b.sender.text
  let nonce : Word 64 ← Rpc.call (.quantity 64) Rpc.fixedId "eth_getTransactionCount"
    [.string sender, .string "pending"]
  let gasLimit : Word 64 ← Rpc.call (.quantity 64) Rpc.fixedId "eth_estimateGas"
    [.object [("data", .string (Hex.encodeMarked input)), ("from", .string sender),
      ("to", .string b.contract.text)]]
  let head ← Rpc.invoke "eth_getBlockByNumber" [.string "latest", .bool false]
  let base ← Exchange.lift (baseFee? head)
  let fee ← fee base
  let raw ← Exchange.lift (b.signed
    { chainId := b.chainId, nonce, fee, gasLimit, recipient := b.contract, value := 0, input })
  let _ ← Rpc.invoke "eth_sendRawTransaction" [.string (Hex.encodeMarked raw)]
  return keccak256 raw

def send (b : ContractBridge) (e : Export) : Exchange String := do
  let input ← Exchange.lift e.callData
  let hash ← (b.submit input).mapError .submission
  return hash.text

end ContractBridge

end ChainGateway.Bridge
