import ChainGateway.Bridge.Contract
import ChainGateway.Rpc.Method

namespace ChainGateway

open Bridge (Export)
open Rpc (Method)

namespace Adapter

inductive Query where
  | node (request : Rpc.Request)
  | bridge (e : Export)

def Query.Reply : Query → Type
  | node _ => Rpc.Reply
  | bridge _ => Except GatewayError String

abbrev Operation := ExceptT GatewayError (Dialogue Query Query.Reply)

def onNode {α : Type} (x : Rpc.Exchange α) : Operation α :=
  ExceptT.mk (x.run.via fun request => .query (.node request))

def lift {α : Type} (a : Except GatewayError α) : Operation α := ExceptT.mk (.done a)

def onBridge (e : Export) : Operation String := ExceptT.mk (.query (Query.bridge e))

end Adapter

open Adapter

structure Adapter where
  nodeUrl : String
  bridged : Bool
deriving DecidableEq, Repr

namespace Adapter

def ofNode (nodeUrl : String) : Adapter := ⟨nodeUrl, false⟩

def withBridge (a : Adapter) : Adapter := { a with bridged := true }

def described (a : Adapter) : Text.Described where
  name := "RpcAdapter"
  parts := [("qng", Text.Quoted.text a.nodeUrl), ("bridge", toString a.bridged)]

def getBalance (address : String) (coinId : SignedWord) : Operation Json :=
  onNode (Rpc.invoke Method.getBalance.name [.string address, .integer coinId.toInt])

def addBalance (address : String) : Operation Json :=
  onNode (Rpc.invoke Method.addBalance.name [.string address])

def getUtxos (address : String) (limit : SignedWord) (locked : Bool) : Operation Json :=
  onNode (Rpc.invoke Method.getUtxos.name [.string address, .integer limit.toInt, .bool locked])

def sendRawTransaction (rawTx : String) (allowHighFee : Bool) : Operation Json :=
  onNode (Rpc.invoke Method.sendRawTransaction.name [.string rawTx, .bool allowHighFee])

/-- Replay an export on the primary chain; the result is the hash of the transaction. -/
def crossSend (a : Adapter) (e : Export) : Operation Json :=
  if a.bridged then do
    let hash ← onBridge e
    return .string hash
  else throw .bridgeUnavailable

def param (method : String) (shape : Wire.Shape) (index : Nat) (v : Json) :
    Operation shape.Carrier :=
  match shape.ofJson v with
  | .ok x => lift (.ok x)
  | .error cause =>
    throw (.invalidParams method ("param " ++ toString index ++ ": " ++ cause.message))

def wrongCount {α : Type} (method : String) (wanted given : Nat) : Operation α :=
  throw (.invalidParams method
    ("expected " ++ toString wanted ++ " params, got " ++ toString given))

/-- Do what a method name and positional parameters ask for. -/
def dispatch (a : Adapter) (method : String) (params : List Json) : Operation Json :=
  match Method.ofName? method with
  | none => throw (.methodNotFound method)
  | some .getBalance =>
    match params with
    | [p₀, p₁] => do
      let address : String ← param method .text 0 p₀
      let coinId : SignedWord ← param method .signed 1 p₁
      getBalance address coinId
    | _ => wrongCount method 2 params.length
  | some .addBalance =>
    match params with
    | [p₀] => do
      let address : String ← param method .text 0 p₀
      addBalance address
    | _ => wrongCount method 1 params.length
  | some .getUtxos =>
    match params with
    | [p₀, p₁, p₂] => do
      let address : String ← param method .text 0 p₀
      let limit : SignedWord ← param method .signed 1 p₁
      let locked : Bool ← param method .boolean 2 p₂
      getUtxos address limit locked
    | _ => wrongCount method 3 params.length
  | some .sendRawTransaction =>
    match params with
    | [p₀, p₁] => do
      let rawTx : String ← param method .text 0 p₀
      let allowHighFee : Bool ← param method .boolean 1 p₁
      sendRawTransaction rawTx allowHighFee
    | _ => wrongCount method 2 params.length
  | some .crossSend =>
    match params with
    | [p₀, p₁, p₂, p₃] => do
      let txid : String ← param method .text 0 p₀
      let idx : Word 32 ← param method (.unsigned 32) 1 p₁
      let fee : Word 64 ← param method (.unsigned 64) 2 p₂
      let sig : String ← param method .text 3 p₃
      a.crossSend ⟨txid, idx, fee, sig⟩
    | _ => wrongCount method 4 params.length

end Adapter

end ChainGateway
