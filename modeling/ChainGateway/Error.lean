import ChainGateway.Rpc.Envelope

namespace ChainGateway

open Rpc (NodeError)

inductive GatewayError where
  | transport (message : String)
  /-- The reply has neither a result nor an error. -/
  | protocol (message : String)
  | rpc (error : NodeError)
  /-- Malformed hexadecimal text or address, noticed before any request. -/
  | encoding (message : String)
  | submission (source : GatewayError)
  | signing (message : String)
  /-- A result does not denote what was asked for. -/
  | decode (fault : Json.Fault)
  | invalidParams (method reason : String)
  | methodNotFound (method : String)
  | bridgeUnavailable
  /-- A subsystem failed with an error of the gateway. -/
  | backend (inner : GatewayError)
  /-- A subsystem failed with an error of its own, which has no cause. -/
  | foreign (message : String)

namespace GatewayError

def kind : GatewayError → String
  | transport _ => "transport"
  | protocol _ => "protocol"
  | rpc _ => "rpc"
  | encoding _ => "encoding"
  | submission _ => "submission"
  | signing _ => "signing"
  | decode _ => "decode"
  | invalidParams _ _ => "invalid_params"
  | methodNotFound _ => "method_not_found"
  | bridgeUnavailable => "bridge_unavailable"
  | backend _ => "backend"
  | foreign _ => "backend"

def message : GatewayError → String
  | transport m => "transport error: " ++ m
  | protocol m => m
  | rpc e => e.message
  | encoding m => "encoding error: " ++ m
  | submission source => "transaction submission failed: " ++ source.message
  | signing m => "signing error: " ++ m
  | decode fault => "decode error: " ++ fault.message
  | invalidParams method reason => "invalid params for " ++ method ++ ": " ++ reason
  | methodNotFound method => "method not found: " ++ method
  | bridgeUnavailable => "cross-chain bridge is not configured"
  | backend inner => inner.message
  | foreign m => m

def causes : GatewayError → List String
  | submission source => source.message :: source.causes
  | decode fault => [fault.message]
  | backend inner => inner.causes
  | _ => []

def chain (e : GatewayError) : String :=
  ": ".intercalate (e.message :: e.causes)

def nodeError? : GatewayError → Option NodeError
  | rpc e => some e
  | _ => none

def isNodeError (e : GatewayError) : Bool := e.nodeError?.isSome

def emptyReply : GatewayError := protocol "network request exception"

end GatewayError

/-- The result of a reply: an error with a code other than zero comes before any result, and a
result of null is none. -/
def Rpc.Response.outcome (r : Response) : Except GatewayError Json :=
  match r.nodeError?, r.result? with
  | some e, _ => .error (.rpc e)
  | none, some v => .ok v
  | none, none => .error .emptyReply

end ChainGateway
