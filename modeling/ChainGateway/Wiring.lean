import ChainGateway.Adapter
import ChainGateway.Http.Client

namespace ChainGateway

open Bridge (ContractBridge)
open Http (Client Network)

def Bridge.ContractBridge.overHttp (b : ContractBridge) (timeout : Nat) (e : Bridge.Export) :
    Network (Except GatewayError String) :=
  (Client.mk b.nodeUrl timeout).exchange (b.send e)

namespace Adapter

def wire (a : Adapter) (bridge : Option ContractBridge) (timeout : Nat) :
    (q : Query) → Network q.Reply
  | .node request => (Client.mk a.nodeUrl timeout).send request
  | .bridge e =>
    match bridge with
    | some b => b.overHttp timeout e
    | none => .done (.error .bridgeUnavailable)

def overHttp {α : Type} (a : Adapter) (bridge : Option ContractBridge) (timeout : Nat)
    (x : Operation α) : Network (Except GatewayError α) :=
  x.run.via (a.wire bridge timeout)

end Adapter

end ChainGateway
