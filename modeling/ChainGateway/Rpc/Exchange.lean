import ChainGateway.Dialogue
import ChainGateway.Error

namespace ChainGateway.Rpc

abbrev Reply := Except GatewayError Response

abbrev Exchange := ExceptT GatewayError (Dialogue Request fun _ => Reply)

namespace Exchange

variable {α : Type}

def ofDialogue (d : Dialogue Request (fun _ => Reply) (Except GatewayError α)) : Exchange α :=
  ExceptT.mk d

def lift (a : Except GatewayError α) : Exchange α := ofDialogue (.done a)

def mapError (f : GatewayError → GatewayError) (x : Exchange α) : Exchange α :=
  ofDialogue (x.run.bind fun a => .done (a.mapError f))

end Exchange

def send (request : Request) : Exchange Response := Exchange.ofDialogue (.query request)

def request (id : Word 64) (method : String) (params : List Json) : Exchange Json := do
  let response ← send (.numbered id method params)
  Exchange.lift response.outcome

/-- The identifier that calls carry. No two calls are under way at once, so that one is enough. -/
def fixedId : Word 64 := ⟨1, Nat.le_of_ble_eq_true rfl⟩

def invoke (method : String) (params : List Json) : Exchange Json := request fixedId method params

def call (shape : Wire.Shape) (id : Word 64) (method : String) (params : List Json) :
    Exchange shape.Carrier := do
  let result ← request id method params
  match shape.ofJson result with
  | .ok x => return x
  | .error cause => throw (.decode ⟨cause, none⟩)

end ChainGateway.Rpc
