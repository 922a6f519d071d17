import ChainGateway.Dialogue
import ChainGateway.Error
import ChainGateway.Provider.Data

namespace ChainGateway.Provider

/-- What gas estimation needs besides the operation: charges, the chain, a ceiling for any limit,
and the name of a tracer, without which the node takes its own. -/
structure Environment where
  overhead : GasOverhead
  chainId : Word 256
  maxGasLimit : Word 256
  tracer : Option String
deriving DecidableEq, Repr

/-- What an estimator is handed for one operation. -/
structure EstimateInput where
  entryPoint : Address
  operation : UserOperation
  overrides : StateOverrides
  overhead : GasOverhead
  chainId : Word 256
  maxGasLimit : Word 256
  tracer : Option String
deriving DecidableEq

inductive Lookup where
  | gasPrices
  | receipt (hash : Hash) (entryPoint : Address) (blockRange : Word 64)
  | operationByHash (hash : Hash) (entryPoint : Address) (chainId : Word 256)
    (blockRange : Word 64)
  | gasEstimate (entryPoint : Address) (operation : UserOperation) (overrides : StateOverrides)
deriving DecidableEq

/-- What is found: prices, a receipt or an operation if there is one, or the gas for verification
and for the call. -/
def Lookup.Found : Lookup → Type
  | gasPrices => GasPrices
  | receipt _ _ _ => Option OperationReceipt
  | operationByHash _ _ _ _ => Option OperationLookup
  | gasEstimate _ _ _ => Word 64 × Word 64

abbrev Lookup.Reply (l : Lookup) : Type := Except GatewayError l.Found

inductive Slot where
  | receipt
  | gasPrices
  | gasEstimate
  | operationByHash
deriving DecidableEq, Repr

def Lookup.slot : Lookup → Slot
  | gasPrices => .gasPrices
  | receipt _ _ _ => .receipt
  | operationByHash _ _ _ _ => .operationByHash
  | gasEstimate _ _ _ => .gasEstimate

/-- A live gas estimate: an estimator and the environment that it was set with. -/
structure LiveEstimate (Subsystem : Type) extends Environment where
  estimator : Subsystem

def LiveEstimate.input {Subsystem : Type} (live : LiveEstimate Subsystem) (entryPoint : Address)
    (operation : UserOperation) (overrides : StateOverrides) : EstimateInput where
  entryPoint := entryPoint
  operation := operation
  overrides := overrides
  overhead := live.overhead
  chainId := live.chainId
  maxGasLimit := live.maxGasLimit
  tracer := live.tracer

inductive Call (Subsystem : Type) where
  | gasPrices (oracle : Subsystem)
  | receipt (index : Subsystem) (hash : Hash) (entryPoint : Address) (blockRange : Word 64)
  | operationByHash (index : Subsystem) (hash : Hash) (entryPoint : Address) (chainId : Word 256)
    (blockRange : Word 64)
  | gasEstimate (estimator : Subsystem) (input : EstimateInput)

/-- What a slot holds: a subsystem, and for gas estimates the environment that was fixed when the
slot was set. -/
structure Holder (Subsystem : Type) where
  subsystem : Subsystem
  environment : Option Environment

namespace Call

variable {Subsystem : Type}

def lookup : Call Subsystem → Lookup
  | gasPrices _ => .gasPrices
  | receipt _ hash entryPoint blockRange => .receipt hash entryPoint blockRange
  | operationByHash _ hash entryPoint chainId blockRange =>
    .operationByHash hash entryPoint chainId blockRange
  | gasEstimate _ input => .gasEstimate input.entryPoint input.operation input.overrides

def holder : Call Subsystem → Holder Subsystem
  | gasPrices oracle => ⟨oracle, none⟩
  | receipt index _ _ _ => ⟨index, none⟩
  | operationByHash index _ _ _ _ => ⟨index, none⟩
  | gasEstimate estimator input =>
    ⟨estimator, some ⟨input.overhead, input.chainId, input.maxGasLimit, input.tracer⟩⟩

end Call

inductive Setting (Subsystem : Type) where
  | vacant (slot : Slot)
  | receipt (subsystem : Subsystem)
  | gasPrices (subsystem : Subsystem)
  | operationByHash (subsystem : Subsystem)
  | gasEstimate (subsystem : Subsystem) (environment : Environment)

structure Registry (Subsystem : Type) where
  receipt : Option Subsystem
  gasPrices : Option Subsystem
  operationByHash : Option Subsystem
  gasEstimate : Option (LiveEstimate Subsystem)

namespace Registry

variable {Subsystem : Type}

def vacant : Registry Subsystem := ⟨none, none, none, none⟩

instance : Inhabited (Registry Subsystem) := ⟨vacant⟩

def set (r : Registry Subsystem) : Setting Subsystem → Registry Subsystem
  | .vacant .receipt => { r with receipt := none }
  | .vacant .gasPrices => { r with gasPrices := none }
  | .vacant .operationByHash => { r with operationByHash := none }
  | .vacant .gasEstimate => { r with gasEstimate := none }
  | .receipt s => { r with receipt := some s }
  | .gasPrices s => { r with gasPrices := some s }
  | .operationByHash s => { r with operationByHash := some s }
  | .gasEstimate s environment => { r with gasEstimate := some ⟨environment, s⟩ }

def ofSettings (settings : List (Setting Subsystem)) : Registry Subsystem :=
  settings.foldl set vacant

abbrev Program (Subsystem : Type) := Dialogue (Call Subsystem) fun c => c.lookup.Reply

/-- A vacant slot finds nothing by itself; any other makes its call. -/
def forward {Held α : Type} (held : Option Held) (nothing : α)
    (call : Held → Program Subsystem (Except GatewayError α)) :
    Program Subsystem (Except GatewayError α) :=
  match held with
  | none => .done (.ok nothing)
  | some subsystem => call subsystem

def answer (r : Registry Subsystem) : (l : Lookup) → Program Subsystem l.Reply
  | .gasPrices =>
    forward r.gasPrices (default : GasPrices) fun oracle => .ask (.gasPrices oracle) .done
  | .receipt hash entryPoint blockRange =>
    forward r.receipt (none : Option OperationReceipt) fun index =>
      .ask (.receipt index hash entryPoint blockRange) .done
  | .operationByHash hash entryPoint chainId blockRange =>
    forward r.operationByHash (none : Option OperationLookup) fun index =>
      .ask (.operationByHash index hash entryPoint chainId blockRange) .done
  | .gasEstimate entryPoint operation overrides =>
    forward r.gasEstimate ((0, 0) : Word 64 × Word 64) fun live =>
      .ask (.gasEstimate live.estimator (live.input entryPoint operation overrides)) .done

end Registry

end ChainGateway.Provider
