import ChainGateway.Cli.Launch
import ChainGateway.Json.Reader
import ChainGateway.Wiring

namespace ChainGateway.Cli

open Adapter (Operation)
open Bridge (ContractBridge)
open Http (Network)
open Rpc (Method)

inductive Failure where
  | settings (fault : SettingsFault)
  /-- The parameters of a call are not a JSON array. -/
  | params (fault : Json.Fault)
  | gateway (error : GatewayError)

/-- The failure and the causes behind it in one line, but for what is wrong with the text of a
file. -/
def Failure.message : Failure → String
  | settings fault => fault.message
  | params fault => "params must be a JSON array: " ++ fault.message
  | gateway error => error.chain

def Failure.chain (why : String → String) : Failure → String
  | settings fault => fault.chain why
  | failure => failure.message

abbrev Run := ExceptT Failure Network

def lift {α : Type} (a : Except Failure α) : Run α := ExceptT.mk (.done a)

def ofNetwork {α : Type} (x : Network (Except GatewayError α)) : Run α :=
  ExceptT.mk (x.bind fun a => .done (a.mapError .gateway))

def timeoutOf (s : Settings) : Nat := 1000 * s.timeoutSeconds

def adapterOf (s : Settings) : Except Failure Adapter :=
  (s.home.map Adapter.ofNode).mapError .settings

def bridgeOf (s : Settings) (privateKey : Option String) : Except Failure ContractBridge := do
  let b ← (s.bridge privateKey).mapError .settings
  let key ← (ContractBridge.keyOfText b.privateKey).mapError .gateway
  (ContractBridge.ofSettings b.primaryUrl key ⟨b.contract, b.chainId⟩).mapError .gateway

def paramsOfText (s : String) : Except Failure (List Json) :=
  ((Wire.Shape.list .value).ofBytes (Text.utf8 s)).mapError .params

def onHome (s : Settings) (x : Operation Json) : Run Json := do
  let a ← lift (adapterOf s)
  ofNetwork (a.overHttp none (timeoutOf s) x)

/-- The adapter and the bridge for a method, which is needed for a cross-chain send only. -/
def bridged (s : Settings) (privateKey : Option String) (method : String) (a : Adapter) :
    Except Failure (Adapter × Option ContractBridge) :=
  if method = Method.crossSend.name then do
    let b ← bridgeOf s privateKey
    return (a.withBridge, some b)
  else return (a, none)

def perform (s : Settings) (privateKey : Option String) : Command → Run Json
  | .balance address coinId => onHome s (Adapter.getBalance address coinId)
  | .addBalance address => onHome s (Adapter.addBalance address)
  | .utxos address limit locked => onHome s (Adapter.getUtxos address limit locked)
  | .sendRaw rawTx allowHighFee => onHome s (Adapter.sendRawTransaction rawTx allowHighFee)
  | .crossSend e => do
    let b ← lift (bridgeOf s privateKey)
    let hash ← ofNetwork (b.overHttp (timeoutOf s) e)
    return .string hash
  | .call method params => do
    let params ← lift (paramsOfText params)
    let a ← lift (adapterOf s)
    let (a, bridge) ← lift (bridged s privateKey method a)
    ofNetwork (a.overHttp bridge (timeoutOf s) (a.dispatch method params))
  | .methods => return .array (Method.all.map fun m => .string m.name)

/-- What a command prints of its result. The names of methods are printed a line each. -/
def render : Command → Json → String
  | .methods, _ => String.join (Method.all.map fun m => m.name ++ "\n")
  | _, result => result.pretty ++ "\n"

inductive Outcome where
  | printed (output : String)
  | failed (failure : Failure)
  | misused

namespace Outcome

def status : Outcome → UInt8
  | printed _ => 0
  | failed _ => 1
  | misused => 2

def output : Outcome → String
  | printed output => output
  | _ => ""

def error? : Outcome → Option String
  | failed failure => some failure.message
  | _ => none

end Outcome

def Launch.run (read : String → Settings.Read) (l : Launch) : Network Outcome :=
  match Settings.resolve read l.overrides with
  | .error fault => .done (.failed (.settings fault))
  | .ok s =>
    (perform s l.overrides.privateKey l.command).run.bind fun
      | .ok result => .done (.printed (render l.command result))
      | .error failure => .done (.failed failure)

def name : String := "qngrpc"

def version : String := "0.1.0"

def settingUsage (s : Setting) : String :=
  "  " ++ s.flag ++ " <VALUE>" ++ match s.environmentName with
    | some v => " [env: " ++ v ++ "]"
    | none => ""

def usageLines : List String :=
  ["Query a QNG node and bridge exports to the primary chain", "",
    "Usage: qngrpc [OPTIONS] <COMMAND>", "",
    "Commands:",
    "  balance <ADDRESS> [--coin-id <N>]",
    "  add-balance <ADDRESS>",
    "  utxos <ADDRESS> [--limit <N>] [--locked]",
    "  send-raw <RAW_TX> [--allow-high-fee]",
    "  cross-send <TXID> <IDX> <FEE> <SIG>",
    "  call <METHOD> [PARAMS]",
    "  methods", "",
    "Options:"]
    ++ Setting.all.map settingUsage ++ ["  --" ++ jsonLogs, "  --help", "  --version"]

def usage : String := String.join (usageLines.map (· ++ "\n"))

/-- What goes to standard error, given how the YAML reader puts it what is wrong with a text. -/
def Outcome.complaint (why : String → String) : Outcome → String
  | printed _ => ""
  | failed failure => "Error: " ++ failure.chain why ++ "\n"
  | misused => usage

def Stop.outcome : Stop → Outcome
  | misuse => .misused
  | version => .printed (name ++ " " ++ Cli.version ++ "\n")
  | help => .printed usage

/-- The program, given its arguments, its environment and how to read files. -/
def program (args : List String) (env : Environment) (read : String → Settings.Read) :
    Network Outcome :=
  match Launch.ofArguments args env with
  | .error stop => .done stop.outcome
  | .ok l => l.run read

end ChainGateway.Cli
