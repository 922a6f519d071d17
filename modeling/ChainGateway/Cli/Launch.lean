import ChainGateway.Bridge.Export
import ChainGateway.Cli.Arguments
import ChainGateway.Settings.Basic
import ChainGateway.Text.Numeral

namespace ChainGateway.Cli

inductive Command where
  | balance (address : String) (coinId : SignedWord)
  | addBalance (address : String)
  | utxos (address : String) (limit : SignedWord) (locked : Bool)
  | sendRaw (rawTx : String) (allowHighFee : Bool)
  | crossSend (e : Bridge.Export)
  /-- Call a method by its name, with a JSON array of parameters. -/
  | call (method params : String)
  | methods

structure Launch where
  overrides : Overrides
  command : Command

def natural? (s : String) : Option Nat :=
  match s.toList with
  | '+' :: r => Text.numeral? 10 r
  | r => Text.numeral? 10 r

def integer? (s : String) : Option Int :=
  match s.toList with
  | '-' :: r => (Text.numeral? 10 r).map fun n => -(n : Int)
  | _ => (natural? s).map fun n => (n : Int)

def word? (bits : Nat) (s : String) : Option (Word bits) := natural? s >>= Word.ofNat?

def signedWord? (s : String) : Option SignedWord := integer? s >>= SignedWord.ofInt?

/-- An index, for which minus zero is zero. -/
def index? (s : String) : Option (Word 32) := do
  let n ← integer? s
  if 0 ≤ n then Word.ofNat? n.toNat else none

def accepts : Setting → String → Bool
  | .file, s => ! s.isEmpty
  | .chainId, s | .timeout, s => (word? 64 s).isSome
  | _, _ => true

def jsonLogs : String := "json-logs"

/-- The options of settings, which are known before a command and behind it. -/
def settingOptions : List ValuedOption := Setting.all.map fun s => ⟨s.option, accepts s⟩

abbrev Environment := String → Option String

def environmentValue? (env : Environment) (s : Setting) : Option String := s.environmentName >>= env

/-- A value in the environment is looked at wherever options leave room for it, and then has to be
one that the setting takes. -/
def isAcceptable (env : Environment) (before behind : Given) (s : Setting) : Bool :=
  ((before.value? s.option).isSome && (behind.value? s.option).isSome)
    || (environmentValue? env s).all (accepts s)

def overridesOf (env : Environment) (before behind : Given) : Except Stop Overrides :=
  let value? (s : Setting) : Option String :=
    behind.value? s.option <|> before.value? s.option <|> environmentValue? env s
  if Setting.all.all (isAcceptable env before behind) then
    .ok {
      file := value? .file
      homeUrl := value? .homeUrl
      primaryUrl := value? .primaryUrl
      contract := value? .contract
      chainId := value? .chainId >>= word? 64
      privateKey := value? .privateKey
      timeout := value? .timeout >>= word? 64
      logLevel := value? .logLevel
      jsonLogs := before.switch jsonLogs || behind.switch jsonLogs }
  else .error .misuse

def coinIdOption : ValuedOption := ⟨"coin-id", fun s => (signedWord? s).isSome⟩

def limitOption : ValuedOption := ⟨"limit", fun s => (signedWord? s).isSome⟩

def lockedSwitch : String := "locked"

def allowHighFeeSwitch : String := "allow-high-fee"

def defaultCoinId : SignedWord := 0

def defaultLimit : SignedWord := ⟨10, by decide, by decide⟩

def levelOf? (name : String) : Option Level :=
  let level (valued : List ValuedOption) (switches : List String) : Level :=
    ⟨settingOptions ++ valued, jsonLogs :: switches, false⟩
  match name with
  | "balance" => some (level [coinIdOption] [])
  | "add-balance" => some (level [] [])
  | "utxos" => some (level [limitOption] [lockedSwitch])
  | "send-raw" => some (level [] [allowHighFeeSwitch])
  | "cross-send" => some (level [] [])
  | "call" => some (level [] [])
  | "methods" => some (level [] [])
  | _ => none

/-- The value of an option as a number, or the number it has where it is not given. -/
def signedValue (g : Given) (o : ValuedOption) (absent : SignedWord) : SignedWord :=
  (g.value? o.name >>= signedWord?).getD absent

def commandOf? (name : String) (g : Given) : Option Command :=
  match name, g.positionals with
  | "balance", [address] => some (.balance address (signedValue g coinIdOption defaultCoinId))
  | "add-balance", [address] => some (.addBalance address)
  | "utxos", [address] =>
    some (.utxos address (signedValue g limitOption defaultLimit) (g.switch lockedSwitch))
  | "send-raw", [rawTx] => some (.sendRaw rawTx (g.switch allowHighFeeSwitch))
  | "cross-send", [txid, idx, fee, sig] => do
    return .crossSend ⟨txid, ← index? idx, ← word? 64 fee, sig⟩
  | "call", [method] => some (.call method "[]")
  | "call", [method, params] => some (.call method params)
  | "methods", [] => some .methods
  | _, _ => none

def helpAbout : List String → Stop
  | [] => .help
  | [name] => if name = "help" || (levelOf? name).isSome then .help else .misuse
  | _ => .misuse

def Launch.ofArguments (args : List String) (env : Environment) : Except Stop Launch := do
  let (before, rest) ← Level.read ⟨settingOptions, [jsonLogs], true⟩ none .empty args
  match rest with
  | [] => .error .misuse
  | name :: rest =>
    if name = "help" then .error (helpAbout rest)
    else match levelOf? name with
      | none => .error .misuse
      | some level =>
        let (behind, _) ← level.read none .empty rest
        match commandOf? name behind with
        | none => .error .misuse
        | some command => return ⟨← overridesOf env before behind, command⟩

end ChainGateway.Cli
