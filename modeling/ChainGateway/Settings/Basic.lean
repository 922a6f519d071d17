import ChainGateway.Http.Client
import ChainGateway.Settings.Log

namespace ChainGateway

inductive Setting where
  | file
  | homeUrl
  | primaryUrl
  | contract
  | chainId
  | privateKey
  | timeout
  | logLevel
deriving DecidableEq, Repr

namespace Setting

def all : List Setting :=
  [file, homeUrl, primaryUrl, contract, chainId, privateKey, timeout, logLevel]

def option : Setting → String
  | file => "config"
  | homeUrl => "qng-url"
  | primaryUrl => "evm-url"
  | contract => "meerchange"
  | chainId => "chain-id"
  | privateKey => "private-key"
  | timeout => "timeout"
  | logLevel => "log-level"

def flag (s : Setting) : String := "--" ++ s.option

/-- The environment variable that gives the setting where no option does. -/
def environmentName : Setting → Option String
  | file => some "QNGRPC_CONFIG"
  | homeUrl => some "QNGRPC_QNG_URL"
  | primaryUrl => some "QNGRPC_EVM_URL"
  | contract => some "QNGRPC_MEERCHANGE"
  | chainId => some "QNGRPC_CHAIN_ID"
  | privateKey => some "QNGRPC_PRIVATE_KEY"
  | timeout => none
  | logLevel => none

theorem mem_all (s : Setting) : s ∈ all := by cases s <;> decide

end Setting

structure Overrides where
  file : Option String
  homeUrl : Option String
  primaryUrl : Option String
  contract : Option String
  chainId : Option (Word 64)
  privateKey : Option String
  timeout : Option (Word 64)
  logLevel : Option String
  jsonLogs : Bool

inductive SettingsFault where
  | unreadable (file reason : String)
  /-- The text of a file is no configuration. -/
  | malformed (file text : String)
  | noHomeUrl
  | missing (settings : List Setting)
deriving DecidableEq, Repr

/-- The fault in words, but for what is wrong with the text of a file. -/
def SettingsFault.message : SettingsFault → String
  | unreadable file reason => "reading config " ++ file ++ ": " ++ reason
  | malformed file _ => "parsing config " ++ file
  | noHomeUrl => "no QNG endpoint: pass --qng-url or set QNGRPC_QNG_URL"
  | missing settings => "cross-chain send needs " ++ ", ".intercalate (settings.map Setting.flag)

/-- The fault and its cause in one line, given how the YAML reader puts it what is wrong with a
text. -/
def SettingsFault.chain (why : String → String) : SettingsFault → String
  | malformed file text => (malformed file text).message ++ ": " ++ why text
  | fault => fault.message

structure BridgeSettings where
  primaryUrl : String
  contract : String
  chainId : Word 64
  privateKey : String
deriving DecidableEq, Repr

structure Settings where
  homeUrl : Option String
  primaryUrl : Option String
  contract : Option String
  chainId : Option (Word 64)
  /-- The seconds that an exchange may take. -/
  timeout : Option (Word 64)
  log : LogSettings
deriving DecidableEq

namespace Settings

instance : Inhabited Settings := ⟨⟨none, none, none, none, none, default⟩⟩

/-- The settings in a document, of which each may be missing. Other keys are left alone. -/
def ofDocument? (d : Yaml.Document) : Option Settings := do
  let entries ← match d.root with
    | some node => d.entries? node
    | none => some []
  let optional {α : Type} (read : Yaml.Node → Option α) (name : String) : Option (Option α) :=
    Yaml.Document.field? (d.optional? read) none name entries
  let homeUrl ← optional d.text? "qng_url"
  let primaryUrl ← optional d.text? "evm_url"
  let contract ← optional d.text? "meerchange"
  let chainId ← optional (d.word? 64) "chain_id"
  let timeout ← optional (d.word? 64) "request_timeout_secs"
  let log ← Yaml.Document.field? (LogSettings.ofNode? d) default "log" entries
  return ⟨homeUrl, primaryUrl, contract, chainId, timeout, log⟩

def ofText? (s : String) : Option Settings := Yaml.Document.ofText? s >>= ofDocument?

abbrev Read := Except String String

def ofFile (file : String) : Read → Except SettingsFault Settings
  | .error reason => .error (.unreadable file reason)
  | .ok text =>
    match ofText? text with
    | some s => .ok s
    | none => .error (.malformed file text)

def override (s : Settings) (o : Overrides) : Settings where
  homeUrl := o.homeUrl <|> s.homeUrl
  primaryUrl := o.primaryUrl <|> s.primaryUrl
  contract := o.contract <|> s.contract
  chainId := o.chainId <|> s.chainId
  timeout := o.timeout <|> s.timeout
  log := { s.log with level := o.logLevel.getD s.log.level, json := o.jsonLogs || s.log.json }

def resolve (read : String → Read) (o : Overrides) : Except SettingsFault Settings :=
  match o.file with
  | none => .ok ((default : Settings).override o)
  | some file => (ofFile file (read file)).map (·.override o)

def home (s : Settings) : Except SettingsFault String :=
  match s.homeUrl with
  | some url => .ok url
  | none => .error .noHomeUrl

def timeoutSeconds (s : Settings) : Nat :=
  (s.timeout.map Word.toNat).getD Http.Client.defaultSeconds

def missingForBridge (s : Settings) (privateKey : Option String) : List Setting :=
  (if s.primaryUrl.isNone then [.primaryUrl] else [])
    ++ (if s.contract.isNone then [.contract] else [])
    ++ (if s.chainId.isNone then [.chainId] else [])
    ++ (if privateKey.isNone then [.privateKey] else [])

def bridge (s : Settings) (privateKey : Option String) : Except SettingsFault BridgeSettings :=
  match s.primaryUrl, s.contract, s.chainId, privateKey with
  | some primaryUrl, some contract, some chainId, some key =>
    .ok ⟨primaryUrl, contract, chainId, key⟩
  | _, _, _, _ => .error (.missing (s.missingForBridge privateKey))

end Settings

end ChainGateway
