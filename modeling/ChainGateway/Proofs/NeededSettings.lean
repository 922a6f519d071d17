import ChainGateway.Proofs.CommandRuns

namespace ChainGateway

def Settings.ofNamedFile (read : String → Read) (o : Overrides) : Except SettingsFault Settings :=
  match o.file with
  | none => .ok default
  | some file => ofFile file (read file)

/-- What is given beside a file, and a file that can be read. -/
structure Configuration where
  overrides : Overrides
  read : String → Settings.Read
  file : Settings
  ofNamedFile_eq : Settings.ofNamedFile read overrides = .ok file

namespace Configuration

def effective {α : Type} (beside file : Option α) : Option α :=
  match beside with
  | some a => some a
  | none => file

section

variable (c : Configuration)

def homeUrl : Option String := effective c.overrides.homeUrl c.file.homeUrl

def primaryUrl : Option String := effective c.overrides.primaryUrl c.file.primaryUrl

def contract : Option String := effective c.overrides.contract c.file.contract

def chainId : Option (Word 64) := effective c.overrides.chainId c.file.chainId

def timeout : Option (Word 64) := effective c.overrides.timeout c.file.timeout

/-- The key that signs, which is given beside a file or not at all. -/
def privateKey : Option String := c.overrides.privateKey

/-- The flags of what a bridge is made from, and whether it is there. -/
def bridgeFlags : List (String × Bool) :=
  [("--evm-url", c.primaryUrl.isSome), ("--meerchange", c.contract.isSome),
    ("--chain-id", c.chainId.isSome), ("--private-key", c.privateKey.isSome)]

def missing : List String := (c.bridgeFlags.filter fun flag => ! flag.2).map Prod.fst

def observe {σ : Type} (command : Cli.Command) (answer : Http.Post → σ → Http.Delivery × σ)
    (s : σ) : Cli.Observation :=
  (Cli.Launch.mk c.overrides command).observe c.read answer s

def settings : Settings := c.file.override c.overrides

theorem resolve_eq : Settings.resolve c.read c.overrides = .ok c.settings := by
  have hfile := c.ofNamedFile_eq
  unfold Settings.ofNamedFile at hfile
  unfold Settings.resolve settings
  cases hname : c.overrides.file with
  | none =>
    rw [hname] at hfile
    rw [← Except.ok.inj hfile]
  | some name =>
    simp only [hname] at hfile ⊢
    rw [hfile]
    rfl

theorem orElse_eq_effective {α : Type} (beside file : Option α) :
    (beside <|> file) = effective beside file := by
  cases beside <;> rfl

theorem homeUrl_settings : c.settings.homeUrl = c.homeUrl := orElse_eq_effective _ _

theorem primaryUrl_settings : c.settings.primaryUrl = c.primaryUrl := orElse_eq_effective _ _

theorem contract_settings : c.settings.contract = c.contract := orElse_eq_effective _ _

theorem chainId_settings : c.settings.chainId = c.chainId := orElse_eq_effective _ _

theorem timeout_settings : c.settings.timeout = c.timeout := orElse_eq_effective _ _

theorem flags_missingForBridge :
    (c.settings.missingForBridge c.privateKey).map Setting.flag = c.missing := by
  unfold Settings.missingForBridge missing bridgeFlags
  rw [c.primaryUrl_settings, c.contract_settings, c.chainId_settings]
  cases c.primaryUrl <;> cases c.contract <;> cases c.chainId <;> cases c.privateKey <;> rfl

end

end Configuration

namespace Cli

inductive NodeBound : Command → Prop where
  | balance (address : String) (coinId : SignedWord) : NodeBound (.balance address coinId)
  | addBalance (address : String) : NodeBound (.addBalance address)
  | utxos (address : String) (limit : SignedWord) (locked : Bool) :
      NodeBound (.utxos address limit locked)
  | sendRaw (rawTx : String) (allowHighFee : Bool) : NodeBound (.sendRaw rawTx allowHighFee)
  | call {method : String} (params : String) : method ≠ "qng_crossSend" →
      NodeBound (.call method params)

inductive BridgeBound : Command → Prop where
  | crossSend (e : Bridge.Export) : BridgeBound (.crossSend e)
  | call (params : String) : BridgeBound (.call "qng_crossSend" params)

section

variable {s s' : Settings} {privateKey privateKey' : Option String}

theorem adapterOf_congr (h : s.homeUrl = s'.homeUrl) : adapterOf s = adapterOf s' := by
  unfold adapterOf Settings.home
  rw [h]

theorem timeoutOf_congr (h : s.timeout = s'.timeout) : timeoutOf s = timeoutOf s' := by
  unfold timeoutOf Settings.timeoutSeconds
  rw [h]

theorem onHome_congr (hhome : s.homeUrl = s'.homeUrl) (htimeout : s.timeout = s'.timeout)
    (x : Adapter.Operation Json) : onHome s x = onHome s' x := by
  unfold onHome
  rw [adapterOf_congr hhome, timeoutOf_congr htimeout]

theorem bridgeOf_congr (hurl : s.primaryUrl = s'.primaryUrl) (hcontract : s.contract = s'.contract)
    (hchain : s.chainId = s'.chainId) : bridgeOf s privateKey = bridgeOf s' privateKey := by
  unfold bridgeOf Settings.bridge Settings.missingForBridge
  rw [hurl, hcontract, hchain]

theorem perform_nodeBound_congr {c : Command} (hc : NodeBound c) (hhome : s.homeUrl = s'.homeUrl)
    (htimeout : s.timeout = s'.timeout) : perform s privateKey c = perform s' privateKey' c := by
  cases hc with
  | balance | addBalance | utxos | sendRaw => exact onHome_congr hhome htimeout _
  | call params hmethod =>
    rw [perform_call, perform_call, adapterOf_congr hhome, timeoutOf_congr htimeout]
    simp only [bridged_of_ne hmethod, lift_ok_bind]

theorem perform_crossSend_congr (hbridge : bridgeOf s privateKey = bridgeOf s' privateKey)
    (htimeout : s.timeout = s'.timeout) (e : Bridge.Export) :
    perform s privateKey (.crossSend e) = perform s' privateKey (.crossSend e) := by
  rw [perform_crossSend, perform_crossSend, hbridge, timeoutOf_congr htimeout]

theorem bridge_eq_missing (h : s.missingForBridge privateKey ≠ []) :
    s.bridge privateKey = .error (.missing (s.missingForBridge privateKey)) := by
  unfold Settings.bridge
  split
  · rename_i hurl hcontract hchain
    unfold Settings.missingForBridge at h
    rw [hurl, hcontract, hchain] at h
    exact absurd rfl h
  · rfl

theorem bridgeOf_eq_missing (h : s.missingForBridge privateKey ≠ []) :
    bridgeOf s privateKey = .error (.settings (.missing (s.missingForBridge privateKey))) := by
  unfold bridgeOf
  rw [bridge_eq_missing h]
  rfl

/-- Without a bridge a command that one is made for fails before it does anything. -/
theorem exists_failure_of_bridgeBound {c : Command} (hc : BridgeBound c) {failure : Failure}
    (h : bridgeOf s privateKey = .error failure) :
    ∃ failure, perform s privateKey c = lift (.error failure) := by
  cases hc with
  | crossSend e =>
    rw [perform_crossSend, h]
    exact ⟨failure, rfl⟩
  | call text =>
    have hbridged (a : Adapter) : bridged s privateKey "qng_crossSend" a = .error failure := by
      refine (bridged_crossSend s privateKey a).trans ?_
      rw [h]
      rfl
    rw [perform_call]
    cases paramsOfText text with
    | error fault => exact ⟨fault, rfl⟩
    | ok params =>
      rw [lift_ok_bind]
      cases adapterOf s with
      | error fault => exact ⟨fault, rfl⟩
      | ok a =>
        rw [lift_ok_bind, hbridged]
        exact ⟨failure, rfl⟩

end

section

variable {σ : Type} (answer : Http.Post → σ → Http.Delivery × σ) (state : σ)
variable {read : String → Settings.Read} {l : Launch}

theorem observe_of_unresolved {fault : SettingsFault}
    (h : Settings.resolve read l.overrides = .error fault) :
    l.observe read answer state = ⟨[], "", 1, some fault.message⟩ := by
  unfold Launch.observe Launch.run
  rw [h]
  rfl

theorem observe_of_failure {s : Settings} (hresolve : Settings.resolve read l.overrides = .ok s)
    {failure : Failure}
    (h : perform s l.overrides.privateKey l.command = lift (.error failure)) :
    l.observe read answer state = ⟨[], "", 1, some failure.message⟩ := by
  unfold Launch.observe
  rw [run_of_resolve hresolve, h]
  rfl

/-- Where no key is given beside the file, nothing in the file makes a bridge. -/
theorem observe_without_key (read : String → Settings.Read) (hc : BridgeBound l.command)
    (hkey : l.overrides.privateKey = none) :
    ∃ message, l.observe read answer state = ⟨[], "", 1, some message⟩ := by
  cases hresolve : Settings.resolve read l.overrides with
  | error fault => exact ⟨_, observe_of_unresolved answer state hresolve⟩
  | ok s =>
    have hmissing : s.missingForBridge l.overrides.privateKey ≠ [] := by
      rw [hkey]
      exact List.append_ne_nil_of_right_ne_nil _ (List.cons_ne_nil _ _)
    obtain ⟨failure, hfailure⟩ :=
      exists_failure_of_bridgeBound hc (bridgeOf_eq_missing hmissing)
    exact ⟨_, observe_of_failure answer state hresolve hfailure⟩

end

end Cli

namespace Configuration

open Cli (BridgeBound NodeBound)

variable {σ : Type} (answer : Http.Post → σ → Http.Delivery × σ) (state : σ)

theorem observe_congr {c c' : Configuration} {command : Cli.Command}
    (h : Cli.perform c.settings c.privateKey command =
      Cli.perform c'.settings c'.privateKey command) :
    c.observe command answer state = c'.observe command answer state := by
  exact Cli.observe_congr_perform ⟨c.overrides, command⟩ ⟨c'.overrides, command⟩
    c.resolve_eq c'.resolve_eq h rfl answer state

theorem observe_nodeBound_congr {c c' : Configuration} (hhome : c.homeUrl = c'.homeUrl)
    (htimeout : c.timeout = c'.timeout) {command : Cli.Command} (h : NodeBound command) :
    c.observe command answer state = c'.observe command answer state := by
  rw [← homeUrl_settings, ← homeUrl_settings] at hhome
  rw [← timeout_settings, ← timeout_settings] at htimeout
  exact observe_congr answer state (Cli.perform_nodeBound_congr h hhome htimeout)

theorem observe_crossSend_congr {c c' : Configuration} (hurl : c.primaryUrl = c'.primaryUrl)
    (hcontract : c.contract = c'.contract) (hchain : c.chainId = c'.chainId)
    (htimeout : c.timeout = c'.timeout) (hkey : c.privateKey = c'.privateKey) (e : Bridge.Export) :
    c.observe (.crossSend e) answer state = c'.observe (.crossSend e) answer state := by
  rw [← primaryUrl_settings, ← primaryUrl_settings] at hurl
  rw [← contract_settings, ← contract_settings] at hcontract
  rw [← chainId_settings, ← chainId_settings] at hchain
  rw [← timeout_settings, ← timeout_settings] at htimeout
  apply observe_congr
  rw [hkey]
  exact Cli.perform_crossSend_congr (Cli.bridgeOf_congr hurl hcontract hchain) htimeout e

theorem observe_missing {c : Configuration} (h : c.missing ≠ []) (e : Bridge.Export) :
    c.observe (.crossSend e) answer state =
      ⟨[], "", 1, some ("cross-chain send needs " ++ ", ".intercalate c.missing)⟩ := by
  have hmissing : c.settings.missingForBridge c.privateKey ≠ [] := by
    rw [← flags_missingForBridge] at h
    exact fun hnil => h (by rw [hnil]; rfl)
  have hperform : Cli.perform c.settings c.privateKey (.crossSend e) =
      Cli.lift (.error (.settings (.missing (c.settings.missingForBridge c.privateKey)))) := by
    rw [Cli.perform_crossSend, Cli.bridgeOf_eq_missing hmissing]
    rfl
  rw [← flags_missingForBridge]
  exact Cli.observe_of_failure answer state (l := ⟨c.overrides, .crossSend e⟩) c.resolve_eq hperform

/-- What is seen of a command depends on what it needs: for the node, on the address and the time
allowed; for a cross-chain send, on what makes up the bridge and the time allowed. A send that lacks
some of that posts nothing and names the flags of what it lacks, and a key that is not given beside
the file is lacking whatever the file holds. -/
theorem observe_depends_on_needs (c c' : Configuration) :
    (c.homeUrl = c'.homeUrl → c.timeout = c'.timeout →
      ∀ command, NodeBound command →
        c.observe command answer state = c'.observe command answer state) ∧
    (c.primaryUrl = c'.primaryUrl → c.contract = c'.contract → c.chainId = c'.chainId →
      c.timeout = c'.timeout → c.privateKey = c'.privateKey →
      ∀ e, c.observe (.crossSend e) answer state = c'.observe (.crossSend e) answer state) ∧
    (c.missing ≠ [] →
      ∀ e, c.observe (.crossSend e) answer state =
        ⟨[], "", 1, some ("cross-chain send needs " ++ ", ".intercalate c.missing)⟩) ∧
    ∀ (read : String → Settings.Read) (l : Cli.Launch), BridgeBound l.command →
      l.overrides.privateKey = none →
      ∃ message, l.observe read answer state = ⟨[], "", 1, some message⟩ :=
  ⟨fun hhome htimeout _ h => observe_nodeBound_congr answer state hhome htimeout h,
    fun hurl hcontract hchain htimeout hkey e =>
      observe_crossSend_congr answer state hurl hcontract hchain htimeout hkey e,
    fun hmissing e => observe_missing answer state hmissing e,
    fun read _ hc hkey => Cli.observe_without_key answer state read hc hkey⟩

def homeBesideFile : Configuration where
  overrides :=
    { file := some "settings.yaml", homeUrl := some "http://127.0.0.1:1234", primaryUrl := none
      contract := some "0x", chainId := none, privateKey := none, timeout := some ⟨5, by decide⟩
      logLevel := none, jsonLogs := false }
  read _ := .ok "# nothing is set\n"
  file := default
  ofNamedFile_eq := rfl

def unusableBridge (homeUrl : Option String) : Configuration where
  overrides :=
    { file := none, homeUrl, primaryUrl := some "nowhere", contract := some "0xzz"
      chainId := some ⟨813, by decide⟩, privateKey := some "no key", timeout := some ⟨5, by decide⟩
      logLevel := some "loud", jsonLogs := true }
  read _ := .error "no file is read"
  file := default
  ofNamedFile_eq := rfl

def lost (_ : Http.Post) (s : Unit) : Http.Delivery × Unit := (.unanswered, s)

theorem observe_depends_on_needs_sample :
    homeBesideFile.observe (.call "qng_addBalance" "[\"A\"]") lost () =
      (unusableBridge (some "http://127.0.0.1:1234")).observe
        (.call "qng_addBalance" "[\"A\"]") lost () ∧
    (unusableBridge none).observe (.crossSend ⟨"ab", 0, 0, ""⟩) lost () =
      (unusableBridge (some "")).observe (.crossSend ⟨"ab", 0, 0, ""⟩) lost () ∧
    homeBesideFile.observe (.crossSend ⟨"ab", 0, 0, ""⟩) lost () =
      ⟨[], "", 1, some "cross-chain send needs --evm-url, --chain-id, --private-key"⟩ ∧
    ∃ message, Cli.Launch.observe ⟨homeBesideFile.overrides, .call "qng_crossSend" "[]"⟩
      (fun _ => .ok "private_key: ab") lost () = ⟨[], "", 1, some message⟩ := by
  have hneeds := observe_depends_on_needs lost () homeBesideFile
    (unusableBridge (some "http://127.0.0.1:1234"))
  have hsend := observe_depends_on_needs lost () (unusableBridge none) (unusableBridge (some ""))
  refine ⟨hneeds.1 rfl rfl _ (.call _ (by decide)), hsend.2.1 rfl rfl rfl rfl rfl _, ?_,
    hneeds.2.2.2 _ _ (.call "[]") rfl⟩
  exact hneeds.2.2.1 (by decide) ⟨"ab", 0, 0, ""⟩

end Configuration

end ChainGateway
