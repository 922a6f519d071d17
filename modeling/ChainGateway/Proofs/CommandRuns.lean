import ChainGateway.Cli.Run
import ChainGateway.Proofs.RecordText
import ChainGateway.Proofs.Routing

namespace ChainGateway.Cli

open Adapter (BridgeCall NodeCall)
open Bridge (ContractBridge Export)
open Http (Delivery Network Post)
open Json (Exact nesting)
open Rpc (Method)

/-- What is seen of a run: the posts with what comes of each, what is printed, the exit status, and
why the command failed, if it did. -/
structure Observation where
  posts : List ((_ : Post) × Delivery)
  output : String
  status : UInt8
  error? : Option String

variable {σ : Type}

/-- What is seen of a launch, given how to read files and how the nodes answer from a state. -/
def Launch.observe (l : Launch) (read : String → Settings.Read)
    (answer : Post → σ → Delivery × σ) (s : σ) : Observation :=
  let outcome := ((l.run read).run answer s).1
  ⟨(l.run read).transcript answer s, outcome.output, outcome.status, outcome.error?⟩

def conclude (c : Command) : Except Failure Json → Network Outcome
  | .ok result => .done (.printed (render c result))
  | .error failure => .done (.failed failure)

theorem run_of_resolve {read : String → Settings.Read} {l : Launch} {s : Settings}
    (h : Settings.resolve read l.overrides = .ok s) :
    l.run read =
      (perform s l.overrides.privateKey l.command).run.bind (conclude l.command) := by
  unfold Launch.run
  rw [h]
  refine congrArg (Dialogue.bind _) (funext fun result => ?_)
  cases result <;> rfl

theorem observe_congr_perform (l l' : Launch) {read read' : String → Settings.Read}
    {s s' : Settings} (hresolve : Settings.resolve read l.overrides = .ok s)
    (hresolve' : Settings.resolve read' l'.overrides = .ok s')
    (hperform : perform s l.overrides.privateKey l.command =
      perform s' l'.overrides.privateKey l'.command)
    (hconclude : conclude l.command = conclude l'.command) (answer : Post → σ → Delivery × σ)
    (state : σ) : l.observe read answer state = l'.observe read' answer state := by
  have hrun : l.run read = l'.run read' := by
    rw [run_of_resolve hresolve, run_of_resolve hresolve', hperform, hconclude]
  unfold Launch.observe
  rw [hrun]

theorem lift_ok_bind {α β : Type} (a : α) (f : α → Run β) : lift (.ok a) >>= f = f a := rfl

theorem perform_crossSend (s : Settings) (privateKey : Option String) (e : Export) :
    perform s privateKey (.crossSend e) =
      lift (bridgeOf s privateKey) >>= fun b =>
        ofNetwork (b.overHttp (timeoutOf s) e) >>= fun hash => pure (Json.string hash) := rfl

theorem perform_call (s : Settings) (privateKey : Option String) (method text : String) :
    perform s privateKey (.call method text) =
      lift (paramsOfText text) >>= fun params => lift (adapterOf s) >>= fun a =>
        lift (bridged s privateKey method a) >>= fun x =>
          ofNetwork (x.1.overHttp x.2 (timeoutOf s) (x.1.dispatch method params)) := rfl

theorem adapterOf_eq {s : Settings} {url : String} (h : s.homeUrl = some url) :
    adapterOf s = .ok (Adapter.ofNode url) := by
  unfold adapterOf Settings.home
  rw [h]
  rfl

theorem bridged_of_ne {method : String} (h : method ≠ Method.crossSend.name) (s : Settings)
    (privateKey : Option String) (a : Adapter) :
    bridged s privateKey method a = .ok (a, none) :=
  if_neg h

theorem bridged_crossSend (s : Settings) (privateKey : Option String) (a : Adapter) :
    bridged s privateKey Method.crossSend.name a =
      (bridgeOf s privateKey).map fun b => (a.withBridge, some b) := by
  unfold bridged
  rw [if_pos rfl]
  cases bridgeOf s privateKey <;> rfl

theorem ofNetwork_map {α β : Type} (x : Network (Except GatewayError α)) (f : α → β) :
    (ofNetwork x >>= fun a => pure (f a)) =
      ofNetwork (x.bind fun reply => .done (reply.map f)) := by
  have hleft : ofNetwork x >>= (fun a => pure (f a)) =
      ExceptT.mk (x.bind fun reply => .done ((reply.map f).mapError Failure.gateway)) := by
    refine (Dialogue.bind_assoc _ _ _).trans (congrArg (Dialogue.bind _) (funext fun reply => ?_))
    cases reply <;> rfl
  have hright := Dialogue.bind_assoc x (fun reply => .done (reply.map f))
    fun a => .done (a.mapError Failure.gateway)
  rw [hleft]
  exact congrArg ExceptT.mk hright.symm

/-- Over HTTP an adapter with a bridge does no more than its bridge. -/
theorem overHttp_crossSend (a : Adapter) (b : ContractBridge) (timeout : Nat) (e : Export) :
    ofNetwork (a.withBridge.overHttp (some b) timeout (a.withBridge.crossSend e)) =
      ofNetwork (b.overHttp timeout e) >>= fun hash => pure (Json.string hash) := by
  have hadapter : a.withBridge.overHttp (some b) timeout (a.withBridge.crossSend e) =
      (b.overHttp timeout e).bind fun reply => .done (reply.map Json.string) := by
    have hbridged : a.withBridge.bridged = true := rfl
    unfold Adapter.crossSend
    rw [if_pos hbridged]
    refine congrArg (Dialogue.bind _) (funext fun reply => ?_)
    cases reply <;> rfl
  rw [hadapter, ofNetwork_map]

def homeOperation (s : Settings) (x : Adapter.Operation Json) :
    Except Failure (Network (Except GatewayError Json)) :=
  (adapterOf s).map fun a => a.overHttp none (timeoutOf s) x

/-- What a command has done for it, where its settings and arguments suffice. -/
def operation (s : Settings) (privateKey : Option String) :
    Command → Except Failure (Network (Except GatewayError Json))
  | .balance address coinId => homeOperation s (Adapter.getBalance address coinId)
  | .addBalance address => homeOperation s (Adapter.addBalance address)
  | .utxos address limit locked => homeOperation s (Adapter.getUtxos address limit locked)
  | .sendRaw rawTx allowHighFee => homeOperation s (Adapter.sendRawTransaction rawTx allowHighFee)
  | .crossSend e => (bridgeOf s privateKey).map fun b =>
    (b.overHttp (timeoutOf s) e).bind fun hash => .done (hash.map Json.string)
  | .call method params => do
    let params ← paramsOfText params
    let a ← adapterOf s
    let (a, bridge) ← bridged s privateKey method a
    return a.overHttp bridge (timeoutOf s) (a.dispatch method params)
  | .methods => .ok (.done (.ok (.array (Method.all.map fun m => .string m.name))))

def ended (c : Command) : Except Failure Json → Outcome
  | .ok result => .printed (render c result)
  | .error failure => .failed failure

theorem onHome_eq (s : Settings) (x : Adapter.Operation Json) :
    onHome s x = lift (homeOperation s x) >>= ofNetwork := by
  unfold onHome homeOperation
  cases adapterOf s <;> rfl

theorem perform_eq_operation (s : Settings) (privateKey : Option String) (c : Command) :
    perform s privateKey c = lift (operation s privateKey c) >>= ofNetwork := by
  cases c with
  | balance | addBalance | utxos | sendRaw => exact onHome_eq s _
  | crossSend e =>
    rw [perform_crossSend, operation]
    cases bridgeOf s privateKey with
    | error failure => rfl
    | ok b => exact ofNetwork_map _ _
  | call method text =>
    rw [perform_call, operation]
    cases paramsOfText text with
    | error failure => rfl
    | ok params =>
      cases adapterOf s with
      | error failure => rfl
      | ok a =>
        rw [lift_ok_bind, lift_ok_bind]
        change _ = lift (bridged s privateKey method a >>= _) >>= ofNetwork
        cases bridged s privateKey method a <;> rfl
  | methods => rfl

section

variable {read : String → Settings.Read} {l : Launch} {s : Settings}
  (hresolve : Settings.resolve read l.overrides = .ok s)

include hresolve

theorem run_of_operation {x : Network (Except GatewayError Json)}
    (h : operation s l.overrides.privateKey l.command = .ok x) :
    l.run read =
      x.bind fun reply => .done (ended l.command (reply.mapError Failure.gateway)) := by
  rw [run_of_resolve hresolve, perform_eq_operation, h, lift_ok_bind]
  refine (Dialogue.bind_assoc _ _ _).trans (congrArg (Dialogue.bind _) (funext fun reply => ?_))
  cases reply <;> rfl

theorem run_of_failure {failure : Failure}
    (h : operation s l.overrides.privateKey l.command = .error failure) :
    l.run read = .done (ended l.command (.error failure)) := by
  rw [run_of_resolve hresolve, perform_eq_operation, h]
  rfl

end

theorem nestingItems_of_flat {vs : List Json} (h : ∀ v ∈ vs, nesting v = 0) :
    Json.nestingItems vs = 0 := by
  induction vs with
  | nil => rfl
  | cons v vs ih =>
    rw [Json.nestingItems, h v List.mem_cons_self, ih fun w hw => h w (List.mem_cons_of_mem v hw)]
    rfl

/-- Exact values without brackets are read back from the text of their array. -/
theorem paramsOfText_compact {vs : List Json} (h : ∀ v ∈ vs, Exact v ∧ nesting v = 0) :
    paramsOfText (Json.array vs).compact = .ok vs := by
  have hnesting : nesting (Json.array vs) ≤ 127 := by
    rw [nesting, nestingItems_of_flat fun v hv => (h v hv).2]
    decide
  have hread := Wire.ofBytes_compact (Wire.readAs_list_value (fun v hv => .of_exact (h v hv).1)
    (Wire.forall₂_reread_of_exact fun v hv => (h v hv).1))
    (by rw [Wire.toJson_list_value]; exact hnesting)
  rw [Wire.toJson_list_value] at hread
  unfold paramsOfText
  rw [hread]
  rfl

theorem exact_of_nodeCall {method : String} {params : List Json} (h : NodeCall method params) :
    ∀ v ∈ params, Exact v ∧ nesting v = 0 := by
  have hsigned (n : SignedWord) : Exact (.integer n.toInt) :=
    .integer (Wire.exactInteger_signed n)
  cases h <;> simp only [List.forall_mem_cons, List.not_mem_nil, false_implies, implies_true]
  case getBalance address coinId => exact ⟨⟨.string _, rfl⟩, ⟨hsigned _, rfl⟩, trivial⟩
  case addBalance address => exact ⟨⟨.string _, rfl⟩, trivial⟩
  case getUtxos address limit locked =>
    exact ⟨⟨.string _, rfl⟩, ⟨hsigned _, rfl⟩, ⟨.bool _, rfl⟩, trivial⟩
  case sendRawTransaction rawTx allowHighFee =>
    exact ⟨⟨.string _, rfl⟩, ⟨.bool _, rfl⟩, trivial⟩

theorem exact_of_bridgeCall {method : String} {params : List Json} {e : Export}
    (h : BridgeCall method params e) : ∀ v ∈ params, Exact v ∧ nesting v = 0 := by
  obtain ⟨txid, idx, fee, sig⟩ := h
  simp only [List.forall_mem_cons, List.not_mem_nil, false_implies, implies_true]
  exact ⟨⟨.string _, rfl⟩, ⟨.integer (Wire.exactInteger_word (by decide) idx), rfl⟩,
    ⟨.integer (Wire.exactInteger_word (by decide) fee), rfl⟩, ⟨.string _, rfl⟩, trivial⟩

section

variable {s : Settings} {privateKey : Option String} {method : String} {params : List Json}

theorem ne_crossSend_of_nodeCall (h : NodeCall method params) :
    method ≠ Method.crossSend.name := by
  cases h <;> decide

theorem perform_call_of_nodeCall (h : NodeCall method params) :
    perform s privateKey (.call method (Json.array params).compact) =
      onHome s (Adapter.onNode (Rpc.invoke method params)) := by
  rw [perform_call, paramsOfText_compact (exact_of_nodeCall h), lift_ok_bind]
  refine congrArg (lift (adapterOf s) >>= ·) (funext fun a => ?_)
  rw [bridged_of_ne (ne_crossSend_of_nodeCall h), lift_ok_bind, Adapter.dispatch_of_nodeCall h]

theorem perform_call_of_bridgeCall {e : Export} (h : BridgeCall method params e) {url : String}
    (hhome : s.homeUrl = some url) :
    perform s privateKey (.call method (Json.array params).compact) =
      perform s privateKey (.crossSend e) := by
  have hmethod : method = Method.crossSend.name := by
    cases h
    rfl
  have hbridged := bridged_crossSend s privateKey (Adapter.ofNode url)
  rw [← hmethod] at hbridged
  rw [perform_call, perform_crossSend, paramsOfText_compact (exact_of_bridgeCall h), lift_ok_bind,
    adapterOf_eq hhome, lift_ok_bind, hbridged]
  cases bridgeOf s privateKey with
  | error failure => rfl
  | ok b =>
    rw [Except.map, lift_ok_bind, lift_ok_bind, Adapter.dispatch_of_bridgeCall h]
    exact overHttp_crossSend (Adapter.ofNode url) b (timeoutOf s) e

end

/-- A subcommand, and the call of its method with the same arguments in a JSON array. -/
inductive RawForm : Command → Command → Prop where
  | balance (address : String) (coinId : SignedWord) :
      RawForm (.balance address coinId)
        (.call "qng_getBalance" (Json.array [.string address, .integer coinId.toInt]).compact)
  | addBalance (address : String) :
      RawForm (.addBalance address)
        (.call "qng_addBalance" (Json.array [.string address]).compact)
  | utxos (address : String) (limit : SignedWord) (locked : Bool) :
      RawForm (.utxos address limit locked)
        (.call "qng_getUTXOs"
          (Json.array [.string address, .integer limit.toInt, .bool locked]).compact)
  | sendRaw (rawTx : String) (allowHighFee : Bool) :
      RawForm (.sendRaw rawTx allowHighFee)
        (.call "qng_sendRawTransaction" (Json.array [.string rawTx, .bool allowHighFee]).compact)
  | crossSend (txid : String) (idx : Word 32) (fee : Word 64) (sig : String) :
      RawForm (.crossSend ⟨txid, idx, fee, sig⟩)
        (.call "qng_crossSend"
          (Json.array [.string txid, .integer idx.toNat, .integer fee.toNat, .string sig]).compact)

theorem perform_of_rawForm {c raw : Command} (h : RawForm c raw) {s : Settings} {url : String}
    (hhome : s.homeUrl = some url) (privateKey : Option String) :
    perform s privateKey raw = perform s privateKey c := by
  cases h with
  | balance address coinId => exact perform_call_of_nodeCall (.getBalance address coinId)
  | addBalance address => exact perform_call_of_nodeCall (.addBalance address)
  | utxos address limit locked => exact perform_call_of_nodeCall (.getUtxos address limit locked)
  | sendRaw rawTx allowHighFee =>
    exact perform_call_of_nodeCall (.sendRawTransaction rawTx allowHighFee)
  | crossSend txid idx fee sig =>
    exact perform_call_of_bridgeCall (.crossSend txid idx fee sig) hhome

theorem conclude_of_rawForm {c raw : Command} (h : RawForm c raw) : conclude raw = conclude c := by
  cases h <;> rfl

/-- Wherever there is an address for the node, a subcommand and its raw form are seen to do the
same, whatever else is set and however the nodes answer. -/
theorem observe_rawForm {c raw : Command} (h : RawForm c raw) {read : String → Settings.Read}
    {o : Overrides} {s : Settings} (hresolve : Settings.resolve read o = .ok s) {url : String}
    (hhome : s.homeUrl = some url) (answer : Post → σ → Delivery × σ) (state : σ) :
    (Launch.mk o raw).observe read answer state = (Launch.mk o c).observe read answer state := by
  have hrun : (Launch.mk o raw).run read = (Launch.mk o c).run read := by
    rw [run_of_resolve (l := ⟨o, raw⟩) hresolve, run_of_resolve (l := ⟨o, c⟩) hresolve,
      perform_of_rawForm h hhome, conclude_of_rawForm h]
  unfold Launch.observe
  rw [hrun]

def homeOnly : Overrides where
  file := none
  homeUrl := some "http://127.0.0.1:1234"
  primaryUrl := none
  contract := none
  chainId := none
  privateKey := none
  timeout := none
  logLevel := none
  jsonLogs := false

theorem observe_rawForm_homeOnly :
    (Json.array [.string "\\\"", .integer 7, .integer 0, .string "é"]).compact =
        "[\"\\\\\\\"\",7,0,\"é\"]" ∧
      (Launch.mk homeOnly (.call "qng_crossSend" "[\"\\\\\\\"\",7,0,\"é\"]")).observe
          (fun _ => .error "no file is read") (fun _ (s : Unit) => (.unanswered, s)) () =
        (Launch.mk homeOnly (.crossSend ⟨"\\\"", ⟨7, by decide⟩, 0, "é"⟩)).observe
          (fun _ => .error "no file is read") (fun _ s => (.unanswered, s)) () := by
  have htext : (Json.array [.string "\\\"", .integer 7, .integer 0, .string "é"]).compact =
      "[\"\\\\\\\"\",7,0,\"é\"]" := by decide
  have hraw := RawForm.crossSend "\\\"" ⟨7, by decide⟩ 0 "é"
  refine ⟨htext, ?_⟩
  rw [← htext]
  exact observe_rawForm hraw (o := homeOnly) rfl rfl _ ()

end ChainGateway.Cli
