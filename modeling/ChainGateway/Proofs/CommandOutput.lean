import ChainGateway.Proofs.CommandRuns
import ChainGateway.Proofs.EnvelopeText
import ChainGateway.Proofs.PrettyText
import ChainGateway.Proofs.ReadResults
import ChainGateway.Proofs.ReplyClassification

namespace ChainGateway.Cli

open Http (Delivery Network Post Returned)
open Json (Integral)

def Failure.texts (why : String → String) : Failure → List String
  | settings (.unreadable file reason) => ["reading config " ++ file, reason]
  | settings (.malformed file text) => ["parsing config " ++ file, why text]
  | settings fault => [fault.message]
  | params fault => ["params must be a JSON array", fault.message]
  | gateway error => error.message :: error.causes

theorem Failure.chain_eq_intercalate (why : String → String) (failure : Failure) :
    failure.chain why = ": ".intercalate (failure.texts why) := by
  cases failure with
  | settings fault => cases fault <;> rfl
  | params fault => rfl
  | gateway error => rfl

/-- The result of every operation but the list of methods came out of a reply, or is a hash. -/
theorem returned_of_operation {s : Settings} {privateKey : Option String} {c : Command}
    (hc : c ≠ .methods) {x : Network (Except GatewayError Json)}
    (hx : operation s privateKey c = .ok x) {log : List ((_ : Post) × Delivery)} {v : Json}
    (h : Dialogue.Ends x log (.ok v)) : Returned log v := by
  have hhome {method : String} {params : List Json}
      (hx : homeOperation s (Adapter.onNode (Rpc.invoke method params)) = .ok x) :
      Returned log v := by
    obtain ⟨a, -, rfl⟩ := Outcome.map_eq_ok hx
    exact Adapter.returned_of_onNode h
  cases c with
  | balance | addBalance | utxos | sendRaw => exact hhome hx
  | crossSend e =>
    obtain ⟨b, -, rfl⟩ := Outcome.map_eq_ok hx
    obtain ⟨reply, _, _, -, hlast, -⟩ := Dialogue.ends_bind h
    obtain ⟨hash, -, rfl⟩ := Outcome.map_eq_ok (Dialogue.ends_done hlast).2.symm
    exact Http.returned_string log hash
  | call method text =>
    obtain ⟨params, -, hx⟩ := Outcome.bind_eq_ok hx
    obtain ⟨a, -, hx⟩ := Outcome.bind_eq_ok hx
    obtain ⟨bridged, -, hx⟩ := Outcome.bind_eq_ok hx
    rw [← Except.ok.inj hx] at h
    exact Adapter.returned_of_dispatch h
  | methods => exact absurd rfl hc

section

variable {σ : Type} (l : Launch) (read : String → Settings.Read)
  (answer : Post → σ → Delivery × σ) (state : σ)

def Launch.result : Except Failure Json := do
  let s ← (Settings.resolve read l.overrides).mapError Failure.settings
  let x ← operation s l.overrides.privateKey l.command
  ((x.run answer state).1).mapError Failure.gateway

def Launch.outcome : Outcome := ((l.run read).run answer state).1

theorem outcome_eq_ended :
    l.outcome read answer state = ended l.command (l.result read answer state) := by
  unfold Launch.outcome Launch.result
  cases hresolve : Settings.resolve read l.overrides with
  | error fault =>
    unfold Launch.run
    rw [hresolve]
    rfl
  | ok s =>
    change _ = ended l.command (operation s l.overrides.privateKey l.command >>= fun x =>
      ((x.run answer state).1).mapError Failure.gateway)
    cases hx : operation s l.overrides.privateKey l.command with
    | error failure =>
      rw [run_of_failure hresolve hx]
      rfl
    | ok x =>
      rw [run_of_operation hresolve hx, Dialogue.run_bind]
      rfl

variable {l}

theorem returned_of_result (hc : l.command ≠ .methods) {v : Json}
    (h : l.result read answer state = .ok v) :
    ∃ log, Returned log v ∧ ∀ x ∈ log, ∃ s, x.2 = (answer x.1 s).1 := by
  obtain ⟨s, -, h⟩ := Outcome.bind_eq_ok h
  obtain ⟨x, hx, h⟩ := Outcome.bind_eq_ok h
  have hends := Dialogue.ends_run answer x state
  rw [ChainGateway.Outcome.mapError_eq_ok h] at hends
  exact ⟨_, returned_of_operation hc hx hends,
    fun x hx => Dialogue.exists_answer_of_mem_transcript hx⟩

theorem result_of_operation {s : Settings} {x : Network (Except GatewayError Json)}
    (hresolve : Settings.resolve read l.overrides = .ok s)
    (hx : operation s l.overrides.privateKey l.command = .ok x) :
    l.result read answer state = ((x.run answer state).1).mapError Failure.gateway := by
  unfold Launch.result
  rw [hresolve]
  change (operation s l.overrides.privateKey l.command >>= fun x =>
    ((x.run answer state).1).mapError Failure.gateway) = _
  rw [hx]
  rfl

theorem render_of_ne (hc : l.command ≠ .methods) (v : Json) :
    render l.command v = v.pretty ++ "\n" := by
  unfold render
  split
  · rename_i hmethods
    exact absurd hmethods hc
  · rfl

/-- What holds of a result that is printed: where there is room for its brackets the text is one
document, which is the result, and it is read back if nothing in the result embeds a text. -/
structure Readable (v : Json) : Prop where
  document (depth : Nat) : v.nesting ≤ depth →
    Json.Reader.all (Json.Reader.verbatim depth) (Text.utf8 (v.pretty ++ "\n")) = .ok v
  read : v.Plain → v.nesting ≤ 127 → Json.ofBytes (Text.utf8 (v.pretty ++ "\n")) = .ok v

theorem readable_of_sorted {v : Json} (hv : Integral v) (hsorted : v.sorted = v) : Readable v where
  document _ hdepth := Json.all_verbatim_pretty hv hdepth
  read hplain hdepth := Json.ofBytes_pretty (Json.exact_of_steady hv ⟨hsorted, hplain⟩) hdepth

/-- A command that lists no methods prints the whole result of its operation and exits with zero, or
it prints nothing, exits with one and complains of what went wrong and the causes of that. What is
printed can be read as long as its numbers are exact, and nests as deep as a reply does at most,
unless texts are embedded in replies. -/
theorem all_or_nothing (why : String → String) (hc : l.command ≠ .methods) :
    (∀ v, l.result read answer state = .ok v →
      (l.outcome read answer state).status = 0 ∧
      (l.outcome read answer state).output = v.pretty ++ "\n" ∧
      (l.outcome read answer state).complaint why = "" ∧
      (Integral v → Readable v) ∧
      ((∀ p s, (answer p s).1.Plain) → v.nesting ≤ 126)) ∧
    (∀ failure, l.result read answer state = .error failure →
      (l.outcome read answer state).status = 1 ∧
      (l.outcome read answer state).output = "" ∧
      (l.outcome read answer state).complaint why =
        "Error: " ++ ": ".intercalate (failure.texts why) ++ "\n") ∧
    ((l.outcome read answer state).status = 0 ↔
      ∃ v, l.result read answer state = .ok v) := by
  rw [outcome_eq_ended]
  cases hresult : l.result read answer state with
  | ok v =>
    refine ⟨?_, nofun, iff_of_true rfl ⟨v, rfl⟩⟩
    intro w hw
    obtain rfl := Except.ok.inj hw
    obtain ⟨log, ⟨hsorted, hnesting⟩, hanswers⟩ :=
      returned_of_result read answer state hc hresult
    refine ⟨rfl, render_of_ne hc v, rfl, fun hv => readable_of_sorted hv hsorted, fun hplain => ?_⟩
    refine hnesting fun x hx => ?_
    obtain ⟨s, hs⟩ := hanswers x hx
    exact hs ▸ hplain x.1 s
  | error failure =>
    refine ⟨nofun, ?_, iff_of_false nofun nofun⟩
    intro failure' hfailure
    obtain rfl := Except.error.inj hfailure
    refine ⟨rfl, rfl, ?_⟩
    rw [← failure.chain_eq_intercalate]
    rfl

end

/-- A call at the node is one request, and its outcome is that of the reply. -/
theorem overHttp_invoke (a : Adapter) (bridge : Option Bridge.ContractBridge) (timeout : Nat)
    (method : String) (params : List Json) :
    a.overHttp bridge timeout (Adapter.onNode (Rpc.invoke method params)) =
      ((Http.Client.mk a.nodeUrl timeout).send (.numbered Rpc.fixedId method params)).bind
        fun reply => .done (Rpc.result reply) := by
  refine congrArg (Dialogue.bind _) (funext fun reply => ?_)
  cases reply <;> rfl

theorem run_overHttp_invoke {a : Adapter} {url : Http.Url}
    (hurl : Http.Url.ofText? a.nodeUrl = some url) (hpost : url.isPostable = true)
    (bridge : Option Bridge.ContractBridge) (timeout : Nat) (method : String) (params : List Json)
    (status : Nat) (body : List UInt8) {σ : Type} (state : σ) :
    ((a.overHttp bridge timeout (Adapter.onNode (Rpc.invoke method params))).run
      (fun _ s => (.received status body, s)) state).1 = Http.settled status body := by
  rw [overHttp_invoke, Http.Client.send, hurl]
  simp only [hpost, ↓reduceIte]
  rfl

def nested : Json :=
  .object [("", .array [.array [], .string "\n"]), ("a", .object [])]

theorem exact_nested : Json.Exact nested := by
  refine .object (List.pairwise_pair.mpr (by decide)) (by decide) fun m hm => ?_
  simp only [List.mem_cons, List.not_mem_nil, or_false] at hm
  obtain rfl | rfl := hm
  · refine .array fun v hv => ?_
    simp only [List.mem_cons, List.not_mem_nil, or_false] at hv
    obtain rfl | rfl := hv
    · exact .array nofun
    · exact .string _
  · exact .object .nil rfl nofun

theorem portable_nested : (Rpc.Response.success .null nested).Portable where
  result v hv := by
    cases hv
    exact exact_nested
  data e he := by cases he
  nesting := by decide

theorem result_addBalance {s : Settings} {url : String} {u : Http.Url}
    (read : String → Settings.Read) {o : Overrides} (hresolve : Settings.resolve read o = .ok s)
    (hhome : s.homeUrl = some url) (hurl : Http.Url.ofText? url = some u)
    (hpost : u.isPostable = true) (address : String) (status : Nat) (body : List UInt8) {σ : Type}
    (state : σ) :
    (Launch.mk o (.addBalance address)).result read
      (fun _ s => (.received status body, s)) state =
      (Http.settled status body).mapError Failure.gateway := by
  have hrun := run_overHttp_invoke (a := Adapter.ofNode url) hurl hpost none (timeoutOf s)
    "qng_addBalance" [.string address] status body state
  have hoperation : operation s o.privateKey (.addBalance address) =
      .ok ((Adapter.ofNode url).overHttp none (timeoutOf s)
        (Adapter.onNode (Rpc.invoke "qng_addBalance" [.string address]))) := by
    rw [operation, homeOperation, adapterOf_eq hhome]
    rfl
  exact (result_of_operation (l := ⟨o, .addBalance address⟩) read _ state hresolve hoperation).trans
    (congrArg (Except.mapError Failure.gateway) hrun)

def nodeOf (v : Json) (_ : Post) (s : Unit) : Delivery × Unit :=
  (.received 200 (Text.utf8 (OnWire.text (Rpc.Response.success .null v))), s)

def shown (v : Json) (c : Command) : Outcome :=
  (Launch.mk homeOnly c).outcome (fun _ => .error "") (nodeOf v) ()

theorem homeUrl_homeOnly : Http.Url.ofText? "http://127.0.0.1:1234" =
    some ⟨"http", some "127.0.0.1", some 1234, "/", none, none⟩ := by decide +kernel

theorem result_nodeOf {v : Json} {r : Rpc.Response}
    (h : OnWire.ofBytes (Text.utf8 (OnWire.text (Rpc.Response.success .null v))) = .ok r) :
    (Launch.mk homeOnly (.addBalance "A")).result (fun _ => .error "") (nodeOf v) () =
      r.outcome.mapError Failure.gateway :=
  (result_addBalance (fun _ => .error "") (o := homeOnly) rfl rfl homeUrl_homeOnly rfl "A" 200
    (Text.utf8 (OnWire.text (Rpc.Response.success .null v))) ()).trans
    (congrArg (Except.mapError Failure.gateway) (Http.settled_of_decoded h))

theorem all_or_nothing_nested :
    ((shown nested (.addBalance "A")).output =
        "\x7b\n  \"\": [\n    [],\n    \"\\n\"\n  ],\n  \"a\": \x7b\x7d\n\x7d\n" ∧
      Json.ofBytes (Text.utf8 (shown nested (.addBalance "A")).output) = .ok nested) ∧
    (shown nested (.crossSend ⟨"", 0, 0, ""⟩)).complaint id =
      "Error: cross-chain send needs --evm-url, --meerchange, --chain-id, --private-key\n" := by
  have hresult := result_nodeOf (Rpc.Response.ofBytes_text portable_nested)
  obtain ⟨hprinted, -, -⟩ := all_or_nothing (l := ⟨homeOnly, .addBalance "A"⟩)
    (fun _ => .error "") (nodeOf nested) () id nofun
  obtain ⟨-, houtput, -, hreadable, -⟩ := hprinted nested hresult
  obtain ⟨-, hfailed, -⟩ := all_or_nothing (l := ⟨homeOnly, .crossSend ⟨"", 0, 0, ""⟩⟩)
    (fun _ => .error "") (nodeOf nested) () id nofun
  refine ⟨⟨houtput.trans ?_, ?_⟩, (hfailed _ rfl).2.2.trans ?_⟩
  · decide
  · exact (congrArg (fun text => Json.ofBytes (Text.utf8 text)) houtput).trans
      ((hreadable (.of_exact exact_nested)).read (.of_exact exact_nested) (by decide))
  · rfl

/-- An object that embeds nothing as long as its members stay where they are. -/
def misordered : Json := .object [("a", .integer 1), (Json.embeddingName, .string "2")]

def misleading : Json := .object [(Json.embeddingName, .string "2"), ("a", .integer 1)]

theorem isValue_misordered : Rpc.IsValue misordered misleading := by
  have hplain : misordered.Plain := by
    refine .object (by decide) (List.forall_mem_cons.mpr ⟨.integer 1, ?_⟩)
    exact List.forall_mem_singleton.mpr (.string "2")
  exact (Rpc.isValue_iff_of_plain hplain).mpr rfl

/-- What is printed of a result that begins as an embedding does is not read back. -/
theorem misleading_not_read :
    (Launch.mk homeOnly (.addBalance "A")).result (fun _ => .error "") (nodeOf misordered) () =
        .ok misleading ∧
      (shown misordered (.addBalance "A")).output = misleading.pretty ++ "\n" ∧
      ∀ v, Json.ofBytes (Text.utf8 (shown misordered (.addBalance "A")).output) ≠ .ok v := by
  have hintegral : Integral misleading := by
    refine .object (List.forall_mem_cons.mpr ⟨.string "2", ?_⟩)
    exact List.forall_mem_singleton.mpr (.integer rfl)
  have hd : Json.document (Text.utf8 (OnWire.text (Rpc.Response.success .null misordered))) =
      .ok (OnWire.toJson (Rpc.Response.success .null misordered)) := by
    have hmisordered : Integral misordered := by
      refine .object (List.forall_mem_cons.mpr ⟨.integer rfl, ?_⟩)
      exact List.forall_mem_singleton.mpr (.string "2")
    refine Json.document_compact (.object (List.forall_mem_cons.mpr ⟨.null, ?_⟩)) (by decide)
    refine List.forall_mem_cons.mpr ⟨.string "2.0", ?_⟩
    exact List.forall_mem_singleton.mpr hmisordered
  have hread : OnWire.ofBytes (Text.utf8 (OnWire.text (Rpc.Response.success .null misordered))) =
      .ok (Rpc.Response.success .null misleading) :=
    (Rpc.ofBytes_eq_ok_iff_recorded hd).mpr ⟨.present .null, .present rfl, .absent nofun,
      .present (.given nofun isValue_misordered), .absent nofun, trivial⟩
  have hresult := result_nodeOf hread
  have houtput : (shown misordered (.addBalance "A")).output = misleading.pretty ++ "\n" := by
    unfold shown
    rw [outcome_eq_ended, hresult]
    rfl
  refine ⟨hresult, houtput, fun v hv => ?_⟩
  rw [houtput] at hv
  obtain ⟨d, hdocument, hreread⟩ := Json.ofBytes_eq_ok_iff.mp hv
  have hsame : d = misleading := Except.ok.inj
    (hdocument.symm.trans (Json.all_verbatim_pretty hintegral (by decide)))
  subst hsame
  have hembeds : Json.embedding? [(Json.embeddingName, .string "2"), ("a", .integer 1)] =
      some (.string "2", 1) := rfl
  exact absurd ((Json.reread_embedding_eq_ok_iff hembeds).mp hreread).1 (by decide)

end ChainGateway.Cli
