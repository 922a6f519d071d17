import ChainGateway.Proofs.Submission

namespace ChainGateway.Bridge

open Ethereum (Transaction)
open Rpc (Log Reply Request)

namespace ContractBridge

/-- A reply cannot be used, and the error says why: there is no reply, the node reports an error or
nothing, the result does not denote what was asked for, or what it denotes does not fit; or the
transaction that it completes has no signature. -/
def Blames (b : ContractBridge) (reply : Reply) (source : GatewayError) : Prop :=
  reply = .error source ∨
    (∃ response node, reply = .ok response ∧ response.nodeError? = some node ∧
      source = .rpc node) ∨
    (∃ message, source = .protocol message) ∨ (∃ fault, source = .decode fault) ∨
    ∃ t : Transaction, t.sign b.key = none ∧ source = .signing "signature error"

theorem blames_of_result {b : ContractBridge} {reply : Reply} {e : GatewayError}
    (h : Rpc.result reply = .error e) : b.Blames reply e := by
  obtain he | ⟨response, rfl, ho⟩ := Outcome.bind_eq_error h
  · exact Or.inl he
  · unfold Rpc.Response.outcome at ho
    split at ho
    · rename_i node hnode
      exact Or.inr (Or.inl ⟨response, node, rfl, hnode, (Except.error.inj ho).symm⟩)
    · cases ho
    · exact Or.inr (Or.inr (Or.inl ⟨_, (Except.error.inj ho).symm⟩))

theorem blames_of_read {b : ContractBridge} {shape : Wire.Shape} {reply : Reply} {e : GatewayError}
    (h : Rpc.read shape reply = .error e) : b.Blames reply e := by
  obtain hr | ⟨v, _, hv⟩ := Outcome.bind_eq_error h
  · exact blames_of_result hr
  · cases hs : shape.ofJson v with
    | ok x => rw [hs] at hv; cases hv
    | error cause =>
      rw [hs] at hv
      exact Or.inr (Or.inr (Or.inr (Or.inl ⟨_, (Except.error.inj hv).symm⟩)))

theorem exists_decode_of_baseFee? {block : Json} {e : GatewayError}
    (h : baseFee? block = .error e) : ∃ fault, e = .decode fault := by
  unfold baseFee? at h
  split at h
  · cases h
  · cases h
  · split at h
    · cases h
    · exact ⟨_, (Except.error.inj h).symm⟩

theorem exists_protocol_of_narrow {field : String} {w : Word 256} {e : GatewayError}
    (h : narrow field w = .error e) : ∃ message, e = .protocol message := by
  unfold narrow at h
  split at h
  · cases h
  · exact ⟨_, (Except.error.inj h).symm⟩

theorem exists_protocol_of_marketFee {base tip : Word 256} {e : GatewayError}
    (h : marketFee base tip = .error e) : ∃ message, e = .protocol message := by
  obtain hc | ⟨cap, _, h⟩ := Outcome.bind_eq_error h
  · exact exists_protocol_of_narrow hc
  · obtain ht | ⟨tip, _, h⟩ := Outcome.bind_eq_error h
    · exact exists_protocol_of_narrow ht
    · cases h

theorem blames_of_readFee {b : ContractBridge} {base : Option (Word 256)} {reply : Reply}
    {e : GatewayError} (h : readFee base reply = .error e) : b.Blames reply e := by
  cases base with
  | none =>
    obtain hr | ⟨price, _, hp⟩ := Outcome.bind_eq_error h
    · exact blames_of_read hr
    · exact Or.inr (Or.inr (Or.inl (exists_protocol_of_narrow (Outcome.map_eq_error hp))))
  | some base =>
    obtain hr | ⟨tip, _, ht⟩ := Outcome.bind_eq_error h
    · exact blames_of_read hr
    · exact Or.inr (Or.inr (Or.inl (exists_protocol_of_marketFee ht)))

/-- Whatever stops a submission at a stage is to be blamed on the reply at that stage. -/
theorem blames_of_advance {b : ContractBridge} {input : List UInt8} {stage : Stage} {reply : Reply}
    {e : GatewayError} (h : stage.advance b input reply = .error e) : b.Blames reply e := by
  cases stage with
  | start =>
    have hr : Rpc.read (.quantity 64) reply = .error e := Outcome.map_eq_error h
    exact blames_of_read hr
  | counted nonce =>
    have hr : Rpc.read (.quantity 64) reply = .error e := Outcome.map_eq_error h
    exact blames_of_read hr
  | estimated nonce gasLimit =>
    obtain hr | ⟨block, _, hb⟩ := Outcome.bind_eq_error (Outcome.map_eq_error h)
    · exact blames_of_result hr
    · exact Or.inr (Or.inr (Or.inr (Or.inl (exists_decode_of_baseFee? hb))))
  | headed nonce gasLimit base =>
    obtain hr | ⟨fee, _, hs⟩ := Outcome.bind_eq_error (Outcome.map_eq_error h)
    · exact blames_of_readFee hr
    · exact Or.inr (Or.inr (Or.inr (Or.inr ⟨_, eq_signing_of_signed hs⟩)))
  | signed raw => exact blames_of_result (Outcome.map_eq_error h)
  | relayed raw => cases h

def methods (log : Log) : List String := log.map fun x => x.1.method

theorem methods_append (log log' : Log) : methods (log ++ log') = methods log ++ methods log' :=
  List.map_append

def afterHead (reply : Reply) : List String :=
  match Rpc.result reply with
  | .ok block =>
    [if hasBaseFee block then "eth_maxPriorityFeePerGas" else "eth_gasPrice",
      "eth_sendRawTransaction"]
  | .error _ => []

def plan (log : Log) : List String :=
  ["eth_getTransactionCount", "eth_estimateGas", "eth_getBlockByNumber"] ++
    match log[2]? with
    | some head => afterHead head.2
    | none => []

theorem afterHead_of_readBase {reply : Reply} {base : Option (Word 256)}
    (h : readBase reply = .ok base) :
    afterHead reply = [(feeRequest base).method, "eth_sendRawTransaction"] := by
  obtain ⟨block, hblock, hbase⟩ := Outcome.bind_eq_ok h
  have hfee := isSome_of_baseFee? hbase
  simp only [afterHead, hblock, ← hfee]
  cases base with
  | none => rfl
  | some base => rfl

theorem methods_prefix_plan {b : ContractBridge} {input : List UInt8} {stage : Stage} {log : Log}
    {q : Request} (hlog : stage.Reached b input log) (hq : stage.request b input = some q)
    (reply : Reply) : methods (log ++ [⟨q, reply⟩]) <+: plan (log ++ [⟨q, reply⟩]) := by
  -- at each stage the plan is what was asked so far and then the methods to come
  cases stage with
  | start =>
    obtain rfl := Option.some.inj hq
    subst hlog
    exact ⟨["eth_estimateGas", "eth_getBlockByNumber"], rfl⟩
  | counted nonce =>
    obtain rfl := Option.some.inj hq
    obtain ⟨r₁, rfl, _⟩ := hlog
    exact ⟨["eth_getBlockByNumber"], rfl⟩
  | estimated nonce gasLimit =>
    obtain rfl := Option.some.inj hq
    obtain ⟨r₁, r₂, rfl, _, _⟩ := hlog
    exact ⟨afterHead reply, rfl⟩
  | headed nonce gasLimit base =>
    obtain rfl := Option.some.inj hq
    obtain ⟨r₁, r₂, r₃, rfl, _, _, hbase⟩ := hlog
    refine ⟨["eth_sendRawTransaction"], ?_⟩
    simp only [plan, List.cons_append, List.getElem?_cons_succ, List.getElem?_cons_zero,
      afterHead_of_readBase hbase]
    rfl
  | signed raw =>
    obtain rfl := Option.some.inj hq
    obtain ⟨r₁, r₂, r₃, r₄, nonce, gasLimit, base, fee, rfl, _, _, hbase, _, _⟩ := hlog
    refine ⟨[], ?_⟩
    simp only [plan, List.cons_append, List.getElem?_cons_succ, List.getElem?_cons_zero,
      afterHead_of_readBase hbase]
    rfl
  | relayed raw => cases hq

theorem feeRequest_method_ne (base : Option (Word 256)) :
    (feeRequest base).method ≠ "eth_sendRawTransaction" := by
  cases base with
  | none => exact of_decide_eq_false rfl
  | some base => exact of_decide_eq_false rfl

theorem relay_notMem_methods {b : ContractBridge} {input : List UInt8} {stage : Stage} {log : Log}
    {q : Request} (hlog : stage.Reached b input log) (hq : stage.request b input = some q) :
    "eth_sendRawTransaction" ∉ methods log := by
  have hcount : "eth_sendRawTransaction" ≠ b.countRequest.method := of_decide_eq_false rfl
  have hestimate : "eth_sendRawTransaction" ≠ (b.estimateRequest input).method :=
    of_decide_eq_false rfl
  have hhead : "eth_sendRawTransaction" ≠ headRequest.method := of_decide_eq_false rfl
  cases stage with
  | start =>
    subst hlog
    exact List.not_mem_nil
  | counted nonce =>
    obtain ⟨r₁, rfl, _⟩ := hlog
    simp only [methods, List.map_cons, List.map_nil, List.mem_singleton]
    exact hcount
  | estimated nonce gasLimit =>
    obtain ⟨r₁, r₂, rfl, _, _⟩ := hlog
    simp only [methods, List.map_cons, List.map_nil, List.mem_cons, List.not_mem_nil, or_false,
      not_or]
    exact ⟨hcount, hestimate⟩
  | headed nonce gasLimit base =>
    obtain ⟨r₁, r₂, r₃, rfl, _, _, _⟩ := hlog
    simp only [methods, List.map_cons, List.map_nil, List.mem_cons, List.not_mem_nil, or_false,
      not_or]
    exact ⟨hcount, hestimate, hhead⟩
  | signed raw =>
    obtain ⟨r₁, r₂, r₃, r₄, nonce, gasLimit, base, fee, rfl, _⟩ := hlog
    simp only [methods, List.map_cons, List.map_nil, List.mem_cons, List.not_mem_nil, or_false,
      not_or]
    exact ⟨hcount, hestimate, hhead, (feeRequest_method_ne base).symm⟩
  | relayed raw => cases hq

theorem eq_signed_of_relay {b : ContractBridge} {input : List UInt8} {stage : Stage} {q : Request}
    (hq : stage.request b input = some q) (hmethod : q.method = "eth_sendRawTransaction") :
    ∃ raw, stage = .signed raw ∧ q = relayRequest raw := by
  cases stage with
  | start =>
    obtain rfl := Option.some.inj hq
    exact absurd hmethod (of_decide_eq_false rfl)
  | counted nonce =>
    obtain rfl := Option.some.inj hq
    exact absurd hmethod (of_decide_eq_false rfl)
  | estimated nonce gasLimit =>
    obtain rfl := Option.some.inj hq
    exact absurd hmethod (of_decide_eq_false rfl)
  | headed nonce gasLimit base =>
    obtain rfl := Option.some.inj hq
    exact absurd hmethod (feeRequest_method_ne base)
  | signed raw => exact ⟨raw, rfl, (Option.some.inj hq).symm⟩
  | relayed raw => cases hq

theorem eq_signed_of_length {b : ContractBridge} {input : List UInt8} {stage : Stage} {log : Log}
    {q : Request} (hlog : stage.Reached b input log) (hq : stage.request b input = some q)
    (hlength : log.length = 4) : ∃ raw, stage = .signed raw := by
  cases stage with
  | start =>
    subst hlog
    cases hlength
  | counted nonce =>
    obtain ⟨r₁, rfl, _⟩ := hlog
    cases hlength
  | estimated nonce gasLimit =>
    obtain ⟨r₁, r₂, rfl, _⟩ := hlog
    cases hlength
  | headed nonce gasLimit base =>
    obtain ⟨r₁, r₂, r₃, rfl, _⟩ := hlog
    cases hlength
  | signed raw => exact ⟨raw, rfl⟩
  | relayed raw => cases hq

/-- A call of the bridge: the export, the requests with their replies, and how the call ended. -/
structure Call where
  op : Export
  log : Log
  outcome : Except GatewayError String

/-- What holds of a call, whatever the replies. -/
structure Call.Disciplined (b : ContractBridge) (c : Call) : Prop where
  /-- An identifier that is none is noticed before anything is asked. -/
  undecodable : ∀ fault, Export.txidBytes c.op.txid = .error fault →
    c.log = [] ∧ c.outcome = .error (.encoding fault.message)
  ordered : methods c.log <+: plan c.log
  /-- The relay is the last request, and all that it is made of has been understood before. -/
  relay : ∀ before x after, c.log = before ++ x :: after → x.1.method = "eth_sendRawTransaction" →
    after = [] ∧ ∃ input raw, c.op.callData = .ok input ∧ Prepared b input raw before ∧
      x.1 = relayRequest raw
  /-- An error is that of the last request; everything before it went well. -/
  stopped : ∀ txid e, Export.txidBytes c.op.txid = .ok txid → c.outcome = .error e →
    ∃ (input : List UInt8) (last : Stage) (reached : Log) (q : Request) (reply : Reply)
      (source : GatewayError),
      c.op.callData = .ok input ∧ last.Reached b input reached ∧ last.request b input = some q ∧
      c.log = reached ++ [⟨q, reply⟩] ∧ last.advance b input reply = .error source ∧
      b.Blames reply source ∧ e = .submission source
  succeeded : (∃ hash, c.outcome = .ok hash) ↔
    c.log.length = 5 ∧ ∀ x ∈ c.log, ∃ v, Rpc.result x.2 = .ok v

theorem exists_result_of_read {shape : Wire.Shape} {reply : Reply} {x : shape.Carrier}
    (h : Rpc.read shape reply = .ok x) : ∃ v, Rpc.result reply = .ok v := by
  obtain ⟨v, hv, _⟩ := Outcome.bind_eq_ok h
  exact ⟨v, hv⟩

theorem exists_result_of_readFee {base : Option (Word 256)} {reply : Reply} {fee : Ethereum.Fee}
    (h : readFee base reply = .ok fee) : ∃ v, Rpc.result reply = .ok v := by
  cases base with
  | none =>
    obtain ⟨price, hprice, _⟩ := Outcome.bind_eq_ok h
    exact exists_result_of_read hprice
  | some base =>
    obtain ⟨tip, htip, _⟩ := Outcome.bind_eq_ok h
    exact exists_result_of_read htip

theorem results_of_prepared {b : ContractBridge} {input raw : List UInt8} {log : Log}
    (h : Prepared b input raw log) : log.length = 4 ∧ ∀ x ∈ log, ∃ v, Rpc.result x.2 = .ok v := by
  obtain ⟨r₁, r₂, r₃, r₄, nonce, gasLimit, base, fee, rfl, h₁, h₂, h₃, h₄, _⟩ := h
  have hcount : ∃ v, Rpc.result r₁ = .ok v := exists_result_of_read h₁
  have hestimate : ∃ v, Rpc.result r₂ = .ok v := exists_result_of_read h₂
  have hhead : ∃ v, Rpc.result r₃ = .ok v := by
    obtain ⟨block, hblock, _⟩ := Outcome.bind_eq_ok h₃
    exact ⟨block, hblock⟩
  have hfee : ∃ v, Rpc.result r₄ = .ok v := exists_result_of_readFee h₄
  refine ⟨rfl, fun x hx => ?_⟩
  simp only [List.mem_cons, List.not_mem_nil, or_false] at hx
  obtain rfl | rfl | rfl | rfl := hx
  · exact hcount
  · exact hestimate
  · exact hhead
  · exact hfee

theorem disciplined_of_undecodable {b : ContractBridge} {e : Export} {fault : Export.TxidFault}
    (hfault : Export.txidBytes e.txid = .error fault) :
    Call.Disciplined b ⟨e, [], .error (.encoding fault.message)⟩ where
  undecodable fault' h := by
    obtain rfl := Except.error.inj (hfault.symm.trans h)
    exact ⟨rfl, rfl⟩
  ordered := List.nil_prefix
  relay before x after h :=
    absurd h.symm (List.append_ne_nil_of_right_ne_nil before (List.cons_ne_nil x after))
  stopped txid e' h := by cases hfault.symm.trans h
  succeeded := by
    constructor
    · rintro ⟨hash, h⟩
      cases h
    · rintro ⟨h, _⟩
      cases h

/-- The relay can only be what a submission ends with. -/
theorem relay_of_reached {b : ContractBridge} {input : List UInt8} {last : Stage} {reached : Log}
    {q : Request} {reply : Reply} (hreached : last.Reached b input reached)
    (hq : last.request b input = some q) {before after : Log} {x : (_ : Request) × Reply}
    (hlog : reached ++ [⟨q, reply⟩] = before ++ x :: after)
    (hmethod : x.1.method = "eth_sendRawTransaction") :
    after = [] ∧ ∃ raw, Prepared b input raw before ∧ x.1 = relayRequest raw := by
  have hnone := relay_notMem_methods hreached hq
  obtain rfl | ⟨init, y, rfl⟩ := List.eq_nil_or_concat after
  · obtain ⟨rfl, hx⟩ := List.append_inj' hlog rfl
    obtain rfl := (List.cons.inj hx).1
    obtain ⟨raw, rfl, rfl⟩ := eq_signed_of_relay hq hmethod
    exact ⟨rfl, raw, hreached, rfl⟩
  · rw [List.concat_eq_append, ← List.cons_append, ← List.append_assoc] at hlog
    obtain ⟨rfl, _⟩ := List.append_inj' hlog rfl
    refine absurd ?_ hnone
    rw [← hmethod]
    exact List.mem_map_of_mem (List.mem_append_right _ List.mem_cons_self)

theorem succeeded_iff {b : ContractBridge} {input : List UInt8} {last : Stage} {reached : Log}
    {q : Request} {reply : Reply} {o : Except GatewayError Hash}
    (hreached : last.Reached b input reached) (hq : last.request b input = some q)
    (ho : (∃ source, last.advance b input reply = .error source ∧ o = .error source) ∨
      ∃ raw v, last = .signed raw ∧ Rpc.result reply = .ok v ∧ o = .ok (keccak256 raw)) :
    (∃ hash, o = .ok hash) ↔
      (reached ++ [(⟨q, reply⟩ : (_ : Request) × Reply)]).length = 5 ∧
        ∀ x ∈ reached ++ [⟨q, reply⟩], ∃ v, Rpc.result x.2 = .ok v := by
  constructor
  · rintro ⟨hash, rfl⟩
    obtain ⟨source, _, h⟩ | ⟨raw, v, rfl, hv, _⟩ := ho
    · cases h
    · obtain ⟨hlength, hresults⟩ := results_of_prepared hreached
      refine ⟨by rw [List.length_append, hlength]; rfl, fun x hx => ?_⟩
      obtain hx | hx := List.mem_append.mp hx
      · exact hresults x hx
      · obtain rfl := List.mem_singleton.mp hx
        exact ⟨v, hv⟩
  · rintro ⟨hlength, hresults⟩
    obtain ⟨raw, rfl⟩ := eq_signed_of_length hreached hq
      (Nat.succ.inj (List.length_append.symm.trans hlength))
    obtain ⟨v, hv⟩ := hresults ⟨q, reply⟩ (List.mem_append_right _ List.mem_cons_self)
    obtain ⟨source, hstop, _⟩ | ⟨_, _, _, _, rfl⟩ := ho
    · have h : Rpc.result reply = .error source := Outcome.map_eq_error hstop
      cases hv.symm.trans h
    · exact ⟨_, rfl⟩

theorem disciplined_of_ends {b : ContractBridge} {e : Export} {log : Log}
    {outcome : Except GatewayError String} (h : (b.send e).Ends log outcome) :
    Call.Disciplined b ⟨e, log, outcome⟩ := by
  -- an export that cannot be encoded ends before there is a request
  cases htxid : Export.txidBytes e.txid with
  | error fault =>
    have hdata := callData_of_txidBytes_error htxid
    obtain ⟨_, hfault, rfl, rfl⟩ | ⟨input, o, hinput, _⟩ := send_cases b e h
    · obtain rfl := Except.error.inj (hdata.symm.trans hfault)
      exact disciplined_of_undecodable htxid
    · cases hdata.symm.trans hinput
  | ok txid =>
    have hdata := callData_of_txidBytes_ok htxid
    obtain ⟨_, hfault, _⟩ | ⟨input, o, hinput, hsubmit, rfl⟩ := send_cases b e h
    · cases hdata.symm.trans hfault
    · obtain ⟨last, reached, q, reply, hreached, hq, rfl, ho⟩ := submit_cases b input hsubmit
      refine ⟨fun _ hfault => ?_, methods_prefix_plan hreached hq reply,
        fun before x after hlog hmethod => ?_, fun _ e' _ he' => ?_, ?_⟩
      · cases htxid.symm.trans hfault
      · obtain ⟨hafter, raw, hprepared, hx⟩ := relay_of_reached hreached hq hlog hmethod
        exact ⟨hafter, input, raw, hinput, hprepared, hx⟩
      · have hmapped := Outcome.map_eq_error he'
        obtain ⟨source, hstop, rfl⟩ | ⟨_, _, _, _, rfl⟩ := ho
        · exact ⟨input, last, reached, q, reply, source, hinput, hreached, hq, rfl, hstop,
            blames_of_advance hstop, (Except.error.inj hmapped).symm⟩
        · cases hmapped
      · rw [← succeeded_iff hreached hq ho]
        cases o with
        | error source => exact ⟨nofun, nofun⟩
        | ok hash => exact ⟨fun _ => ⟨hash, rfl⟩, fun _ => ⟨_, rfl⟩⟩

/-- Replay exports one after another; no failure keeps the next from its turn. -/
def sendAll (b : ContractBridge) :
    List Export → Dialogue Request (fun _ => Reply) (List (Except GatewayError String))
  | [] => .done []
  | e :: rest =>
    (b.send e).run.bind fun outcome => (b.sendAll rest).bind fun others => .done (outcome :: others)

section

variable {σ : Type} (answer : Request → σ → Reply × σ)

/-- The calls that are made when exports are replayed one after another. -/
def calls (b : ContractBridge) : List Export → σ → List Call
  | [], _ => []
  | e :: rest, s =>
    ⟨e, (b.send e).run.transcript answer s, ((b.send e).run.run answer s).1⟩ ::
      b.calls rest ((b.send e).run.run answer s).2

theorem map_op_calls (b : ContractBridge) (ops : List Export) (s : σ) :
    (b.calls answer ops s).map Call.op = ops := by
  induction ops generalizing s with
  | nil => rfl
  | cons e rest ih => rw [calls, List.map_cons, ih]

theorem run_sendAll (b : ContractBridge) (ops : List Export) (s : σ) :
    ((b.sendAll ops).run answer s).1 = (b.calls answer ops s).map Call.outcome := by
  induction ops generalizing s with
  | nil => rfl
  | cons e rest ih =>
    rw [sendAll, calls, List.map_cons, ← ih, Dialogue.run_bind, Dialogue.run_bind]
    rfl

theorem transcript_sendAll (b : ContractBridge) (ops : List Export) (s : σ) :
    (b.sendAll ops).transcript answer s = (b.calls answer ops s).flatMap Call.log := by
  induction ops generalizing s with
  | nil => rfl
  | cons e rest ih =>
    rw [sendAll, calls, List.flatMap_cons, ← ih, Dialogue.transcript_bind,
      Dialogue.transcript_bind]
    exact congrArg _ (List.append_nil _)

theorem disciplined_of_mem_calls {b : ContractBridge} {ops : List Export} {s : σ} {c : Call}
    (h : c ∈ b.calls answer ops s) : c.Disciplined b := by
  induction ops generalizing s with
  | nil => cases h
  | cons e rest ih =>
    obtain rfl | h := List.mem_cons.mp h
    · exact disciplined_of_ends (Dialogue.ends_run answer _ s)
    · exact ih h

/-- However a node answers, a sequence of sends is a sequence of disciplined calls, with nothing
asked between them. -/
theorem sendAll_disciplined (b : ContractBridge) (ops : List Export) (s : σ) :
    (b.calls answer ops s).map Call.op = ops ∧
      ((b.sendAll ops).run answer s).1 = (b.calls answer ops s).map Call.outcome ∧
      (b.sendAll ops).transcript answer s = (b.calls answer ops s).flatMap Call.log ∧
      ((b.sendAll ops).runRecorded answer s).2.2 =
        ((b.calls answer ops s).flatMap Call.log).map Sigma.fst ∧
      ∀ c ∈ b.calls answer ops s, c.Disciplined b := by
  have htranscript := transcript_sendAll answer b ops s
  refine ⟨map_op_calls answer b ops s, run_sendAll answer b ops s, htranscript, ?_,
    fun c hc => disciplined_of_mem_calls answer hc⟩
  rw [Dialogue.runRecorded_eq, htranscript]

end

end ContractBridge

end ChainGateway.Bridge
