import ChainGateway.Bridge.Contract
import ChainGateway.Proofs.Transcript

namespace ChainGateway.Bridge

open Crypto.Ecdsa (Signature)
open Ethereum (Fee Transaction)
open Rpc (Log Reply Request)

namespace ContractBridge

/-- How far a submission has come, with what is known by then. -/
inductive Stage where
  | start
  | counted (nonce : Word 64)
  | estimated (nonce gasLimit : Word 64)
  | headed (nonce gasLimit : Word 64) (base : Option (Word 256))
  | signed (raw : List UInt8)
  | relayed (raw : List UInt8)

def countRequest (b : ContractBridge) : Request :=
  .numbered Rpc.fixedId "eth_getTransactionCount" [.string b.sender.text, .string "pending"]

def estimateRequest (b : ContractBridge) (input : List UInt8) : Request :=
  .numbered Rpc.fixedId "eth_estimateGas"
    [.object [("data", .string (Hex.encodeMarked input)), ("from", .string b.sender.text),
      ("to", .string b.contract.text)]]

def headRequest : Request :=
  .numbered Rpc.fixedId "eth_getBlockByNumber" [.string "latest", .bool false]

def feeRequest : Option (Word 256) → Request
  | some _ => .numbered Rpc.fixedId "eth_maxPriorityFeePerGas" []
  | none => .numbered Rpc.fixedId "eth_gasPrice" []

def relayRequest (raw : List UInt8) : Request :=
  .numbered Rpc.fixedId "eth_sendRawTransaction" [.string (Hex.encodeMarked raw)]

def transaction (b : ContractBridge) (input : List UInt8) (nonce gasLimit : Word 64) (fee : Fee) :
    Transaction :=
  { chainId := b.chainId, nonce, fee, gasLimit, recipient := b.contract, value := 0, input }

def readBase (reply : Reply) : Except GatewayError (Option (Word 256)) :=
  (Rpc.result reply).bind baseFee?

def readFee : Option (Word 256) → Reply → Except GatewayError Fee
  | some base, reply => (Rpc.read (.quantity 256) reply).bind (marketFee base)
  | none, reply => (Rpc.read (.quantity 256) reply).bind legacyFee

/-- Has a block a base fee? One that is null is none. -/
def hasBaseFee (block : Json) : Bool :=
  match block.member? "baseFeePerGas" with
  | some v => !v.isNull
  | none => false

theorem isSome_of_baseFee? {block : Json} {base : Option (Word 256)}
    (h : baseFee? block = .ok base) : base.isSome = hasBaseFee block := by
  unfold baseFee? at h
  unfold hasBaseFee
  split at h
  · rename_i hnone
    rw [hnone, ← Except.ok.inj h]
    rfl
  · rename_i hnull
    rw [hnull, ← Except.ok.inj h]
    rfl
  · rename_i v hv hsome
    split at h
    · rw [hsome, ← Except.ok.inj h]
      cases v with
      | null => exact absurd rfl hv
      | _ => rfl
    · cases h

/-- What a submission asks at a stage; at the last it asks nothing more. -/
def Stage.request (b : ContractBridge) (input : List UInt8) : Stage → Option Request
  | start => some b.countRequest
  | counted _ => some (b.estimateRequest input)
  | estimated _ _ => some headRequest
  | headed _ _ base => some (feeRequest base)
  | signed raw => some (relayRequest raw)
  | relayed _ => none

/-- What a submission makes of the reply at a stage: the next stage, or the error that ends it. -/
def Stage.advance (b : ContractBridge) (input : List UInt8) :
    Stage → Reply → Except GatewayError Stage
  | start, reply => (Rpc.read (.quantity 64) reply).map counted
  | counted nonce, reply => (Rpc.read (.quantity 64) reply).map (estimated nonce)
  | estimated nonce gasLimit, reply => (readBase reply).map (headed nonce gasLimit)
  | headed nonce gasLimit base, reply =>
    ((readFee base reply).bind fun fee =>
      b.signed (b.transaction input nonce gasLimit fee)).map signed
  | signed raw, reply => (Rpc.result reply).map fun _ => relayed raw
  | relayed raw, _ => .ok (relayed raw)

/-- A walk from a stage on: it ends at the last stage, or at the first reply with which the
submission cannot go on. -/
inductive Walk (b : ContractBridge) (input : List UInt8) :
    Stage → Log → Except GatewayError Hash → Prop where
  | finish (raw : List UInt8) : Walk b input (.relayed raw) [] (.ok (keccak256 raw))
  | stop {stage : Stage} {q : Request} {reply : Reply} {e : GatewayError} :
      stage.request b input = some q → stage.advance b input reply = .error e →
      Walk b input stage [⟨q, reply⟩] (.error e)
  | step {stage next : Stage} {q : Request} {reply : Reply} {log : Log}
      {outcome : Except GatewayError Hash} :
      stage.request b input = some q → stage.advance b input reply = .ok next →
      Walk b input next log outcome → Walk b input stage (⟨q, reply⟩ :: log) outcome

theorem eq_raw_of_relayable {t : Transaction} {signature : Option Signature} {raw : List UInt8}
    (h : relayable t signature = .ok raw) : ∃ sig, signature = some sig ∧ raw = t.raw sig := by
  cases signature with
  | none => cases h
  | some sig => exact ⟨sig, rfl, (Except.ok.inj h).symm⟩

theorem eq_signing_of_relayable {t : Transaction} {signature : Option Signature} {e : GatewayError}
    (h : relayable t signature = .error e) : signature = none ∧ e = .signing "signature error" := by
  cases signature with
  | none => exact ⟨rfl, (Except.error.inj h).symm⟩
  | some sig => cases h

theorem eq_raw_of_signed {b : ContractBridge} {t : Transaction} {raw : List UInt8}
    (h : b.signed t = .ok raw) : ∃ sig, t.sign b.key = some sig ∧ raw = t.raw sig :=
  eq_raw_of_relayable h

theorem eq_signing_of_signed {b : ContractBridge} {t : Transaction} {e : GatewayError}
    (h : b.signed t = .error e) : t.sign b.key = none ∧ e = .signing "signature error" :=
  eq_signing_of_relayable h

theorem signed_of_sign {b : ContractBridge} {t : Transaction} {sig : Signature}
    (h : t.sign b.key = some sig) : b.signed t = .ok (t.raw sig) := by
  unfold signed
  rw [h]
  rfl

section

variable {b : ContractBridge} {input : List UInt8} {α β : Type} {x : Rpc.Exchange α} {q : Request}
  {outcome : Reply → Except GatewayError α} {stage : Stage} {log : Log}
  {o : Except GatewayError Hash}

theorem walk_bind (next : α → Stage) (hx : x.Asks q outcome)
    (hq : stage.request b input = some q)
    (hstep : ∀ reply, stage.advance b input reply = (outcome reply).map next)
    {f : α → Rpc.Exchange Hash} (hf : ∀ a log o, (f a).Ends log o → Walk b input (next a) log o)
    (h : (x >>= f).Ends log o) : Walk b input stage log o := by
  obtain ⟨e, he, rfl⟩ | ⟨a, first, rest, hfirst, hrest, rfl⟩ := Rpc.Exchange.ends_bind h
  · obtain ⟨reply, rfl, hr⟩ := hx _ _ he
    exact Walk.stop hq (by rw [hstep, ← hr]; rfl)
  · obtain ⟨reply, rfl, hr⟩ := hx _ _ hfirst
    exact Walk.step hq (by rw [hstep, ← hr]; rfl) (hf a rest o hrest)

/-- A check that asks nothing belongs to the step before it. -/
theorem walk_bind_lift (next : β → Stage) (hx : x.Asks q outcome)
    (hq : stage.request b input = some q) {g : α → Except GatewayError β}
    (hstep : ∀ reply, stage.advance b input reply = ((outcome reply).bind g).map next)
    {f : β → Rpc.Exchange Hash} (hf : ∀ c log o, (f c).Ends log o → Walk b input (next c) log o)
    (h : (x >>= fun a => Rpc.Exchange.lift (g a) >>= f).Ends log o) :
    Walk b input stage log o := by
  obtain ⟨e, he, rfl⟩ | ⟨a, first, rest, hfirst, hrest, rfl⟩ := Rpc.Exchange.ends_bind h
  · obtain ⟨reply, rfl, hr⟩ := hx _ _ he
    exact Walk.stop hq (by rw [hstep, ← hr]; rfl)
  · obtain ⟨reply, rfl, hr⟩ := hx _ _ hfirst
    obtain ⟨e, he, rfl⟩ | ⟨c, first, after, hcheck, hafter, rfl⟩ := Rpc.Exchange.ends_bind hrest
    · obtain ⟨rfl, hg⟩ := Rpc.Exchange.ends_lift he
      exact Walk.stop hq (by rw [hstep, ← hr]; simp only [Except.bind, ← hg]; rfl)
    · obtain ⟨rfl, hg⟩ := Rpc.Exchange.ends_lift hcheck
      exact Walk.step hq (by rw [hstep, ← hr]; simp only [Except.bind, ← hg]; rfl)
        (hf c after o hafter)

end

theorem asks_fee (base : Option (Word 256)) : (fee base).Asks (feeRequest base) (readFee base) := by
  cases base with
  | none => exact Rpc.Exchange.asks_bind_lift (Rpc.Exchange.asks_call (.quantity 256) _ _ _) _
  | some base =>
    exact Rpc.Exchange.asks_bind_lift (Rpc.Exchange.asks_call (.quantity 256) _ _ _) _

theorem walk_of_ends (b : ContractBridge) (input : List UInt8) {log : Log}
    {outcome : Except GatewayError Hash} (h : (b.submit input).Ends log outcome) :
    Walk b input .start log outcome := by
  refine walk_bind .counted (Rpc.Exchange.asks_call (.quantity 64) _ _ _) rfl
    (fun _ => rfl) (fun nonce log o h => ?_) h
  refine walk_bind (.estimated nonce) (Rpc.Exchange.asks_call (.quantity 64) _ _ _) rfl
    (fun _ => rfl) (fun gasLimit log o h => ?_) h
  refine walk_bind_lift (.headed nonce gasLimit) (Rpc.Exchange.asks_request _ _ _) rfl
    (fun _ => rfl) (fun base log o h => ?_) h
  refine walk_bind_lift .signed (asks_fee base) rfl (fun _ => rfl) (fun raw log o h => ?_) h
  refine walk_bind (fun _ => .relayed raw) (Rpc.Exchange.asks_request _ _ _) rfl
    (fun _ => rfl) (fun v log o h => ?_) h
  obtain ⟨rfl, rfl⟩ := Rpc.Exchange.ends_pure h
  exact Walk.finish raw

/-- A log of four requests whose replies say all that the bytes to be relayed are made of. -/
def Prepared (b : ContractBridge) (input raw : List UInt8) (log : Log) : Prop :=
  ∃ r₁ r₂ r₃ r₄ nonce gasLimit base fee,
    log = [⟨b.countRequest, r₁⟩, ⟨b.estimateRequest input, r₂⟩, ⟨headRequest, r₃⟩,
      ⟨feeRequest base, r₄⟩] ∧
    Rpc.read (.quantity 64) r₁ = .ok nonce ∧ Rpc.read (.quantity 64) r₂ = .ok gasLimit ∧
    readBase r₃ = .ok base ∧ readFee base r₄ = .ok fee ∧
    b.signed (b.transaction input nonce gasLimit fee) = .ok raw

/-- A log that leads to a stage: the requests before it in order, and replies that say what is
known by then. -/
def Stage.Reached (b : ContractBridge) (input : List UInt8) : Stage → Log → Prop
  | start, log => log = []
  | counted nonce, log =>
    ∃ r₁, log = [⟨b.countRequest, r₁⟩] ∧ Rpc.read (.quantity 64) r₁ = .ok nonce
  | estimated nonce gasLimit, log =>
    ∃ r₁ r₂, log = [⟨b.countRequest, r₁⟩, ⟨b.estimateRequest input, r₂⟩] ∧
      Rpc.read (.quantity 64) r₁ = .ok nonce ∧ Rpc.read (.quantity 64) r₂ = .ok gasLimit
  | headed nonce gasLimit base, log =>
    ∃ r₁ r₂ r₃,
      log = [⟨b.countRequest, r₁⟩, ⟨b.estimateRequest input, r₂⟩, ⟨headRequest, r₃⟩] ∧
      Rpc.read (.quantity 64) r₁ = .ok nonce ∧ Rpc.read (.quantity 64) r₂ = .ok gasLimit ∧
      readBase r₃ = .ok base
  | signed raw, log => Prepared b input raw log
  | relayed raw, log =>
    ∃ before r₅ v, Prepared b input raw before ∧ log = before ++ [⟨relayRequest raw, r₅⟩] ∧
      Rpc.result r₅ = .ok v

theorem reached_advance {b : ContractBridge} {input : List UInt8} {stage next : Stage}
    {q : Request} {reply : Reply} {log : Log} (hlog : stage.Reached b input log)
    (hq : stage.request b input = some q) (h : stage.advance b input reply = .ok next) :
    next.Reached b input (log ++ [⟨q, reply⟩]) := by
  -- a stage is reached by the replies to the one before it and the one that is added
  cases stage with
  | start =>
    obtain ⟨nonce, hr, rfl⟩ := Outcome.map_eq_ok h
    obtain rfl := Option.some.inj hq
    subst hlog
    exact ⟨reply, rfl, hr⟩
  | counted nonce =>
    obtain ⟨gasLimit, hr, rfl⟩ := Outcome.map_eq_ok h
    obtain rfl := Option.some.inj hq
    obtain ⟨r₁, rfl, h₁⟩ := hlog
    exact ⟨r₁, reply, rfl, h₁, hr⟩
  | estimated nonce gasLimit =>
    obtain ⟨base, hr, rfl⟩ := Outcome.map_eq_ok h
    obtain rfl := Option.some.inj hq
    obtain ⟨r₁, r₂, rfl, h₁, h₂⟩ := hlog
    exact ⟨r₁, r₂, reply, rfl, h₁, h₂, hr⟩
  | headed nonce gasLimit base =>
    obtain ⟨raw, hraw, rfl⟩ := Outcome.map_eq_ok h
    obtain ⟨fee, hfee, hsigned⟩ := Outcome.bind_eq_ok hraw
    obtain rfl := Option.some.inj hq
    obtain ⟨r₁, r₂, r₃, rfl, h₁, h₂, h₃⟩ := hlog
    exact ⟨r₁, r₂, r₃, reply, nonce, gasLimit, base, fee, rfl, h₁, h₂, h₃, hfee, hsigned⟩
  | signed raw =>
    obtain ⟨v, hr, rfl⟩ := Outcome.map_eq_ok h
    obtain rfl := Option.some.inj hq
    exact ⟨log, reply, v, hlog, rfl, hr⟩
  | relayed raw => cases hq

/-- A walk ends at the last stage, or with the error of a reply at some stage that was reached. -/
theorem reached_of_walk {b : ContractBridge} {input : List UInt8} {stage : Stage} {log : Log}
    {outcome : Except GatewayError Hash} (h : Walk b input stage log outcome) (before : Log)
    (hbefore : stage.Reached b input before) :
    (∃ raw, outcome = .ok (keccak256 raw) ∧
      (Stage.relayed raw).Reached b input (before ++ log)) ∨
    ∃ (last : Stage) (reached : Log) (q : Request) (reply : Reply) (e : GatewayError),
      last.Reached b input reached ∧ last.request b input = some q ∧
      last.advance b input reply = .error e ∧ outcome = .error e ∧
      before ++ log = reached ++ [⟨q, reply⟩] := by
  induction h generalizing before with
  | finish raw => exact Or.inl ⟨raw, rfl, by rwa [List.append_nil]⟩
  | @stop stage q reply e hq hstop =>
    exact Or.inr ⟨stage, before, q, reply, e, hbefore, hq, hstop, rfl, rfl⟩
  | step hq hstep _ ih =>
    have hnext := ih _ (reached_advance hbefore hq hstep)
    rwa [List.append_assoc] at hnext

/-- A submission ends with its last request: either the reply to it stops the submission, or it is
the reply to the relayed bytes. -/
theorem submit_cases (b : ContractBridge) (input : List UInt8) {log : Log}
    {outcome : Except GatewayError Hash} (h : (b.submit input).Ends log outcome) :
    ∃ (last : Stage) (reached : Log) (q : Request) (reply : Reply),
      last.Reached b input reached ∧ last.request b input = some q ∧
      log = reached ++ [⟨q, reply⟩] ∧
      ((∃ e, last.advance b input reply = .error e ∧ outcome = .error e) ∨
        ∃ raw v, last = .signed raw ∧ Rpc.result reply = .ok v ∧
          outcome = .ok (keccak256 raw)) := by
  obtain ⟨raw, ho, before, reply, v, hprepared, hlog, hv⟩ |
    ⟨last, reached, q, reply, e, hreached, hq, hstop, ho, hlog⟩ :=
    reached_of_walk (walk_of_ends b input h) [] rfl
  · exact ⟨.signed raw, before, relayRequest raw, reply, hprepared, rfl, hlog,
      Or.inr ⟨raw, v, rfl, hv, ho⟩⟩
  · exact ⟨last, reached, q, reply, hreached, hq, hlog, Or.inl ⟨e, hstop, ho⟩⟩

theorem callData_of_txidBytes_error {e : Export} {fault : Export.TxidFault}
    (h : Export.txidBytes e.txid = .error fault) :
    e.callData = .error (.encoding fault.message) := by
  simp only [Export.callData, Export.call, h, Except.map]

theorem callData_of_txidBytes_ok {e : Export} {txid : Hash}
    (h : Export.txidBytes e.txid = .ok txid) :
    e.callData = .ok (Ethereum.ExportCall.encode ⟨txid, e.idx, e.fee, Text.utf8 e.sig⟩) := by
  simp only [Export.callData, Export.call, h, Except.map]

/-- An export without call data ends before anything is asked, and every other is submitted. -/
theorem send_cases (b : ContractBridge) (e : Export) {log : Log}
    {outcome : Except GatewayError String} (h : (b.send e).Ends log outcome) :
    (∃ fault, e.callData = .error fault ∧ log = [] ∧ outcome = .error fault) ∨
    ∃ input o, e.callData = .ok input ∧ (b.submit input).Ends log o ∧
      outcome = (o.mapError .submission).map FixedBytes.text := by
  obtain ⟨fault, hfirst, rfl⟩ | ⟨input, _, rest, hfirst, hrest, rfl⟩ := Rpc.Exchange.ends_bind h
  · obtain ⟨rfl, hdata⟩ := Rpc.Exchange.ends_lift hfirst
    exact Or.inl ⟨fault, hdata.symm, rfl, rfl⟩
  · obtain ⟨rfl, hdata⟩ := Rpc.Exchange.ends_lift hfirst
    refine Or.inr ⟨input, ?_⟩
    obtain ⟨source, hfail, rfl⟩ | ⟨hash, first, last, hdone, hlast, rfl⟩ :=
      Rpc.Exchange.ends_bind hrest
    · obtain ⟨o, ho, hmap⟩ := Rpc.Exchange.ends_mapError hfail
      exact ⟨o, hdata.symm, ho, by rw [← hmap]; rfl⟩
    · obtain ⟨o, ho, hmap⟩ := Rpc.Exchange.ends_mapError hdone
      obtain ⟨rfl, rfl⟩ := Rpc.Exchange.ends_pure hlast
      rw [List.append_nil]
      exact ⟨o, hdata.symm, ho, by rw [← hmap]; rfl⟩

section

variable {b : ContractBridge} {input raw : List UInt8} {node : Request → Reply}

theorem outcome_fee (base : Option (Word 256)) :
    (fee base).outcome node = readFee base (node (feeRequest base)) := by
  have hcall := Rpc.Exchange.outcome_call node (.quantity 256) Rpc.fixedId
  cases base with
  | none =>
    refine (Rpc.Exchange.outcome_bind node _ _).trans ?_
    exact congrArg (Except.bind · _) (hcall "eth_gasPrice" [])
  | some base =>
    refine (Rpc.Exchange.outcome_bind node _ _).trans ?_
    exact congrArg (Except.bind · _) (hcall "eth_maxPriorityFeePerGas" [])

theorem outcome_submit {nonce gasLimit : Word 64} {base : Option (Word 256)} {paid : Fee} {v : Json}
    (hcount : Rpc.read (.quantity 64) (node b.countRequest) = .ok nonce)
    (hestimate : Rpc.read (.quantity 64) (node (b.estimateRequest input)) = .ok gasLimit)
    (hhead : readBase (node headRequest) = .ok base)
    (hfee : readFee base (node (feeRequest base)) = .ok paid)
    (hsigned : b.signed (b.transaction input nonce gasLimit paid) = .ok raw)
    (hrelay : Rpc.result (node (relayRequest raw)) = .ok v) :
    (b.submit input).outcome node = .ok (keccak256 raw) := by
  obtain ⟨block, hblock, hbase⟩ := Outcome.bind_eq_ok hhead
  have hcall := Rpc.Exchange.outcome_call node (.quantity 64) Rpc.fixedId
  have hinvoke := Rpc.Exchange.outcome_request node Rpc.fixedId
  refine Rpc.Exchange.outcome_bind_ok node ((hcall "eth_getTransactionCount" _).trans hcount) ?_
  refine Rpc.Exchange.outcome_bind_ok node ((hcall "eth_estimateGas" _).trans hestimate) ?_
  refine Rpc.Exchange.outcome_bind_ok node ((hinvoke "eth_getBlockByNumber" _).trans hblock) ?_
  refine Rpc.Exchange.outcome_bind_ok node ((Rpc.Exchange.outcome_lift node _).trans hbase) ?_
  refine Rpc.Exchange.outcome_bind_ok node ((outcome_fee base).trans hfee) ?_
  refine Rpc.Exchange.outcome_bind_ok node ((Rpc.Exchange.outcome_lift node _).trans hsigned) ?_
  refine Rpc.Exchange.outcome_bind_ok node ((hinvoke "eth_sendRawTransaction" _).trans hrelay) ?_
  rfl

theorem outcome_send {e : Export} {hash : Hash} (hdata : e.callData = .ok input)
    (hsubmit : (b.submit input).outcome node = .ok hash) :
    (b.send e).outcome node = .ok hash.text := by
  refine Rpc.Exchange.outcome_bind_ok node hdata ?_
  refine Rpc.Exchange.outcome_bind_ok node ?_ rfl
  rw [Rpc.Exchange.outcome_mapError, hsubmit]
  rfl

end

end ContractBridge

end ChainGateway.Bridge
