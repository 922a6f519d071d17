import ChainGateway.Adapter
import ChainGateway.Proofs.Transcript
import ChainGateway.Proofs.ShapeReading

namespace ChainGateway

open Bridge (Export)
open Rpc (Method)
open Wire (Shape)

namespace Rpc.Method

def shapes : Method → List Shape
  | getBalance => [.text, .signed]
  | addBalance => [.text]
  | getUtxos => [.text, .signed, .boolean]
  | sendRawTransaction => [.text, .boolean]
  | crossSend => [.text, .unsigned 32, .unsigned 64, .text]

theorem ofName?_eq_some {s : String} {m : Method} (h : ofName? s = some m) : s = m.name := by
  have hname := List.find?_some h
  exact (of_decide_eq_true hname).symm

end Rpc.Method

namespace Adapter

inductive NodeCall : String → List Json → Prop where
  | getBalance (address : String) (coinId : SignedWord) :
      NodeCall "qng_getBalance" [.string address, .integer coinId.toInt]
  | addBalance (address : String) : NodeCall "qng_addBalance" [.string address]
  | getUtxos (address : String) (limit : SignedWord) (locked : Bool) :
      NodeCall "qng_getUTXOs" [.string address, .integer limit.toInt, .bool locked]
  | sendRawTransaction (rawTx : String) (allowHighFee : Bool) :
      NodeCall "qng_sendRawTransaction" [.string rawTx, .bool allowHighFee]

inductive BridgeCall : String → List Json → Export → Prop where
  | crossSend (txid : String) (idx : Word 32) (fee : Word 64) (sig : String) :
      BridgeCall "qng_crossSend"
        [.string txid, .integer idx.toNat, .integer fee.toNat, .string sig] ⟨txid, idx, fee, sig⟩

/-- The first of some values that is not of its shape, by its index, with the cause. -/
inductive Misfit : List Shape → List Json → Nat → Json.Cause → Prop where
  | here {shape : Shape} {shapes : List Shape} {v : Json} {vs : List Json} {cause : Json.Cause} :
      shape.ofJson v = .error cause → Misfit (shape :: shapes) (v :: vs) 0 cause
  | later {shape : Shape} {shapes : List Shape} {v : Json} {vs : List Json} {x : shape.Carrier}
      {i : Nat} {cause : Json.Cause} :
      shape.ofJson v = .ok x → Misfit shapes vs i cause →
      Misfit (shape :: shapes) (v :: vs) (i + 1) cause

/-- The calls that are refused, and the error. Parameters are counted before any of them is
read. -/
inductive Refusal : String → List Json → GatewayError → Prop where
  | unknown {method : String} {params : List Json} : (∀ m : Method, method ≠ m.name) →
      Refusal method params (.methodNotFound method)
  | count {m : Method} {params : List Json} : params.length ≠ m.shapes.length →
      Refusal m.name params (.invalidParams m.name
        ("expected " ++ toString m.shapes.length ++ " params, got " ++ toString params.length))
  | misfit {m : Method} {params : List Json} {i : Nat} {cause : Json.Cause} :
      params.length = m.shapes.length → Misfit m.shapes params i cause →
      Refusal m.name params
        (.invalidParams m.name ("param " ++ toString i ++ ": " ++ cause.message))

theorem fits_or_misfit {shapes : List Shape} {vs : List Json} (h : vs.length = shapes.length) :
    List.Forall₂ (fun shape v => ∃ x : shape.Carrier, shape.ofJson v = .ok x) shapes vs ∨
    ∃ i cause, Misfit shapes vs i cause := by
  induction shapes generalizing vs with
  | nil =>
    rw [List.eq_nil_of_length_eq_zero h]
    exact Or.inl .nil
  | cons shape shapes ih =>
    cases vs with
    | nil => cases h
    | cons v vs =>
      cases hv : shape.ofJson v with
      | error cause => exact Or.inr ⟨0, cause, .here hv⟩
      | ok x =>
        obtain hfits | ⟨i, cause, hmisfit⟩ := ih (Nat.succ.inj h)
        · exact Or.inl (.cons ⟨x, hv⟩ hfits)
        · exact Or.inr ⟨i + 1, cause, .later hv hmisfit⟩

/-- There are no other calls. -/
theorem call_or_refusal (method : String) (params : List Json) :
    NodeCall method params ∨ (∃ e, BridgeCall method params e) ∨
    ∃ error, Refusal method params error := by
  cases hm : Method.ofName? method with
  | none =>
    refine Or.inr (Or.inr ⟨_, .unknown fun m hname => ?_⟩)
    rw [hname, Method.ofName?_name] at hm
    cases hm
  | some m =>
    rw [Method.ofName?_eq_some hm]
    by_cases hcount : params.length = m.shapes.length
    case neg => exact Or.inr (Or.inr ⟨_, .count hcount⟩)
    obtain hfits | ⟨i, cause, hmisfit⟩ := fits_or_misfit hcount
    case inr => exact Or.inr (Or.inr ⟨_, .misfit hcount hmisfit⟩)
    -- values that fit a method leave it no call but its own
    cases m with
    | getBalance =>
      obtain _ | ⟨⟨address, h₀⟩, _ | ⟨⟨coinId, h₁⟩, _ | _⟩⟩ := hfits
      rw [Wire.ofJson_text_eq_ok_iff.mp h₀, Wire.ofJson_signed_eq_ok_iff.mp h₁]
      exact Or.inl (.getBalance address coinId)
    | addBalance =>
      obtain _ | ⟨⟨address, h₀⟩, _ | _⟩ := hfits
      rw [Wire.ofJson_text_eq_ok_iff.mp h₀]
      exact Or.inl (.addBalance address)
    | getUtxos =>
      obtain _ | ⟨⟨address, h₀⟩, _ | ⟨⟨limit, h₁⟩, _ | ⟨⟨locked, h₂⟩, _ | _⟩⟩⟩ := hfits
      rw [Wire.ofJson_text_eq_ok_iff.mp h₀, Wire.ofJson_signed_eq_ok_iff.mp h₁,
        Wire.ofJson_boolean_eq_ok_iff.mp h₂]
      exact Or.inl (.getUtxos address limit locked)
    | sendRawTransaction =>
      obtain _ | ⟨⟨rawTx, h₀⟩, _ | ⟨⟨allowHighFee, h₁⟩, _ | _⟩⟩ := hfits
      rw [Wire.ofJson_text_eq_ok_iff.mp h₀, Wire.ofJson_boolean_eq_ok_iff.mp h₁]
      exact Or.inl (.sendRawTransaction rawTx allowHighFee)
    | crossSend =>
      obtain _ | ⟨⟨txid, h₀⟩, _ | ⟨⟨idx, h₁⟩, _ | ⟨⟨fee, h₂⟩, _ | ⟨⟨sig, h₃⟩, _ | _⟩⟩⟩⟩ := hfits
      rw [Wire.ofJson_text_eq_ok_iff.mp h₀, Wire.ofJson_unsigned_eq_ok_iff.mp h₁,
        Wire.ofJson_unsigned_eq_ok_iff.mp h₂, Wire.ofJson_text_eq_ok_iff.mp h₃]
      exact Or.inr (Or.inl ⟨_, .crossSend txid idx fee sig⟩)

section

variable {a : Adapter} {method : String} {params : List Json}

theorem param_bind_ok {α : Type} {shape : Shape} {v : Json} {x : shape.Carrier}
    (h : shape.ofJson v = .ok x) (index : Nat) (f : shape.Carrier → Operation α) :
    param method shape index v >>= f = f x := by
  unfold param
  rw [h]
  rfl

theorem param_bind_error {α : Type} {shape : Shape} {v : Json} {cause : Json.Cause}
    (h : shape.ofJson v = .error cause) (index : Nat) (f : shape.Carrier → Operation α) :
    param method shape index v >>= f =
      throw (.invalidParams method ("param " ++ toString index ++ ": " ++ cause.message)) := by
  unfold param
  rw [h]
  rfl

theorem dispatch_of_nodeCall (h : NodeCall method params) :
    a.dispatch method params = onNode (Rpc.invoke method params) := by
  cases h with
  | getBalance address coinId =>
    exact param_bind_ok (Wire.ofJson_signed_eq_ok_iff.mpr rfl) 1 (getBalance address)
  | addBalance address => rfl
  | getUtxos address limit locked =>
    exact param_bind_ok (Wire.ofJson_signed_eq_ok_iff.mpr rfl) 1
      fun limit => getUtxos address limit locked
  | sendRawTransaction rawTx allowHighFee => rfl

theorem dispatch_of_bridgeCall {e : Export} (h : BridgeCall method params e) :
    a.dispatch method params = a.crossSend e := by
  obtain ⟨txid, idx, fee, sig⟩ := h
  refine (param_bind_ok (Wire.ofJson_unsigned_eq_ok_iff.mpr rfl) 1 _).trans ?_
  refine (param_bind_ok (Wire.ofJson_unsigned_eq_ok_iff.mpr rfl) 2 _).trans ?_
  rfl

theorem dispatch_of_count {m : Method} (h : params.length ≠ m.shapes.length) :
    a.dispatch m.name params = wrongCount m.name m.shapes.length params.length := by
  cases m with
  | getBalance =>
    match params with
    | [_, _] => exact absurd rfl h
    | [] | [_] | _ :: _ :: _ :: _ => rfl
  | addBalance =>
    match params with
    | [_] => exact absurd rfl h
    | [] | _ :: _ :: _ => rfl
  | getUtxos =>
    match params with
    | [_, _, _] => exact absurd rfl h
    | [] | [_] | [_, _] | _ :: _ :: _ :: _ :: _ => rfl
  | sendRawTransaction =>
    match params with
    | [_, _] => exact absurd rfl h
    | [] | [_] | _ :: _ :: _ :: _ => rfl
  | crossSend =>
    match params with
    | [_, _, _, _] => exact absurd rfl h
    | [] | [_] | [_, _] | [_, _, _] | _ :: _ :: _ :: _ :: _ :: _ => rfl

/-- An operation that reads parameters in order, from an index on, before it does anything else. -/
inductive InOrder (method : String) :
    List Shape → Nat → List Json → Operation Json → Prop where
  | nil {index : Nat} {x : Operation Json} : InOrder method [] index [] x
  | cons {shape : Shape} {shapes : List Shape} {index : Nat} {v : Json} {vs : List Json}
      {f : shape.Carrier → Operation Json} : (∀ x, InOrder method shapes (index + 1) vs (f x)) →
      InOrder method (shape :: shapes) index (v :: vs) (param method shape index v >>= f)

theorem eq_throw_of_misfit {shapes : List Shape} {index : Nat} {vs : List Json}
    {x : Operation Json} (hx : InOrder method shapes index vs x) {i : Nat} {cause : Json.Cause}
    (h : Misfit shapes vs i cause) :
    x = throw (.invalidParams method
      ("param " ++ toString (index + i) ++ ": " ++ cause.message)) := by
  induction h generalizing index x with
  | here hv =>
    cases hx
    exact param_bind_error hv _ _
  | later hv _ ih =>
    cases hx with
    | cons hx =>
      rw [param_bind_ok hv, ih (hx _), Nat.add_assoc, Nat.add_comm 1]

theorem dispatch_of_misfit {m : Method} {i : Nat} {cause : Json.Cause}
    (hcount : params.length = m.shapes.length) (h : Misfit m.shapes params i cause) :
    a.dispatch m.name params =
      throw (.invalidParams m.name ("param " ++ toString i ++ ": " ++ cause.message)) := by
  suffices hx : InOrder m.name m.shapes 0 params (a.dispatch m.name params) by
    rw [eq_throw_of_misfit hx h, Nat.zero_add]
  cases m with
  | getBalance =>
    match params, hcount with
    | [_, _], _ => exact .cons fun _ => .cons fun _ => .nil
  | addBalance =>
    match params, hcount with
    | [_], _ => exact .cons fun _ => .nil
  | getUtxos =>
    match params, hcount with
    | [_, _, _], _ => exact .cons fun _ => .cons fun _ => .cons fun _ => .nil
  | sendRawTransaction =>
    match params, hcount with
    | [_, _], _ => exact .cons fun _ => .cons fun _ => .nil
  | crossSend =>
    match params, hcount with
    | [_, _, _, _], _ =>
      exact .cons fun _ => .cons fun _ => .cons fun _ => .cons fun _ => .nil

theorem dispatch_of_refusal {error : GatewayError} (h : Refusal method params error) :
    a.dispatch method params = throw error := by
  cases h with
  | unknown hname =>
    unfold dispatch
    cases hm : Method.ofName? method with
    | none => rfl
    | some m => exact absurd (Method.ofName?_eq_some hm) (hname m)
  | count h => exact dispatch_of_count h
  | misfit hcount h => exact dispatch_of_misfit hcount h

abbrev Log := List ((q : Query) × q.Reply)

theorem ends_onNode {log : Log} {outcome : Except GatewayError Json}
    (h : Dialogue.Ends (onNode (Rpc.invoke method params)).run log outcome) :
    ∃ reply : Rpc.Reply,
      log = [⟨.node ⟨method, params, .number Rpc.fixedId, "2.0"⟩, reply⟩] ∧
      outcome = Rpc.result reply := by
  obtain ⟨inner, pieces, hinner, rfl, hpieces⟩ := Dialogue.ends_via h
  obtain ⟨reply, rfl, rfl⟩ := Rpc.Exchange.asks_request _ method params _ _ hinner
  cases hpieces with
  | cons hpiece hrest =>
    cases hrest
    rw [Dialogue.ends_query hpiece]
    exact ⟨reply, rfl, rfl⟩

theorem ends_throw {error : GatewayError} {log : Log} {outcome : Except GatewayError Json}
    (h : Dialogue.Ends (throw error : Operation Json).run log outcome) :
    log = [] ∧ outcome = .error error :=
  Dialogue.ends_done h

theorem ends_crossSend_bridged {e : Export} (hbridged : a.bridged = true) {log : Log}
    {outcome : Except GatewayError Json} (h : Dialogue.Ends (a.crossSend e).run log outcome) :
    ∃ reply : Except GatewayError String,
      log = [⟨.bridge e, reply⟩] ∧ outcome = reply.map .string := by
  unfold crossSend at h
  rw [if_pos hbridged] at h
  obtain ⟨error, hbridge, rfl⟩ | ⟨hash, first, rest, hfirst, hrest, rfl⟩ :=
    Dialogue.ends_bind_except h
  · exact ⟨.error error, Dialogue.ends_query hbridge, rfl⟩
  · obtain ⟨rfl, rfl⟩ := Dialogue.ends_done hrest
    rw [Dialogue.ends_query hfirst]
    exact ⟨.ok hash, rfl, rfl⟩

theorem ends_crossSend_unbridged {e : Export} (hbridged : a.bridged = false) {log : Log}
    {outcome : Except GatewayError Json} (h : Dialogue.Ends (a.crossSend e).run log outcome) :
    log = [] ∧ outcome = .error .bridgeUnavailable := by
  unfold crossSend at h
  rw [if_neg (by rw [hbridged]; exact Bool.false_ne_true)] at h
  exact Dialogue.ends_done h

end

section

variable {method : String} {params : List Json} {error : GatewayError}

theorem not_refusal_of_nodeCall (h : NodeCall method params) : ¬ Refusal method params error := by
  intro hrefusal
  have hsame := (dispatch_of_nodeCall h).symm.trans (dispatch_of_refusal (a := ofNode "") hrefusal)
  cases hsame

theorem not_refusal_of_bridgeCall {e : Export} (h : BridgeCall method params e) :
    ¬ Refusal method params error := by
  intro hrefusal
  have hsame := (dispatch_of_bridgeCall h).symm.trans
    (dispatch_of_refusal (a := (ofNode "").withBridge) hrefusal)
  cases hsame

theorem accepted_iff (method : String) (params : List Json) :
    (NodeCall method params ∨ ∃ e, BridgeCall method params e) ↔
      ¬ ∃ error, Refusal method params error := by
  constructor
  · rintro (hnode | ⟨e, hbridge⟩) ⟨error, hrefusal⟩
    · exact not_refusal_of_nodeCall hnode hrefusal
    · exact not_refusal_of_bridgeCall hbridge hrefusal
  · intro hnone
    obtain hnode | hbridge | hrefusal := call_or_refusal method params
    · exact Or.inl hnode
    · exact Or.inr hbridge
    · exact absurd hrefusal hnone

end

structure Routed (a : Adapter) (method : String) (params : List Json) (log : Log)
    (outcome : Except GatewayError Json) : Prop where
  accepted_iff : (NodeCall method params ∨ ∃ e, BridgeCall method params e) ↔
    ¬ ∃ error, Refusal method params error
  passed : NodeCall method params → ∃ reply : Rpc.Reply,
    log = [⟨.node ⟨method, params, .number Rpc.fixedId, "2.0"⟩, reply⟩] ∧
    outcome = Rpc.result reply
  bridged : ∀ e, BridgeCall method params e → a.bridged = true →
    ∃ reply : Except GatewayError String,
      log = [⟨.bridge e, reply⟩] ∧ outcome = reply.map .string
  unbridged : ∀ e, BridgeCall method params e → a.bridged = false →
    log = [] ∧ outcome = .error .bridgeUnavailable
  refused : ∀ error, Refusal method params error → log = [] ∧ outcome = .error error

theorem routed_of_ends {a : Adapter} {method : String} {params : List Json} {log : Log}
    {outcome : Except GatewayError Json}
    (h : Dialogue.Ends (a.dispatch method params).run log outcome) :
    Routed a method params log outcome where
  accepted_iff := accepted_iff method params
  passed hnode := by
    rw [dispatch_of_nodeCall hnode] at h
    exact ends_onNode h
  bridged e hbridge hbridged := by
    rw [dispatch_of_bridgeCall hbridge] at h
    exact ends_crossSend_bridged hbridged h
  unbridged e hbridge hbridged := by
    rw [dispatch_of_bridgeCall hbridge] at h
    exact ends_crossSend_unbridged hbridged h
  refused error hrefusal := by
    rw [dispatch_of_refusal hrefusal] at h
    exact ends_throw h

structure Step where
  adapter : Adapter
  method : String
  params : List Json

def dispatchAll (steps : List Step) :
    Dialogue Query Query.Reply (List (Except GatewayError Json)) :=
  Dialogue.inTurn (steps.map fun step => (step.adapter.dispatch step.method step.params).run)

/-- However the node and the bridge answer, each call is routed by itself, and nothing is asked
between the calls. -/
theorem dispatchAll_routed {σ : Type} (answer : (q : Query) → σ → q.Reply × σ)
    (steps : List Step) (s : σ) :
    ∃ turns : List (Dialogue.Turn Query Query.Reply (Except GatewayError Json)),
      (dispatchAll steps).transcript answer s = turns.flatMap Dialogue.Turn.log ∧
      ((dispatchAll steps).run answer s).1 = turns.map Dialogue.Turn.outcome ∧
      List.Forall₂
        (fun step turn => Routed step.adapter step.method step.params turn.log turn.outcome)
        steps turns := by
  obtain ⟨turns, hlog, houtcomes, hturns⟩ :=
    Dialogue.ends_inTurn (Dialogue.ends_run answer (dispatchAll steps) s)
  exact ⟨turns, hlog, houtcomes,
    (List.forall₂_map_left_iff.mp hturns).imp fun _ _ hends => routed_of_ends hends⟩

end Adapter

end ChainGateway
