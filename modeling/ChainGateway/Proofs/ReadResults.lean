import ChainGateway.Proofs.LooseEnvelope
import ChainGateway.Proofs.Routing
import ChainGateway.Wiring

namespace ChainGateway

namespace Wire

open Json.Reader

/-- What is read with room for so many brackets, or is empty. -/
def Shape.Arises (depth : Nat) (s : Shape) (x : s.Carrier) : Prop :=
  (∃ c c', s.read depth c = .ok x c') ∨ x = s.empty

def Fields.Arise (depth : Nat) : (fields : Fields) → fields.Carrier → Prop
  | .nil, _ => True
  | .cons _ _ shape rest, (x, y) => shape.Arises depth x ∧ rest.Arise depth y

def Fields.SlotsArise (depth : Nat) : (fields : Fields) → fields.Slots → Prop
  | .nil, _ => True
  | .cons _ _ shape rest, (slot, slots) =>
    (∀ x, slot = some x → shape.Arises depth x) ∧ rest.SlotsArise depth slots

section

variable {depth : Nat}

theorem slotsArise_noSlots : (fields : Fields) → fields.SlotsArise depth fields.noSlots
  | .nil => trivial
  | .cons _ _ _ rest => ⟨nofun, slotsArise_noSlots rest⟩

theorem slotsArise_of_readMember : {fields : Fields} → {key : String} → {a b : fields.Slots} →
    {c c' : Json.Cursor} → fields.SlotsArise depth a → fields.readMember depth key a c = .ok b c' →
    fields.SlotsArise depth b
  | .nil, _, _, _, _, _, _, _ => trivial
  | .cons name presence shape rest, key, (slot, slots), (slot', slots'), c, c',
      ⟨hslot, hslots⟩, h => by
    -- a member goes to the first field of its name, and on to the others if it is not this one
    by_cases hkey : key = name
    · cases slot with
      | some z =>
        have htwice : (Fields.cons name presence shape rest).readMember depth key (some z, slots) =
            fail (.duplicateField name) := if_pos hkey
        rw [htwice] at h
        exact absurd h fail_ne_ok
      | none =>
        have hown : (Fields.cons name presence shape rest).readMember depth key (none, slots) = (do
            colon
            let x ← shape.read depth
            return (some x, slots) : Json.Reader (Option shape.Carrier × rest.Slots)) :=
          if_pos hkey
        rw [hown] at h
        obtain ⟨_, c₁, -, h⟩ := bind_eq_ok_iff.mp h
        obtain ⟨x, hx, hmade⟩ := bind_pure_eq_ok_iff.mp h
        obtain ⟨rfl, rfl⟩ := Prod.mk.inj hmade
        exact ⟨fun y hy => .inl ⟨c₁, c', Option.some.inj hy ▸ hx⟩, hslots⟩
    · have hother : (Fields.cons name presence shape rest).readMember depth key (slot, slots) = (do
          let slots ← rest.readMember depth key slots
          return (slot, slots) : Json.Reader (Option shape.Carrier × rest.Slots)) := if_neg hkey
      rw [hother] at h
      obtain ⟨slots₁, hrest, hmade⟩ := bind_pure_eq_ok_iff.mp h
      obtain ⟨rfl, rfl⟩ := Prod.mk.inj hmade
      exact ⟨hslot, slotsArise_of_readMember hslots hrest⟩

theorem arise_of_ofSlots : {fields : Fields} → {slots : fields.Slots} → {x : fields.Carrier} →
    fields.SlotsArise depth slots → fields.ofSlots slots = .ok x → fields.Arise depth x
  | .nil, _, _, _, _ => trivial
  | .cons name presence shape rest, (slot, slots), (x, y), ⟨hslot, hslots⟩, h => by
    obtain ⟨hx, hy⟩ := ofSlots_cons_eq_ok_iff.mp h
    refine ⟨?_, arise_of_ofSlots hslots hy⟩
    obtain hx | ⟨-, -, hx⟩ := hx
    · exact hslot x hx
    · exact .inr hx.symm

theorem slotsArise_of_members {fields : Fields} {fuel : Nat} {first : Bool} {a b : fields.Slots}
    {c c' : Json.Cursor} (ha : fields.SlotsArise depth a)
    (h : members.go (named (fields.readMember depth)) fuel first a c = .ok b c') :
    fields.SlotsArise depth b := by
  induction fuel generalizing first a c with
  | zero =>
    obtain ⟨rfl, -⟩ := EStateM.Result.ok.inj h
    exact ha
  | succ fuel ih =>
    obtain ⟨more, c₁, -, h⟩ := bind_eq_ok_iff.mp h
    cases more with
    | false =>
      obtain ⟨rfl, -⟩ := EStateM.Result.ok.inj h
      exact ha
    | true =>
      obtain ⟨slots, c₂, hmember, h⟩ := bind_eq_ok_iff.mp h
      obtain ⟨key, c₃, -, hmember⟩ := bind_eq_ok_iff.mp hmember
      exact ih (slotsArise_of_readMember ha hmember) h

theorem arise_of_readItems (owner : String) (total : Nat) : {fields : Fields} → {index : Nat} →
    {x : fields.Carrier} → {c c' : Json.Cursor} →
    fields.readItems owner total depth index c = .ok x c' → fields.Arise depth x
  | .nil, _, _, _, _, _ => trivial
  | .cons name presence shape rest, index, (x, y), c, c', h => by
    obtain ⟨more, c₁, hmore, -⟩ := bind_eq_ok_iff.mp (by rw [Fields.readItems] at h; exact h)
    cases more with
    | true =>
      obtain ⟨c₂, hx, hy⟩ := (readItems_given hmore).mp h
      exact ⟨.inl ⟨c₁, c₂, hx⟩, arise_of_readItems owner total hy⟩
    | false =>
      obtain ⟨⟨-, hx⟩, hy⟩ := (readItems_absent hmore).mp h
      exact ⟨.inr hx.symm, arise_of_readItems owner total hy⟩

theorem arise_of_record {name : String} {fields : Fields} {x : (Shape.record name fields).Carrier}
    {c c' : Json.Cursor} (h : (Shape.record name fields).read depth c = .ok x c') :
    ∃ inside, depth = inside + 1 ∧ fields.Arise inside x := by
  rw [Shape.read, placed_eq_ok_iff, peekToken?_bind] at h
  cases hhead : c.token.rest.head? with
  | none => simp [hhead] at h
  | some b =>
    simp only [hhead] at h
    split_ifs at h with hlist hobject
    · cases depth with
      | zero => exact absurd h failAhead_ne_ok
      | succ depth =>
        simp only [deeper, advance_bind] at h
        obtain ⟨c₁, hitems, -⟩ := enclosed_eq_ok_iff.mp h
        exact ⟨depth, rfl, arise_of_readItems name fields.length hitems⟩
    · cases depth with
      | zero => exact absurd h failAhead_ne_ok
      | succ depth =>
        simp only [deeper, advance_bind] at h
        obtain ⟨c₁, hmembers, -⟩ := enclosed_eq_ok_iff.mp h
        obtain ⟨slots, c₂, hslots, hx⟩ := bind_eq_ok_iff.mp hmembers
        obtain ⟨fuel, c₃, -, hgo⟩ := bind_eq_ok_iff.mp hslots
        exact ⟨depth, rfl, arise_of_ofSlots
          (slotsArise_of_members (slotsArise_noSlots fields) hgo) (lift_eq_ok_iff.mp hx).1⟩
    · exact absurd h misfit_ne_ok

theorem sorted_of_arises {o : Option Json} {v : Json} (h : (Shape.nullable .value).Arises depth o)
    (hv : o = some v) : v.sorted = v := by
  subst hv
  obtain ⟨c, c', h⟩ | h := h
  · have hread : (do
        if (← peekToken?) = some 110 then
          advance
          keyword [117, 108, 108]
          return none
        else
          let x ← value Json.ofBytes depth
          return some x : Json.Reader (Option Json)) c = .ok (some v) c' := by
      rw [Shape.read, Shape.read] at h
      exact h
    rw [peekToken?_bind] at hread
    by_cases hnull : c.token.rest.head? = some 110
    · rw [if_pos hnull] at hread
      obtain ⟨_, c₁, -, hread⟩ := bind_eq_ok_iff.mp hread
      obtain ⟨_, c₂, -, hread⟩ := bind_eq_ok_iff.mp hread
      cases hread
    · rw [if_neg hnull] at hread
      obtain ⟨w, hw, hsome⟩ := bind_pure_eq_ok_iff.mp hread
      obtain ⟨d, -, hreread⟩ := value_eq_ok_iff.mp hw
      obtain rfl := Option.some.inj hsome
      exact Json.sorted_of_reread (fun _ _ => Json.sorted_of_ofBytes) hreread
  · cases h

end

end Wire

namespace Rpc

theorem sorted_of_response {body : List UInt8} {r : Response} (h : OnWire.ofBytes body = .ok r)
    {v : Json} (hv : r.result = some v) : v.sorted = v := by
  obtain ⟨x, hx, rfl⟩ := Outcome.map_eq_ok h
  obtain ⟨c, hread, -⟩ := Json.Reader.all_eq_ok_iff.mp hx
  obtain ⟨inside, -, hfields⟩ := Wire.arise_of_record hread
  exact Wire.sorted_of_arises hfields.2.2.2.1 hv

/-- The result of a reply stands inside one bracket of its text, if nothing is embedded there. -/
theorem nesting_of_response {body : List UInt8} {d : Json} (hd : Json.document body = .ok d)
    (hplain : d.Plain) {r : Response} (h : OnWire.ofBytes body = .ok r) {v : Json}
    (hv : r.result = some v) : v.nesting ≤ 126 := by
  obtain ⟨w, hw, hvalue⟩ := exists_given_of_result hd h hv
  obtain rfl := (isValue_iff_of_plain (hplain.of_holds hw)).mp hvalue
  have hdepth : d.nesting ≤ 127 := Json.nesting_of_document hd
  have hinside := hw.nesting_lt
  have hsorted := Json.nesting_sorted_le w
  omega

theorem result_of_outcome {r : Response} {v : Json} (h : r.outcome = .ok v) :
    r.result = some v := by
  unfold Response.outcome at h
  split at h
  · cases h
  · rename_i hv
    rw [← Except.ok.inj h]
    exact (Option.filter_eq_some_iff.mp hv).1
  · cases h

end Rpc

namespace Http

def Delivery.Plain (d : Delivery) : Prop :=
  ∀ status body, Client.whole? d = some (status, body) →
    ∃ document, Json.document body = .ok document ∧ document.Plain

/-- A result with its members in order. It stands inside one bracket of a reply, if nothing is
embedded in the replies. -/
structure Returned (log : List ((_ : Post) × Delivery)) (v : Json) : Prop where
  sorted_eq : v.sorted = v
  nesting_le : (∀ x ∈ log, x.2.Plain) → v.nesting ≤ 126

theorem returned_string (log : List ((_ : Post) × Delivery)) (s : String) :
    Returned log (.string s) :=
  ⟨by simp only [Json.sorted], fun _ => Nat.zero_le _⟩

theorem exists_whole_of_reply {origin : Url} {d : Delivery} {r : Rpc.Response}
    (h : d.reply origin = .ok r) :
    ∃ status body, Client.whole? d = some (status, body) ∧ OnWire.ofBytes body = .ok r := by
  have hbody {status : Nat} {body : List UInt8} (h : replyOfBody status body = .ok r) :
      OnWire.ofBytes body = .ok r := by
    unfold replyOfBody at h
    cases hread : OnWire.ofBytes (α := Rpc.Response) body with
    | ok response =>
      rw [hread] at h
      rw [Except.ok.inj h]
    | error fault =>
      rw [hread] at h
      split_ifs at h
  cases d with
  | unanswered => cases h
  | cutShort => cases h
  | received status body => exact ⟨status, body, rfl, hbody h⟩
  | moved status location body =>
    cases body with
    | none => cases h
    | some body => exact ⟨status, body, rfl, hbody h⟩

theorem returned_of_followed {origin : Url} {hops : Nat} {p : Post}
    {log : List ((_ : Post) × Delivery)} {reply : Rpc.Reply}
    (h : Client.Followed origin hops p log reply) {v : Json} (hv : Rpc.result reply = .ok v) :
    Returned log v := by
  induction h with
  | arrived =>
    obtain ⟨r, hr, houtcome⟩ := Outcome.bind_eq_ok hv
    have hresult := Rpc.result_of_outcome houtcome
    obtain ⟨status, body, hwhole, hbody⟩ := exists_whole_of_reply hr
    refine ⟨Rpc.sorted_of_response hbody hresult, fun hplain => ?_⟩
    obtain ⟨d, hd, hd'⟩ := hplain _ List.mem_cons_self status body hwhole
    exact Rpc.nesting_of_response hd hd' hbody hresult
  | exhausted => cases hv
  | unpostable => cases hv
  | onward _ _ ih =>
    obtain ⟨hsorted, hnesting⟩ := ih hv
    exact ⟨hsorted, fun hplain => hnesting fun x hx => hplain x (List.mem_cons_of_mem _ hx)⟩

theorem returned_of_send {c : Client} {q : Rpc.Request}
    {log : List ((_ : Post) × Delivery)} {reply : Rpc.Reply}
    (h : Dialogue.Ends (c.send q) log reply) {v : Json} (hv : Rpc.result reply = .ok v) :
    Returned log v := by
  unfold Client.send at h
  cases hurl : Url.ofText? c.url with
  | none =>
    simp only [hurl] at h
    obtain ⟨-, rfl⟩ := Dialogue.ends_done h
    cases hv
  | some url =>
    simp only [hurl] at h
    split_ifs at h with hpost
    · exact returned_of_followed (Client.followed_of_ends h) hv
    · obtain ⟨-, rfl⟩ := Dialogue.ends_done h
      cases hv

end Http

namespace Adapter

variable {a : Adapter} {bridge : Option Bridge.ContractBridge} {timeout : Nat} {method : String}
  {params : List Json} {log : List ((_ : Http.Post) × Http.Delivery)} {v : Json}

theorem returned_of_onNode
    (h : Dialogue.Ends (a.overHttp bridge timeout (onNode (Rpc.invoke method params))) log
      (.ok v)) : Http.Returned log v := by
  obtain ⟨inner, pieces, hinner, rfl, hpieces⟩ := Dialogue.ends_via h
  obtain ⟨reply, rfl, hresult⟩ := ends_onNode hinner
  cases hpieces with
  | cons hpiece hrest =>
    cases hrest
    rw [List.flatten_singleton]
    exact Http.returned_of_send hpiece hresult.symm

theorem returned_of_crossSend {e : Bridge.Export}
    (h : Dialogue.Ends (a.overHttp bridge timeout (a.crossSend e)) log (.ok v)) :
    Http.Returned log v := by
  obtain ⟨inner, pieces, hinner, -, -⟩ := Dialogue.ends_via h
  cases hbridged : a.bridged with
  | true =>
    obtain ⟨reply, -, hreply⟩ := ends_crossSend_bridged hbridged hinner
    obtain ⟨hash, -, rfl⟩ := Outcome.map_eq_ok hreply.symm
    exact Http.returned_string log hash
  | false =>
    obtain ⟨-, hnone⟩ := ends_crossSend_unbridged hbridged hinner
    cases hnone

theorem returned_of_dispatch
    (h : Dialogue.Ends (a.overHttp bridge timeout (a.dispatch method params)) log (.ok v)) :
    Http.Returned log v := by
  obtain hnode | ⟨e, hbridge⟩ | ⟨error, hrefusal⟩ := call_or_refusal method params
  · rw [dispatch_of_nodeCall hnode] at h
    exact returned_of_onNode h
  · rw [dispatch_of_bridgeCall hbridge] at h
    exact returned_of_crossSend h
  · rw [dispatch_of_refusal hrefusal] at h
    cases (Dialogue.ends_done h).2

end Adapter

end ChainGateway
