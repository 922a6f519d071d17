import ChainGateway.Proofs.LooseEnvelope
import ChainGateway.Proofs.ReplyClassification

namespace ChainGateway.Rpc

open Wire

/-- The members `ms'` are `ms` with one set to a value, wherever it stands. A name that no field has
may come several times. -/
structure WithMember (k : String) (w : Json) (ms ms' : List (String × Json)) : Prop where
  own : k ∈ Response.fields.names → Json.valuesOf k ms' = [w]
  others : ∀ name, name ≠ k → Json.valuesOf name ms' = Json.valuesOf name ms

theorem withMember_insert {k : String} {w : Json} {before after : List (String × Json)}
    (h : k ∈ Response.fields.names → ∀ m ∈ before ++ after, m.1 ≠ k) :
    WithMember k w (before ++ after) (before ++ (k, w) :: after) where
  own hk := by
    have hnone := Json.valuesOf_eq_nil (h hk)
    rw [Json.valuesOf_append, List.append_eq_nil_iff] at hnone
    rw [Json.valuesOf_append, ← List.singleton_append, Json.valuesOf_append,
      Json.valuesOf_singleton, if_pos rfl, hnone.1, hnone.2]
    rfl
  others name hname := by
    rw [Json.valuesOf_append, Json.valuesOf_append, ← List.singleton_append, Json.valuesOf_append,
      Json.valuesOf_singleton, if_neg (Ne.symm hname), List.nil_append]

/-- The members beside result and error that keep an envelope readable. -/
inductive Harmless : String → Json → Prop where
  | id {w : Json} {id : RequestId} : IsId w id → Harmless "id" w
  | jsonrpc (t : String) : Harmless "jsonrpc" (.string t)
  | message {w : Json} {o : Option String} : OrNull IsText w o → Harmless "message" w
  | unknown {k : String} (w : Json) : k ∉ Response.fields.names → Harmless k w

theorem harmless_id_iff {w : Json} :
    Harmless "id" w ↔ w = .null ∨ (∃ s, w = .string s) ∨ ∃ n < 2 ^ 64, w = .integer (n : Nat) := by
  constructor
  · intro h
    generalize hk : "id" = k at h
    cases h with
    | id hid =>
      cases hid with
      | number n => exact Or.inr (Or.inr ⟨n.toNat, n.toNat_lt, rfl⟩)
      | string s => exact Or.inr (Or.inl ⟨s, rfl⟩)
      | null => exact Or.inl rfl
    | jsonrpc t => exact absurd hk (by decide)
    | message hmessage => exact absurd hk (by decide)
    | unknown _ hunknown => exact absurd (hk ▸ (by decide : "id" ∈ Response.fields.names)) hunknown
  · rintro (rfl | ⟨s, rfl⟩ | ⟨n, hn, rfl⟩)
    · exact .id .null
    · exact .id (.string s)
    · exact .id (.number ⟨n, hn⟩)

section

variable {k : String} {w : Json} {ms ms' : List (String × Json)}

/-- An object is read as a reply if each field holds what the members of its name stand for. -/
structure Read (ms : List (String × Json)) (r : Response) : Prop where
  id : Held .defaulted IsId .null (Json.valuesOf "id" ms) r.id
  jsonrpc : Held .defaulted IsText "" (Json.valuesOf "jsonrpc" ms) r.jsonrpc
  message : Held .omittable (OrNull IsText) none (Json.valuesOf "message" ms) r.message
  result : Held .omittable (OrNull IsValue) none (Json.valuesOf "result" ms) r.result
  error : Held .omittable (OrNull (NodeError.fields.Recorded NodeError.rules)) none
    (Json.valuesOf "error" ms) (r.error.map OnWire.pack)

theorem recorded_object_iff {r : Response} :
    Response.fields.Recorded Response.rules (.object ms) (OnWire.pack r) ↔
      Read ms r := by
  constructor
  · rintro ⟨hid, hjsonrpc, hmessage, hresult, herror, -⟩
    exact ⟨hid, hjsonrpc, hmessage, hresult, herror⟩
  · rintro ⟨hid, hjsonrpc, hmessage, hresult, herror⟩
    exact ⟨hid, hjsonrpc, hmessage, hresult, herror, trivial⟩

theorem ofBytes_eq_ok_iff_read {text : List UInt8} (hd : Json.document text = .ok (.object ms))
    {r : Response} : OnWire.ofBytes text = .ok r ↔ Read ms r := by
  rw [ofBytes_eq_ok_iff_recorded hd, recorded_object_iff]

theorem ofJson_eq_ok_iff_read {r : Response} :
    OnWire.ofJson (.object ms) = .ok r ↔ Read ms r := by
  have hrecorded : (OnWire.shape Response).ofJson (.object ms) = .ok (OnWire.pack r) ↔
      Response.fields.Recorded Response.rules (.object ms) (OnWire.pack r) :=
    readBy_record Response.obey_readBy Response.names_nodup (.object ms) (OnWire.pack r)
  rw [OnWire.ofJson_eq_ok_iff Response.unpack_pack pack_unpack, hrecorded, recorded_object_iff]

theorem exists_read_of_harmless (hset : WithMember k w ms ms') (hresult : k ≠ "result")
    (herror : k ≠ "error") (hw : Harmless k w) {r : Response} (h : Read ms r) :
    ∃ r', Read ms' r' ∧ r'.result = r.result ∧ r'.error = r.error := by
  have hothers {name : String} (hname : name ≠ k) {α : Type} {presence : Presence}
      {rule : Json → α → Prop} {empty a : α}
      (ha : Held presence rule empty (Json.valuesOf name ms) a) :
      Held presence rule empty (Json.valuesOf name ms') a := hset.others name hname ▸ ha
  have hresult' := hothers hresult.symm h.result
  have herror' := hothers herror.symm h.error
  cases hw with
  | @id _ id hid =>
    have hown := hset.own (by decide)
    exact ⟨{ r with id := id }, ⟨hown ▸ .present hid, hothers (by decide) h.jsonrpc,
      hothers (by decide) h.message, hresult', herror'⟩, rfl, rfl⟩
  | jsonrpc t =>
    have hown := hset.own (by decide)
    exact ⟨{ r with jsonrpc := t }, ⟨hothers (by decide) h.id, hown ▸ .present rfl,
      hothers (by decide) h.message, hresult', herror'⟩, rfl, rfl⟩
  | @message _ o hmessage =>
    have hown := hset.own (by decide)
    exact ⟨{ r with message := o }, ⟨hothers (by decide) h.id, hothers (by decide) h.jsonrpc,
      hown ▸ .present hmessage, hresult', herror'⟩, rfl, rfl⟩
  | unknown _ hk =>
    have hne {name : String} (hname : name ∈ Response.fields.names) : name ≠ k :=
      fun heq => hk (heq ▸ hname)
    exact ⟨r, ⟨hothers (hne (by decide)) h.id, hothers (hne (by decide)) h.jsonrpc,
      hothers (hne (by decide)) h.message, hresult', herror'⟩, rfl, rfl⟩

theorem harmless_of_read (hset : WithMember k w ms ms') (hresult : k ≠ "result")
    (herror : k ≠ "error") {r' : Response} (h : Read ms' r') : Harmless k w := by
  by_cases hk : k ∈ Response.fields.names
  · have hown := hset.own hk
    obtain rfl | rfl | rfl : k = "id" ∨ k = "jsonrpc" ∨ k = "message" := by
      simpa [Response.fields, Fields.names, hresult, herror] using hk
    · have hid := h.id
      rw [hown, held_singleton_iff] at hid
      exact .id hid
    · have hjsonrpc := h.jsonrpc
      rw [hown, held_singleton_iff] at hjsonrpc
      exact hjsonrpc ▸ .jsonrpc r'.jsonrpc
    · have hmessage := h.message
      rw [hown, held_singleton_iff] at hmessage
      exact .message hmessage
  · exact .unknown w hk

theorem outcome_congr {r r' : Response} (hresult : r'.result = r.result)
    (herror : r'.error = r.error) : r'.outcome = r.outcome := by
  unfold Response.outcome Response.nodeError? Response.result?
  rw [hresult, herror]

/-- What setting a member makes of a reply, by how its object is read then. -/
structure Effect (k : String) (w : Json) (r : Response) (reading : Except Json.Fault Response) :
    Prop where
  read_iff : (∃ r', reading = .ok r') ↔ Harmless k w
  unmoved : ∀ r', reading = .ok r' → r'.outcome = r.outcome

theorem effect_of_read (hset : WithMember k w ms ms') (hresult : k ≠ "result")
    (herror : k ≠ "error") {r : Response} (h : Read ms r)
    {reading : Except Json.Fault Response}
    (hreading : ∀ r', reading = .ok r' ↔ Read ms' r') : Effect k w r reading := by
  have hread (hw : Harmless k w) : ∃ r', reading = .ok r' ∧ r'.outcome = r.outcome := by
    obtain ⟨r', hr', hsame, hsame'⟩ := exists_read_of_harmless hset hresult herror hw h
    exact ⟨r', (hreading r').mpr hr', outcome_congr hsame hsame'⟩
  have hharmless {r' : Response} (hr' : reading = .ok r') : Harmless k w :=
    harmless_of_read hset hresult herror ((hreading r').mp hr')
  refine ⟨⟨fun ⟨_, hr'⟩ => hharmless hr', fun hw => ?_⟩, fun r' hr' => ?_⟩
  · obtain ⟨r', hr', -⟩ := hread hw
    exact ⟨r', hr'⟩
  · obtain ⟨r'', hr'', hsame⟩ := hread (hharmless hr')
    rw [Except.ok.inj (hr'.symm.trans hr''), hsame]

end

/-- How a call of a method ends whose reply has a status and a body. -/
def answeredBy (status : Nat) (body : List UInt8) (method : String) (params : List Json) :
    Except GatewayError Json :=
  (invoke method params).outcome fun _ => Http.replyOfBody status body

theorem answeredBy_eq_settled (status : Nat) (body : List UInt8) (method : String)
    (params : List Json) : answeredBy status body method params = Http.settled status body :=
  Exchange.outcome_request _ fixedId method params

theorem exists_settled_of_error {text : List UInt8} {fault : Json.Fault}
    (h : OnWire.ofBytes (α := Response) text = .error fault) (status : Nat) :
    ∃ m, Http.settled status text = .error (.transport m) := by
  by_cases hstatus : 200 ≤ status ∧ status ≤ 299
  · exact ⟨_, Http.settled_of_malformed h hstatus.1 hstatus.2⟩
  · exact ⟨_, Http.settled_of_failed h hstatus⟩

/-- A member beside result and error never decides an outcome: an object in which it is set is a
reply with the outcome from before exactly if the value is one that the member may have, whether it
is read from a value or from a text; a text with any other value makes each call fail that gets
it. -/
theorem effect_of_withMember {k : String} {w : Json} {ms ms' : List (String × Json)}
    (hset : WithMember k w ms ms') (hresult : k ≠ "result") (herror : k ≠ "error") :
    (∀ r : Response, OnWire.ofJson (.object ms) = .ok r →
      Effect k w r (OnWire.ofJson (.object ms'))) ∧
    ∀ (text text' : List UInt8) (r : Response), Json.document text = .ok (.object ms) →
      Json.document text' = .ok (.object ms') → OnWire.ofBytes text = .ok r →
      Effect k w r (OnWire.ofBytes text') ∧
      ∀ (status : Nat) (method : String) (params : List Json),
        (Harmless k w →
          answeredBy status text' method params = answeredBy status text method params) ∧
        (¬ Harmless k w →
          ∃ m, answeredBy status text' method params = .error (.transport m)) := by
  refine ⟨fun r hr => ?_, fun text text' r hd hd' hr => ?_⟩
  · exact effect_of_read hset hresult herror (ofJson_eq_ok_iff_read.mp hr)
      fun r' => ofJson_eq_ok_iff_read
  · have heffect : Effect k w r (OnWire.ofBytes text') :=
      effect_of_read hset hresult herror ((ofBytes_eq_ok_iff_read hd).mp hr)
        fun r' => ofBytes_eq_ok_iff_read hd'
    refine ⟨heffect, fun status method params => ?_⟩
    rw [answeredBy_eq_settled, answeredBy_eq_settled]
    constructor
    · intro hw
      obtain ⟨r', hr'⟩ := heffect.read_iff.mpr hw
      rw [Http.settled_of_decoded hr', Http.settled_of_decoded hr, heffect.unmoved r' hr']
    · intro hw
      cases hr' : OnWire.ofBytes (α := Response) text' with
      | ok r' => exact absurd (heffect.read_iff.mp ⟨r', hr'⟩) hw
      | error fault => exact exists_settled_of_error hr' status

def resultText : List UInt8 :=
  [34, 114, 101, 115, 117, 108, 116, 34, 58, 34, 49, 48, 48, 48, 34, 125]

def bareText : List UInt8 := 123 :: resultText

def identifiedText (id : List UInt8) : List UInt8 :=
  [123, 34, 105, 100, 34, 58] ++ id ++ 44 :: resultText

def bareMembers : List (String × Json) := [("result", .string "1000")]

def bareReply : Response := ⟨.null, "", none, some (.string "1000"), none⟩

theorem withMember_bareMembers (w : Json) :
    WithMember "id" w bareMembers (("id", w) :: bareMembers) := by
  have hnone : ∀ m ∈ [] ++ bareMembers, m.1 ≠ "id" := by decide
  exact withMember_insert fun _ => hnone

theorem effect_of_withMember_seven :
    WithMember "id" (.integer 7) bareMembers (("id", .integer 7) :: bareMembers) ∧
      OnWire.ofBytes bareText = .ok bareReply ∧
      Effect "id" (.integer 7) bareReply (OnWire.ofBytes (identifiedText [55])) ∧
      answeredBy 200 (identifiedText [55]) "m" [] = answeredBy 200 bareText "m" [] := by
  have hset := withMember_bareMembers (.integer 7)
  have hd : Json.document bareText = .ok (.object bareMembers) := rfl
  have hd' : Json.document (identifiedText [55]) =
      .ok (.object (("id", .integer 7) :: bareMembers)) := rfl
  have hr : OnWire.ofBytes bareText = .ok bareReply := rfl
  obtain ⟨heffect, hcalls⟩ := (effect_of_withMember hset (by decide) (by decide)).2
    bareText (identifiedText [55]) bareReply hd hd' hr
  have hharmless : Harmless "id" (.integer 7) :=
    harmless_id_iff.mpr (Or.inr (Or.inr ⟨7, by decide, rfl⟩))
  exact ⟨hset, hr, heffect, (hcalls 200 "m" []).1 hharmless⟩

/-- A negative number as the identifier turns a result into a failure. -/
theorem negative_id_refused :
    WithMember "id" (.integer (-1)) bareMembers (("id", .integer (-1)) :: bareMembers) ∧
      Json.document bareText = .ok (.object bareMembers) ∧
      Json.document (identifiedText [45, 49]) =
        .ok (.object (("id", .integer (-1)) :: bareMembers)) ∧
      answeredBy 200 bareText "m" [] = .ok (.string "1000") ∧
      answeredBy 200 (identifiedText [45, 49]) "m" [] =
        .error (.transport ("malformed response body: data did not match any variant of " ++
          "untagged enum RpcId at line 1 column 8")) :=
  ⟨withMember_bareMembers _, rfl, rfl, rfl, rfl⟩

end ChainGateway.Rpc
