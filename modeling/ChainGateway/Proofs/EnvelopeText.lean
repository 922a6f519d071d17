import ChainGateway.Proofs.RecordText
import ChainGateway.Proofs.ReplyClassification

namespace ChainGateway

open Json (Exact Integral)
open Wire (Fields Shape)

namespace Rpc

theorem Request.readAs {r : Request} (h : ∀ v ∈ r.params, Integral v) {params : List Json}
    (hparams : List.Forall₂ (fun v w => v.reread Json.ofBytes = .ok w) r.params params) :
    (OnWire.shape Request).ReadAs (OnWire.pack r) (OnWire.pack { r with params := params }) := by
  refine Wire.readAs_record ?_ (by decide)
  refine .written (fun h => nomatch h.1) (Wire.readAs_text r.method) ?_
  refine .written (fun h => nomatch h.1) (Wire.readAs_list_value h hparams) ?_
  refine .written (fun h => nomatch h.1) (Wire.readAs_requestId r.id) ?_
  exact .written (fun h => nomatch h.1) (Wire.readAs_text r.jsonrpc) .nil

def NodeError.settled (e : NodeError) : NodeError :=
  ⟨e.code, e.message, e.data.filter (! ·.isNull)⟩

/-- The reply with a null result, and null data of its error, left out. -/
def Response.settled (r : Response) : Response :=
  ⟨r.id, r.jsonrpc, r.message, r.result?, r.error.map NodeError.settled⟩

theorem NodeError.readAs {e : NodeError} (h : ∀ v ∈ e.data, Exact v) :
    (OnWire.shape NodeError).ReadAs (OnWire.pack e) (OnWire.pack e.settled) := by
  refine Wire.readAs_record ?_ (by decide)
  refine .written (fun h => nomatch h.1) (Wire.readAs_signed e.code) ?_
  refine .written (fun h => nomatch h.1) (Wire.readAs_text e.message) ?_
  refine Fields.readAs_optional ?_ ?_ .nil
  · intro hnone
    exact congrArg (Option.filter _) hnone
  · intro v hv
    exact Wire.readAs_nullable_value (h v hv) (congrArg (Option.filter _) hv)

theorem Response.readAs {r : Response} (hresult : ∀ v ∈ r.result, Exact v)
    (hdata : ∀ e ∈ r.error, ∀ v ∈ e.data, Exact v) :
    (OnWire.shape Response).ReadAs (OnWire.pack r) (OnWire.pack r.settled) := by
  refine Wire.readAs_record ?_ (by decide)
  refine .written (fun h => nomatch h.1) (Wire.readAs_requestId r.id) ?_
  refine .written (fun h => nomatch h.1) (Wire.readAs_text r.jsonrpc) ?_
  refine Fields.readAs_optional ?_ ?_ (Fields.readAs_optional ?_ ?_
    (Fields.readAs_optional ?_ ?_ .nil))
  · exact fun hnone => hnone
  · intro message hmessage
    have hsettled : r.settled.message = some message := hmessage
    rw [hsettled]
    exact Wire.readAs_nullable_some (Wire.readAs_text message) ⟨34, _, rfl, rfl, by decide⟩
  · intro hnone
    exact congrArg (Option.filter _) hnone
  · intro v hv
    exact Wire.readAs_nullable_value (hresult v hv) (congrArg (Option.filter _) hv)
  · intro hnone
    have herror : r.error = none := Option.map_eq_none_iff.mp hnone
    have hsettled : r.settled.error = none := congrArg (Option.map _) herror
    rw [hsettled]
    rfl
  · intro x hx
    obtain ⟨e, he, rfl⟩ := Option.map_eq_some_iff.mp hx
    have hsettled : r.settled.error = some e.settled := congrArg (Option.map _) he
    rw [hsettled]
    exact Wire.readAs_nullable_some (NodeError.readAs (hdata e he)) ⟨123, _, rfl, rfl, by decide⟩

theorem Response.unpack_pack (r : Response) : OnWire.unpack (OnWire.pack r) = r := by
  obtain ⟨id, jsonrpc, message, result, error⟩ := r
  cases error <;> rfl

def settledError : GatewayError → GatewayError
  | .rpc e => .rpc e.settled
  | e => e

theorem Response.nodeError?_settled (r : Response) :
    r.settled.nodeError? = r.nodeError?.map NodeError.settled := by
  unfold nodeError? settled
  cases r.error with
  | none => rfl
  | some e =>
    simp only [Option.map_some, Option.filter_some, NodeError.settled]
    split <;> rfl

theorem Response.result?_settled (r : Response) : r.settled.result? = r.result? := by
  have hsettled : r.settled.result = r.result? := rfl
  rw [result?, hsettled, result?, Option.filter_filter]
  simp only [Bool.and_self]

/-- Leaving nulls out makes no difference to what a reply comes to. -/
theorem Response.outcome_settled (r : Response) :
    r.settled.outcome = r.outcome.mapError settledError := by
  unfold outcome
  rw [nodeError?_settled, result?_settled]
  cases r.nodeError? with
  | some e => rfl
  | none => cases r.result? <;> rfl

structure Request.Portable (r : Request) : Prop where
  params : ∀ v ∈ r.params, Exact v
  nesting : (OnWire.toJson r).nesting ≤ 127

structure Response.Portable (r : Response) : Prop where
  result : ∀ v ∈ r.result, Exact v
  data : ∀ e ∈ r.error, ∀ v ∈ e.data, Exact v
  nesting : (OnWire.toJson r).nesting ≤ 127

theorem Request.ofBytes_text {r : Request} (h : r.Portable) :
    OnWire.ofBytes (Text.utf8 (OnWire.text r)) = .ok r :=
  OnWire.ofBytes_text (Request.readAs (fun v hv => .of_exact (h.params v hv))
    (Wire.forall₂_reread_of_exact h.params)) h.nesting

theorem Response.ofBytes_text {r : Response} (h : r.Portable) :
    OnWire.ofBytes (Text.utf8 (OnWire.text r)) = .ok r.settled := by
  rw [OnWire.ofBytes_text (Response.readAs h.result h.data) h.nesting, Response.unpack_pack]

theorem nesting_requestId (id : RequestId) : (Shape.requestId.toJson id).nesting = 0 := by
  cases id <;> rfl

theorem Request.Portable.withId {r : Request} (h : r.Portable) (id : RequestId) :
    Portable { r with id := id } where
  params := h.params
  nesting := by
    have hnesting (id : RequestId) : (OnWire.toJson { r with id := id }).nesting =
        max 0 (max ((Shape.list .value).toJson r.params).nesting
          (max (Shape.requestId.toJson id).nesting (max 0 0))) + 1 := rfl
    have hr : (OnWire.toJson { r with id := r.id }).nesting ≤ 127 := h.nesting
    rw [hnesting, nesting_requestId] at hr ⊢
    exact hr

theorem Response.Portable.withId {r : Response} (h : r.Portable) (id : RequestId) :
    Portable { r with id := id } where
  result := h.result
  data := h.data
  nesting := by
    have hsame : (OnWire.toJson { r with id := id }).nesting = (OnWire.toJson r).nesting :=
      Wire.nesting_record_congr ((nesting_requestId id).trans (nesting_requestId r.id).symm) _
    exact hsame ▸ h.nesting

/-- Envelopes survive their text, and so does what a reply comes to; identifiers of different forms
or contents are told apart. -/
theorem envelopes_survive :
    (∀ r : Request, r.Portable → OnWire.ofBytes (Text.utf8 (OnWire.text r)) = .ok r) ∧
    (∀ r : Response, r.Portable →
      OnWire.ofBytes (Text.utf8 (OnWire.text r)) = .ok r.settled ∧
      r.settled.outcome = r.outcome.mapError settledError) ∧
    (∀ r : Request, r.Portable → ∀ id, id ≠ r.id →
      OnWire.text { r with id := id } ≠ OnWire.text r) ∧
    ∀ r : Response, r.Portable → ∀ id, id ≠ r.id →
      OnWire.text { r with id := id } ≠ OnWire.text r := by
  refine ⟨fun r h => Request.ofBytes_text h,
    fun r h => ⟨Response.ofBytes_text h, r.outcome_settled⟩,
    fun r h id hid htext => ?_, fun r h id hid htext => ?_⟩
  · have hread := Request.ofBytes_text (h.withId id)
    rw [htext, Request.ofBytes_text h] at hread
    exact hid (congrArg Request.id (Except.ok.inj hread)).symm
  · have hread := Response.ofBytes_text (h.withId id)
    rw [htext, Response.ofBytes_text h] at hread
    exact hid (congrArg Response.id (Except.ok.inj hread)).symm

def awkwardRequest : Request where
  method := "quote \" backslash \\ line \n unit \u001f accent é smile 😀"
  params := [.integer (-0x8000000000000000), .integer 0xFFFFFFFFFFFFFFFF,
    .array [.object [("", .null), ("\t", .bool true)], .array []]]
  id := .string "null"
  jsonrpc := version

def awkwardResponse : Response where
  id := .number ⟨1, Nat.one_lt_two_pow (by decide)⟩
  jsonrpc := ""
  message := some "\r"
  result := some .null
  error := some ⟨⟨-0x8000000000000000, by decide, by decide⟩, "\u0008", some .null⟩

theorem portable_awkwardRequest : awkwardRequest.Portable where
  params v hv := by
    simp only [awkwardRequest, List.mem_cons, List.not_mem_nil, or_false] at hv
    obtain rfl | rfl | rfl := hv
    · exact .integer (by decide)
    · exact .integer (by decide)
    · refine .array fun w hw => ?_
      simp only [List.mem_cons, List.not_mem_nil, or_false] at hw
      obtain rfl | rfl := hw
      · refine .object ?_ (by decide) fun m hm => ?_
        · exact List.pairwise_pair.mpr (by decide)
        · simp only [List.mem_cons, List.not_mem_nil, or_false] at hm
          obtain rfl | rfl := hm
          · exact .null
          · exact .bool true
      · exact .array nofun
  nesting := by decide

theorem portable_awkwardResponse : awkwardResponse.Portable where
  result v hv := by
    cases hv
    exact .null
  data e he v hv := by
    cases he
    cases hv
    exact .null
  nesting := by decide

theorem envelopes_survive_awkward :
    awkwardRequest.Portable ∧ awkwardResponse.Portable ∧
    OnWire.ofBytes (Text.utf8 (OnWire.text awkwardRequest)) = .ok awkwardRequest ∧
    OnWire.ofBytes (Text.utf8 (OnWire.text awkwardResponse)) = .ok awkwardResponse.settled ∧
    OnWire.text { awkwardRequest with id := .null } ≠ OnWire.text awkwardRequest :=
  ⟨portable_awkwardRequest, portable_awkwardResponse,
    envelopes_survive.1 awkwardRequest portable_awkwardRequest,
    (envelopes_survive.2.1 awkwardResponse portable_awkwardResponse).1,
    envelopes_survive.2.2.1 awkwardRequest portable_awkwardRequest .null (by decide)⟩

def embeddingRequest : Request where
  method := "m"
  params := [.object [(Json.embeddingName, .string "1")]]
  id := .number ⟨1, Nat.one_lt_two_pow (by decide)⟩
  jsonrpc := version

/-- A parameter that begins as an embedding does is not read back as it was. -/
theorem embeddingRequest_unwrapped :
    OnWire.ofBytes (Text.utf8 (OnWire.text embeddingRequest)) =
      .ok { embeddingRequest with params := [.integer 1] } := by
  have hone : (Json.object [(Json.embeddingName, .string "1")]).reread Json.ofBytes =
      .ok (.integer 1) := Json.reread_embedding (v := .integer 1) (.integer rfl) (Nat.zero_le _)
  have hparams : List.Forall₂ (fun v w => v.reread Json.ofBytes = .ok w) embeddingRequest.params
      [.integer 1] := .cons hone .nil
  have hintegral : ∀ v ∈ embeddingRequest.params, Integral v :=
    List.forall_mem_singleton.mpr (.object (List.forall_mem_singleton.mpr (.string "1")))
  exact OnWire.ofBytes_text (Request.readAs hintegral hparams) (by decide)

end Rpc

end ChainGateway
