import ChainGateway.Proofs.LooseEnvelope

namespace ChainGateway

namespace Json

/-- The values all of whose integers are of those that are kept exact. -/
inductive Kept : Json → Prop where
  | null : Kept null
  | bool (b : Bool) : Kept (bool b)
  | integer {n : Int} : exactInteger n = true → Kept (integer n)
  | double (x : Decimal.Binary64) : Kept (double x)
  | string (s : String) : Kept (string s)
  | array {items : List Json} : (∀ v ∈ items, Kept v) → Kept (array items)
  | object {members : List (String × Json)} : (∀ m ∈ members, Kept m.2) → Kept (object members)

theorem kept_integer_iff {n : Int} : (integer n).Kept ↔ exactInteger n = true := by
  constructor
  · intro h
    cases h with
    | integer hn => exact hn
  · exact .integer

/-- Whatever is reread has such integers if documents and the values of embedded texts have. -/
theorem kept_of_reread {whole : List UInt8 → Except Fault Json}
    (hwhole : ∀ text v, whole text = .ok v → v.Kept) {d w : Json} (hd : d.Kept)
    (h : d.reread whole = .ok w) : w.Kept := by
  induction hd generalizing w with
  | array _ ih =>
    obtain ⟨ws, hall, rfl⟩ := reread_array_eq_ok_iff.mp h
    refine .array fun w hw => ?_
    obtain ⟨d, hd, hread⟩ := exists_of_forall₂_of_mem_right hall hw
    exact ih d hd hread
  | @object ms _ ih =>
    cases hembeds : embedding? ms with
    | some found =>
      obtain ⟨-, text, -, hvalue⟩ := (reread_embedding_eq_ok_iff hembeds).mp h
      exact hwhole _ _ hvalue
    | none =>
      obtain ⟨ns, hall, rfl⟩ := (reread_object_eq_ok_iff hembeds).mp h
      refine .object fun n hn => ?_
      obtain ⟨m, hm, -, hread⟩ :=
        exists_of_forall₂_of_mem_right hall (OrderedMap.mem_of_mem_ofList hn)
      exact ih m hm hread
  | integer hn =>
    simp only [reread, Except.ok.injEq] at h
    exact h ▸ .integer hn
  | null | bool b | double x | string s =>
    simp only [reread, Except.ok.injEq] at h
    exact h ▸ by constructor

theorem Kept.of_mem_valuesOf {ms : List (String × Json)} (h : (Json.object ms).Kept) {name : String}
    {v : Json} (hv : v ∈ valuesOf name ms) : v.Kept := by
  obtain ⟨m, hm, rfl⟩ := List.mem_map.mp hv
  cases h with
  | object hms => exact hms m (List.mem_filter.mp hm).1

theorem Kept.of_member? {d v : Json} (h : d.Kept) {name : String} (hv : d.member? name = some v) :
    v.Kept := by
  cases d with
  | object ms =>
    have hlookup : ms.lookup name = some v := hv
    rw [lookup_eq_head?] at hlookup
    exact h.of_mem_valuesOf (List.mem_of_mem_head? hlookup)
  | _ => cases hv

namespace Reader

theorem push_value_lt {s : Significand} (h : s.value < 0x10000000000000000) (d : Nat) :
    (s.push d).value < 0x10000000000000000 := by
  unfold Significand.push
  split_ifs with hfull
  · exact h
  · simp only [Bool.or_eq_true, decide_eq_true_eq, not_or] at hfull
    exact Nat.not_le.mp hfull.2

theorem foldl_push_value_lt {ds : List Nat} {s : Significand}
    (h : s.value < 0x10000000000000000) :
    (ds.foldl Significand.push s).value < 0x10000000000000000 := by
  induction ds generalizing s with
  | nil => exact h
  | cons d ds ih => exact ih (push_value_lt h d)

theorem kept_whole (negative : Bool) {n : Nat} (hn : n < 0x10000000000000000) :
    (whole negative n).Kept := by
  unfold whole
  split_ifs with _ hlarge
  · exact .double _
  · refine .integer ?_
    simp only [exactInteger, Bool.and_eq_true, decide_eq_true_eq]
    omega
  · refine .integer ?_
    simp only [exactInteger, Bool.and_eq_true, decide_eq_true_eq]
    omega

section

variable {c c' : Cursor} {v : Json} {negative : Bool}

theorem kept_afterWhole {ds : List Nat} (h : afterWhole negative ds c = .ok v c') : v.Kept := by
  unfold afterWhole at h
  simp only [peek?_bind] at h
  split_ifs at h
  · obtain ⟨⟨x, rfl⟩, -⟩ := decimals_eq_ok h
    exact .double x
  · obtain ⟨⟨x, rfl⟩, -⟩ := exponentPart_eq_ok h
    exact .double x
  · obtain ⟨⟨x, rfl⟩, -⟩ := scaled_eq_ok h
    exact .double x
  · obtain ⟨rfl, rfl⟩ := EStateM.Result.ok.inj h
    exact kept_whole _ (foldl_push_value_lt (by decide))

theorem kept_number (h : number negative c = .ok v c') : v.Kept := by
  unfold number at h
  rw [next?_bind] at h
  cases hhead : c.rest.head? with
  | none => simp [hhead] at h
  | some b =>
    simp only [hhead] at h
    split_ifs at h
    · rw [peek?_bind] at h
      cases hnext : c.advance.rest.head? with
      | none =>
        simp only [hnext] at h
        exact kept_afterWhole h
      | some d =>
        simp only [hnext] at h
        split_ifs at h
        · simp at h
        · exact kept_afterWhole h
    · rw [digits_bind] at h
      exact kept_afterWhole h
    · simp at h

theorem kept_scalar (h : Scalar c v c') : v.Kept := by
  cases h with
  | null => exact .null
  | true => exact .bool _
  | false => exact .bool _
  | negative _ hnumber => exact kept_number hnumber
  | positive _ _ hnumber => exact kept_number hnumber
  | string => exact .string _

theorem kept_verbatim {depth : Nat} (h : verbatim depth c = .ok v c') : v.Kept := by
  induction depth generalizing c c' v with
  | zero =>
    cases layer_of_verbatim h with
    | scalar hscalar => exact kept_scalar hscalar
  | succ depth ih =>
    cases layer_of_verbatim h with
    | scalar hscalar => exact kept_scalar hscalar
    | list _ _ hitems =>
      refine .array fun v hv => ?_
      obtain ⟨c₁, c₂, hread⟩ := exists_read_of_mem_items hitems hv
      exact ih hread
    | object _ _ hmembers =>
      refine .object fun m hm => ?_
      obtain ⟨c₁, c₂, hread⟩ := exists_read_of_mem_members hmembers hm
      exact ih hread

end

end Reader

theorem kept_of_document {text : List UInt8} {d : Json} (h : document text = .ok d) : d.Kept := by
  obtain ⟨c, hread, -⟩ := Reader.all_eq_ok_iff.mp h
  exact Reader.kept_verbatim hread

theorem kept_of_ofBytes {text : List UInt8} {v : Json} (h : ofBytes text = .ok v) : v.Kept := by
  refine ofBytes_induction (fun whole hwhole text d v hd hv => ?_) h
  exact kept_of_reread hwhole (kept_of_document hd) hv

end Json

namespace Rpc

open Wire

def KeptReply (reply : Reply) : Prop := ∀ r v, reply = .ok r → r.result = some v → v.Kept

theorem kept_result {text : List UInt8} {d v : Json} {r : Response}
    (hd : Json.document text = .ok d) (hr : OnWire.ofBytes text = .ok r)
    (hv : r.result = some v) : v.Kept := by
  obtain ⟨w, hw, hread⟩ := exists_given_of_result hd hr hv
  refine Json.kept_of_reread (fun _ _ => Json.kept_of_ofBytes) ?_ hread
  cases Json.kept_of_document hd with
  | object hms =>
    cases hw with
    | member hm => exact hms _ hm
  | array hvs =>
    cases hw with
    | item hv => exact hvs _ hv
  | _ => cases hw

end Rpc

end ChainGateway
