import ChainGateway.Proofs.EmbeddedLevels
import ChainGateway.Proofs.ShapeReading

namespace ChainGateway.Wire

open Json (Reader written nesting nestingMembers Exact Integral)
open Json.Reader

/-- What is written for one value of a shape is read back as the other. -/
def Shape.ReadAs (s : Shape) (x x' : s.Carrier) : Prop :=
  ∀ depth rest, nesting (s.toJson x) ≤ depth → Delimited rest →
    Gives (s.read depth) (written (s.toJson x) ++ rest) x' rest

theorem gives_startingWith {α : Type} {b : UInt8} (hb : isSpace b = false) {wanted : String}
    {r : Reader α} {text rest : List UInt8} {a : α} (h : Gives r (b :: text) a rest) :
    Gives (startingWith b wanted r) (b :: text) a rest := by
  refine gives_placed (gives_bind (gives_peekToken? hb text) ?_)
  simp only [↓reduceIte]
  exact h

theorem readAs_text (t : String) : Shape.text.ReadAs t t := by
  intro depth rest _ _
  obtain ⟨text, hquoted, hgives⟩ := gives_quoted t rest
  have htext : written (Shape.text.toJson t) ++ rest = 34 :: text := hquoted
  rw [htext]
  exact gives_startingWith rfl (gives_bind (gives_advance 34 text) hgives)

theorem gives_numeric {α : Type} {n : Int} (hn : Json.exactInteger n = true) {wanted : String}
    {use : Json → Except Json.Cause α} {a : α} (h : use (.integer n) = .ok a)
    {rest : List UInt8} (hrest : Delimited rest) :
    Gives (numeric wanted use) (written (.integer n) ++ rest) a rest := by
  obtain ⟨text, htext, hgives⟩ | ⟨b, text, htext, hb, hgives⟩ := integer_text hn
  · rw [htext]
    exact gives_placed (gives_bind (gives_peekToken? rfl _) (gives_bind (gives_advance 45 _)
      (gives_bind (hgives rest hrest) (gives_lift_ok h rest))))
  · rw [htext]
    refine gives_placed (gives_bind (gives_peekToken? (isSpace_of_isDigit hb) _) ?_)
    have hminus : b ≠ 45 := ne_of_isDigit hb rfl
    simp only [hminus, hb, ↓reduceIte]
    exact gives_bind (hgives rest hrest) (gives_lift_ok h rest)

theorem exactInteger_signed (n : SignedWord) : Json.exactInteger n.toInt = true := by
  have hlow := n.le_toInt
  have hhigh := n.toInt_lt
  simp only [Json.exactInteger, Bool.and_eq_true, decide_eq_true_eq]
  omega

theorem exactInteger_word {bits : Nat} (hbits : bits ≤ 64) (w : Word bits) :
    Json.exactInteger w.toNat = true := by
  have hw : w.toNat < 2 ^ 64 :=
    Nat.lt_of_lt_of_le w.toNat_lt (Nat.pow_le_pow_right (by decide) hbits)
  simp only [Json.exactInteger, Bool.and_eq_true, decide_eq_true_eq]
  omega

theorem readAs_signed (n : SignedWord) : Shape.signed.ReadAs n n := by
  intro depth rest _ hrest
  have huse : signedOfJson (.integer n.toInt) = .ok n := ofJson_signed_eq_ok_iff.mpr rfl
  exact gives_numeric (exactInteger_signed n) huse hrest

theorem readAs_value {v w : Json} (h : Integral v) (hw : v.reread Json.ofBytes = .ok w) :
    Shape.value.ReadAs v w :=
  fun _ _ hdepth hrest => gives_value h hw hdepth hrest

theorem exact_requestId (id : Rpc.RequestId) : Exact (Shape.requestId.toJson id) := by
  cases id with
  | number n => exact .integer (exactInteger_word (Nat.le_refl 64) n)
  | string s => exact .string s
  | null => exact .null

theorem requestIdOfJson_toJson (id : Rpc.RequestId) :
    requestIdOfJson (Shape.requestId.toJson id) = .ok id := by
  cases id with
  | number n =>
    have hn : ¬ (n.toNat : Int) < 0 := Int.not_lt.mpr (Int.natCast_nonneg _)
    change requestIdOfJson (.integer n.toNat) = _
    simp only [requestIdOfJson, hn, ↓reduceIte, Int.toNat_natCast, Word.ofNat?_toNat]
    rfl
  | string s => rfl
  | null => rfl

theorem readAs_requestId (id : Rpc.RequestId) : Shape.requestId.ReadAs id id := by
  intro depth rest hdepth hrest
  have hgives := layout_written.gives_verbatim (.of_exact (exact_requestId id)) hdepth 0 hrest
  exact gives_bind hgives (gives_lift_ok (requestIdOfJson_toJson id) rest)

theorem gives_deeper {α : Type} {depth : Nat} {r : Nat → Reader α} {text rest : List UInt8} {a : α}
    (hdepth : 0 < depth) (h : Gives (r (depth - 1)) text a rest) :
    Gives (deeper depth r) text a rest := by
  obtain ⟨depth, rfl⟩ := Nat.exists_eq_succ_of_ne_zero (Nat.ne_of_gt hdepth)
  exact h

theorem readAs_list_value {vs ws : List Json} (h : ∀ v ∈ vs, Integral v)
    (hws : List.Forall₂ (fun v w => v.reread Json.ofBytes = .ok w) vs ws) :
    (Shape.list .value).ReadAs vs ws := by
  intro depth rest hdepth hrest
  rw [toJson_list_value] at hdepth ⊢
  have hitems : Json.nestingItems vs ≤ depth - 1 := Nat.le_sub_one_of_lt hdepth
  have hvs : ∀ v ∈ vs, Integral v ∧ nesting v ≤ depth - 1 := fun v hv =>
    ⟨h v hv, Nat.le_trans (Json.nesting_le_of_mem_items hv) hitems⟩
  have hall : List.Forall₂ (Item (value Json.ofBytes (depth - 1))) (vs.map written) ws := by
    refine List.forall₂_map_left_iff.mpr ?_
    refine List.Forall₂.imp (fun v w hv => ?_) ((List.forall₂_and_left _ _).mpr ⟨hvs, hws⟩)
    exact item_of_integral hv.1.1 fun rest hrest => gives_value hv.1.1 hv.2 hv.1.2 hrest
  rw [Json.written_array, List.append_assoc, List.singleton_append]
  exact gives_startingWith rfl
    (gives_deeper (Nat.lt_of_lt_of_le (Nat.succ_pos _) hdepth) (gives_list hall rest))

theorem forall₂_reread_of_exact {vs : List Json} (h : ∀ v ∈ vs, Exact v) :
    List.Forall₂ (fun v w => v.reread Json.ofBytes = .ok w) vs vs :=
  List.forall₂_same.mpr fun v hv => Json.reread_of_steady (.of_exact (h v hv))

theorem readAs_nullable_some {item : Shape} {x x' : item.Carrier} (h : item.ReadAs x x')
    (hopens : ∃ b text, written (item.toJson x) = b :: text ∧ isSpace b = false ∧ b ≠ 110) :
    (Shape.nullable item).ReadAs (some x) (some x') := by
  intro depth rest hdepth hrest
  obtain ⟨b, text, htext, hspace, hb⟩ := hopens
  have hgives := h depth rest hdepth hrest
  have hsome : written ((Shape.nullable item).toJson (some x)) = written (item.toJson x) := rfl
  rw [htext] at hgives
  rw [hsome, htext]
  refine gives_bind (gives_peekToken? hspace _) ?_
  simp only [Option.some.injEq, hb, ↓reduceIte]
  exact gives_bind hgives (gives_pure _ rest)

theorem readAs_nullable_null : (Shape.nullable .value).ReadAs (some Json.null) none := by
  intro depth rest _ _
  refine gives_bind (gives_peekToken? (b := 110) rfl _) ?_
  exact gives_bind (gives_advance 110 _) (gives_bind (gives_keyword [117, 108, 108] rest)
    (gives_pure none rest))

theorem readAs_nullable_value {v : Json} (h : Exact v) {o : Option Json}
    (ho : o = (some v).filter (! ·.isNull)) : (Shape.nullable .value).ReadAs (some v) o := by
  cases hnull : v.isNull with
  | true =>
    have hv : v = .null := Json.isNull_iff.mp hnull
    have hnone : o = none := by rw [ho, Option.filter_some, hnull]; rfl
    rw [hv, hnone]
    exact readAs_nullable_null
  | false =>
    have hv : v ≠ .null := fun hv => by rw [hv] at hnull; cases hnull
    have hsome : o = some v := by rw [ho, Option.filter_some, hnull]; rfl
    obtain ⟨b, text, htext, hspace, -, hb⟩ := written_opens (.of_exact h)
    rw [hsome]
    exact readAs_nullable_some (readAs_value (.of_exact h) (Json.reread_of_steady (.of_exact h)))
      ⟨b, text, htext, hspace, hb hv⟩

/-- What is written for one value of some fields is read back as the other. -/
inductive Fields.ReadAs : (fields : Fields) → fields.Carrier → fields.Carrier → Prop where
  | nil : ReadAs .nil () ()
  | written {name : String} {presence : Presence} {shape : Shape} {rest : Fields}
      {x x' : shape.Carrier} {y y' : rest.Carrier} :
      ¬ (presence = .omittable ∧ shape.isNone x = true) → shape.ReadAs x x' → ReadAs rest y y' →
      ReadAs (.cons name presence shape rest) (x, y) (x', y')
  | omitted {name : String} {shape : Shape} {rest : Fields} {x : shape.Carrier}
      {y y' : rest.Carrier} :
      shape.isNone x = true → ReadAs rest y y' →
      ReadAs (.cons name .omittable shape rest) (x, y) (shape.empty, y')

theorem Fields.readAs_optional {name : String} {item : Shape} {rest : Fields}
    {o o' : Option item.Carrier} {y y' : rest.Carrier} (hnone : o = none → o' = none)
    (hsome : ∀ x, o = some x → (Shape.nullable item).ReadAs (some x) o')
    (hrest : rest.ReadAs y y') :
    (Fields.cons name .omittable (.nullable item) rest).ReadAs (o, y) (o', y') := by
  cases o with
  | none =>
    rw [hnone rfl]
    exact .omitted rfl hrest
  | some x => exact .written (fun h => nomatch h.2) (hsome x rfl) hrest

def Fields.names : Fields → List String
  | .nil => []
  | .cons name _ _ rest => name :: rest.names

theorem toMembers_cons (name : String) (presence : Presence) (shape : Shape) (rest : Fields)
    (x : shape.Carrier) (y : rest.Carrier) :
    (Fields.cons name presence shape rest).toMembers (x, y) =
      if presence = .omittable ∧ shape.isNone x = true then rest.toMembers y
      else (name, shape.toJson x) :: rest.toMembers y := rfl

/-- Only the nesting of a field's value counts for that of the record. -/
theorem nesting_record_congr {owner name : String} {shape : Shape} {rest : Fields}
    {x x' : shape.Carrier} (h : nesting (shape.toJson x) = nesting (shape.toJson x'))
    (y : rest.Carrier) :
    nesting ((Shape.record owner (.cons name .defaulted shape rest)).toJson (x, y)) =
      nesting ((Shape.record owner (.cons name .defaulted shape rest)).toJson (x', y)) :=
  congrArg (max · (nestingMembers (rest.toMembers y)) + 1) h

theorem mem_names_of_mem_toMembers : {fields : Fields} → {x : fields.Carrier} →
    {m : String × Json} → m ∈ fields.toMembers x → m.1 ∈ fields.names
  | .nil, _, _, h => nomatch h
  | .cons name presence shape rest, (x, y), m, h => by
    rw [toMembers_cons] at h
    rw [Fields.names]
    by_cases homitted : presence = .omittable ∧ shape.isNone x = true
    · rw [if_pos homitted] at h
      exact List.mem_cons_of_mem name (mem_names_of_mem_toMembers h)
    · rw [if_neg homitted] at h
      obtain rfl | h := List.mem_cons.mp h
      · exact List.mem_cons_self
      · exact List.mem_cons_of_mem name (mem_names_of_mem_toMembers h)

theorem chain_behind {name : String} {presence : Presence} {shape : Shape} {rest : Fields}
    {depth : Nat} {ms : List (String × Json)} {a b : rest.Slots}
    (h : Chain written (rest.readMember depth) ms a b) (hnames : ∀ m ∈ ms, m.1 ≠ name)
    (slot : Option shape.Carrier) :
    Chain written ((Fields.cons name presence shape rest).readMember depth) ms (slot, a)
      (slot, b) := by
  induction h with
  | nil a => exact .nil _
  | @cons m ms a b c hgives _ ih =>
    refine .cons (b := (slot, b)) (fun more hmore => ?_)
      (ih fun m' hm' => hnames m' (List.mem_cons_of_mem m hm'))
    have hread : (Fields.cons name presence shape rest).readMember depth m.1 (slot, a) =
        rest.readMember depth m.1 a >>= fun slots => pure (slot, slots) := by
      exact if_neg (hnames m List.mem_cons_self)
    rw [hread]
    exact gives_bind (hgives more hmore) (gives_pure _ more)

/-- The members of a record fill the slots of their fields, and these make up the record. -/
theorem exists_slots {fields : Fields} {x x' : fields.Carrier} (h : fields.ReadAs x x')
    (hnames : fields.names.Nodup) {depth : Nat}
    (hdepth : nestingMembers (fields.toMembers x) ≤ depth) :
    ∃ slots, fields.ofSlots slots = .ok x' ∧
      Chain written (fields.readMember depth) (fields.toMembers x) fields.noSlots slots := by
  induction h with
  | nil => exact ⟨(), rfl, .nil _⟩
  | @written name presence shape rest x x' y y' hwritten hx hrest ih =>
    obtain ⟨hname, hnames⟩ := List.nodup_cons.mp hnames
    rw [toMembers_cons, if_neg hwritten] at hdepth ⊢
    rw [nestingMembers] at hdepth
    obtain ⟨slots, hslots, hchain⟩ := ih hnames (Nat.le_trans (Nat.le_max_right _ _) hdepth)
    -- the members behind have other names and leave the slot in front of them alone
    have hothers : ∀ m ∈ rest.toMembers y, m.1 ≠ name := fun m hm heq =>
      hname (heq ▸ mem_names_of_mem_toMembers hm)
    refine ⟨(some x', slots), ?_, .cons (b := (some x', rest.noSlots)) (fun more hmore => ?_)
      (chain_behind hchain hothers (some x'))⟩
    · change (rest.ofSlots slots).map (fun y => (x', y)) = _
      rw [hslots]
      rfl
    · have hread : (Fields.cons name presence shape rest).readMember depth name
          (none, rest.noSlots) = (do
            colon
            let x ← shape.read depth
            return (some x, rest.noSlots)) := if_pos rfl
      rw [Fields.noSlots, hread]
      exact gives_bind (gives_colon _) (gives_bind
        (hx depth more (Nat.le_trans (Nat.le_max_left _ _) hdepth) hmore) (gives_pure _ more))
  | @omitted name shape rest x y y' hnone hrest ih =>
    obtain ⟨hname, hnames⟩ := List.nodup_cons.mp hnames
    rw [toMembers_cons, if_pos ⟨rfl, hnone⟩] at hdepth ⊢
    obtain ⟨slots, hslots, hchain⟩ := ih hnames hdepth
    have hothers : ∀ m ∈ rest.toMembers y, m.1 ≠ name := fun m hm heq =>
      hname (heq ▸ mem_names_of_mem_toMembers hm)
    refine ⟨(none, slots), ?_, chain_behind hchain hothers none⟩
    change (rest.ofSlots slots).map (fun y => (shape.empty, y)) = _
    rw [hslots]
    rfl

/-- A record whose fields have different names is read back field by field. -/
theorem readAs_record {name : String} {fields : Fields} {x x' : fields.Carrier}
    (h : fields.ReadAs x x') (hnames : fields.names.Nodup) :
    (Shape.record name fields).ReadAs x x' := by
  intro depth rest hdepth hrest
  have hjson : (Shape.record name fields).toJson x = .object (fields.toMembers x) := rfl
  rw [hjson] at hdepth ⊢
  have hmembers : nestingMembers (fields.toMembers x) ≤ depth - 1 := Nat.le_sub_one_of_lt hdepth
  obtain ⟨slots, hslots, hchain⟩ := exists_slots h hnames hmembers
  rw [Json.written_object, List.append_assoc, List.singleton_append]
  refine gives_placed (gives_bind (gives_peekToken? (b := 123) rfl _) ?_)
  refine gives_deeper (Nat.lt_of_lt_of_le (Nat.succ_pos _) hdepth) ?_
  refine gives_bind (gives_advance 123 _) (gives_enclosed ?_ (gives_closeObject rest))
  refine gives_bind (gives_members hchain rest) ?_
  rw [hslots]
  exact gives_pure x' _

theorem ofBytes_compact {s : Shape} {x x' : s.Carrier} (h : s.ReadAs x x')
    (hdepth : nesting (s.toJson x) ≤ 127) :
    s.ofBytes (Text.utf8 (s.toJson x).compact) = .ok x' := by
  have hgives := h maxDepth [] hdepth nofun
  rw [List.append_nil] at hgives
  rw [Json.utf8_compact]
  exact all_eq_ok hgives

end ChainGateway.Wire

namespace ChainGateway.OnWire

/-- A value is read from its own text as what its shape makes of it. -/
theorem ofBytes_text {α : Type} [OnWire α] {a : α} {x : (OnWire.shape α).Carrier}
    (h : (OnWire.shape α).ReadAs (pack a) x) (hdepth : (toJson a).nesting ≤ 127) :
    ofBytes (Text.utf8 (text a)) = .ok (unpack x : α) :=
  congrArg (Except.map unpack) (Wire.ofBytes_compact h hdepth)

end ChainGateway.OnWire
