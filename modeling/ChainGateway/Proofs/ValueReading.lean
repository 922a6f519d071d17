import ChainGateway.Proofs.HexText
import ChainGateway.Proofs.MemberOrder
import ChainGateway.Proofs.RecordText
import Mathlib.Data.List.Perm.Basic

namespace ChainGateway.Wire

open Json (Arranges)

/-- What is written for one value of a shape, with the members of objects in some order, is read
back as the other. -/
def Shape.RereadAs (order : Json → Json) (s : Shape) (x x' : s.Carrier) : Prop :=
  s.ofJson (order (s.toJson x)) = .ok x'

/-- Each field is read from the member of its name, and an absent field is empty. -/
inductive Fields.Reads (ms : List (String × Json)) : (fields : Fields) → fields.Carrier → Prop where
  | nil : Reads ms .nil ()
  | present {name : String} {presence : Presence} {shape : Shape} {rest : Fields} {v : Json}
      {x : shape.Carrier} {y : rest.Carrier} :
      (name, v) ∈ ms → shape.ofJson v = .ok x → Reads ms rest y →
      Reads ms (.cons name presence shape rest) (x, y)
  | absent {name : String} {presence : Presence} {shape : Shape} {rest : Fields}
      {y : rest.Carrier} :
      (∀ m ∈ ms, m.1 ≠ name) → presence ≠ .required → Reads ms rest y →
      Reads ms (.cons name presence shape rest) (shape.empty, y)

theorem put_cons (name : String) (presence : Presence) (shape : Shape) (rest : Fields)
    (key : String) (v : Json) (slot : Option shape.Carrier) (slots : rest.Slots) :
    (Fields.cons name presence shape rest).put key v (slot, slots) =
      if key = name then
        match slot with
        | some _ => .error (.duplicateField name)
        | none => (shape.ofJson v).map fun x => (some x, slots)
      else (rest.put key v slots).map fun slots => (slot, slots) := rfl

theorem put_of_not_mem_names : {fields : Fields} → {key : String} → (v : Json) →
    (slots : fields.Slots) → key ∉ fields.names → fields.put key v slots = .ok slots
  | .nil, _, _, _, _ => rfl
  | .cons name presence shape rest, key, v, (slot, slots), h => by
    have hne : key ≠ name := fun heq => h (heq ▸ List.mem_cons_self)
    have hrest := put_of_not_mem_names v slots fun hmem => h (List.mem_cons_of_mem name hmem)
    rw [put_cons, if_neg hne, hrest]
    rfl

def Fields.putAll (fields : Fields) (ms : List (String × Json)) (slots : fields.Slots) :
    Except Json.Cause fields.Slots :=
  ms.foldlM (fun slots (m : String × Json) => fields.put m.1 m.2 slots) slots

theorem putAll_cons_of_put {fields : Fields} {m : String × Json} {ms : List (String × Json)}
    {a b c : fields.Slots} (hm : fields.put m.1 m.2 a = .ok b) (hms : fields.putAll ms b = .ok c) :
    fields.putAll (m :: ms) a = .ok c := by
  rw [Fields.putAll, List.foldlM_cons, hm]
  exact hms

theorem exists_put_of_putAll_cons {fields : Fields} {m : String × Json} {ms : List (String × Json)}
    {a c : fields.Slots} (h : fields.putAll (m :: ms) a = .ok c) :
    ∃ b, fields.put m.1 m.2 a = .ok b ∧ fields.putAll ms b = .ok c := by
  rw [Fields.putAll, List.foldlM_cons] at h
  cases hput : fields.put m.1 m.2 a with
  | error cause => rw [hput] at h; cases h
  | ok b => rw [hput] at h; exact ⟨b, rfl, h⟩

section

variable {name : String} {presence : Presence} {shape : Shape} {rest : Fields}

theorem put_cons_of_ne {m : String × Json} (hm : m.1 ≠ name) (slot : Option shape.Carrier)
    {a b : rest.Slots} (h : rest.put m.1 m.2 a = .ok b) :
    (Fields.cons name presence shape rest).put m.1 m.2 (slot, a) = .ok (slot, b) := by
  rw [put_cons, if_neg hm, h]
  rfl

theorem putAll_behind {ms : List (String × Json)} (hms : ∀ m ∈ ms, m.1 ≠ name)
    (slot : Option shape.Carrier) {a b : rest.Slots} (h : rest.putAll ms a = .ok b) :
    (Fields.cons name presence shape rest).putAll ms (slot, a) = .ok (slot, b) := by
  induction ms generalizing a with
  | nil =>
    obtain rfl := Except.ok.inj h
    rfl
  | cons m ms ih =>
    obtain ⟨hm, hms⟩ := List.forall_mem_cons.mp hms
    obtain ⟨c, hput, hrest⟩ := exists_put_of_putAll_cons h
    exact putAll_cons_of_put (put_cons_of_ne hm slot hput) (ih hms hrest)

theorem putAll_present {ms : List (String × Json)} (hms : (ms.map Prod.fst).Nodup) {v : Json}
    (hv : (name, v) ∈ ms) {x : shape.Carrier} (hx : shape.ofJson v = .ok x)
    (hname : name ∉ rest.names) {a b : rest.Slots} (h : rest.putAll ms a = .ok b) :
    (Fields.cons name presence shape rest).putAll ms (none, a) = .ok (some x, b) := by
  induction ms generalizing a with
  | nil => cases hv
  | cons m ms ih =>
    obtain ⟨hm, hms⟩ := List.nodup_cons.mp hms
    obtain ⟨c, hc, hrest⟩ := exists_put_of_putAll_cons h
    obtain rfl | hv := List.mem_cons.mp hv
    -- the slot stays filled behind its member, and vacant before it
    · have hothers : ∀ m ∈ ms, m.1 ≠ name := fun m' hm' heq =>
        hm (List.mem_map.mpr ⟨m', hm', heq⟩)
      have hput : (Fields.cons name presence shape rest).put name v (none, a) =
          .ok (some x, a) := by
        rw [put_cons, if_pos rfl, hx]
        rfl
      rw [put_of_not_mem_names v a hname] at hc
      obtain rfl := Except.ok.inj hc
      exact putAll_cons_of_put hput (putAll_behind hothers (some x) hrest)
    · have hne : m.1 ≠ name := fun heq => hm (heq ▸ List.mem_map_of_mem hv)
      exact putAll_cons_of_put (put_cons_of_ne hne none hc) (ih hms hv hrest)

end

theorem exists_putAll {ms : List (String × Json)} (hms : (ms.map Prod.fst).Nodup)
    {fields : Fields} (hfields : fields.names.Nodup) {x : fields.Carrier}
    (h : fields.Reads ms x) :
    ∃ slots, fields.putAll ms fields.noSlots = .ok slots ∧ fields.ofSlots slots = .ok x := by
  -- on the fields, each time over all the members: those of other fields make no difference
  induction h with
  | nil =>
    refine ⟨(), ?_, rfl⟩
    induction ms with
    | nil => rfl
    | cons m ms ih => exact ih (List.nodup_cons.mp hms).2
  | @present name presence shape rest v x y hv hx _ ih =>
    obtain ⟨hname, hrest⟩ := List.nodup_cons.mp hfields
    obtain ⟨slots, hput, hslots⟩ := ih hrest
    refine ⟨(some x, slots), putAll_present hms hv hx hname hput, ?_⟩
    rw [Fields.ofSlots, hslots]
    rfl
  | @absent name presence shape rest y habsent hpresence _ ih =>
    obtain ⟨slots, hput, hslots⟩ := ih (List.nodup_cons.mp hfields).2
    refine ⟨(none, slots), putAll_behind habsent none hput, ?_⟩
    rw [Fields.ofSlots, if_neg hpresence, hslots]
    rfl

theorem ofJson_record {name : String} {ms : List (String × Json)} (hms : (ms.map Prod.fst).Nodup)
    {fields : Fields} (hfields : fields.names.Nodup) {x : fields.Carrier}
    (h : fields.Reads ms x) : (Shape.record name fields).ofJson (.object ms) = .ok x := by
  obtain ⟨slots, hput, hslots⟩ := exists_putAll hms hfields h
  change (fields.putAll ms fields.noSlots >>= fields.ofSlots) = _
  rw [hput]
  exact hslots

def Fields.RereadAs (order : Json → Json) :
    (fields : Fields) → fields.Carrier → fields.Carrier → Prop
  | .nil, _, _ => True
  | .cons _ _ shape rest, (x, y), (x', y') =>
    shape.RereadAs order x x' ∧ rest.RereadAs order y y'

theorem eq_empty_of_isNone {shape : Shape} {x : shape.Carrier} (h : shape.isNone x = true) :
    shape.toJson x = .null ∧ shape.ofJson .null = .ok shape.empty := by
  cases shape with
  | nullable item =>
    cases x with
    | none => exact ⟨rfl, rfl⟩
    | some x => cases h
  | _ => cases h

/-- The members of a record, in any order, are those that its fields are read from. -/
theorem reads_of_mem_iff {order : Json → Json} (horder : Arranges order)
    {ms : List (String × Json)} : {fields : Fields} → {x x' : fields.Carrier} →
    fields.RereadAs order x x' → fields.names.Nodup →
    (∀ m : String × Json, m.1 ∈ fields.names →
      (m ∈ ms ↔ m ∈ (fields.toMembers x).map fun m => (m.1, order m.2))) →
    fields.Reads ms x'
  | .nil, _, _, _, _, _ => .nil
  | .cons name presence shape rest, (x, y), (x', y'), ⟨hx, hy⟩, hnames, hmem => by
    obtain ⟨hname, hrest⟩ := List.nodup_cons.mp hnames
    have hothers : ∀ m ∈ (rest.toMembers y).map fun m => (m.1, order m.2), m.1 ≠ name := by
      intro m hm heq
      obtain ⟨m', hm', rfl⟩ := List.mem_map.mp hm
      have hin : m'.1 ∈ rest.names := mem_names_of_mem_toMembers hm'
      exact hname (heq ▸ hin)
    have hmem_rest : ∀ m : String × Json, m.1 ∈ rest.names →
        (m ∈ ms ↔ m ∈ (rest.toMembers y).map fun m => (m.1, order m.2)) := by
      intro m hm
      have hne : m.1 ≠ name := fun heq => hname (heq ▸ hm)
      rw [hmem m (List.mem_cons_of_mem name hm), toMembers_cons]
      split
      · rfl
      · rw [List.map_cons, List.mem_cons, or_iff_right fun heq => hne (congrArg Prod.fst heq)]
    -- members of this field play no part in what the others are read from
    have hreads := reads_of_mem_iff horder hy hrest hmem_rest
    by_cases homitted : presence = .omittable ∧ shape.isNone x = true
    · obtain ⟨rfl, hnone⟩ := homitted
      obtain ⟨hjson, hempty⟩ := eq_empty_of_isNone hnone
      rw [Shape.RereadAs, hjson, horder.null, hempty] at hx
      obtain rfl := Except.ok.inj hx
      refine .absent (fun m hm heq => ?_) nofun hreads
      have hin := (hmem m (heq ▸ List.mem_cons_self)).mp hm
      rw [toMembers_cons, if_pos ⟨rfl, hnone⟩] at hin
      exact hothers m hin heq
    · refine .present ((hmem (name, order (shape.toJson x)) List.mem_cons_self).mpr ?_) hx hreads
      rw [toMembers_cons, if_neg homitted]
      exact List.mem_cons_self

theorem nodup_names_toMembers : {fields : Fields} → {x : fields.Carrier} → fields.names.Nodup →
    ((fields.toMembers x).map Prod.fst).Nodup
  | .nil, _, _ => List.nodup_nil
  | .cons name presence shape rest, (x, y), h => by
    obtain ⟨hname, hrest⟩ := List.nodup_cons.mp h
    rw [toMembers_cons]
    split
    · exact nodup_names_toMembers hrest
    · refine List.nodup_cons.mpr ⟨fun hmem => ?_, nodup_names_toMembers hrest⟩
      obtain ⟨m, hm, rfl⟩ := List.mem_map.mp hmem
      exact hname (mem_names_of_mem_toMembers hm)

theorem rereadAs_record {order : Json → Json} (horder : Arranges order) {name : String}
    {fields : Fields} (hfields : fields.names.Nodup) {x x' : fields.Carrier}
    (h : fields.RereadAs order x x') : (Shape.record name fields).RereadAs order x x' := by
  obtain ⟨ms, hms, hperm⟩ := horder.object (nodup_names_toMembers (x := x) hfields)
  have hnodup : (ms.map Prod.fst).Nodup := by
    rw [(hperm.map Prod.fst).nodup_iff, List.map_map]
    exact nodup_names_toMembers (x := x) hfields
  change (Shape.record name fields).ofJson (order (.object (fields.toMembers x))) = _
  rw [hms]
  exact ofJson_record hnodup hfields (reads_of_mem_iff horder h hfields fun m _ => hperm.mem_iff)

theorem fixedOfText_text {size : Nat} (b : FixedBytes size) : fixedOfText size b.text = .ok b := by
  rw [fixedOfText, FixedBytes.ofText_text]
  rfl

section

variable {order : Json → Json} (horder : Arranges order)

include horder

theorem rereadAs_value {v : Json} (h : v.Steady) : Shape.value.RereadAs order v v := by
  change (order v).reread Json.ofBytes = _
  rw [horder.fixed h.sorted_eq]
  exact Json.reread_of_steady h

theorem rereadAs_boolean (b : Bool) : Shape.boolean.RereadAs order b b := by
  change Shape.boolean.ofJson (order (.bool b)) = _
  rw [horder.bool]
  exact ofJson_boolean_eq_ok_iff.mpr rfl

theorem rereadAs_unsigned {bits : Nat} (w : Word bits) :
    (Shape.unsigned bits).RereadAs order w w := by
  change (Shape.unsigned bits).ofJson (order (.integer w.toNat)) = _
  rw [horder.integer]
  exact ofJson_unsigned_eq_ok_iff.mpr rfl

theorem rereadAs_quantity {bits : Nat} (w : Word bits) :
    (Shape.quantity bits).RereadAs order w w := by
  change (Shape.quantity bits).ofJson (order (.string (Quantity.text w.toNat))) = _
  rw [horder.string]
  exact orElse_eq_ok_iff.mpr (Quantity.ofText?_text w)

theorem rereadAs_fixed {size : Nat} (b : FixedBytes size) :
    (Shape.fixed size).RereadAs order b b := by
  change (Shape.fixed size).ofJson (order (.string b.text)) = _
  rw [horder.string]
  exact fixedOfText_text b

theorem rereadAs_bytes (bs : List UInt8) : Shape.bytes.RereadAs order bs bs := by
  change Shape.bytes.ofJson (order (.string (Hex.encodeMarked bs))) = _
  rw [horder.string]
  change bytesOfJson (.string (Hex.encodeMarked bs)) = _
  rw [bytesOfJson, Hex.decodeMarked_encodeMarked]
  rfl

theorem rereadAs_values {vs : List Json} (h : ∀ v ∈ vs, v.Steady) :
    (Shape.list .value).RereadAs order vs vs := by
  change (Shape.list .value).ofJson (order ((Shape.list .value).toJson vs)) = _
  rw [toJson_list_value, horder.array]
  exact mapM_eq_ok_iff.mpr (List.forall₂_map_left_iff.mpr (List.forall₂_same.mpr fun v hv =>
    rereadAs_value horder (h v hv)))

theorem rereadAs_nullable (item : Shape) (hnull : ∀ x, item.ofJson .null ≠ .ok x)
    (hitem : ∀ x, item.RereadAs order x x) (o : Option item.Carrier) :
    (Shape.nullable item).RereadAs order o o := by
  cases o with
  | none =>
    change (Shape.nullable item).ofJson (order .null) = _
    rw [horder.null]
    rfl
  | some x =>
    have hx : item.ofJson (order (item.toJson x)) = .ok x := hitem x
    have hne : order (item.toJson x) ≠ .null := fun heq => hnull x (heq ▸ hx)
    change (Shape.nullable item).ofJson (order (item.toJson x)) = _
    rw [ofJson_nullable_of_ne_null hne, hx]
    rfl

end

section

variable {size : Nat} {item : Shape}

def IsEntry (size : Nat) (item : Shape) (m : String × Json)
    (e : FixedBytes size × item.Carrier) : Prop :=
  fixedOfText size m.1 = .ok e.1 ∧ item.ofJson m.2 = .ok e.2

def insertMember (m : OrderedMap (FixedBytes size) item.Carrier) (member : String × Json) :
    Except Json.Cause (OrderedMap (FixedBytes size) item.Carrier) := do
  let b ← fixedOfText size member.1
  return m.insert b (← item.ofJson member.2)

theorem foldlM_insertMember {ms : List (String × Json)}
    {entries : List (FixedBytes size × item.Carrier)}
    (h : List.Forall₂ (IsEntry size item) ms entries)
    (start : OrderedMap (FixedBytes size) item.Carrier) :
    ms.foldlM insertMember start =
      .ok (entries.foldl (fun m e => m.insert e.1 e.2) start) := by
  induction h generalizing start with
  | nil => rfl
  | @cons m e ms entries hm _ ih =>
    have hinsert : insertMember start m = .ok (start.insert e.1 e.2) := by
      rw [insertMember, hm.1, hm.2]
      rfl
    rw [List.foldlM_cons, hinsert, List.foldl_cons]
    exact ih (start.insert e.1 e.2)

theorem ofJson_dictionary {ms : List (String × Json)}
    {entries : List (FixedBytes size × item.Carrier)}
    (h : List.Forall₂ (IsEntry size item) ms entries) :
    (Shape.dictionary size item).ofJson (.object ms) = .ok (OrderedMap.ofList entries) :=
  foldlM_insertMember h .empty

theorem rereadAs_dictionary {order : Json → Json} (horder : Arranges order)
    {m : OrderedMap (FixedBytes size) item.Carrier}
    (hitem : ∀ e ∈ m.entries, item.RereadAs order e.2 e.2) :
    (Shape.dictionary size item).RereadAs order m m := by
  have hnames : ((m.entries.map fun e => (e.1.text, item.toJson e.2)).map Prod.fst).Nodup := by
    have hkeys := (nodup_keys_of_ascending m.ascending).map FixedBytes.text_injective
    rw [List.map_map] at hkeys ⊢
    exact hkeys
  obtain ⟨ms, hms, hperm⟩ := horder.object hnames
  rw [List.map_map] at hperm
  have hentries : List.Forall₂ (IsEntry size item)
      (m.entries.map fun e => (e.1.text, order (item.toJson e.2))) m.entries :=
    List.forall₂_map_left_iff.mpr (List.forall₂_same.mpr fun e he =>
      ⟨fixedOfText_text e.1, hitem e he⟩)
  obtain ⟨entries, hreads, hentries⟩ := List.perm_comp_forall₂ hperm hentries
  change (Shape.dictionary size item).ofJson (order (.object _)) = _
  rw [hms, ofJson_dictionary hreads, OrderedMap.ofList_eq_of_perm hentries]

end

end ChainGateway.Wire

namespace ChainGateway.OnWire

theorem ofJson_of_rereadAs {α : Type} [OnWire α] {order : Json → Json} {a : α}
    {x : (OnWire.shape α).Carrier} (h : (OnWire.shape α).RereadAs order (pack a) x) :
    ofJson (order (toJson a)) = .ok (unpack x : α) := by
  rw [ofJson, toJson, h]

end ChainGateway.OnWire
