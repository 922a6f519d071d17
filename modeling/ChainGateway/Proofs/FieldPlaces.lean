import ChainGateway.Proofs.OverrideDecoding

namespace ChainGateway

namespace Json

/-- Values around a place in which any value may stand: the member of a name in an object, or an
item in a list. -/
inductive Place (name : String) (index : Nat) : (Json → Json) → Prop where
  | member (before after : List (String × Json)) :
      Place name index fun v => object (before ++ (name, v) :: after)
  | item {before : List Json} (after : List Json) : before.length = index →
      Place name index fun v => array (before ++ v :: after)

inductive Path : List (String × Nat) → (Json → Json) → Prop where
  | nil : Path [] id
  | cons {name : String} {index : Nat} {path : List (String × Nat)} {outer inner : Json → Json} :
      Place name index outer → Path path inner → Path ((name, index) :: path) (outer ∘ inner)

theorem valuesOf_cons (name : String) (m : String × Json) (ms : List (String × Json)) :
    valuesOf name (m :: ms) = if m.1 = name then m.2 :: valuesOf name ms else valuesOf name ms := by
  rw [← List.singleton_append, valuesOf_append, valuesOf_singleton]
  split_ifs <;> rfl

theorem valuesOf_place_own (name : String) (before after : List (String × Json)) (v : Json) :
    valuesOf name (before ++ (name, v) :: after) =
      valuesOf name before ++ v :: valuesOf name after := by
  rw [valuesOf_append, valuesOf_cons, if_pos rfl]

theorem valuesOf_place_other {name other : String} (h : other ≠ name)
    (before after : List (String × Json)) (v w : Json) :
    valuesOf other (before ++ (name, v) :: after) =
      valuesOf other (before ++ (name, w) :: after) := by
  rw [valuesOf_append, valuesOf_append, valuesOf_cons, valuesOf_cons, if_neg h.symm, if_neg h.symm]

end Json

namespace Wire

inductive FieldAt (name : String) (shape : Shape) : Fields → Nat → Type where
  | here {presence : Presence} {rest : Fields} :
      FieldAt name shape (.cons name presence shape rest) 0
  | there {other : String} {presence : Presence} {first : Shape} {rest : Fields} {index : Nat} :
      FieldAt name shape rest index →
      FieldAt name shape (.cons other presence first rest) (index + 1)

def Shape.fields : Shape → Fields
  | .record _ fields => fields
  | _ => .nil

def Fields.entry? : Fields → Nat → Option (String × Shape)
  | .nil, _ => none
  | .cons name _ shape _, 0 => some (name, shape)
  | .cons _ _ _ rest, index + 1 => rest.entry? index

namespace FieldAt

variable {name : String} {shape : Shape}

def ofEntry : {fields : Fields} → {index : Nat} → fields.entry? index = some (name, shape) →
    FieldAt name shape fields index
  | .cons _ _ _ _, 0, rfl => here
  | .cons _ _ _ _, _ + 1, h => there (ofEntry h)

def get : {fields : Fields} → {index : Nat} → FieldAt name shape fields index →
    fields.Carrier → shape.Carrier
  | _, _, here, (x, _) => x
  | _, _, there field, (_, y) => field.get y

def put : {fields : Fields} → {index : Nat} → FieldAt name shape fields index →
    fields.Carrier → shape.Carrier → fields.Carrier
  | _, _, here, (_, y), a => (a, y)
  | _, _, there field, (x, y), a => (x, field.put y a)

def rule : {fields : Fields} → {index : Nat} → FieldAt name shape fields index → fields.Rules →
    Json → shape.Carrier → Prop
  | _, _, here, (rule, _) => rule
  | _, _, there field, (_, rules) => field.rule rules

theorem get_put : {fields : Fields} → {index : Nat} → (field : FieldAt name shape fields index) →
    (x : fields.Carrier) → (a : shape.Carrier) → field.get (field.put x a) = a
  | _, _, here, (_, _), _ => rfl
  | _, _, there field, (_, y), a => field.get_put y a

theorem mem_names : {fields : Fields} → {index : Nat} → FieldAt name shape fields index →
    name ∈ fields.names
  | _, _, here => List.mem_cons_self
  | _, _, there field => List.mem_cons_of_mem _ field.mem_names

end FieldAt

theorem filled_congr {ms ns : List (String × Json)} : {fields : Fields} → {rules : fields.Rules} →
    {x : fields.Carrier} → (∀ n ∈ fields.names, Json.valuesOf n ms = Json.valuesOf n ns) →
    (fields.Filled ms rules x ↔ fields.Filled ns rules x)
  | .nil, _, _, _ => Iff.rfl
  | .cons name presence shape rest, (rule, rules), (x, y), h => by
    obtain ⟨hname, hrest⟩ := List.forall_mem_cons.mp h
    rw [filled_cons_iff, filled_cons_iff, hname, filled_congr hrest]

section

variable {name : String} {shape : Shape} {v w : Json}

/-- A field that is held by what stands in some place has no other values. -/
theorem held_place_iff {before after : List Json} {presence : Presence}
    {rule : Json → shape.Carrier → Prop} {empty a₀ a : shape.Carrier}
    (h : Held presence rule empty (before ++ w :: after) a₀) :
    Held presence rule empty (before ++ v :: after) a ↔ rule v a := by
  generalize hvs : before ++ w :: after = vs at h
  cases h with
  | absent => simp at hvs
  | present =>
    obtain ⟨rfl, hrest⟩ | ⟨-, hrest⟩ := List.append_eq_singleton_iff.mp hvs
    · rw [(List.cons.inj hrest).2, List.nil_append, held_singleton_iff]
    · cases hrest

theorem filled_place_iff {before after : List (String × Json)} : {fields : Fields} →
    {index : Nat} → (field : FieldAt name shape fields index) → fields.names.Nodup →
    {rules : fields.Rules} → fields.Obey Determined rules → {x₀ x : fields.Carrier} →
    fields.Filled (before ++ (name, w) :: after) rules x₀ →
    (fields.Filled (before ++ (name, v) :: after) rules x ↔
      ∃ a, field.rule rules v a ∧ x = field.put x₀ a)
  | .cons _ _ _ rest, _, .here, hnames, (rule, rules), ⟨_, hrules⟩, (a₀, y₀), (a, y), ⟨ha, hy⟩ => by
    obtain ⟨hname, -⟩ := List.nodup_cons.mp hnames
    rw [Json.valuesOf_place_own] at ha
    -- what fills the other fields is the same
    have hrest : rest.Filled (before ++ (name, v) :: after) rules y ↔ y = y₀ := by
      have hsame : rest.Filled (before ++ (name, v) :: after) rules y ↔
          rest.Filled (before ++ (name, w) :: after) rules y := filled_congr fun n hn =>
        Json.valuesOf_place_other (ne_of_mem_of_not_mem hn hname) before after v w
      rw [hsame]
      exact ⟨fun h => eq_of_filled hrules h hy, fun h => h ▸ hy⟩
    rw [filled_cons_iff, Json.valuesOf_place_own, held_place_iff ha, hrest]
    constructor
    · rintro ⟨ha, rfl⟩
      exact ⟨a, ha, rfl⟩
    · rintro ⟨b, hb, heq⟩
      obtain ⟨rfl, rfl⟩ := Prod.mk.inj heq
      exact ⟨hb, rfl⟩
  | .cons other presence first rest, _, .there field, hnames, (rule, rules), ⟨hrule, hrules⟩,
      (a₀, y₀), (a, y), ⟨ha, hy⟩ => by
    obtain ⟨hname, hnames⟩ := List.nodup_cons.mp hnames
    have hother := Json.valuesOf_place_other (ne_of_mem_of_not_mem field.mem_names hname).symm
      before after v w
    have hfirst : Held presence rule first.empty
        (Json.valuesOf other (before ++ (name, v) :: after)) a ↔ a = a₀ := by
      rw [hother]
      exact ⟨fun h => rightUnique_held hrule presence first.empty h ha, fun h => h ▸ ha⟩
    rw [filled_cons_iff, hfirst, filled_place_iff field hnames hrules hy]
    constructor
    · rintro ⟨rfl, b, hb, rfl⟩
      exact ⟨b, hb, rfl⟩
    · rintro ⟨b, hb, heq⟩
      obtain ⟨rfl, rfl⟩ := Prod.mk.inj heq
      exact ⟨rfl, b, hb, rfl⟩

theorem itemized_place_iff {after : List Json} : {before : List Json} → {fields : Fields} →
    {index : Nat} → (field : FieldAt name shape fields index) → before.length = index →
    {rules : fields.Rules} → fields.Obey Determined rules → {x₀ x : fields.Carrier} →
    fields.Itemized rules (before ++ w :: after) x₀ →
    (fields.Itemized rules (before ++ v :: after) x ↔
      ∃ a, field.rule rules v a ∧ x = field.put x₀ a)
  | [], .cons _ _ _ rest, _, .here, _, (rule, rules), ⟨_, hrules⟩, (a₀, y₀), (a, y), ⟨_, hy⟩ => by
    have hrest : rest.Itemized rules after y ↔ y = y₀ :=
      ⟨fun h => eq_of_itemized hrules h hy, fun h => h ▸ hy⟩
    change Held _ rule shape.empty [v] a ∧ rest.Itemized rules after y ↔ _
    rw [held_singleton_iff, hrest]
    constructor
    · rintro ⟨ha, rfl⟩
      exact ⟨a, ha, rfl⟩
    · rintro ⟨b, hb, heq⟩
      obtain ⟨rfl, rfl⟩ := Prod.mk.inj heq
      exact ⟨hb, rfl⟩
  | b :: before, .cons _ presence first rest, _, .there field, hlength, (rule, rules),
      ⟨hrule, hrules⟩, (a₀, y₀), (a, y), ⟨ha, hy⟩ => by
    have hfirst : Held presence rule first.empty [b] a ↔ a = a₀ :=
      ⟨fun h => rightUnique_held hrule presence first.empty h ha, fun h => h ▸ ha⟩
    change Held presence rule first.empty [b] a ∧ rest.Itemized rules (before ++ v :: after) y ↔ _
    rw [hfirst, itemized_place_iff field (Nat.succ.inj hlength) hrules hy]
    constructor
    · rintro ⟨rfl, b, hb, rfl⟩
      exact ⟨b, hb, rfl⟩
    · rintro ⟨b, hb, heq⟩
      obtain ⟨rfl, rfl⟩ := Prod.mk.inj heq
      exact ⟨rfl, b, hb, rfl⟩

theorem recorded_place_iff {fields : Fields} {index : Nat} (field : FieldAt name shape fields index)
    (hnames : fields.names.Nodup) {rules : fields.Rules} (hrules : fields.Obey Determined rules)
    {around : Json → Json} (haround : Json.Place name index around) {x₀ x : fields.Carrier}
    (h : fields.Recorded rules (around w) x₀) :
    fields.Recorded rules (around v) x ↔ ∃ a, field.rule rules v a ∧ x = field.put x₀ a := by
  cases haround with
  | member before after => exact filled_place_iff field hnames hrules h
  | item after hlength => exact itemized_place_iff field hlength hrules h

end

def Fields.decoding : (fields : Fields) → fields.Rules
  | .nil => ()
  | .cons _ _ shape rest => (fun v x => shape.ofJson v = .ok x, rest.decoding)

theorem obey_readBy_decoding : (fields : Fields) → fields.Obey Shape.ReadBy fields.decoding
  | .nil => trivial
  | .cons _ _ _ rest => ⟨fun _ _ => Iff.rfl, obey_readBy_decoding rest⟩

theorem obey_determined_decoding : (fields : Fields) → fields.Obey Determined fields.decoding
  | .nil => trivial
  | .cons _ _ _ rest =>
    ⟨fun _ _ _ hx hy => Except.ok.inj (hx.symm.trans hy), obey_determined_decoding rest⟩

theorem FieldAt.rule_decoding_iff {name : String} {shape : Shape} {v : Json} {a : shape.Carrier} :
    {fields : Fields} → {index : Nat} → (field : FieldAt name shape fields index) →
    (field.rule fields.decoding v a ↔ shape.ofJson v = .ok a)
  | _, _, here => Iff.rfl
  | _, _, there field => field.rule_decoding_iff

/-- Where data of a shape is decoded around a path, it is decoded exactly from the values that are
data of the shape inside, and the part that is read off the data is what the value is. -/
def Opens (outer inner : Shape) (part : outer.Carrier → inner.Carrier)
    (around : Json → Json) : Prop :=
  ∀ w x₀, outer.ofJson (around w) = .ok x₀ → ∃ put : inner.Carrier → outer.Carrier,
    (∀ a, part (put a) = a) ∧
      ∀ v x, outer.ofJson (around v) = .ok x ↔ ∃ a, inner.ofJson v = .ok a ∧ x = put a

theorem opens_field {owner name : String} {shape : Shape} {fields : Fields} {index : Nat}
    (field : FieldAt name shape fields index) (hnames : fields.names.Nodup)
    {around : Json → Json} (haround : Json.Place name index around) :
    Opens (.record owner fields) shape field.get around := by
  intro w x₀ h
  have hread : (Shape.record owner fields).ReadBy (fields.Recorded fields.decoding) :=
    readBy_record (obey_readBy_decoding fields) hnames
  refine ⟨field.put x₀, field.get_put x₀, fun v x => (hread _ x).trans ?_⟩
  refine (recorded_place_iff field hnames (obey_determined_decoding fields) haround
    ((hread _ x₀).mp h)).trans ?_
  exact exists_congr fun a => and_congr_left fun _ => field.rule_decoding_iff

def Shape.part {name : String} {inner : Shape} {index : Nat} :
    {s : Shape} → FieldAt name inner s.fields index → s.Carrier → inner.Carrier
  | .record _ _, field => field.get
  | .text, field | .boolean, field | .unsigned _, field | .signed, field | .quantity _, field
  | .fixed _, field | .bytes, field | .requestId, field | .value, field | .list _, field
  | .nullable _, field | .pair _ _, field | .dictionary _ _, field => nomatch field

theorem opens_part {name : String} {inner : Shape} {index : Nat} {s : Shape}
    (field : FieldAt name inner s.fields index) (hnames : s.fields.names.Nodup)
    {around : Json → Json} (haround : Json.Place name index around) :
    Opens s inner (Shape.part field) around := by
  cases s with
  | record owner fields => exact opens_field field hnames haround
  | _ => nomatch field

theorem opens_comp {s t u : Shape} {part : s.Carrier → t.Carrier} {part' : t.Carrier → u.Carrier}
    {outer inner : Json → Json} (h : Opens s t part outer) (h' : Opens t u part' inner) :
    Opens s u (part' ∘ part) (outer ∘ inner) := by
  intro w x₀ hw
  obtain ⟨put, hput, hiff⟩ := h (inner w) x₀ hw
  obtain ⟨y₀, hy₀, -⟩ := (hiff _ _).mp hw
  obtain ⟨put', hput', hiff'⟩ := h' w y₀ hy₀
  refine ⟨put ∘ put', fun a => ?_, fun v x => ?_⟩
  · rw [Function.comp_apply, Function.comp_apply, hput, hput']
  · rw [Function.comp_apply, hiff]
    simp only [hiff', Function.comp_apply]
    constructor
    · rintro ⟨_, ⟨a, ha, rfl⟩, rfl⟩
      exact ⟨a, ha, rfl⟩
    · rintro ⟨a, ha, rfl⟩
      exact ⟨_, ⟨a, ha, rfl⟩, rfl⟩

end Wire

end ChainGateway
