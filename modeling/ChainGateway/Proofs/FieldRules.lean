import ChainGateway.Proofs.ValueReading

namespace ChainGateway

open Json (Cause)

def Json.valuesOf (name : String) (ms : List (String × Json)) : List Json :=
  (ms.filter fun m => m.1 = name).map Prod.snd

namespace Json

theorem valuesOf_append (name : String) (ms ns : List (String × Json)) :
    valuesOf name (ms ++ ns) = valuesOf name ms ++ valuesOf name ns := by
  simp [valuesOf]

theorem valuesOf_singleton (name : String) (m : String × Json) :
    valuesOf name [m] = if m.1 = name then [m.2] else [] := by
  unfold valuesOf
  split_ifs with h <;> simp [h]

theorem valuesOf_eq_nil {name : String} {ms : List (String × Json)}
    (h : ∀ m ∈ ms, m.1 ≠ name) : valuesOf name ms = [] := by
  simpa [valuesOf] using h

end Json

namespace Wire

inductive Taken {β : Type} (step : String × Json → β → β → Prop) :
    List (String × Json) → β → β → Prop where
  | nil (a : β) : Taken step [] a a
  | cons {m : String × Json} {ms : List (String × Json)} {a b c : β} :
      step m a b → Taken step ms b c → Taken step (m :: ms) a c

section

variable {β : Type} {step : String × Json → β → β → Prop} {a b : β}

theorem taken_nil_iff : Taken step [] a b ↔ b = a := by
  constructor
  · intro h
    cases h
    rfl
  · rintro rfl
    exact .nil b

theorem taken_cons_iff {m : String × Json} {ms : List (String × Json)} :
    Taken step (m :: ms) a b ↔ ∃ c, step m a c ∧ Taken step ms c b := by
  constructor
  · intro h
    cases h with
    | cons hm hms => exact ⟨_, hm, hms⟩
  · rintro ⟨c, hm, hms⟩
    exact .cons hm hms

theorem foldlM_eq_ok_iff {f : β → String × Json → Except Cause β}
    (hf : ∀ m a b, f a m = .ok b ↔ step m a b) {ms : List (String × Json)} :
    ms.foldlM f a = .ok b ↔ Taken step ms a b := by
  induction ms generalizing a with
  | nil =>
    rw [taken_nil_iff]
    exact ⟨fun h => (Except.ok.inj h).symm, fun h => congrArg Except.ok h.symm⟩
  | cons m ms ih =>
    rw [List.foldlM_cons, taken_cons_iff]
    simp only [← hf, ← ih]
    cases f a m with
    | error cause => exact iff_of_false nofun fun ⟨_, h, _⟩ => nomatch h
    | ok c => simp [bind, Except.bind]

end

section

variable {α : Type}

/-- A null stands for none, and another value for what the rule says. -/
inductive OrNull (rule : Json → α → Prop) : Json → Option α → Prop where
  | null : OrNull rule .null none
  | given {v : Json} {a : α} : v ≠ .null → rule v a → OrNull rule v (some a)

/-- What a field holds by the values that are given for it: one, or none if it may be absent. -/
inductive Held (presence : Presence) (rule : Json → α → Prop) (empty : α) :
    List Json → α → Prop where
  | absent : presence ≠ .required → Held presence rule empty [] empty
  | present {v : Json} {a : α} : rule v a → Held presence rule empty [v] a

inductive Filling (rule : Json → α → Prop) : List Json → Option α → Option α → Prop where
  | kept (slot : Option α) : Filling rule [] slot slot
  | filled {v : Json} {a : α} : rule v a → Filling rule [v] none (some a)

theorem filling_nil_iff {rule : Json → α → Prop} {a b : Option α} :
    Filling rule [] a b ↔ b = a := by
  constructor
  · intro h
    cases h
    rfl
  · rintro rfl
    exact .kept b

theorem filling_singleton_iff {rule : Json → α → Prop} {v : Json} {a b : Option α} :
    Filling rule [v] a b ↔ a = none ∧ ∃ x, rule v x ∧ b = some x := by
  constructor
  · intro h
    cases h with
    | filled hx => exact ⟨rfl, _, hx, rfl⟩
  · rintro ⟨rfl, x, hx, rfl⟩
    exact .filled hx

theorem filling_append {rule : Json → α → Prop} {vs ws : List Json} {a c : Option α} :
    Filling rule (vs ++ ws) a c ↔ ∃ b, Filling rule vs a b ∧ Filling rule ws b c := by
  constructor
  · intro h
    cases vs with
    | nil => exact ⟨a, .kept a, h⟩
    | cons v vs =>
      generalize hall : v :: vs ++ ws = all at h
      cases h with
      | kept => cases hall
      | @filled v' x hx =>
        obtain ⟨rfl, hnil⟩ := List.cons.inj hall
        obtain ⟨rfl, rfl⟩ := List.append_eq_nil_iff.mp hnil
        exact ⟨some x, .filled hx, .kept _⟩
  · rintro ⟨b, hvs, hws⟩
    cases hvs with
    | kept => exact hws
    | filled hx =>
      cases hws with
      | kept => exact .filled hx

section

variable {presence : Presence} {rule : Json → α → Prop} {empty x : α}

theorem held_nil_iff :
    Held presence rule empty [] x ↔ presence ≠ .required ∧ empty = x := by
  constructor
  · intro h
    cases h with
    | absent hpresence => exact ⟨hpresence, rfl⟩
  · rintro ⟨hpresence, rfl⟩
    exact .absent hpresence

theorem held_singleton_iff {v : Json} : Held presence rule empty [v] x ↔ rule v x := by
  constructor
  · intro h
    cases h with
    | present hx => exact hx
  · exact .present

theorem held_iff {vs : List Json} :
    Held presence rule empty vs x ↔
      ∃ slot, Filling rule vs none slot ∧
        (slot = some x ∨ slot = none ∧ presence ≠ .required ∧ empty = x) := by
  constructor
  · intro h
    cases h with
    | absent hpresence => exact ⟨none, .kept none, Or.inr ⟨rfl, hpresence, rfl⟩⟩
    | present hx => exact ⟨some x, .filled hx, Or.inl rfl⟩
  · rintro ⟨slot, hslot, rfl | ⟨rfl, hpresence, rfl⟩⟩
    · cases hslot with
      | filled hx => exact .present hx
    · cases hslot with
      | kept => exact .absent hpresence

end

end

def Fields.Rules : Fields → Type
  | .nil => Unit
  | .cons _ _ shape rest => (Json → shape.Carrier → Prop) × rest.Rules

def Fields.Filled (ms : List (String × Json)) :
    (fields : Fields) → fields.Rules → fields.Carrier → Prop
  | .nil, _, _ => True
  | .cons name presence shape rest, (rule, rules), (x, y) =>
    Held presence rule shape.empty (Json.valuesOf name ms) x ∧ rest.Filled ms rules y

/-- Each field is held as its rule says by the item at its place, and there are no more items. -/
def Fields.Itemized : (fields : Fields) → fields.Rules → List Json → fields.Carrier → Prop
  | .nil, _, vs, _ => vs = []
  | .cons _ presence shape rest, (rule, rules), vs, (x, y) =>
    Held presence rule shape.empty (vs.take 1) x ∧ rest.Itemized rules (vs.drop 1) y

/-- A record is an object of its fields or a list of them. -/
def Fields.Recorded (fields : Fields) (rules : fields.Rules) : Json → fields.Carrier → Prop
  | .object ms, x => fields.Filled ms rules x
  | .array vs, x => fields.Itemized rules vs x
  | _, _ => False

def Fields.Fill (ms : List (String × Json)) :
    (fields : Fields) → fields.Rules → fields.Slots → fields.Slots → Prop
  | .nil, _, _, _ => True
  | .cons name _ _ rest, (rule, rules), (slot, slots), (slot', slots') =>
    Filling rule (Json.valuesOf name ms) slot slot' ∧ rest.Fill ms rules slots slots'

section

variable {ms ns : List (String × Json)}

section

variable {name : String} {presence : Presence} {shape : Shape} {rest : Fields}
  {rule : Json → shape.Carrier → Prop} {rules : rest.Rules} {x : shape.Carrier} {y : rest.Carrier}
  {slot slot' : Option shape.Carrier} {slots slots' : rest.Slots}

theorem filled_cons_iff : (Fields.cons name presence shape rest).Filled ms (rule, rules) (x, y) ↔
    Held presence rule shape.empty (Json.valuesOf name ms) x ∧ rest.Filled ms rules y := Iff.rfl

theorem itemized_cons_iff {vs : List Json} :
    (Fields.cons name presence shape rest).Itemized (rule, rules) vs (x, y) ↔
      Held presence rule shape.empty (vs.take 1) x ∧ rest.Itemized rules (vs.drop 1) y := Iff.rfl

theorem fill_cons_iff : (Fields.cons name presence shape rest).Fill ms (rule, rules) (slot, slots)
    (slot', slots') ↔
      Filling rule (Json.valuesOf name ms) slot slot' ∧ rest.Fill ms rules slots slots' := Iff.rfl

end

theorem fill_of_not_mem_names : {fields : Fields} → {rules : fields.Rules} →
    {a b : fields.Slots} → (∀ m ∈ ms, m.1 ∉ fields.names) → (fields.Fill ms rules a b ↔ b = a)
  | .nil, _, (), (), _ => iff_of_true trivial rfl
  | .cons name _ _ rest, (rule, rules), (slot, slots), (slot', slots'), h => by
    have hnone : Json.valuesOf name ms = [] :=
      Json.valuesOf_eq_nil fun m hm heq => h m hm (heq ▸ List.mem_cons_self)
    have hrest : rest.Fill ms rules slots slots' ↔ slots' = slots :=
      fill_of_not_mem_names fun m hm hmem => h m hm (List.mem_cons_of_mem name hmem)
    rw [fill_cons_iff, hnone, filling_nil_iff, hrest]
    exact (Prod.mk.injEq slot' slots' slot slots).symm ▸ Iff.rfl

theorem fill_append : {fields : Fields} → {rules : fields.Rules} → {a c : fields.Slots} →
    (fields.Fill (ms ++ ns) rules a c ↔
      ∃ b, fields.Fill ms rules a b ∧ fields.Fill ns rules b c)
  | .nil, _, (), () => iff_of_true trivial ⟨(), trivial, trivial⟩
  | .cons name _ _ rest, (rule, rules), (slot, slots), (slot', slots') => by
    have hrest : rest.Fill (ms ++ ns) rules slots slots' ↔
        ∃ b, rest.Fill ms rules slots b ∧ rest.Fill ns rules b slots' := fill_append
    simp only [fill_cons_iff, Json.valuesOf_append, filling_append, hrest]
    constructor
    · rintro ⟨⟨b, h₁, h₂⟩, ⟨bs, h₃, h₄⟩⟩
      exact ⟨(b, bs), ⟨h₁, h₃⟩, ⟨h₂, h₄⟩⟩
    · rintro ⟨⟨b, bs⟩, ⟨h₁, h₃⟩, ⟨h₂, h₄⟩⟩
      exact ⟨⟨b, h₁, h₂⟩, ⟨bs, h₃, h₄⟩⟩

theorem taken_fill_iff {fields : Fields} {rules : fields.Rules} {a b : fields.Slots} :
    Taken (fun m => fields.Fill [m] rules) ms a b ↔ fields.Fill ms rules a b := by
  induction ms generalizing a with
  | nil => rw [taken_nil_iff, fill_of_not_mem_names (by simp)]
  | cons m ms ih =>
    have hsplit : fields.Fill ([m] ++ ms) rules a b ↔
        ∃ c, fields.Fill [m] rules a c ∧ fields.Fill ms rules c b := fill_append
    rw [List.singleton_append] at hsplit
    rw [taken_cons_iff, hsplit]
    simp only [ih]

theorem fill_own {name : String} {presence : Presence} {shape : Shape} {rest : Fields}
    (hname : name ∉ rest.names) {rule : Json → shape.Carrier → Prop} {rules : rest.Rules}
    {v : Json} {slot slot' : Option shape.Carrier} {slots slots' : rest.Slots} :
    (Fields.cons name presence shape rest).Fill [(name, v)] (rule, rules) (slot, slots)
        (slot', slots') ↔
      slots' = slots ∧ slot = none ∧ ∃ x, rule v x ∧ slot' = some x := by
  have hrest : rest.Fill [(name, v)] rules slots slots' ↔ slots' = slots :=
    fill_of_not_mem_names (by simpa using hname)
  rw [fill_cons_iff, hrest, Json.valuesOf_singleton, if_pos rfl, filling_singleton_iff, and_comm]

theorem fill_other {name key : String} {presence : Presence} {shape : Shape} {rest : Fields}
    (hkey : key ≠ name) {rule : Json → shape.Carrier → Prop} {rules : rest.Rules}
    {v : Json} {slot slot' : Option shape.Carrier} {slots slots' : rest.Slots} :
    (Fields.cons name presence shape rest).Fill [(key, v)] (rule, rules) (slot, slots)
        (slot', slots') ↔
      slot' = slot ∧ rest.Fill [(key, v)] rules slots slots' := by
  rw [fill_cons_iff, Json.valuesOf_singleton, if_neg hkey, filling_nil_iff]

theorem map_mk_eq_ok_iff {α β : Type} {e : Except Cause β} {a a' : α} {b : β} :
    e.map (fun b => (a, b)) = .ok (a', b) ↔ a = a' ∧ e = .ok b := by
  cases e <;> simp [Except.map]

theorem bind_mk_eq_ok_iff {α β : Type} {e : Except Cause α} {g : Except Cause β} {a : α} {b : β} :
    (do
      let a ← e
      return (a, ← g)) = .ok (a, b) ↔ e = .ok a ∧ g = .ok b := by
  cases e with
  | error cause => exact iff_of_false nofun fun h => nomatch h.1
  | ok a' =>
    cases g with
    | error cause => exact iff_of_false nofun fun h => nomatch h.2
    | ok b' =>
      simp only [Except.ok.injEq, ← Prod.mk.injEq]
      exact ⟨Except.ok.inj, congrArg Except.ok⟩

theorem ofSlots_cons_eq_ok_iff {name : String} {presence : Presence} {shape : Shape}
    {rest : Fields} {slot : Option shape.Carrier} {slots : rest.Slots} {x : shape.Carrier}
    {y : rest.Carrier} :
    (Fields.cons name presence shape rest).ofSlots (slot, slots) = .ok (x, y) ↔
      (slot = some x ∨ slot = none ∧ presence ≠ .required ∧ shape.empty = x) ∧
        rest.ofSlots slots = .ok y := by
  cases slot with
  | some z =>
    have hmap : (Fields.cons name presence shape rest).ofSlots (some z, slots) = .ok (x, y) ↔
        z = x ∧ rest.ofSlots slots = .ok y := map_mk_eq_ok_iff
    rw [hmap]
    simp
  | none =>
    by_cases hpresence : presence = .required
    · have herror : (Fields.cons name presence shape rest).ofSlots (none, slots) =
          .error (.missingField name) := if_pos hpresence
      rw [herror]
      simp [hpresence]
    · have hempty : (Fields.cons name presence shape rest).ofSlots (none, slots) =
          (rest.ofSlots slots).map fun y => (shape.empty, y) := if_neg hpresence
      have hmap : (rest.ofSlots slots).map (fun y => (shape.empty, y)) = .ok (x, y) ↔
          shape.empty = x ∧ rest.ofSlots slots = .ok y := map_mk_eq_ok_iff
      rw [hempty]
      refine hmap.trans ?_
      simp [hpresence]

/-- Free slots that are filled by members make up the record that holds them. -/
theorem filled_iff : {fields : Fields} → {rules : fields.Rules} → {x : fields.Carrier} →
    (fields.Filled ms rules x ↔
      ∃ slots, fields.Fill ms rules fields.noSlots slots ∧ fields.ofSlots slots = .ok x)
  | .nil, _, () => iff_of_true trivial ⟨(), trivial, rfl⟩
  | .cons name presence shape rest, (rule, rules), (x, y) => by
    rw [filled_cons_iff, filled_iff, held_iff]
    constructor
    · rintro ⟨⟨slot, hslot, hx⟩, slots, hfill, hslots⟩
      exact ⟨(slot, slots), ⟨hslot, hfill⟩, ofSlots_cons_eq_ok_iff.mpr ⟨hx, hslots⟩⟩
    · rintro ⟨⟨slot, slots⟩, ⟨hslot, hfill⟩, hslots⟩
      obtain ⟨hx, hslots⟩ := ofSlots_cons_eq_ok_iff.mp hslots
      exact ⟨⟨slot, hslot, hx⟩, slots, hfill, hslots⟩

end

def Shape.ReadBy (s : Shape) (rule : Json → s.Carrier → Prop) : Prop :=
  ∀ v x, s.ofJson v = .ok x ↔ rule v x

def Fields.Obey (law : (s : Shape) → (Json → s.Carrier → Prop) → Prop) :
    (fields : Fields) → fields.Rules → Prop
  | .nil, _ => True
  | .cons _ _ shape rest, (rule, rules) => law shape rule ∧ rest.Obey law rules

theorem readBy_text : Shape.text.ReadBy fun v t => v = .string t :=
  fun _ _ => ofJson_text_eq_ok_iff

theorem readBy_signed : Shape.signed.ReadBy fun v n => v = .integer (SignedWord.toInt n) :=
  fun _ _ => ofJson_signed_eq_ok_iff

theorem readBy_value : Shape.value.ReadBy fun v w => v.reread Json.ofBytes = .ok w :=
  fun _ _ => Iff.rfl

theorem readBy_requestId : Shape.requestId.ReadBy fun v id => v = Shape.requestId.toJson id := by
  intro v id
  constructor
  · intro h
    change requestIdOfJson v = .ok id at h
    unfold requestIdOfJson at h
    split at h
    · obtain rfl := Except.ok.inj h
      rfl
    · obtain rfl := Except.ok.inj h
      rfl
    · rename_i n
      split_ifs at h with hn
      obtain ⟨w, hw, rfl⟩ := Option.map_eq_some_iff.mp (orElse_eq_ok_iff.mp h)
      have hn' : n = w.toNat := by
        rw [Word.ofNat?_eq_some_iff.mp hw, Int.toNat_of_nonneg (Int.not_lt.mp hn)]
      rw [hn']
      rfl
    · cases h
  · rintro rfl
    exact requestIdOfJson_toJson id

theorem readBy_nullable {item : Shape} {rule : Json → item.Carrier → Prop}
    (h : item.ReadBy rule) : (Shape.nullable item).ReadBy (OrNull rule) := by
  intro v o
  by_cases hv : v = .null
  · subst hv
    constructor
    · intro hnone
      obtain rfl := Except.ok.inj hnone
      exact .null
    · intro hnone
      cases hnone with
      | null => rfl
      | given hne => exact absurd rfl hne
  · rw [ofJson_nullable_of_ne_null hv]
    constructor
    · intro hsome
      cases hx : item.ofJson v with
      | error cause =>
        rw [hx] at hsome
        cases hsome
      | ok x =>
        rw [hx] at hsome
        obtain rfl := Except.ok.inj hsome
        exact .given hv ((h v x).mp hx)
    · intro hsome
      cases hsome with
      | null => exact absurd rfl hv
      | given _ hx =>
        rw [(h v _).mpr hx]
        rfl

section

theorem put_eq_ok_iff : {fields : Fields} → {rules : fields.Rules} →
    fields.Obey Shape.ReadBy rules → fields.names.Nodup → {m : String × Json} →
    {a b : fields.Slots} → (fields.put m.1 m.2 a = .ok b ↔ fields.Fill [m] rules a b)
  | .nil, _, _, _, _, (), () => iff_of_true rfl trivial
  | .cons name presence shape rest, (rule, rules), ⟨hrule, hrules⟩, hnames, (key, v),
      (slot, slots), (slot', slots') => by
    obtain ⟨hname, hnames⟩ := List.nodup_cons.mp hnames
    rw [put_cons]
    by_cases hkey : key = name
    · subst hkey
      rw [if_pos rfl, fill_own hname]
      cases slot with
      | some z => simp
      | none =>
        change (shape.ofJson v).map (fun x => (some x, slots)) = .ok (slot', slots') ↔ _
        simp only [← hrule v]
        cases shape.ofJson v with
        | error cause => simp [Except.map]
        | ok x =>
          have hmap : (Except.map (fun x => (some x, slots)) (.ok x) : Except Cause _) =
              .ok (slot', slots') ↔ (some x, slots) = (slot', slots') :=
            ⟨Except.ok.inj, congrArg Except.ok⟩
          refine hmap.trans ?_
          simp [Prod.mk.injEq, eq_comm, and_comm]
    · have hmap : (rest.put key v slots).map (fun slots => (slot, slots)) = .ok (slot', slots') ↔
          slot = slot' ∧ rest.put key v slots = .ok slots' := map_mk_eq_ok_iff
      rw [if_neg hkey, fill_other hkey, eq_comm (a := slot'), ← put_eq_ok_iff hrules hnames]
      exact hmap

theorem putAll_eq_ok_iff {fields : Fields} {rules : fields.Rules}
    (hrules : fields.Obey Shape.ReadBy rules) (hnames : fields.names.Nodup)
    {ms : List (String × Json)} {a c : fields.Slots} :
    fields.putAll ms a = .ok c ↔ fields.Fill ms rules a c := by
  rw [← taken_fill_iff]
  exact foldlM_eq_ok_iff (fun m a b => put_eq_ok_iff hrules hnames)

theorem ofItems_eq_ok_iff (owner : String) (given total : Nat) :
    {fields : Fields} → {rules : fields.Rules} → fields.Obey Shape.ReadBy rules →
    (index : Nat) → (vs : List Json) → (x : fields.Carrier) →
    (fields.ofItems owner given total index vs = .ok x ↔ fields.Itemized rules vs x)
  | .nil, _, _, index, vs, () => by
    change (if vs.isEmpty then Except.ok () else Except.error _) = _ ↔ vs = []
    cases vs with
    | nil => exact iff_of_true rfl rfl
    | cons v vs => exact iff_of_false nofun nofun
  | .cons name presence shape rest, (rule, rules), ⟨hrule, hrules⟩, index, [], (x, y) => by
    have hrest := ofItems_eq_ok_iff owner given total hrules (index + 1) [] y
    change _ ↔ Held presence rule shape.empty [] x ∧ rest.Itemized rules [] y
    rw [← hrest]
    -- a field that is left out fails where it is required and is empty elsewhere
    by_cases hpresence : presence = .required
    · have herror : (Fields.cons name presence shape rest).ofItems owner given total index [] =
          .error (.wrongLength index (elements owner total)) := by
        subst hpresence
        rfl
      rw [herror]
      exact iff_of_false nofun fun h => (held_nil_iff.mp h.1).1 hpresence
    · have hempty : (Fields.cons name presence shape rest).ofItems owner given total index [] =
          (do
            let x ← Except.ok shape.empty
            return (x, ← rest.ofItems owner given total (index + 1) [])) := if_neg hpresence
      have hmap : (do
          let x ← Except.ok shape.empty
          return (x, ← rest.ofItems owner given total (index + 1) [])) = .ok (x, y) ↔
            Except.ok shape.empty = Except.ok x ∧
              rest.ofItems owner given total (index + 1) [] = .ok y := bind_mk_eq_ok_iff
      rw [hempty]
      refine hmap.trans (and_congr_left fun _ => ?_)
      rw [held_nil_iff, and_iff_right hpresence, Except.ok.injEq]
  | .cons name presence shape rest, (rule, rules), ⟨hrule, hrules⟩, index, v :: vs, (x, y) => by
    have hrest := ofItems_eq_ok_iff owner given total hrules (index + 1) vs y
    change _ ↔ Held presence rule shape.empty [v] x ∧ rest.Itemized rules vs y
    rw [held_singleton_iff, ← hrule v x, ← hrest]
    exact bind_mk_eq_ok_iff

theorem putAll_bind_ofSlots_iff {fields : Fields} {rules : fields.Rules}
    (hrules : fields.Obey Shape.ReadBy rules) (hnames : fields.names.Nodup)
    {ms : List (String × Json)} {x : fields.Carrier} :
    (fields.putAll ms fields.noSlots >>= fields.ofSlots) = .ok x ↔ fields.Filled ms rules x := by
  simp only [filled_iff, ← putAll_eq_ok_iff hrules hnames]
  cases fields.putAll ms fields.noSlots with
  | error cause => exact iff_of_false nofun fun ⟨_, h, _⟩ => nomatch h
  | ok slots => simp [bind, Except.bind]

/-- A value is data of a record shape exactly if it is recorded by the rules of its fields. -/
theorem readBy_record {name : String} {fields : Fields} {rules : fields.Rules}
    (hrules : fields.Obey Shape.ReadBy rules) (hnames : fields.names.Nodup) :
    (Shape.record name fields).ReadBy (fields.Recorded rules) := by
  intro v x
  cases v with
  | array vs => exact ofItems_eq_ok_iff name vs.length fields.length hrules 0 vs x
  | object ms => exact putAll_bind_ofSlots_iff hrules hnames
  | _ => exact iff_of_false (fun h => nomatch h) id

end

end Wire

end ChainGateway
