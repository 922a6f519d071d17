import ChainGateway.Proofs.FieldRules
import ChainGateway.Proofs.ValueSkip

namespace ChainGateway.Wire

open Json (Cause Cursor Reader)
open Json.Reader

/-- Where a document is read, data of the shape are read exactly if the rule says so of the
document, and up to the same place. -/
def Shape.FollowedBy (s : Shape) (rule : Json → s.Carrier → Prop) : Prop :=
  ∀ {depth : Nat} {c c' : Cursor} {d : Json}, verbatim depth c = .ok d c' →
    ∀ x c'', s.read depth c = .ok x c'' ↔ rule d x ∧ c'' = c'

section

variable {α : Type} {a : α} {c c' : Cursor}

theorem numeric_eq_ok_iff {wanted : String} {use : Json → Except Cause α} :
    numeric wanted use c = .ok a c' ↔
      ∃ v, (c.token.rest.head? = some 45 ∧ number true c.token.advance = .ok v c' ∨
        (∃ b, c.token.rest.head? = some b ∧ isDigit b = true) ∧ number false c.token = .ok v c') ∧
        use v = .ok a := by
  unfold numeric
  rw [placed_eq_ok_iff, peekToken?_bind]
  cases c.token.rest.head? with
  | none => simp
  | some d =>
    by_cases hminus : d = 45
    · have hdigit : isDigit 45 = false := rfl
      simp [hminus, hdigit, bind_eq_ok_iff]
    · by_cases hdigit : isDigit d = true
      · simp [hminus, hdigit, bind_eq_ok_iff]
      · simp [hminus, hdigit, misfit_ne_ok]

end

section

variable {depth : Nat} {c c' : Cursor} {d : Json} (h : verbatim depth c = .ok d c')

include h

theorem read_text_eq_ok_iff {t : String} {c'' : Cursor} {wanted : String} :
    (startingWith 34 wanted (do
      advance
      let t ← stringBody
      return t) : Reader String) c = .ok t c'' ↔ d = .string t ∧ c'' = c' := by
  rw [startingWith_eq_ok_iff, advance_bind]
  cases layer_of_verbatim h with
  | scalar hscalar =>
    cases hscalar with
    | null hhead hkeyword => simp [hhead]
    | true hhead hkeyword => simp [hhead]
    | false hhead hkeyword => simp [hhead]
    | negative hhead hnumber =>
      cases (number_eq_ok hnumber).1 <;> simp [hhead]
    | positive hhead hb hnumber =>
      have hquote := ne_of_isDigit (d := 34) hb rfl
      cases (number_eq_ok hnumber).1 <;> simp [hhead, hquote]
    | string hhead hstring => simp [hhead, hstring, eq_comm]
  | list hhead _ _ => simp [hhead]
  | object hhead _ _ => simp [hhead]

theorem numeric_eq_ok_iff_of_verbatim {α : Type} {wanted : String} {use : Json → Except Cause α}
    (huse : ∀ v a, use v = .ok a → Json.Numeral v) {a : α} {c'' : Cursor} :
    numeric wanted use c = .ok a c'' ↔ use d = .ok a ∧ c'' = c' := by
  have hother (hd : ¬ Json.Numeral d) : ¬ use d = .ok a := fun ha => hd (huse d a ha)
  rw [numeric_eq_ok_iff, and_comm (b := c'' = c'), eq_comm (a := c'')]
  cases layer_of_verbatim h with
  | scalar hscalar =>
    cases hscalar with
    | null hhead hkeyword => simp [hhead, hother nofun, show isDigit 110 = false from rfl]
    | true hhead hkeyword => simp [hhead, hother nofun, show isDigit 116 = false from rfl]
    | false hhead hkeyword => simp [hhead, hother nofun, show isDigit 102 = false from rfl]
    | negative hhead hnumber =>
      simp [hhead, hnumber, show isDigit 45 = false from rfl]
    | positive hhead hb hnumber =>
      have hminus := ne_of_isDigit (d := 45) hb rfl
      simp [hhead, hnumber, hminus, hb]
    | string hhead hstring => simp [hhead, hother nofun, show isDigit 34 = false from rfl]
  | list hhead _ _ => simp [hhead, hother nofun, show isDigit 91 = false from rfl]
  | object hhead _ _ => simp [hhead, hother nofun, show isDigit 123 = false from rfl]

end

theorem followedBy_text : Shape.text.FollowedBy fun d t => d = .string t :=
  fun h _ _ => read_text_eq_ok_iff h

theorem followedBy_signed :
    Shape.signed.FollowedBy fun d n => d = .integer (SignedWord.toInt n) := by
  intro depth c c' d h n c''
  rw [← readBy_signed d n]
  refine numeric_eq_ok_iff_of_verbatim h fun v a ha => ?_
  rw [(readBy_signed v a).mp ha]
  exact .integer _

theorem followedBy_value : Shape.value.FollowedBy fun d v => d.reread Json.ofBytes = .ok v := by
  intro depth c c' d h v c''
  refine value_eq_ok_iff.trans ?_
  rw [h]
  constructor
  · rintro ⟨_, heq, hv⟩
    obtain ⟨rfl, rfl⟩ := EStateM.Result.ok.inj heq
    exact ⟨hv, rfl⟩
  · rintro ⟨hv, rfl⟩
    exact ⟨d, rfl, hv⟩

theorem followedBy_requestId :
    Shape.requestId.FollowedBy fun d id => d = Shape.requestId.toJson id := by
  intro depth c c' d h id c''
  have hread : (do
      let id ← lift (requestIdOfJson (← verbatim depth))
      return id : Reader Rpc.RequestId) c = .ok id c'' ↔
        requestIdOfJson d = .ok id ∧ c'' = c' := by
    rw [bind_of_eq_ok h]
    exact lift_eq_ok_iff
  exact hread.trans (and_congr_left fun _ => readBy_requestId d id)

theorem null_or_not_null {depth : Nat} {c c' : Cursor} {d : Json}
    (h : verbatim depth c = .ok d c') :
    (d = .null ∧ c.token.rest.head? = some 110 ∧
      keyword [117, 108, 108] c.token.advance = .ok () c') ∨
    (d ≠ .null ∧ c.token.rest.head? ≠ some 110) := by
  cases layer_of_verbatim h with
  | scalar hscalar =>
    cases hscalar with
    | null hhead hkeyword => exact Or.inl ⟨rfl, hhead, hkeyword⟩
    | true hhead hkeyword => exact Or.inr (by simp [hhead])
    | false hhead hkeyword => exact Or.inr (by simp [hhead])
    | negative hhead hnumber => cases (number_eq_ok hnumber).1 <;> exact Or.inr (by simp [hhead])
    | positive hhead hb hnumber =>
      have hne := ne_of_isDigit (d := 110) hb rfl
      cases (number_eq_ok hnumber).1 <;> exact Or.inr (by simp [hhead, hne])
    | string hhead hstring => exact Or.inr (by simp [hhead])
  | list hhead _ _ => exact Or.inr (by simp [hhead])
  | object hhead _ _ => exact Or.inr (by simp [hhead])

theorem read_nullable_eq_ok_iff {item : Shape} {rule : Json → item.Carrier → Prop}
    (hitem : item.FollowedBy rule) {depth : Nat} {c c' c'' : Cursor} {d : Json}
    (h : verbatim depth c = .ok d c') {o : Option item.Carrier} :
    (do
      if (← peekToken?) = some 110 then
        advance
        keyword [117, 108, 108]
        return none
      else
        let x ← item.read depth
        return some x : Reader (Option item.Carrier)) c = .ok o c'' ↔
      OrNull rule d o ∧ c'' = c' := by
  rw [peekToken?_bind]
  obtain ⟨rfl, hhead, hkeyword⟩ | ⟨hd, hhead⟩ := null_or_not_null h
  · simp only [hhead, ↓reduceIte, advance_bind]
    rw [bind_of_eq_ok hkeyword, pure_apply, EStateM.Result.ok.injEq]
    constructor
    · rintro ⟨rfl, rfl⟩
      exact ⟨.null, rfl⟩
    · rintro ⟨hnull, rfl⟩
      cases hnull with
      | null => exact ⟨rfl, rfl⟩
      | given hne => exact absurd rfl hne
  · simp only [hhead, ↓reduceIte, bind_eq_ok_iff, pure_apply, EStateM.Result.ok.injEq,
      hitem ((verbatim_token depth c).trans h)]
    constructor
    · rintro ⟨x, _, ⟨hx, rfl⟩, rfl, rfl⟩
      exact ⟨.given hd hx, rfl⟩
    · rintro ⟨hgiven, rfl⟩
      cases hgiven with
      | null => exact absurd rfl hd
      | given _ hx => exact ⟨_, _, ⟨hx, rfl⟩, rfl, rfl⟩

theorem followedBy_nullable {item : Shape} {rule : Json → item.Carrier → Prop}
    (hitem : item.FollowedBy rule) : (Shape.nullable item).FollowedBy (OrNull rule) := by
  intro depth c c' d h o c''
  rw [Shape.read]
  exact read_nullable_eq_ok_iff hitem h

section

variable {depth : Nat}

section

variable {name key : String} {presence : Presence} {shape : Shape} {rest : Fields}
  {rule : Json → shape.Carrier → Prop} {rules : rest.Rules} {v : Json} {c c₁ c' c'' : Cursor}
  {slot slot' : Option shape.Carrier} {slots slots' : rest.Slots}

theorem readMember_own_eq_ok_iff (hrule : shape.FollowedBy rule) (hname : name ∉ rest.names)
    (hcolon : colon c = .ok () c₁) (hvalue : verbatim depth c₁ = .ok v c') :
    (Fields.cons name presence shape rest).readMember depth name (slot, slots) c =
        .ok (slot', slots') c'' ↔
      (Fields.cons name presence shape rest).Fill [(name, v)] (rule, rules) (slot, slots)
        (slot', slots') ∧ c'' = c' := by
  rw [fill_own hname]
  cases slot with
  | some z =>
    have htwice : (Fields.cons name presence shape rest).readMember depth name (some z, slots) =
        fail (.duplicateField name) := if_pos rfl
    rw [htwice]
    exact iff_of_false fail_ne_ok fun h => nomatch h.1.2.1
  | none =>
    have hown : (Fields.cons name presence shape rest).readMember depth name (none, slots) = (do
        colon
        let x ← shape.read depth
        return (some x, slots) : Reader (Option shape.Carrier × rest.Slots)) := if_pos rfl
    have hread : (do
        colon
        let x ← shape.read depth
        return (some x, slots) : Reader (Option shape.Carrier × rest.Slots)) c =
          .ok (slot', slots') c'' ↔
            ∃ x, (rule v x ∧ c'' = c') ∧ (some x, slots) = (slot', slots') := by
      rw [bind_of_eq_ok hcolon, bind_pure_eq_ok_iff]
      simp only [hrule hvalue]
    rw [hown]
    refine hread.trans ?_
    constructor
    · rintro ⟨x, ⟨hx, hc⟩, hslots⟩
      obtain ⟨rfl, rfl⟩ := Prod.mk.inj hslots
      exact ⟨⟨rfl, rfl, x, hx, rfl⟩, hc⟩
    · rintro ⟨⟨rfl, -, x, hx, rfl⟩, hc⟩
      exact ⟨x, ⟨hx, hc⟩, rfl⟩

theorem readMember_other_eq_ok_iff (hkey : key ≠ name)
    (hrest : ∀ s, rest.readMember depth key slots c = .ok s c'' ↔
      rest.Fill [(key, v)] rules slots s ∧ c'' = c') :
    (Fields.cons name presence shape rest).readMember depth key (slot, slots) c =
        .ok (slot', slots') c'' ↔
      (Fields.cons name presence shape rest).Fill [(key, v)] (rule, rules) (slot, slots)
        (slot', slots') ∧ c'' = c' := by
  have hother : (Fields.cons name presence shape rest).readMember depth key (slot, slots) = (do
      let slots ← rest.readMember depth key slots
      return (slot, slots) : Reader (Option shape.Carrier × rest.Slots)) := if_neg hkey
  have hread : (do
      let slots ← rest.readMember depth key slots
      return (slot, slots) : Reader (Option shape.Carrier × rest.Slots)) c =
        .ok (slot', slots') c'' ↔
          ∃ s, (rest.Fill [(key, v)] rules slots s ∧ c'' = c') ∧ (slot, s) = (slot', slots') := by
    rw [bind_pure_eq_ok_iff]
    simp only [hrest]
  rw [hother, fill_other hkey]
  refine hread.trans ?_
  constructor
  · rintro ⟨s, ⟨hs, hc⟩, hslots⟩
    obtain ⟨rfl, rfl⟩ := Prod.mk.inj hslots
    exact ⟨⟨rfl, hs⟩, hc⟩
  · rintro ⟨⟨rfl, hs⟩, hc⟩
    exact ⟨slots', ⟨hs, hc⟩, rfl⟩

end

theorem readMember_eq_ok_iff : {fields : Fields} → {rules : fields.Rules} →
    fields.Obey Shape.FollowedBy rules → fields.names.Nodup → {key : String} → {v : Json} →
    {c c₁ c' : Cursor} → colon c = .ok () c₁ → verbatim depth c₁ = .ok v c' →
    {a b : fields.Slots} → {c'' : Cursor} →
    (fields.readMember depth key a c = .ok b c'' ↔ fields.Fill [(key, v)] rules a b ∧ c'' = c')
  | .nil, _, _, _, key, v, c, c₁, c', hcolon, hvalue, (), (), c'' => by
    have hread : (do
        colon
        skip
        return () : Reader Unit) c = .ok () c'' ↔ c'' = c' := by
      rw [bind_of_eq_ok hcolon, bind_of_eq_ok (skip_of_verbatim hvalue)]
      simp [eq_comm]
    exact hread.trans (and_iff_right trivial).symm
  | .cons name presence shape rest, (rule, rules), ⟨hrule, hrules⟩, hnames, key, v, c, c₁, c',
      hcolon, hvalue, (slot, slots), (slot', slots'), c'' => by
    obtain ⟨hname, hnames⟩ := List.nodup_cons.mp hnames
    by_cases hkey : key = name
    · subst hkey
      exact readMember_own_eq_ok_iff hrule hname hcolon hvalue
    · exact readMember_other_eq_ok_iff hkey fun s =>
        readMember_eq_ok_iff hrules hnames hcolon hvalue

section

variable {owner name : String} {total index : Nat} {presence : Presence} {shape : Shape}
  {rest : Fields} {c c₁ c' : Cursor} {x : shape.Carrier} {y : rest.Carrier}

theorem readItems_given (hmore : anotherItem (index = 0) c = .ok true c₁) :
    (Fields.cons name presence shape rest).readItems owner total depth index c =
        .ok (x, y) c' ↔
      ∃ c₂, shape.read depth c₁ = .ok x c₂ ∧
        rest.readItems owner total depth (index + 1) c₂ = .ok y c' := by
  rw [Fields.readItems, bind_of_eq_ok hmore]
  exact bind_pair_eq_ok_iff

theorem readItems_absent (hmore : anotherItem (index = 0) c = .ok false c₁) :
    (Fields.cons name presence shape rest).readItems owner total depth index c =
        .ok (x, y) c' ↔
      (presence ≠ .required ∧ shape.empty = x) ∧
        rest.readItems owner total depth (index + 1) c₁ = .ok y c' := by
  have hread : (do
      let x ← pure shape.empty
      return (x, ← rest.readItems owner total depth (index + 1)) :
        Reader (shape.Carrier × rest.Carrier)) c₁ = .ok (x, y) c' ↔
      shape.empty = x ∧ rest.readItems owner total depth (index + 1) c₁ = .ok y c' := by
    rw [bind_pair_eq_ok_iff]
    simp only [pure_apply, EStateM.Result.ok.injEq]
    constructor
    · rintro ⟨c₂, ⟨hx, rfl⟩, hy⟩
      exact ⟨hx, hy⟩
    · rintro ⟨hx, hy⟩
      exact ⟨c₁, ⟨hx, rfl⟩, hy⟩
  rw [Fields.readItems, bind_of_eq_ok hmore]
  by_cases hpresence : presence = .required
  · simp only [hpresence, ↓reduceIte]
    exact iff_of_false fail_ne_ok fun h => h.1.1 rfl
  · simp only [hpresence, ↓reduceIte, ne_eq, not_false_eq_true, true_and]
    exact hread

end

theorem readItems_eq_ok_iff (owner : String) (total : Nat) : {fields : Fields} →
    {rules : fields.Rules} → fields.Obey Shape.FollowedBy rules → (index : Nat) → {c c' : Cursor} →
    {vs : List Json} → Items (verbatim depth) (decide (index = 0)) c vs c' →
    (x : fields.Carrier) → (c'' : Cursor) →
    ((∃ c₁, fields.readItems owner total depth index c = .ok x c₁ ∧ closeList c₁ = .ok () c'') ↔
      fields.Itemized rules vs x ∧ c'' = c')
  | .nil, _, _, index, c, c', vs, h, (), c'' => by
    have hread : (∃ c₁, (Fields.nil).readItems owner total depth index c = .ok () c₁ ∧
        closeList c₁ = .ok () c'') ↔ closeList c = .ok () c'' :=
      ⟨fun ⟨c₁, h₁, h₂⟩ => by rw [(EStateM.Result.ok.inj h₁).2]; exact h₂,
        fun h₂ => ⟨c, rfl, h₂⟩⟩
    rw [hread]
    cases h with
    | close hhead =>
      rw [closeList_eq_ok_iff, and_iff_right hhead]
      exact (and_iff_right rfl).symm
    | cons hmore _ _ =>
      exact iff_of_false (not_closeList_of_anotherItem hmore) fun h => nomatch h.1
  | .cons name presence shape rest, (rule, rules), ⟨hrule, hrules⟩, index, c, c', vs, h, (x, y),
      c'' => by
    -- without a value the rest of the fields must do without one too
    cases h with
    | close hhead =>
      have hmore := anotherItem_of_close hhead (decide (index = 0))
      have hrest := readItems_eq_ok_iff owner total hrules (index + 1)
        (Items.close (c := c.token) (by rw [token_token]; exact hhead)) y c''
      rw [token_token] at hrest
      change _ ↔ (Held presence rule shape.empty [] x ∧ rest.Itemized rules [] y) ∧ _
      simp only [readItems_absent hmore, held_nil_iff, and_assoc, exists_and_left, hrest]
    | @cons _ _ c₁ c₂ _ v vs hmore hitem hitems =>
      have hrest := readItems_eq_ok_iff owner total hrules (index + 1) hitems y c''
      change _ ↔ (Held presence rule shape.empty [v] x ∧ rest.Itemized rules vs y) ∧ _
      rw [held_singleton_iff, and_assoc, ← hrest]
      simp only [readItems_given hmore, hrule hitem]
      constructor
      · rintro ⟨c₃, ⟨_, ⟨hx, rfl⟩, hy⟩, hclose⟩
        exact ⟨hx, c₃, hy, hclose⟩
      · rintro ⟨hx, c₃, hy, hclose⟩
        exact ⟨c₃, ⟨c₂, ⟨hx, rfl⟩, hy⟩, hclose⟩

theorem closed_iff {α : Type} {close : Reader Unit} {byte : UInt8}
    (hclose : ∀ c c', close c = .ok () c' ↔
      c.token.rest.head? = some byte ∧ c' = c.token.advance)
    {c c₀ c'' : Cursor} (hhead : c.token.rest.head? = some byte) (hc₀ : c₀.token = c.token)
    {a b : α} :
    (∃ c₁, EStateM.Result.ok a c₀ = (.ok b c₁ : EStateM.Result Json.Fault Cursor α) ∧
      close c₁ = .ok () c'') ↔ b = a ∧ c'' = c.token.advance := by
  simp only [EStateM.Result.ok.injEq, hclose]
  constructor
  · rintro ⟨_, ⟨rfl, rfl⟩, -, rfl⟩
    exact ⟨rfl, by rw [hc₀]⟩
  · rintro ⟨rfl, rfl⟩
    exact ⟨c₀, ⟨rfl, rfl⟩, by rw [hc₀]; exact hhead, by rw [hc₀]⟩

section

variable {β : Type} {member : β → Reader β} {step : String × Json → β → β → Prop}
  (hmember : ∀ {k : String} {v : Json} {c c₁ c₂ c' : Cursor}, Json.Reader.name c = .ok k c₁ →
    colon c₁ = .ok () c₂ → verbatim depth c₂ = .ok v c' →
    ∀ a b c'', member a c = .ok b c'' ↔ step (k, v) a b ∧ c'' = c')

include hmember

/-- If each member makes a step, the members of an object make as many. -/
theorem members_go_eq_ok_iff {first : Bool} {c c' c'' : Cursor} {ms : List (String × Json)}
    (h : Members (verbatim depth) first c ms c') {fuel : Nat} (hfuel : ms.length ≤ fuel)
    {a b : β} :
    (∃ c₁, members.go member fuel first a c = .ok b c₁ ∧ closeObject c₁ = .ok () c'') ↔
      Taken step ms a b ∧ c'' = c' := by
  induction h generalizing fuel a with
  | @close first c hhead =>
    rw [taken_nil_iff]
    cases fuel with
    | zero => exact closed_iff (fun _ _ => closeObject_eq_ok_iff) hhead rfl
    | succ fuel =>
      simp only [members.go, bind_of_eq_ok (anotherMember_of_close hhead first)]
      exact closed_iff (fun _ _ => closeObject_eq_ok_iff) hhead (token_token c)
  | @cons first c c₁ c₂ c₃ c₄ c' k v ms hmore hname hcolon hvalue _ ih =>
    obtain ⟨fuel, rfl⟩ := Nat.exists_eq_succ_of_ne_zero (Nat.ne_zero_of_lt hfuel)
    simp only [members.go, bind_of_eq_ok hmore, ↓reduceIte, bind_eq_ok_iff, taken_cons_iff,
      hmember hname hcolon hvalue]
    constructor
    · rintro ⟨c₅, ⟨s, _, ⟨hs, rfl⟩, hgo⟩, hclose⟩
      obtain ⟨hb, hc⟩ := (ih (Nat.le_of_succ_le_succ hfuel)).mp ⟨c₅, hgo, hclose⟩
      exact ⟨⟨s, hs, hb⟩, hc⟩
    · rintro ⟨⟨s, hs, hb⟩, hc⟩
      obtain ⟨c₅, hgo, hclose⟩ := (ih (Nat.le_of_succ_le_succ hfuel)).mpr ⟨hb, hc⟩
      exact ⟨c₅, ⟨s, c₄, ⟨hs, rfl⟩, hgo⟩, hclose⟩

theorem members_eq_ok_iff {c c' c'' : Cursor} {ms : List (String × Json)}
    (hlength : ms.length ≤ c.left + 1) (h : Members (verbatim depth) true c ms c') {a b : β} :
    (∃ c₁, members member a c = .ok b c₁ ∧ closeObject c₁ = .ok () c'') ↔
      Taken step ms a b ∧ c'' = c' :=
  members_go_eq_ok_iff hmember h hlength

end

theorem membersOfFields_eq_ok_iff {fields : Fields} {rules : fields.Rules}
    (hrules : fields.Obey Shape.FollowedBy rules) (hnames : fields.names.Nodup)
    {c c' c'' : Cursor} {ms : List (String × Json)} (hlength : ms.length ≤ c.left + 1)
    (h : Members (verbatim depth) true c ms c') {x : fields.Carrier} :
    (∃ c₁, (do
      let slots ← members (named (fields.readMember depth)) fields.noSlots
      lift (fields.ofSlots slots) : Reader fields.Carrier) c = .ok x c₁ ∧
        closeObject c₁ = .ok () c'') ↔ fields.Filled ms rules x ∧ c'' = c' := by
  have hmembers {b : fields.Slots} :
      (∃ c₁, members (named (fields.readMember depth)) fields.noSlots c = .ok b c₁ ∧
        closeObject c₁ = .ok () c'') ↔ fields.Fill ms rules fields.noSlots b ∧ c'' = c' := by
    rw [← taken_fill_iff]
    refine members_eq_ok_iff (fun hname hcolon hvalue a b c'' => ?_) hlength h
    rw [named, bind_of_eq_ok hname, readMember_eq_ok_iff hrules hnames hcolon hvalue]
  simp only [bind_eq_ok_iff, lift_eq_ok_iff]
  rw [filled_iff]
  constructor
  · rintro ⟨c₁, ⟨slots, _, hslots, hx, rfl⟩, hclose⟩
    obtain ⟨hfill, hc⟩ := hmembers.mp ⟨_, hslots, hclose⟩
    exact ⟨⟨slots, hfill, hx⟩, hc⟩
  · rintro ⟨⟨slots, hfill, hx⟩, hc⟩
    obtain ⟨c₁, hslots, hclose⟩ := hmembers.mpr ⟨hfill, hc⟩
    exact ⟨c₁, ⟨slots, c₁, hslots, hx, rfl⟩, hclose⟩

theorem ne_bracket_of_scalar {c c' : Cursor} {v : Json} (h : Scalar c v c') :
    ∃ b, c.rest.head? = some b ∧ b ≠ 91 ∧ b ≠ 123 := by
  cases h with
  | positive hhead hb _ => exact ⟨_, hhead, ne_of_isDigit hb rfl, ne_of_isDigit hb rfl⟩
  | null hhead _ | true hhead _ | false hhead _ | negative hhead _ | string hhead _ =>
    exact ⟨_, hhead, by decide, by decide⟩

theorem not_recorded_of_scalar {c c' : Cursor} {v : Json} (h : Scalar c v c') {fields : Fields}
    {rules : fields.Rules} {x : fields.Carrier} : ¬ fields.Recorded rules v x := by
  cases h with
  | negative _ hnumber => cases (number_eq_ok hnumber).1 <;> exact id
  | positive _ _ hnumber => cases (number_eq_ok hnumber).1 <;> exact id
  | _ => exact id

/-- Where a document is read, data of a record shape are read exactly if the document records them
by the rules of the fields. -/
theorem followedBy_record {name : String} {fields : Fields} {rules : fields.Rules}
    (hrules : fields.Obey Shape.FollowedBy rules) (hnames : fields.names.Nodup) :
    (Shape.record name fields).FollowedBy (fields.Recorded rules) := by
  intro depth c c' d h x c''
  rw [Shape.read, placed_eq_ok_iff, peekToken?_bind]
  cases layer_of_verbatim h with
  | scalar hscalar =>
    obtain ⟨b, hhead, hsquare, hbrace⟩ := ne_bracket_of_scalar hscalar
    simp only [hhead, hsquare, hbrace, ↓reduceIte]
    exact iff_of_false misfit_ne_ok fun h => not_recorded_of_scalar hscalar h.1
  | list hhead _ hitems =>
    simp only [hhead, ↓reduceIte, deeper, advance_bind]
    exact enclosed_eq_ok_iff.trans
      (readItems_eq_ok_iff name fields.length hrules 0 hitems x c'')
  | object hhead hlength hmembers =>
    simp only [hhead, deeper]
    exact enclosed_eq_ok_iff.trans
      (membersOfFields_eq_ok_iff hrules hnames hlength hmembers)

end

/-- A text that is a document is data of a shape exactly if the rule says so of the document. -/
theorem ofBytes_eq_ok_iff {s : Shape} {rule : Json → s.Carrier → Prop} (h : s.FollowedBy rule)
    {text : List UInt8} {d : Json} (hd : Json.document text = .ok d) {x : s.Carrier} :
    s.ofBytes text = .ok x ↔ rule d x := by
  obtain ⟨c, hc, hend⟩ := all_eq_ok_iff.mp hd
  rw [Shape.ofBytes, all_eq_ok_iff]
  constructor
  · rintro ⟨c', hread, -⟩
    exact ((h hc x c').mp hread).1
  · intro hx
    exact ⟨c, (h hc x c).mpr ⟨hx, rfl⟩, hend⟩

end ChainGateway.Wire
