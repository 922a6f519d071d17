import ChainGateway.Proofs.JsonText
import ChainGateway.Proofs.MemberOrder
import ChainGateway.Proofs.TokenSkip

namespace ChainGateway.Json

namespace Reader

section

variable {α β : Type} {f : α → β}

theorem map_apply (f : α → β) (r : Reader α) (c : Cursor) : (f <$> r) c =
    match r c with
    | .ok a c' => .ok (f a) c'
    | .error fault c' => .error fault c' := by
  change EStateM.map f r c = _
  unfold EStateM.map
  cases r c <;> rfl

theorem map_eq_ok_iff {r : Reader α} {c c' : Cursor} {b : β} :
    (f <$> r) c = .ok b c' ↔ ∃ a, r c = .ok a c' ∧ b = f a := by
  rw [map_apply]
  cases r c with
  | ok a c₁ => simp [eq_comm, and_comm]
  | error fault c₁ => simp

theorem members_go_map {member : α → Reader α} {member' : β → Reader β}
    (h : ∀ a, member' (f a) = f <$> member a) (fuel : Nat) (first : Bool) (a : α) :
    members.go member' fuel first (f a) = f <$> members.go member fuel first a := by
  induction fuel generalizing first a with
  | zero => simp [members.go]
  | succ fuel ih =>
    simp only [members.go, map_bind]
    congr 1
    funext another
    cases another with
    | false => simp
    | true => simp [h, ih]

end

inductive Scalar (c : Cursor) : Json → Cursor → Prop where
  | null {c' : Cursor} : c.rest.head? = some 110 → keyword [117, 108, 108] c.advance = .ok () c' →
      Scalar c .null c'
  | true {c' : Cursor} : c.rest.head? = some 116 → keyword [114, 117, 101] c.advance = .ok () c' →
      Scalar c (.bool Bool.true) c'
  | false {c' : Cursor} : c.rest.head? = some 102 →
      keyword [97, 108, 115, 101] c.advance = .ok () c' → Scalar c (.bool Bool.false) c'
  | negative {v : Json} {c' : Cursor} : c.rest.head? = some 45 →
      number Bool.true c.advance = .ok v c' → Scalar c v c'
  | positive {b : UInt8} {v : Json} {c' : Cursor} : c.rest.head? = some b → isDigit b = Bool.true →
      number Bool.false c = .ok v c' → Scalar c v c'
  | string {s : String} {c' : Cursor} : c.rest.head? = some 34 →
      stringBody c.advance = .ok s c' → Scalar c (.string s) c'

section

variable {α : Type} {leaf : Json → Except Cause α} {array object : Reader α} {c c' : Cursor} {a : α}

theorem bind_lift_eq_ok_iff {β : Type} {r : Reader β} {use : β → Except Cause α} :
    (do
      let b ← r
      lift (use b) : Reader α) c = .ok a c' ↔ ∃ b, r c = .ok b c' ∧ use b = .ok a := by
  simp only [bind_eq_ok_iff, lift_eq_ok_iff]
  constructor
  · rintro ⟨b, c₁, hb, ha, rfl⟩
    exact ⟨b, hb, ha⟩
  · rintro ⟨b, hb, ha⟩
    exact ⟨b, c', hb, ha, rfl⟩

theorem cases_of_dispatch (h : dispatch leaf array object c = .ok a c') :
    (∃ v, Scalar c.token v c' ∧ leaf v = .ok a) ∨
      (c.token.rest.head? = some 91 ∧ array c.token = .ok a c') ∨
      (c.token.rest.head? = some 123 ∧ object c.token = .ok a c') := by
  unfold dispatch at h
  rw [placed_eq_ok_iff, peekToken?_bind] at h
  cases hhead : c.token.rest.head? with
  | none => simp [hhead] at h
  | some b =>
    simp only [hhead] at h
    split_ifs at h with hnull htrue hfalse hminus hdigit hquote hlist hobject
    · rw [advance_bind] at h
      obtain ⟨_, hkeyword, hleaf⟩ := bind_lift_eq_ok_iff.mp h
      exact Or.inl ⟨.null, .null (hnull ▸ hhead) hkeyword, hleaf⟩
    · rw [advance_bind] at h
      obtain ⟨_, hkeyword, hleaf⟩ := bind_lift_eq_ok_iff.mp h
      exact Or.inl ⟨_, .true (htrue ▸ hhead) hkeyword, hleaf⟩
    · rw [advance_bind] at h
      obtain ⟨_, hkeyword, hleaf⟩ := bind_lift_eq_ok_iff.mp h
      exact Or.inl ⟨_, .false (hfalse ▸ hhead) hkeyword, hleaf⟩
    · rw [advance_bind] at h
      obtain ⟨v, hnumber, hleaf⟩ := bind_lift_eq_ok_iff.mp h
      exact Or.inl ⟨v, .negative (hminus ▸ hhead) hnumber, hleaf⟩
    · obtain ⟨v, hnumber, hleaf⟩ := bind_lift_eq_ok_iff.mp h
      exact Or.inl ⟨v, .positive hhead hdigit hnumber, hleaf⟩
    · rw [advance_bind] at h
      obtain ⟨s, hstring, hleaf⟩ := bind_lift_eq_ok_iff.mp h
      exact Or.inl ⟨_, .string (hquote ▸ hhead) hstring, hleaf⟩
    · exact Or.inr (Or.inl ⟨hlist ▸ rfl, h⟩)
    · exact Or.inr (Or.inr ⟨hobject ▸ rfl, h⟩)
    · simp at h

theorem dispatch_of_scalar {v : Json} (h : Scalar c.token v c') (hleaf : leaf v = .ok a) :
    dispatch leaf array object c = .ok a c' := by
  unfold dispatch
  rw [placed_eq_ok_iff, peekToken?_bind]
  cases h with
  | null hhead hkeyword => simp [hhead, bind_of_eq_ok hkeyword, hleaf]
  | true hhead hkeyword => simp [hhead, bind_of_eq_ok hkeyword, hleaf]
  | false hhead hkeyword => simp [hhead, bind_of_eq_ok hkeyword, hleaf]
  | negative hhead hnumber => simp [hhead, bind_of_eq_ok hnumber, hleaf]
  | @positive b v c' hhead hb hnumber =>
    have hn : b ≠ 110 := ne_of_isDigit hb rfl
    have ht : b ≠ 116 := ne_of_isDigit hb rfl
    have hf : b ≠ 102 := ne_of_isDigit hb rfl
    have hminus : b ≠ 45 := ne_of_isDigit hb rfl
    simp [hhead, hn, ht, hf, hminus, hb, bind_of_eq_ok hnumber, hleaf]
  | string hhead hstring =>
    simp [hhead, show isDigit 34 = Bool.false from rfl, bind_of_eq_ok hstring, hleaf]

theorem dispatch_eq_ok_iff : dispatch leaf array object c = .ok a c' ↔
    (∃ v, Scalar c.token v c' ∧ leaf v = .ok a) ∨
      (c.token.rest.head? = some 91 ∧ array c.token = .ok a c') ∨
      (c.token.rest.head? = some 123 ∧ object c.token = .ok a c') := by
  constructor
  · exact cases_of_dispatch
  · rintro (⟨v, hscalar, hleaf⟩ | ⟨hhead, h⟩ | ⟨hhead, h⟩)
    · exact dispatch_of_scalar hscalar hleaf
    · unfold dispatch
      rw [placed_eq_ok_iff, peekToken?_bind]
      simp [hhead, show isDigit 91 = Bool.false from rfl, h]
    · unfold dispatch
      rw [placed_eq_ok_iff, peekToken?_bind]
      simp [hhead, show isDigit 123 = Bool.false from rfl, h]

theorem misfit_ne_ok {wanted : String} : ¬ (misfit wanted : Reader α) c = .ok a c' := by
  intro h
  obtain ⟨v, -, hv⟩ | ⟨-, h⟩ | ⟨-, h⟩ := dispatch_eq_ok_iff.mp h
  · cases hv
  · exact fail_ne_ok h
  · exact fail_ne_ok h

theorem startingWith_eq_ok_iff {b : UInt8} {wanted : String} {r : Reader α} :
    startingWith b wanted r c = .ok a c' ↔
      c.token.rest.head? = some b ∧ r c.token = .ok a c' := by
  unfold startingWith
  rw [placed_eq_ok_iff, peekToken?_bind]
  cases c.token.rest.head? with
  | none => simp
  | some d =>
    by_cases hd : d = b
    · simp [hd]
    · simp [hd, misfit_ne_ok]

end

section

variable {α : Type} {c c' : Cursor} {first more : Bool}

theorem closeList_eq_ok_iff :
    closeList c = .ok () c' ↔ c.token.rest.head? = some 93 ∧ c' = c.token.advance := by
  unfold closeList
  rw [peekToken?_bind]
  cases hhead : c.token.rest.head? with
  | none => simp
  | some b =>
    dsimp only
    split_ifs with hclose hcomma
    · simp [hclose, eq_comm]
    · rw [advance_bind, peekToken?_bind]
      cases c.token.advance.token.rest.head? with
      | none => simp [hclose]
      | some d =>
        dsimp only
        split_ifs <;> simp [hclose]
    · simp [hclose]

theorem closeObject_eq_ok_iff :
    closeObject c = .ok () c' ↔ c.token.rest.head? = some 125 ∧ c' = c.token.advance := by
  unfold closeObject
  rw [peekToken?_bind]
  cases hhead : c.token.rest.head? with
  | none => simp
  | some b =>
    dsimp only
    split_ifs with hclose hcomma
    · simp [hclose, eq_comm]
    · simp [hclose]
    · simp [hclose]

theorem anotherItem_of_close (h : c.token.rest.head? = some 93) (first : Bool) :
    anotherItem first c = .ok Bool.false c.token := by
  simp [anotherItem, h]

theorem anotherMember_of_close (h : c.token.rest.head? = some 125) (first : Bool) :
    anotherMember first c = .ok Bool.false c.token := by
  simp [anotherMember, h]

/-- There is no item where the list ends; the first item stands anywhere else, and a further one
behind a comma. -/
theorem anotherItem_cases (h : anotherItem first c = .ok more c') :
    (more = Bool.false ∧ c.token.rest.head? = some 93 ∧ c' = c.token) ∨
    (more = Bool.true ∧ ∃ b, c.token.rest.head? = some b ∧ b ≠ 93 ∧
      (first = Bool.true ∧ c' = c.token ∨
        first = Bool.false ∧ b = 44 ∧ c' = c.token.advance.token)) := by
  unfold anotherItem at h
  rw [peekToken?_bind] at h
  cases hhead : c.token.rest.head? with
  | none => simp [hhead] at h
  | some b =>
    simp only [hhead] at h
    split_ifs at h with hclose hfirst hcomma
    · obtain ⟨rfl, rfl⟩ := EStateM.Result.ok.inj h
      exact Or.inl ⟨rfl, hclose ▸ rfl, rfl⟩
    · obtain ⟨rfl, rfl⟩ := EStateM.Result.ok.inj h
      exact Or.inr ⟨rfl, b, rfl, hclose, Or.inl ⟨hfirst, rfl⟩⟩
    · rw [advance_bind, peekToken?_bind] at h
      cases hnext : c.token.advance.token.rest.head? with
      | none => simp [hnext] at h
      | some d =>
        simp only [hnext] at h
        split_ifs at h
        · simp at h
        · obtain ⟨rfl, rfl⟩ := EStateM.Result.ok.inj h
          exact Or.inr ⟨rfl, b, rfl, hclose, Or.inr ⟨by simpa using hfirst, hcomma, rfl⟩⟩
    · simp at h

theorem not_closeList_of_anotherItem {first : Bool} {c c₁ c' : Cursor}
    (h : anotherItem first c = .ok true c₁) : ¬ closeList c = .ok () c' := by
  intro hclose
  obtain ⟨hhead, -⟩ := closeList_eq_ok_iff.mp hclose
  obtain ⟨hfalse, -⟩ | ⟨-, b, hb, hne, -⟩ := anotherItem_cases h
  · cases hfalse
  · exact hne (Option.some.inj (hb.symm.trans hhead))

theorem anotherMember_cases (h : anotherMember first c = .ok more c') :
    (more = Bool.false ∧ c.token.rest.head? = some 125 ∧ c' = c.token) ∨
    (more = Bool.true ∧ c'.rest.head? = some 34 ∧
      (first = Bool.true ∧ c' = c.token ∨
        first = Bool.false ∧ c.token.rest.head? = some 44 ∧ c' = c.token.advance.token)) := by
  unfold anotherMember at h
  rw [peekToken?_bind] at h
  cases hhead : c.token.rest.head? with
  | none => simp [hhead] at h
  | some b =>
    simp only [hhead] at h
    split_ifs at h with hclose hfirst hquote hcomma
    · obtain ⟨rfl, rfl⟩ := EStateM.Result.ok.inj h
      exact Or.inl ⟨rfl, hclose ▸ rfl, rfl⟩
    · obtain ⟨rfl, rfl⟩ := EStateM.Result.ok.inj h
      exact Or.inr ⟨rfl, hquote ▸ hhead, Or.inl ⟨hfirst, rfl⟩⟩
    · simp at h
    · rw [advance_bind, peekToken?_bind] at h
      cases hnext : c.token.advance.token.rest.head? with
      | none => simp [hnext] at h
      | some d =>
        simp only [hnext] at h
        split_ifs at h with hquote
        · obtain ⟨rfl, rfl⟩ := EStateM.Result.ok.inj h
          exact Or.inr ⟨rfl, hquote ▸ hnext, Or.inr ⟨by simpa using hfirst, hcomma ▸ rfl, rfl⟩⟩
        · simp at h
        · simp at h
    · simp at h

/-- The items of a list from some place on, and where the list ends. -/
inductive Items (item : Reader α) : Bool → Cursor → List α → Cursor → Prop where
  | close {first : Bool} {c : Cursor} : c.token.rest.head? = some 93 →
      Items item first c [] c.token.advance
  | cons {first : Bool} {c c₁ c₂ c' : Cursor} {a : α} {as : List α} :
      anotherItem first c = .ok Bool.true c₁ → item c₁ = .ok a c₂ →
      Items item Bool.false c₂ as c' → Items item first c (a :: as) c'

theorem items_of_go {item : Reader α} {fuel : Nat} {acc as : List α} {c₁ : Cursor}
    (h : items.go item fuel first acc c = .ok as c₁) (hclose : closeList c₁ = .ok () c') :
    ∃ bs, as = acc.reverse ++ bs ∧ bs.length ≤ fuel ∧ Items item first c bs c' := by
  induction fuel generalizing first acc c with
  | zero =>
    obtain ⟨rfl, rfl⟩ := EStateM.Result.ok.inj h
    obtain ⟨hhead, rfl⟩ := closeList_eq_ok_iff.mp hclose
    exact ⟨[], (List.append_nil _).symm, Nat.le_refl _, .close hhead⟩
  | succ fuel ih =>
    obtain ⟨more, c₂, hmore, h⟩ := bind_eq_ok_iff.mp h
    cases more with
    | false =>
      obtain ⟨-, hhead, rfl⟩ | ⟨hmore, -⟩ := anotherItem_cases hmore
      · obtain ⟨rfl, rfl⟩ := EStateM.Result.ok.inj h
        obtain ⟨-, rfl⟩ := closeList_eq_ok_iff.mp hclose
        rw [token_token]
        exact ⟨[], (List.append_nil _).symm, Nat.zero_le _, .close hhead⟩
      · cases hmore
    | true =>
      obtain ⟨a, c₃, hitem, h⟩ := bind_eq_ok_iff.mp h
      obtain ⟨bs, rfl, hlength, hitems⟩ := ih h
      exact ⟨a :: bs, by simp, Nat.succ_le_succ hlength, .cons hmore hitem hitems⟩

theorem exists_go_of_items {item : Reader α} {as : List α} (h : Items item first c as c')
    {fuel : Nat} (hfuel : as.length ≤ fuel) (acc : List α) :
    ∃ c₁, items.go item fuel first acc c = .ok (acc.reverse ++ as) c₁ ∧
      closeList c₁ = .ok () c' := by
  induction h generalizing fuel acc with
  | @close first c hhead =>
    rw [List.append_nil]
    cases fuel with
    | zero => exact ⟨c, rfl, closeList_eq_ok_iff.mpr ⟨hhead, rfl⟩⟩
    | succ fuel =>
      refine ⟨c.token, ?_, closeList_eq_ok_iff.mpr ?_⟩
      · rw [items.go, bind_of_eq_ok (anotherItem_of_close hhead first)]
        rfl
      · rw [token_token]
        exact ⟨hhead, rfl⟩
  | @cons first c c₁ c₂ c' a as hmore hitem _ ih =>
    obtain ⟨fuel, rfl⟩ := Nat.exists_eq_succ_of_ne_zero (Nat.ne_zero_of_lt hfuel)
    obtain ⟨c₃, hgo, hclose⟩ := ih (Nat.le_of_succ_le_succ hfuel) (a :: acc)
    refine ⟨c₃, ?_, hclose⟩
    rw [List.reverse_cons, List.append_assoc, List.singleton_append] at hgo
    simp only [items.go, bind_of_eq_ok hmore, ↓reduceIte, bind_of_eq_ok hitem, hgo]

theorem list_eq_ok_iff {item : Reader α} {as : List α} : list item c = .ok as c' ↔
    as.length ≤ c.advance.left + 1 ∧ Items item Bool.true c.advance as c' := by
  simp only [list, advance_bind, enclosed_eq_ok_iff]
  constructor
  · rintro ⟨c₁, hitems, hclose⟩
    obtain ⟨bs, rfl, hlength, hitems⟩ := items_of_go hitems hclose
    exact ⟨hlength, hitems⟩
  · rintro ⟨hlength, hitems⟩
    exact exists_go_of_items hitems hlength []

/-- Where one reader reads what is related to what another reads, so do the lists of such items. -/
theorem items_iff_of_related {β : Type} {item : Reader α} {item' : Reader β} {R : α → β → Prop}
    (h : ∀ c b c', item' c = .ok b c' ↔ ∃ a, item c = .ok a c' ∧ R a b) {bs : List β} :
    Items item' first c bs c' ↔ ∃ as, Items item first c as c' ∧ List.Forall₂ R as bs := by
  constructor
  · intro hitems
    induction hitems with
    | close hhead => exact ⟨[], .close hhead, .nil⟩
    | cons hmore hitem _ ih =>
      obtain ⟨a, ha, hab⟩ := (h _ _ _).mp hitem
      obtain ⟨as, has, hall⟩ := ih
      exact ⟨a :: as, .cons hmore ha has, .cons hab hall⟩
  · rintro ⟨as, hitems, hall⟩
    induction hitems generalizing bs with
    | close hhead =>
      cases hall
      exact .close hhead
    | cons hmore hitem _ ih =>
      cases hall with
      | cons hab hall => exact .cons hmore ((h _ _ _).mpr ⟨_, hitem, hab⟩) (ih hall)

/-- The members of an object from some place on, each with its name, and where the object ends. -/
inductive Members (value : Reader α) : Bool → Cursor → List (String × α) → Cursor → Prop where
  | close {first : Bool} {c : Cursor} : c.token.rest.head? = some 125 →
      Members value first c [] c.token.advance
  | cons {first : Bool} {c c₁ c₂ c₃ c₄ c' : Cursor} {k : String} {a : α}
      {ms : List (String × α)} :
      anotherMember first c = .ok Bool.true c₁ → name c₁ = .ok k c₂ → colon c₂ = .ok () c₃ →
      value c₃ = .ok a c₄ → Members value Bool.false c₄ ms c' →
      Members value first c ((k, a) :: ms) c'

end

theorem members_of_go {value : Reader Json} {fuel : Nat} {first : Bool} {c c₁ c' : Cursor}
    {acc ms : List (String × Json)} (h : members.go (member value) fuel first acc c = .ok ms c₁)
    (hclose : closeObject c₁ = .ok () c') :
    ∃ ms', ms = acc ++ ms' ∧ ms'.length ≤ fuel ∧ Members value first c ms' c' := by
  induction fuel generalizing first acc c with
  | zero =>
    obtain ⟨rfl, rfl⟩ := EStateM.Result.ok.inj h
    obtain ⟨hhead, rfl⟩ := closeObject_eq_ok_iff.mp hclose
    exact ⟨[], (List.append_nil _).symm, Nat.le_refl _, .close hhead⟩
  | succ fuel ih =>
    obtain ⟨more, c₂, hmore, h⟩ := bind_eq_ok_iff.mp h
    cases more with
    | false =>
      obtain ⟨-, hhead, rfl⟩ | ⟨hmore, -⟩ := anotherMember_cases hmore
      · obtain ⟨rfl, rfl⟩ := EStateM.Result.ok.inj h
        obtain ⟨-, rfl⟩ := closeObject_eq_ok_iff.mp hclose
        rw [token_token]
        exact ⟨[], (List.append_nil _).symm, Nat.zero_le _, .close hhead⟩
      · cases hmore
    | true =>
      obtain ⟨acc', c₃, hmember, h⟩ := bind_eq_ok_iff.mp h
      obtain ⟨k, c₄, hname, hmember⟩ := bind_eq_ok_iff.mp hmember
      obtain ⟨_, c₅, hcolon, hmember⟩ := bind_eq_ok_iff.mp hmember
      obtain ⟨v, c₆, hvalue, hmember⟩ := bind_eq_ok_iff.mp hmember
      obtain ⟨rfl, rfl⟩ := EStateM.Result.ok.inj hmember
      obtain ⟨ms', rfl, hlength, hmembers⟩ := ih h
      exact ⟨(k, v) :: ms', by simp, Nat.succ_le_succ hlength,
        .cons hmore hname hcolon hvalue hmembers⟩

theorem exists_go_of_members {value : Reader Json} {first : Bool} {c c' : Cursor}
    {ms : List (String × Json)} (h : Members value first c ms c') {fuel : Nat}
    (hfuel : ms.length ≤ fuel) (acc : List (String × Json)) :
    ∃ c₁, members.go (member value) fuel first acc c = .ok (acc ++ ms) c₁ ∧
      closeObject c₁ = .ok () c' := by
  induction h generalizing fuel acc with
  | @close first c hhead =>
    rw [List.append_nil]
    cases fuel with
    | zero => exact ⟨c, rfl, closeObject_eq_ok_iff.mpr ⟨hhead, rfl⟩⟩
    | succ fuel =>
      refine ⟨c.token, ?_, closeObject_eq_ok_iff.mpr ?_⟩
      · rw [members.go, bind_of_eq_ok (anotherMember_of_close hhead first)]
        rfl
      · rw [token_token]
        exact ⟨hhead, rfl⟩
  | @cons first c c₁ c₂ c₃ c₄ c' k v ms hmore hname hcolon hvalue _ ih =>
    obtain ⟨fuel, rfl⟩ := Nat.exists_eq_succ_of_ne_zero (Nat.ne_zero_of_lt hfuel)
    obtain ⟨c₅, hgo, hclose⟩ := ih (Nat.le_of_succ_le_succ hfuel) (acc ++ [(k, v)])
    refine ⟨c₅, ?_, hclose⟩
    have hmember : member value acc c₁ = .ok (acc ++ [(k, v)]) c₄ := by
      rw [member, bind_of_eq_ok hname, bind_of_eq_ok hcolon, bind_of_eq_ok hvalue]
      rfl
    rw [List.append_assoc, List.singleton_append] at hgo
    simp only [members.go, bind_of_eq_ok hmore, ↓reduceIte, bind_of_eq_ok hmember, hgo]

theorem object_eq_ok_iff {value : Reader Json} {c c' : Cursor} {ms : List (String × Json)} :
    object (member value) [] c = .ok ms c' ↔
      ms.length ≤ c.advance.left + 1 ∧ Members value Bool.true c.advance ms c' := by
  simp only [object, advance_bind, enclosed_eq_ok_iff]
  constructor
  · rintro ⟨c₁, hmembers, hclose⟩
    obtain ⟨ms', rfl, hlength, hmembers⟩ := members_of_go hmembers hclose
    exact ⟨hlength, hmembers⟩
  · rintro ⟨hlength, hmembers⟩
    exact exists_go_of_members hmembers hlength []

/-- The outermost layer of a document: a scalar, or a list or object of what is read one level
down. -/
inductive Layer (c : Cursor) : Nat → Json → Cursor → Prop where
  | scalar {depth : Nat} {v : Json} {c' : Cursor} : Scalar c.token v c' → Layer c depth v c'
  | list {depth : Nat} {vs : List Json} {c' : Cursor} : c.token.rest.head? = some 91 →
      vs.length ≤ c.token.advance.left + 1 →
      Items (verbatim depth) Bool.true c.token.advance vs c' →
      Layer c (depth + 1) (.array vs) c'
  | object {depth : Nat} {ms : List (String × Json)} {c' : Cursor} :
      c.token.rest.head? = some 123 → ms.length ≤ c.token.advance.left + 1 →
      Members (verbatim depth) Bool.true c.token.advance ms c' →
      Layer c (depth + 1) (.object ms) c'

theorem layer_of_verbatim {depth : Nat} {c c' : Cursor} {d : Json}
    (h : verbatim depth c = .ok d c') : Layer c depth d c' := by
  cases depth with
  | zero =>
    obtain ⟨v, hscalar, hv⟩ | ⟨-, h⟩ | ⟨-, h⟩ := dispatch_eq_ok_iff.mp h
    · exact .scalar (Except.ok.inj hv ▸ hscalar)
    · simp at h
    · simp at h
  | succ depth =>
    obtain ⟨v, hscalar, hv⟩ | ⟨hhead, h⟩ | ⟨hhead, h⟩ := dispatch_eq_ok_iff.mp h
    · exact .scalar (Except.ok.inj hv ▸ hscalar)
    · obtain ⟨vs, c₁, hlist, h⟩ := bind_eq_ok_iff.mp h
      obtain ⟨rfl, rfl⟩ := EStateM.Result.ok.inj h
      obtain ⟨hlength, hitems⟩ := list_eq_ok_iff.mp hlist
      exact .list hhead hlength hitems
    · obtain ⟨ms, c₁, hobject, h⟩ := bind_eq_ok_iff.mp h
      obtain ⟨rfl, rfl⟩ := EStateM.Result.ok.inj h
      obtain ⟨hlength, hmembers⟩ := object_eq_ok_iff.mp hobject
      exact .object hhead hlength hmembers

theorem verbatim_token (depth : Nat) (c : Cursor) : verbatim depth c.token = verbatim depth c := by
  cases depth <;> exact dispatch_token c

def memberOnward (value : Reader Json) (k : String) (ms : List (String × Json)) :
    Reader (List (String × Json)) := do
  colon
  return ms ++ [(k, ← value)]

theorem chain_member {value : Reader Json} {behind : Json → List UInt8}
    {ms : List (String × Json)}
    (hvalues : ∀ m ∈ ms, ∀ rest, Delimited rest → Gives value (behind m.2 ++ rest) m.2 rest)
    (before : List (String × Json)) :
    Chain behind (memberOnward value) ms before (before ++ ms) := by
  induction ms generalizing before with
  | nil =>
    rw [List.append_nil]
    exact .nil before
  | cons m ms ih =>
    obtain ⟨hm, hms⟩ := List.forall_mem_cons.mp hvalues
    have hrest := ih hms (before ++ [m])
    rw [List.append_assoc, List.singleton_append] at hrest
    refine .cons (fun rest hrest => ?_) hrest
    exact gives_bind (gives_colon _) (gives_bind (hm rest hrest) (gives_pure _ rest))

theorem gives_verbatim_behind {gap text rest : List UInt8} {depth : Nat} {v : Json}
    (hgap : Blanks gap) (hopens : ∀ b ∈ text.head?, isSpace b = false)
    (h : Gives (verbatim depth) text v rest) : Gives (verbatim depth) (gap ++ text) v rest := by
  cases depth <;> exact gives_dispatch_behind hgap hopens h

namespace Layout

variable {text : Nat → Json → List UInt8} (hlayout : Layout text)

include hlayout

theorem not_isSpace_head? {v : Json} (h : Integral v) (level : Nat) (rest : List UInt8) :
    ∀ b ∈ (text level v ++ rest).head?, isSpace b = false := by
  obtain ⟨b, r, hopens, hspace, -⟩ := hlayout.opens h level
  intro b' hb'
  rw [hopens] at hb'
  rwa [← Option.some.inj hb']

/-- A value with exact numbers is the document of its text, with as much room for brackets as it
needs. -/
theorem gives_verbatim {v : Json} (h : Integral v) {depth : Nat} (hdepth : nesting v ≤ depth)
    (level : Nat) {rest : List UInt8} (hrest : Delimited rest) :
    Gives (verbatim depth) (text level v ++ rest) v rest := by
  induction h generalizing depth level rest with
  | null =>
    rw [hlayout.scalar level rfl]
    cases depth <;> exact gives_dispatch_null rfl
  | bool b =>
    rw [hlayout.scalar level rfl]
    cases depth <;> exact gives_dispatch_bool rfl
  | integer hn =>
    rw [hlayout.scalar level rfl]
    cases depth <;> exact gives_dispatch_integer hn rfl hrest
  | string s =>
    rw [hlayout.scalar level rfl]
    cases depth <;> exact gives_dispatch_string rfl
  | @array items hitems ih =>
    -- what is inside the brackets has one level less
    obtain ⟨depth, rfl⟩ := Nat.exists_eq_succ_of_ne_zero (Nat.ne_zero_of_lt hdepth)
    obtain ⟨front, back, hfront, hback, htext⟩ := hlayout.array level items
    have hall : ∀ v ∈ items, Item (verbatim depth) (text (level + 1) v) v := fun v hv =>
      ⟨hlayout.opens (hitems v hv) (level + 1), fun rest hrest => ih v hv
        (Nat.le_trans (nesting_le_of_mem_items hv) (Nat.le_of_succ_le_succ hdepth)) (level + 1)
        hrest⟩
    have hforall : List.Forall₂ (Item (verbatim depth)) (items.map (text (level + 1))) items :=
      List.forall₂_map_left_iff.mpr (List.forall₂_same.mpr hall)
    rw [htext, List.append_assoc, List.singleton_append]
    exact gives_dispatch_array
      (gives_bind (gives_list_laidOut hfront hback hforall rest) (gives_pure _ rest))
  | @object members hmembers ih =>
    obtain ⟨depth, rfl⟩ := Nat.exists_eq_succ_of_ne_zero (Nat.ne_zero_of_lt hdepth)
    obtain ⟨front, back, gap, hfront, hback, hgap, htext⟩ := hlayout.object level members
    have hvalues : ∀ m ∈ members, ∀ rest, Delimited rest →
        Gives (verbatim depth) (gap ++ text (level + 1) m.2 ++ rest) m.2 rest := by
      intro m hm rest hrest
      have hgives := ih m hm (Nat.le_trans (nesting_le_of_mem_members hm)
        (Nat.le_of_succ_le_succ hdepth)) (level + 1) hrest
      rw [List.append_assoc]
      apply gives_verbatim_behind hgap _ hgives
      exact hlayout.not_isSpace_head? (hmembers m hm) (level + 1) rest
    have hchain : Chain (fun v => gap ++ text (level + 1) v) (memberOnward (verbatim depth))
        members [] members := chain_member hvalues []
    rw [htext, List.append_assoc, List.singleton_append]
    exact gives_dispatch_object
      (gives_bind (gives_object_laidOut hfront hback hchain rest) (gives_pure _ rest))

end Layout

section

variable {α : Type}

theorem all_eq_toEnd (r : Reader α) (text : List UInt8) :
    all r text = match toEnd r (Cursor.start text) with
      | .ok a _ => .ok a
      | .error fault _ => .error fault := rfl

theorem all_eq_ok_iff {r : Reader α} {text : List UInt8} {a : α} :
    all r text = .ok a ↔ ∃ c, r (Cursor.start text) = .ok a c ∧ c.token.rest = [] := by
  have htoEnd : all r text = .ok a ↔ ∃ c, toEnd r (Cursor.start text) = .ok a c := by
    rw [all_eq_toEnd]
    cases toEnd r (Cursor.start text) <;> simp
  have hend {b : α} {c c' : Cursor} : (do
      if (← peekToken?).isSome then failAhead .trailingCharacters
      return b : Reader α) c = .ok a c' ↔ c.token.rest = [] ∧ a = b ∧ c' = c.token := by
    simp only [peekToken?_bind]
    cases hrest : c.token.rest with
    | nil => simp [eq_comm]
    | cons d rest => simp [map_eq_ok_iff]
  rw [htoEnd]
  constructor
  · rintro ⟨c', h⟩
    obtain ⟨b, c, hc, h⟩ := bind_eq_ok_iff.mp h
    obtain ⟨hrest, rfl, -⟩ := hend.mp h
    exact ⟨c, hc, hrest⟩
  · rintro ⟨c, hc, hrest⟩
    exact ⟨c.token, bind_eq_ok_iff.mpr ⟨a, c, hc, hend.mpr ⟨hrest, rfl, rfl⟩⟩⟩

end

end Reader

def document (text : List UInt8) : Except Fault Json :=
  Reader.all (Reader.verbatim Reader.maxDepth) text

/-- Every value whose numbers are exact integers is the document of its compact text. -/
theorem document_compact {v : Json} (h : Integral v) (hdepth : nesting v ≤ Reader.maxDepth) :
    document (Text.utf8 (compact v)) = .ok v := by
  have hgives : Reader.Gives (Reader.verbatim Reader.maxDepth) (written v ++ []) v [] :=
    Reader.layout_written.gives_verbatim h hdepth 0 nofun
  rw [List.append_nil] at hgives
  rw [utf8_compact]
  exact Reader.all_eq_ok hgives

namespace Reader

section

variable {α : Type} {first : Bool} {c c' : Cursor}

theorem exists_read_of_mem_items {item : Reader α} {as : List α}
    (h : Items item first c as c') {a : α} (ha : a ∈ as) : ∃ c₁ c₂, item c₁ = .ok a c₂ := by
  induction h with
  | close => cases ha
  | cons _ hitem _ ih =>
    obtain rfl | ha := List.mem_cons.mp ha
    · exact ⟨_, _, hitem⟩
    · exact ih ha

theorem exists_read_of_mem_members {value : Reader α}
    {ms : List (String × α)} (h : Members value first c ms c') {m : String × α} (hm : m ∈ ms) :
    ∃ c₁ c₂, value c₁ = .ok m.2 c₂ := by
  induction h with
  | close => cases hm
  | cons _ _ _ hvalue _ ih =>
    obtain rfl | hm := List.mem_cons.mp hm
    · exact ⟨_, _, hvalue⟩
    · exact ih hm

end

theorem nesting_of_scalar {c c' : Cursor} {v : Json} (h : Scalar c v c') : nesting v = 0 := by
  cases h with
  | negative _ hnumber => cases (number_eq_ok hnumber).1 <;> simp only [nesting]
  | positive _ _ hnumber => cases (number_eq_ok hnumber).1 <;> simp only [nesting]
  | _ => simp only [nesting]

theorem nesting_le_of_verbatim {depth : Nat} {c c' : Cursor} {d : Json}
    (h : verbatim depth c = .ok d c') : nesting d ≤ depth := by
  induction depth generalizing c c' d with
  | zero =>
    cases layer_of_verbatim h with
    | scalar hscalar => exact Nat.le_of_eq (nesting_of_scalar hscalar)
  | succ depth ih =>
    cases layer_of_verbatim h with
    | scalar hscalar => exact nesting_of_scalar hscalar ▸ Nat.zero_le _
    | list _ _ hitems =>
      refine Nat.succ_le_succ (nestingItems_le fun v hv => ?_)
      obtain ⟨c₁, c₂, hread⟩ := exists_read_of_mem_items hitems hv
      exact ih hread
    | object _ _ hmembers =>
      refine Nat.succ_le_succ (nestingMembers_le fun m hm => ?_)
      obtain ⟨c₁, c₂, hread⟩ := exists_read_of_mem_members hmembers hm
      exact ih hread

end Reader

theorem nesting_of_document {text : List UInt8} {d : Json} (h : document text = .ok d) :
    nesting d ≤ Reader.maxDepth := by
  obtain ⟨c, hread, -⟩ := Reader.all_eq_ok_iff.mp h
  exact Reader.nesting_le_of_verbatim hread

end ChainGateway.Json
