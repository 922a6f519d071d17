import ChainGateway.Proofs.Rereading

namespace ChainGateway.Json.Reader

variable {c c' : Cursor}

theorem left_lt_of_name {k : String} (hhead : c.rest.head? = some 34) (h : name c = .ok k c') :
    c'.left < c.left := by
  have hquote := Cursor.left_advance_of_head? hhead
  have hbody := (stringBody_eq_ok h (Nat.lt_succ_self _)).1
  omega

theorem left_le_of_anotherItem {first more : Bool} (h : anotherItem first c = .ok more c') :
    c'.left ≤ c.left := by
  have hblank := c.left_token_le
  obtain ⟨-, -, rfl⟩ | ⟨-, _, -, -, ⟨-, rfl⟩ | ⟨-, -, rfl⟩⟩ := anotherItem_cases h
  · exact hblank
  · exact hblank
  · exact Nat.le_trans (Nat.le_trans (Cursor.left_token_le _) (Cursor.left_advance_le _)) hblank

theorem left_le_of_anotherMember {first more : Bool} (h : anotherMember first c = .ok more c') :
    c'.left ≤ c.left := by
  have hblank := c.left_token_le
  obtain ⟨-, -, rfl⟩ | ⟨-, -, ⟨-, rfl⟩ | ⟨-, -, rfl⟩⟩ := anotherMember_cases h
  · exact hblank
  · exact hblank
  · exact Nat.le_trans (Nat.le_trans (Cursor.left_token_le _) (Cursor.left_advance_le _)) hblank

theorem left_le_of_items {α : Type} {item : Reader α} (hitem : Forward item) {first : Bool}
    {as : List α} (h : Items item first c as c') : c'.left ≤ c.left := by
  induction h with
  | @close first c hhead => exact Nat.le_trans (Cursor.left_advance_le _) c.left_token_le
  | cons hmore ha _ ih =>
    exact Nat.le_trans ih (Nat.le_trans (hitem _ _ _ ha) (left_le_of_anotherItem hmore))

theorem length_add_left_le_of_members {α : Type} {value : Reader α} (hvalue : Forward value)
    {first : Bool} {ms : List (String × α)} (h : Members value first c ms c') :
    ms.length + c'.left ≤ c.left := by
  induction h with
  | @close first c hhead =>
    have hclose := Nat.le_trans (Cursor.left_advance_le _) c.left_token_le
    simpa using hclose
  | @cons first c c₁ c₂ c₃ c₄ c' k a ms hmore hname hcolon ha _ ih =>
    have hmember := left_le_of_anotherMember hmore
    have hhead : c₁.rest.head? = some 34 := by
      obtain ⟨hfalse, -⟩ | ⟨-, hhead, -⟩ := anotherMember_cases hmore
      · cases hfalse
      · exact hhead
    have hname' := left_lt_of_name hhead hname
    have hcolon' := forward_colon _ _ _ hcolon
    have ha' := hvalue _ _ _ ha
    rw [List.length_cons]
    omega

theorem forward_verbatim (depth : Nat) : Forward (verbatim depth) := by
  induction depth with
  | zero =>
    intro c d c' h
    have hblank := c.left_token_le
    cases layer_of_verbatim h with
    | scalar hscalar => exact Nat.le_trans (Nat.le_of_lt (left_lt_of_scalar hscalar)) hblank
  | succ depth ih =>
    intro c d c' h
    have hblank := c.left_token_le
    have hbracket := c.token.left_advance_le
    cases layer_of_verbatim h with
    | scalar hscalar => exact Nat.le_trans (Nat.le_of_lt (left_lt_of_scalar hscalar)) hblank
    | list _ _ hitems =>
      have hinside := left_le_of_items ih hitems
      omega
    | object _ _ hmembers =>
      have hinside := length_add_left_le_of_members ih hmembers
      omega

section

variable {whole : List UInt8 → Except Fault Json} {depth : Nat} {w : Json}

theorem verbatim_string_eq_ok_iff {s : String} : verbatim depth c = .ok (.string s) c' ↔
    c.token.rest.head? = some 34 ∧ stringBody c.token.advance = .ok s c' := by
  constructor
  · intro h
    cases layer_of_verbatim h with
    | scalar hscalar =>
      cases hscalar with
      | string hhead hstring => exact ⟨hhead, hstring⟩
      | negative _ hnumber => cases (number_eq_ok hnumber).1
      | positive _ _ hnumber => cases (number_eq_ok hnumber).1
  · rintro ⟨hhead, hstring⟩
    cases depth <;> exact dispatch_of_scalar (.string hhead hstring) rfl

theorem liftWhole_eq_ok_iff {α : Type} {x : Except Fault α} {a : α} :
    (liftWhole x : Reader α) c = .ok a c' ↔ x = .ok a ∧ c' = c := by
  cases x with
  | ok b => simp [liftWhole, eq_comm]
  | error fault => exact iff_of_false nofun nofun

theorem embedded_eq_ok_iff (depth : Nat) : embedded whole c = .ok w c' ↔
    ∃ text, verbatim depth c = .ok (.string text) c' ∧ whole (Text.utf8 text) = .ok w := by
  simp only [embedded, startingWith_eq_ok_iff, advance_bind, bind_eq_ok_iff, liftWhole_eq_ok_iff,
    verbatim_string_eq_ok_iff]
  constructor
  · rintro ⟨hhead, text, _, hstring, hwhole, rfl⟩
    exact ⟨text, ⟨hhead, hstring⟩, hwhole⟩
  · rintro ⟨text, ⟨hhead, hstring⟩, hwhole⟩
    exact ⟨hhead, text, c', hstring, hwhole, rfl⟩

theorem entry_ofList (value : Reader Json) (ms : List (String × Json)) :
    entry value (OrderedMap.ofList ms) = OrderedMap.ofList <$> member value ms := by
  simp [entry, member, OrderedMap.ofList]

theorem furtherMembers_eq_ok_iff {value : Reader Json} {k : String} {v : Json}
    {m : OrderedMap String Json} :
    (∃ c₁, furtherMembers (entry value) (OrderedMap.empty.insert k v) c = .ok m c₁ ∧
      closeObject c₁ = .ok () c') ↔
      ∃ ms, ms.length ≤ c.left + 1 ∧ Members value false c ms c' ∧
        m = OrderedMap.ofList ((k, v) :: ms) := by
  have hfirst : OrderedMap.empty.insert k v = OrderedMap.ofList [(k, v)] := rfl
  simp only [furtherMembers, steps_bind, hfirst, members_go_map (entry_ofList value),
    map_eq_ok_iff]
  constructor
  · rintro ⟨c₁, ⟨ms, hgo, rfl⟩, hclose⟩
    obtain ⟨ms', rfl, hlength, hmembers⟩ := members_of_go hgo hclose
    exact ⟨ms', hlength, hmembers, rfl⟩
  · rintro ⟨ms, hlength, hmembers, rfl⟩
    obtain ⟨c₁, hgo, hclose⟩ := exists_go_of_members hmembers hlength [(k, v)]
    exact ⟨c₁, ⟨_, hgo, rfl⟩, hclose⟩

/-- What a first member leads to, by its name. -/
theorem objectOrEmbedded_eq_ok_iff {value : Reader Json} :
    objectOrEmbedded whole value c = .ok w c' ↔
      (anotherMember true c.advance = .ok false c.advance.token ∧ w = .object [] ∧
        closeObject c.advance.token = .ok () c') ∨
      ∃ k c₁ c₂ c₃, anotherMember true c.advance = .ok true c₁ ∧ name c₁ = .ok k c₂ ∧
        colon c₂ = .ok () c₃ ∧
        if k = embeddingName then
          ∃ c₄, embedded whole c₃ = .ok w c₄ ∧ closeObject c₄ = .ok () c'
        else ∃ v c₄, value c₃ = .ok v c₄ ∧ ∃ ms, ms.length ≤ c₄.left + 1 ∧
          Members value false c₄ ms c' ∧ w = ofMembers ((k, v) :: ms) := by
  simp only [objectOrEmbedded, advance_bind, enclosed_eq_ok_iff]
  constructor
  · rintro ⟨c₅, hinside, hclose⟩
    obtain ⟨more, c₁, hmore, hinside⟩ := bind_eq_ok_iff.mp hinside
    cases more with
    | false =>
      obtain ⟨rfl, rfl⟩ := EStateM.Result.ok.inj hinside
      obtain ⟨-, -, rfl⟩ | ⟨hmore', -⟩ := anotherMember_cases hmore
      · exact Or.inl ⟨hmore, rfl, hclose⟩
      · cases hmore'
    | true =>
      obtain ⟨k, c₂, hname, hinside⟩ := bind_eq_ok_iff.mp hinside
      obtain ⟨_, c₃, hcolon, hinside⟩ := bind_eq_ok_iff.mp hinside
      refine Or.inr ⟨k, c₁, c₂, c₃, hmore, hname, hcolon, ?_⟩
      split_ifs at hinside ⊢
      · exact ⟨c₅, hinside, hclose⟩
      · obtain ⟨v, c₄, hv, hinside⟩ := bind_eq_ok_iff.mp hinside
        obtain ⟨m, hfurther, rfl⟩ := bind_pure_eq_ok_iff.mp hinside
        obtain ⟨ms, hlength, hmembers, rfl⟩ := furtherMembers_eq_ok_iff.mp ⟨c₅, hfurther, hclose⟩
        exact ⟨v, c₄, hv, ms, hlength, hmembers, rfl⟩
  · rintro (⟨hmore, rfl, hclose⟩ | ⟨k, c₁, c₂, c₃, hmore, hname, hcolon, hinside⟩)
    · exact ⟨c.advance.token, by rw [bind_of_eq_ok hmore]; rfl, hclose⟩
    · simp only [bind_of_eq_ok hmore, ↓reduceIte, bind_of_eq_ok hname, bind_of_eq_ok hcolon]
      split_ifs at hinside ⊢
      · exact hinside
      · obtain ⟨v, c₄, hv, ms, hlength, hmembers, rfl⟩ := hinside
        obtain ⟨c₅, hfurther, hclose⟩ := furtherMembers_eq_ok_iff.mpr ⟨ms, hlength, hmembers, rfl⟩
        refine ⟨c₅, ?_, hclose⟩
        rw [bind_of_eq_ok hv, bind_pure_eq_ok_iff]
        exact ⟨_, hfurther, rfl⟩

section

variable {item item' : Reader Json}
  (h : ∀ c w c', item' c = .ok w c' ↔ ∃ d, item c = .ok d c' ∧ reread whole d = .ok w)

include h

theorem members_iff_of_reread {first : Bool} {ns : List (String × Json)} :
    Members item' first c ns c' ↔ ∃ ms, Members item first c ms c' ∧
      List.Forall₂ (fun m n => n.1 = m.1 ∧ reread whole m.2 = .ok n.2) ms ns := by
  constructor
  · intro hmembers
    induction hmembers with
    | close hhead => exact ⟨[], .close hhead, .nil⟩
    | cons hmore hname hcolon hvalue _ ih =>
      obtain ⟨d, hd, hw⟩ := (h _ _ _).mp hvalue
      obtain ⟨ms, hms, hall⟩ := ih
      exact ⟨(_, d) :: ms, .cons hmore hname hcolon hd hms, .cons ⟨rfl, hw⟩ hall⟩
  · rintro ⟨ms, hmembers, hall⟩
    induction hmembers generalizing ns with
    | close hhead =>
      cases hall
      exact .close hhead
    | cons hmore hname hcolon hvalue _ ih =>
      cases hall with
      | @cons _ n _ ns hn hall =>
        obtain ⟨k, v⟩ := n
        obtain ⟨rfl, hw⟩ := hn
        exact .cons hmore hname hcolon ((h _ _ _).mpr ⟨_, hvalue, hw⟩) (ih hall)

theorem list_iff_of_reread : (do return .array (← list item') : Reader Json) c = .ok w c' ↔
    ∃ d, (do return .array (← list item) : Reader Json) c = .ok d c' ∧
      reread whole d = .ok w := by
  simp only [bind_pure_eq_ok_iff, list_eq_ok_iff]
  constructor
  · rintro ⟨ws, ⟨hlength, hitems⟩, rfl⟩
    obtain ⟨ds, hds, hall⟩ := (items_iff_of_related h).mp hitems
    exact ⟨_, ⟨ds, ⟨hall.length_eq.symm ▸ hlength, hds⟩, rfl⟩,
      reread_array_eq_ok_iff.mpr ⟨ws, hall, rfl⟩⟩
  · rintro ⟨_, ⟨ds, ⟨hlength, hds⟩, rfl⟩, hw⟩
    obtain ⟨ws, hall, rfl⟩ := reread_array_eq_ok_iff.mp hw
    exact ⟨ws, ⟨hall.length_eq ▸ hlength, (items_iff_of_related h).mpr ⟨ds, hds, hall⟩⟩, rfl⟩

end

theorem embedded_iff_of_reread {k : String} (hk : k = embeddingName) :
    (∃ c₁, embedded whole c = .ok w c₁ ∧ closeObject c₁ = .ok () c') ↔
      ∃ d c₁ ds, verbatim depth c = .ok d c₁ ∧ Members (verbatim depth) false c₁ ds c' ∧
        reread whole (.object ((k, d) :: ds)) = .ok w := by
  simp only [embedded_eq_ok_iff depth, reread_embedding_eq_ok_iff (embedding?_of_eq hk _ _)]
  constructor
  · rintro ⟨c₁, ⟨text, htext, hwhole⟩, hclose⟩
    obtain ⟨hhead, rfl⟩ := closeObject_eq_ok_iff.mp hclose
    exact ⟨_, c₁, [], htext, .close hhead, rfl, text, rfl, hwhole⟩
  · -- an embedding has no other member, so that the object is closed where it ends
    rintro ⟨_, c₁, ds, htext, hds, hnone, text, rfl, hwhole⟩
    obtain rfl := List.length_eq_zero_iff.mp hnone
    cases hds with
    | close hhead => exact ⟨c₁, ⟨text, htext, hwhole⟩, closeObject_eq_ok_iff.mpr ⟨hhead, rfl⟩⟩

section

variable {value : Reader Json}
  (h : ∀ c w c', value c = .ok w c' ↔ ∃ d, verbatim depth c = .ok d c' ∧ reread whole d = .ok w)

include h

theorem furtherMembers_iff_of_reread {k : String} (hk : k ≠ embeddingName) :
    (∃ v c₁, value c = .ok v c₁ ∧ ∃ ms, ms.length ≤ c₁.left + 1 ∧
        Members value false c₁ ms c' ∧ w = ofMembers ((k, v) :: ms)) ↔
      ∃ d c₁ ds, verbatim depth c = .ok d c₁ ∧ Members (verbatim depth) false c₁ ds c' ∧
        reread whole (.object ((k, d) :: ds)) = .ok w := by
  simp only [reread_object_eq_ok_iff (embedding?_of_ne hk _ _)]
  constructor
  · rintro ⟨v, c₁, hv, ms, -, hmembers, rfl⟩
    obtain ⟨d, hd, hreread⟩ := (h _ _ _).mp hv
    obtain ⟨ds, hds, hall⟩ := (members_iff_of_reread h).mp hmembers
    exact ⟨d, c₁, ds, hd, hds, (k, v) :: ms, .cons ⟨rfl, hreread⟩ hall, rfl⟩
  · rintro ⟨d, c₁, ds, hd, hds, ns, hall, rfl⟩
    cases hall with
    | @cons _ n _ ns hn hall =>
      obtain ⟨k', v⟩ := n
      obtain ⟨rfl, hv⟩ := hn
      -- a member takes bytes, so that there are steps enough for all of them
      have hlength := length_add_left_le_of_members (forward_verbatim depth) hds
      rw [hall.length_eq] at hlength
      exact ⟨v, c₁, (h _ _ _).mpr ⟨d, hd, hv⟩, ns, by omega,
        (members_iff_of_reread h).mpr ⟨ds, hds, hall⟩, rfl⟩

/-- Where an object is read, its members are, and it stands for what they are reread as. -/
theorem objectOrEmbedded_iff_of_reread : objectOrEmbedded whole value c = .ok w c' ↔
    ∃ d, (do return .object (← object (member (verbatim depth)) []) : Reader Json) c = .ok d c' ∧
      reread whole d = .ok w := by
  have hfirst (k : String) (c : Cursor) : (if k = embeddingName then
        ∃ c₁, embedded whole c = .ok w c₁ ∧ closeObject c₁ = .ok () c'
      else ∃ v c₁, value c = .ok v c₁ ∧ ∃ ms, ms.length ≤ c₁.left + 1 ∧
        Members value false c₁ ms c' ∧ w = ofMembers ((k, v) :: ms)) ↔
      ∃ d c₁ ds, verbatim depth c = .ok d c₁ ∧ Members (verbatim depth) false c₁ ds c' ∧
        reread whole (.object ((k, d) :: ds)) = .ok w := by
    split_ifs with hk
    · exact embedded_iff_of_reread hk
    · exact furtherMembers_iff_of_reread h hk
  simp only [objectOrEmbedded_eq_ok_iff, bind_pure_eq_ok_iff, object_eq_ok_iff, hfirst]
  constructor
  · rintro (⟨hmore, rfl, hclose⟩ |
      ⟨k, c₁, c₂, c₃, hmore, hname, hcolon, d, c₄, ds, hd, hds, hw⟩)
    · obtain ⟨hhead, rfl⟩ := closeObject_eq_ok_iff.mp hclose
      rw [token_token] at hhead ⊢
      exact ⟨_, ⟨[], ⟨Nat.zero_le _, .close hhead⟩, rfl⟩,
        (reread_object_eq_ok_iff rfl).mpr ⟨[], .nil, rfl⟩⟩
    · have hall : Members (verbatim depth) true c.advance ((k, d) :: ds) c' :=
        .cons hmore hname hcolon hd hds
      have hlength := length_add_left_le_of_members (forward_verbatim depth) hall
      exact ⟨_, ⟨(k, d) :: ds, ⟨by omega, hall⟩, rfl⟩, hw⟩
  · rintro ⟨_, ⟨ms, ⟨-, hmembers⟩, rfl⟩, hw⟩
    cases hmembers with
    | close hhead =>
      obtain ⟨ns, hall, rfl⟩ := (reread_object_eq_ok_iff rfl).mp hw
      cases hall
      refine Or.inl ⟨anotherMember_of_close hhead true, rfl, closeObject_eq_ok_iff.mpr ?_⟩
      rw [token_token]
      exact ⟨hhead, rfl⟩
    | cons hmore hname hcolon hd hds =>
      exact Or.inr ⟨_, _, _, _, hmore, hname, hcolon, _, _, _, hd, hds, hw⟩

end

theorem reread_of_scalar {v : Json} (h : Scalar c v c') : reread whole v = .ok v := by
  cases h with
  | negative _ hnumber => cases (number_eq_ok hnumber).1 <;> simp only [reread]
  | positive _ _ hnumber => cases (number_eq_ok hnumber).1 <;> simp only [reread]
  | _ => simp only [reread]

theorem dispatch_iff_of_reread {array array' object object' : Reader Json}
    (harray : ∀ c, array' c = .ok w c' ↔ ∃ d, array c = .ok d c' ∧ reread whole d = .ok w)
    (hobject : ∀ c, object' c = .ok w c' ↔ ∃ d, object c = .ok d c' ∧ reread whole d = .ok w) :
    dispatch .ok array' object' c = .ok w c' ↔
      ∃ d, dispatch .ok array object c = .ok d c' ∧ reread whole d = .ok w := by
  simp only [dispatch_eq_ok_iff, harray, hobject]
  constructor
  · rintro (⟨v, hscalar, hv⟩ | ⟨hhead, d, hd, hw⟩ | ⟨hhead, d, hd, hw⟩)
    · exact ⟨v, Or.inl ⟨v, hscalar, rfl⟩, (reread_of_scalar hscalar).trans hv⟩
    · exact ⟨d, Or.inr (Or.inl ⟨hhead, hd⟩), hw⟩
    · exact ⟨d, Or.inr (Or.inr ⟨hhead, hd⟩), hw⟩
  · rintro ⟨d, ⟨v, hscalar, hv⟩ | ⟨hhead, hd⟩ | ⟨hhead, hd⟩, hw⟩
    · obtain rfl := Except.ok.inj hv
      exact Or.inl ⟨v, hscalar, (reread_of_scalar hscalar).symm.trans hw⟩
    · exact Or.inr (Or.inl ⟨hhead, d, hd, hw⟩)
    · exact Or.inr (Or.inr ⟨hhead, d, hd, hw⟩)

/-- Where a value is read, a document is, and the value is what the document is reread as. -/
theorem value_eq_ok_iff : value whole depth c = .ok w c' ↔
    ∃ d, verbatim depth c = .ok d c' ∧ reread whole d = .ok w := by
  induction depth generalizing c c' w with
  | zero =>
    refine dispatch_iff_of_reread (fun c => ?_) fun c => ?_
    all_goals exact iff_of_false failAhead_ne_ok fun ⟨_, h, _⟩ => failAhead_ne_ok h
  | succ depth ih =>
    exact dispatch_iff_of_reread (fun c => list_iff_of_reread fun _ _ _ => ih)
      fun c => objectOrEmbedded_iff_of_reread fun _ _ _ => ih

theorem forward_value (whole : List UInt8 → Except Fault Json) (depth : Nat) :
    Forward (value whole depth) := by
  intro c w c' h
  obtain ⟨d, hd, -⟩ := value_eq_ok_iff.mp h
  exact forward_verbatim depth _ _ _ hd

theorem gives_value {v : Json} (h : Integral v) (hw : reread whole v = .ok w)
    (hdepth : nesting v ≤ depth) {rest : List UInt8} (hrest : Delimited rest) :
    Gives (value whole depth) (written v ++ rest) w rest := by
  intro c hc
  obtain ⟨c', hread, hrest⟩ := layout_written.gives_verbatim h hdepth 0 hrest c hc
  exact ⟨c', value_eq_ok_iff.mpr ⟨v, hread, hw⟩, hrest⟩

end

end ChainGateway.Json.Reader
