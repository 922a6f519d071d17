import ChainGateway.Proofs.DocumentReading

namespace ChainGateway.Wire

open Json (Cause Cursor Reader nesting)
open Json.Reader

section

variable {α : Type} {leaf : Json → Except Cause α} {array object : Reader α} {c c' c'' : Cursor}
  {a : α} {v w : Json}

theorem scalar_unique (hv : Scalar c.token v c') (hw : Scalar c.token w c'') :
    w = v ∧ c'' = c' := by
  have hreadv : dispatch .ok (failAhead .noValue) (failAhead .noValue) c = .ok v c' :=
    dispatch_of_scalar hv rfl
  have hreadw : dispatch .ok (failAhead .noValue) (failAhead .noValue) c = .ok w c'' :=
    dispatch_of_scalar hw rfl
  exact EStateM.Result.ok.inj (hreadw.symm.trans hreadv)

theorem dispatch_scalar_iff (h : Scalar c.token v c') :
    dispatch leaf array object c = .ok a c'' ↔ leaf v = .ok a ∧ c'' = c' := by
  constructor
  · intro hread
    obtain ⟨b, hb, hsquare, hbrace⟩ := ne_bracket_of_scalar h
    obtain ⟨w, hw, ha⟩ | ⟨hhead, -⟩ | ⟨hhead, -⟩ := dispatch_eq_ok_iff.mp hread
    · obtain ⟨rfl, rfl⟩ := scalar_unique h hw
      exact ⟨ha, rfl⟩
    · exact absurd (Option.some.inj (hb.symm.trans hhead)) hsquare
    · exact absurd (Option.some.inj (hb.symm.trans hhead)) hbrace
  · rintro ⟨ha, rfl⟩
    exact dispatch_of_scalar h ha

theorem dispatch_list_iff (hhead : c.token.rest.head? = some 91) :
    dispatch leaf array object c = .ok a c' ↔ array c.token = .ok a c' := by
  constructor
  · intro hread
    obtain ⟨w, hw, -⟩ | ⟨-, h⟩ | ⟨hbrace, -⟩ := dispatch_eq_ok_iff.mp hread
    · obtain ⟨b, hb, hsquare, -⟩ := ne_bracket_of_scalar hw
      exact absurd (Option.some.inj (hb.symm.trans hhead)) hsquare
    · exact h
    · exact absurd (Option.some.inj (hhead.symm.trans hbrace)) (by decide)
  · intro h
    exact dispatch_eq_ok_iff.mpr (.inr (.inl ⟨hhead, h⟩))

theorem dispatch_object_iff (hhead : c.token.rest.head? = some 123) :
    dispatch leaf array object c = .ok a c' ↔ object c.token = .ok a c' := by
  constructor
  · intro hread
    obtain ⟨w, hw, -⟩ | ⟨hsquare, -⟩ | ⟨-, h⟩ := dispatch_eq_ok_iff.mp hread
    · obtain ⟨b, hb, -, hbrace⟩ := ne_bracket_of_scalar hw
      exact absurd (Option.some.inj (hb.symm.trans hhead)) hbrace
    · exact absurd (Option.some.inj (hhead.symm.trans hsquare)) (by decide)
    · exact h
  · intro h
    exact dispatch_eq_ok_iff.mpr (.inr (.inr ⟨hhead, h⟩))

theorem noList_ne_ok {depth : Nat} {wanted : String} :
    ¬ (noList depth wanted : Reader α) c = .ok a c' := by
  intro h
  cases depth with
  | zero => exact failAhead_ne_ok h
  | succ depth =>
    simp only [noList, deeper, advance_bind] at h
    obtain ⟨c₁, hfail, -⟩ := enclosed_eq_ok_iff.mp h
    exact fail_ne_ok hfail

theorem noObject_ne_ok {depth : Nat} {wanted : String} :
    ¬ (noObject depth wanted : Reader α) c = .ok a c' := by
  intro h
  cases depth with
  | zero => exact failAhead_ne_ok h
  | succ depth =>
    simp only [noObject, deeper, advance_bind] at h
    obtain ⟨c₁, hfail, -⟩ := enclosed_eq_ok_iff.mp h
    exact fail_ne_ok hfail

end

theorem followedBy_quantity (bits : Nat) :
    (Shape.quantity bits).FollowedBy fun d w => quantityOfJson bits d = .ok w := by
  intro depth c c' d h w c''
  rw [Shape.read]
  cases layer_of_verbatim h with
  | scalar hscalar => exact dispatch_scalar_iff hscalar
  | list hhead _ _ =>
    exact (dispatch_list_iff hhead).trans
      (iff_of_false noList_ne_ok fun h => mismatch_ne_ok _ _ _ h.1)
  | object hhead _ _ =>
    exact (dispatch_object_iff hhead).trans
      (iff_of_false noObject_ne_ok fun h => mismatch_ne_ok _ _ _ h.1)

section

variable {α : Type} {item : Reader α} {rule : Json → α → Prop} {depth : Nat}
  (hitem : ∀ {c c' : Cursor} {v : Json}, verbatim depth c = .ok v c' →
    ∀ a c'', item c = .ok a c'' ↔ rule v a ∧ c'' = c')

include hitem

theorem items_go_eq_ok_iff {first : Bool} {c c' c'' : Cursor} {vs : List Json}
    (h : Items (verbatim depth) first c vs c') {fuel : Nat} (hfuel : vs.length ≤ fuel)
    {acc as : List α} :
    (∃ c₁, items.go item fuel first acc c = .ok as c₁ ∧ closeList c₁ = .ok () c'') ↔
      (∃ bs, List.Forall₂ rule vs bs ∧ as = acc.reverse ++ bs) ∧ c'' = c' := by
  induction h generalizing fuel acc with
  | @close first c hhead =>
    simp only [List.forall₂_nil_left_iff, exists_eq_left, List.append_nil]
    cases fuel with
    | zero => exact closed_iff (fun _ _ => closeList_eq_ok_iff) hhead rfl
    | succ fuel =>
      simp only [items.go, bind_of_eq_ok (anotherItem_of_close hhead first)]
      exact closed_iff (fun _ _ => closeList_eq_ok_iff) hhead (token_token c)
  | @cons first c c₁ c₂ c' v vs hmore hvalue _ ih =>
    obtain ⟨fuel, rfl⟩ := Nat.exists_eq_succ_of_ne_zero (Nat.ne_zero_of_lt hfuel)
    simp only [items.go, bind_of_eq_ok hmore, ↓reduceIte, bind_eq_ok_iff, hitem hvalue]
    constructor
    · rintro ⟨c₅, ⟨a, _, ⟨ha, rfl⟩, hgo⟩, hclose⟩
      obtain ⟨⟨bs, hbs, rfl⟩, hc⟩ := (ih (Nat.le_of_succ_le_succ hfuel)).mp ⟨c₅, hgo, hclose⟩
      exact ⟨⟨a :: bs, .cons ha hbs, by simp⟩, hc⟩
    · rintro ⟨⟨_, hall, rfl⟩, hc⟩
      cases hall with
      | @cons _ a _ bs ha hbs =>
        have hacc : acc.reverse ++ a :: bs = (a :: acc).reverse ++ bs := by simp
        obtain ⟨c₅, hgo, hclose⟩ := (ih (Nat.le_of_succ_le_succ hfuel)).mpr
          ⟨⟨bs, hbs, hacc⟩, hc⟩
        exact ⟨c₅, ⟨a, c₂, ⟨ha, rfl⟩, hgo⟩, hclose⟩

theorem list_eq_ok_iff {c c' c'' : Cursor} {vs : List Json}
    (hlength : vs.length ≤ c.advance.left + 1)
    (h : Items (verbatim depth) true c.advance vs c') {as : List α} :
    list item c = .ok as c'' ↔ List.Forall₂ rule vs as ∧ c'' = c' := by
  have hgo : (∃ c₁, items item c.advance = .ok as c₁ ∧ closeList c₁ = .ok () c'') ↔
      (∃ bs, List.Forall₂ rule vs bs ∧ as = [].reverse ++ bs) ∧ c'' = c' :=
    items_go_eq_ok_iff hitem h hlength
  rw [list, advance_bind, enclosed_eq_ok_iff, hgo]
  simp

end

def IsByte (v : Json) (x : UInt8) : Prop := byteOfJson v = .ok x

section

variable {depth : Nat} {c c' : Cursor} {v : Json}

theorem byte_eq_ok_iff (h : verbatim depth c = .ok v c') (x : UInt8) (c'' : Cursor) :
    byte c = .ok x c'' ↔ IsByte v x ∧ c'' = c' := by
  have hunsigned (w : Word 8) :
      unsigned 8 c = .ok w c'' ↔ unsignedOfJson 8 v = .ok w ∧ c'' = c' := by
    refine numeric_eq_ok_iff_of_verbatim h fun v w hw => ?_
    rw [ofJson_unsigned_eq_ok_iff.mp hw]
    exact .integer _
  have hbyte : IsByte v x ↔ ∃ w, unsignedOfJson 8 v = .ok w ∧ UInt8.ofNat w.toNat = x := by
    unfold IsByte byteOfJson
    cases unsignedOfJson 8 v <;> simp [Except.map]
  unfold byte
  rw [bind_pure_eq_ok_iff, hbyte]
  simp only [hunsigned]
  constructor
  · rintro ⟨w, ⟨hw, hc⟩, hx⟩
    exact ⟨⟨w, hw, hx⟩, hc⟩
  · rintro ⟨⟨w, hw, hx⟩, hc⟩
    exact ⟨w, ⟨hw, hc⟩, hx⟩

end

theorem followedBy_bytes : Shape.bytes.FollowedBy fun d bs => bytesOfJson d = .ok bs := by
  intro depth c c' d h bs c''
  rw [Shape.read]
  cases layer_of_verbatim h with
  | scalar hscalar => exact dispatch_scalar_iff hscalar
  | @list depth vs _ hhead hlength hitems =>
    have hvalue : bytesOfJson (.array vs) = .ok bs ↔ List.Forall₂ IsByte vs bs := mapM_eq_ok_iff
    exact (dispatch_list_iff hhead).trans
      ((list_eq_ok_iff (fun h => byte_eq_ok_iff h) hlength hitems).trans
        (and_congr_left fun _ => hvalue.symm))
  | object hhead _ _ =>
    exact (dispatch_object_iff hhead).trans
      (iff_of_false noObject_ne_ok fun h => mismatch_ne_ok _ _ _ h.1)

/-- An item that needs no brackets and is no byte. -/
structure Surplus (v : Json) : Prop where
  flat : nesting v = 0
  not_byte : ∀ x, ¬ IsByte v x

inductive FixedInText (size : Nat) : Json → FixedBytes size → Prop where
  | text {s : String} {b : FixedBytes size} : FixedBytes.ofText s = .ok b →
      FixedInText size (.string s) b
  | items {vs : List Json} {b : FixedBytes size} : List.Forall₂ IsByte vs b.toList →
      FixedInText size (.array vs) b
  | surplus {vs : List Json} {v : Json} {b : FixedBytes size} :
      List.Forall₂ IsByte vs b.toList → Surplus v → FixedInText size (.array (vs ++ [v])) b

section

variable {α β : Type} {r : Reader α} {c c' : Cursor} {v : Json} {fault : Json.Fault}

theorem bind_of_eq_error {f : α → Reader β} (h : r c = .error fault c') :
    (r >>= f) c = .error fault c' := by
  change EStateM.bind r f c = _
  unfold EStateM.bind
  rw [h]

theorem exists_placed_error (fault : Json.Fault) (h : r c = .error fault c') :
    ∃ f, placed r c = .error f c' :=
  ⟨fault.placeAt c'.position, by simp only [placed, h]⟩

theorem lift_of_error {x : Except Cause α} {cause : Cause} (h : x = .error cause) :
    (lift x : Reader α) c = .error ⟨cause, none⟩ c := by
  rw [h]
  rfl

theorem dispatch_error_of_scalar {leaf : Json → Except Cause α} {array object : Reader α}
    {cause : Cause} (h : Scalar c.token v c') (hleaf : leaf v = .error cause) :
    ∃ f, dispatch leaf array object c = .error f c' := by
  unfold dispatch
  refine exists_placed_error ⟨cause, none⟩ ?_
  rw [peekToken?_bind]
  cases h with
  | null hhead hkeyword => simp [hhead, bind_of_eq_ok hkeyword, lift_of_error hleaf]
  | true hhead hkeyword => simp [hhead, bind_of_eq_ok hkeyword, lift_of_error hleaf]
  | false hhead hkeyword => simp [hhead, bind_of_eq_ok hkeyword, lift_of_error hleaf]
  | negative hhead hnumber => simp [hhead, bind_of_eq_ok hnumber, lift_of_error hleaf]
  | @positive b v c' hhead hb hnumber =>
    have hn : b ≠ 110 := ne_of_isDigit hb rfl
    have ht : b ≠ 116 := ne_of_isDigit hb rfl
    have hf : b ≠ 102 := ne_of_isDigit hb rfl
    have hminus : b ≠ 45 := ne_of_isDigit hb rfl
    simp [hhead, hn, ht, hf, hminus, hb, bind_of_eq_ok hnumber, lift_of_error hleaf]
  | string hhead hstring =>
    simp [hhead, show isDigit 34 = Bool.false from rfl, bind_of_eq_ok hstring,
      lift_of_error hleaf]

theorem misfit_error_of_scalar (wanted : String) (h : Scalar c.token v c') :
    ∃ f, (misfit wanted : Reader α) c.token = .error f c' :=
  dispatch_error_of_scalar (by rw [token_token]; exact h) rfl

theorem numeric_error_of_scalar (wanted : String) {use : Json → Except Cause α} {cause : Cause}
    (h : Scalar c.token v c') (huse : use v = .error cause) :
    ∃ f, numeric wanted use c = .error f c' := by
  obtain ⟨f, hmisfit⟩ := misfit_error_of_scalar (α := α) wanted h
  unfold numeric
  cases h with
  | null hhead _ | true hhead _ | false hhead _ | string hhead _ =>
    refine exists_placed_error f ?_
    rw [peekToken?_bind]
    simp [hhead, isDigit, hmisfit]
  | negative hhead hnumber =>
    refine exists_placed_error ⟨cause, none⟩ ?_
    rw [peekToken?_bind]
    simp [hhead, bind_of_eq_ok hnumber, lift_of_error huse]
  | positive hhead hb hnumber =>
    refine exists_placed_error ⟨cause, none⟩ ?_
    rw [peekToken?_bind]
    simp [hhead, ne_of_isDigit (d := 45) hb rfl, hb, bind_of_eq_ok hnumber, lift_of_error huse]

theorem numeric_error_of_bracket (wanted : String) (use : Json → Except Cause α) {b : UInt8}
    (hhead : c.token.rest.head? = some b) (hb : b = 91 ∨ b = 123) :
    ∃ f, numeric wanted use c = .error f c.token := by
  have hmisfit : ∃ f, (misfit wanted : Reader α) c.token = .error f c.token := by
    unfold misfit dispatch
    obtain rfl | rfl := hb
    · refine exists_placed_error ⟨.wrongType .sequence wanted, none⟩ ?_
      rw [peekToken?_bind, token_token]
      simp [hhead, isDigit]
      rfl
    · refine exists_placed_error ⟨.wrongType .map wanted, none⟩ ?_
      rw [peekToken?_bind, token_token]
      simp [hhead, isDigit]
      rfl
  obtain ⟨f, hmisfit⟩ := hmisfit
  unfold numeric
  refine exists_placed_error f ?_
  rw [peekToken?_bind]
  obtain rfl | rfl := hb <;> simp [hhead, isDigit, hmisfit]

theorem attempt_of_eq_ok {a : α} (h : r c = .ok a c') : attempt r c = .ok (some a) c' := by
  simp only [attempt, h]

theorem attempt_of_eq_error (h : r c = .error fault c') : attempt r c = .ok none c' := by
  simp only [attempt, h]

end

section

variable {size depth : Nat} {c c' c'' : Cursor} {v : Json} {vs : List Json}

theorem ne_array_of_scalar (h : Scalar c.token v c') : v ≠ .array vs := by
  rintro rfl
  cases h with
  | negative _ hnumber | positive _ _ hnumber => cases (number_eq_ok hnumber).1

theorem byte_error_of_surplus (h : verbatim depth c = .ok v c') (hv : Surplus v) :
    ∃ f, byte c = .error f c' := by
  have hscalar : Scalar c.token v c' := by
    cases layer_of_verbatim h with
    | scalar hscalar => exact hscalar
    | list _ _ _ | object _ _ _ => exact absurd hv.flat (Nat.succ_ne_zero _)
  have hunsigned : ∃ cause, unsignedOfJson 8 v = .error cause := by
    cases hw : unsignedOfJson 8 v with
    | error cause => exact ⟨cause, rfl⟩
    | ok w => exact absurd (congrArg (Except.map _) hw) (hv.not_byte (UInt8.ofNat w.toNat))
  obtain ⟨cause, hcause⟩ := hunsigned
  obtain ⟨f, hread⟩ := numeric_error_of_scalar (Shape.unsigned 8).wanted hscalar hcause
  exact ⟨f, bind_of_eq_error hread⟩

/-- Where brackets are opened, nothing is read for a byte, and the list does not end. -/
theorem byte_error_of_nested (h : verbatim depth c = .ok v c') (hv : nesting v ≠ 0) :
    ∃ f c₁, byte c = .error f c₁ ∧ ∀ c₂, ¬ closeList c₁ = .ok () c₂ := by
  have hstop {b : UInt8} (hhead : c.token.rest.head? = some b) (hb : b = 91 ∨ b = 123) :
      ∃ f c₁, byte c = .error f c₁ ∧ ∀ c₂, ¬ closeList c₁ = .ok () c₂ := by
    obtain ⟨f, hread⟩ := numeric_error_of_bracket (Shape.unsigned 8).wanted (unsignedOfJson 8)
      hhead hb
    refine ⟨f, c.token, bind_of_eq_error hread, fun c₂ hclose => ?_⟩
    obtain ⟨hend, -⟩ := closeList_eq_ok_iff.mp hclose
    rw [token_token, hhead] at hend
    obtain rfl | rfl := hb <;> cases hend
  cases layer_of_verbatim h with
  | scalar hscalar =>
    cases hscalar with
    | null _ _ | true _ _ | false _ _ | string _ _ => exact absurd rfl hv
    | negative _ hnumber | positive _ _ hnumber =>
      cases (number_eq_ok hnumber).1 <;> exact absurd rfl hv
  | list hhead _ _ => exact hstop hhead (.inl rfl)
  | object hhead _ _ => exact hstop hhead (.inr rfl)

theorem split_of_someBytes {missing : Nat} (hmissing : missing ≤ size)
    (h : Items (verbatim depth) (decide (missing = size)) c vs c') {acc bs : List UInt8}
    {c₁ : Cursor} (hread : someBytes size missing acc c = .ok bs c₁) :
    ∃ taken rest xs, vs = taken ++ rest ∧ taken.length = missing ∧
      List.Forall₂ IsByte taken xs ∧ bs = acc.reverse ++ xs ∧
      Items (verbatim depth) (decide (0 = size)) c₁ rest c' := by
  induction missing generalizing c vs acc with
  | zero =>
    obtain ⟨rfl, rfl⟩ := EStateM.Result.ok.inj hread
    exact ⟨[], vs, [], rfl, rfl, .nil, (List.append_nil _).symm, h⟩
  | succ missing ih =>
    have hlater : decide (missing = size) = false := decide_eq_false (by omega)
    obtain ⟨more, c₂, hmore, hread⟩ := bind_eq_ok_iff.mp hread
    cases more with
    | false => exact absurd hread fail_ne_ok
    | true =>
      obtain ⟨x, c₃, hx, hread⟩ := bind_eq_ok_iff.mp hread
      cases h with
      | close hhead =>
        rw [anotherItem_of_close hhead] at hmore
        cases hmore
      | @cons _ _ c₄ c₅ _ v vs hmore' hvalue hitems =>
        obtain ⟨-, rfl⟩ := EStateM.Result.ok.inj (hmore.symm.trans hmore')
        obtain ⟨hbyte, rfl⟩ := (byte_eq_ok_iff hvalue x c₃).mp hx
        rw [← hlater] at hitems
        obtain ⟨taken, rest, xs, rfl, rfl, hall, rfl, hrest⟩ :=
          ih (Nat.le_of_succ_le hmissing) hitems hread
        exact ⟨v :: taken, rest, x :: xs, rfl, rfl, .cons hbyte hall, by simp, hrest⟩

theorem exists_someBytes {taken rest : List Json} {xs : List UInt8}
    (hall : List.Forall₂ IsByte taken xs) (hlength : taken.length ≤ size)
    (h : Items (verbatim depth) (decide (taken.length = size)) c (taken ++ rest) c')
    (acc : List UInt8) :
    ∃ c₁, someBytes size taken.length acc c = .ok (acc.reverse ++ xs) c₁ ∧
      Items (verbatim depth) (decide (0 = size)) c₁ rest c' := by
  induction hall generalizing c acc with
  | nil => exact ⟨c, by rw [List.append_nil]; rfl, h⟩
  | @cons v x taken xs hx _ ih =>
    have hlater : decide (taken.length = size) = false :=
      decide_eq_false (Nat.ne_of_lt hlength)
    cases h with
    | @cons _ _ c₁ c₂ _ _ _ hmore hvalue hitems =>
      rw [← hlater] at hitems
      obtain ⟨c₃, hread, hrest⟩ := ih (Nat.le_of_succ_le hlength) hitems (x :: acc)
      refine ⟨c₃, ?_, hrest⟩
      have hbyte := (byte_eq_ok_iff hvalue x c₂).mpr ⟨hx, rfl⟩
      have hacc : acc.reverse ++ x :: xs = (x :: acc).reverse ++ xs := by simp
      rw [List.length_cons] at hmore
      rw [hacc, ← hread, List.length_cons, someBytes, bind_of_eq_ok hmore]
      exact bind_of_eq_ok hbyte

def furtherByte (size : Nat) : Reader Bool := do
  if ← anotherItem (size = 0) then
    let _ ← byte
    return true
  else return false

def unlessFurther (size : Nat) (b : FixedBytes size) : Reader (FixedBytes size) := do
  let surplus ← attempt (furtherByte size)
  if surplus = some true then fail (.wrongLength (size + 1) (exactly size))
  return b

theorem unlessFurther_of_attempt {b : FixedBytes size} {surplus : Option Bool}
    (h : attempt (furtherByte size) c = .ok surplus c') (hsurplus : surplus ≠ some true) :
    unlessFurther size b c = .ok b c' := by
  rw [unlessFurther, bind_of_eq_ok h]
  simp only [hsurplus, ↓reduceIte]
  rfl

section

variable {c₁ c₂ : Cursor} (hmore : anotherItem (decide (size = 0)) c = .ok true c₁)
  {b b' : FixedBytes size}

include hmore

theorem unlessFurther_of_byte {x : UInt8} (hx : byte c₁ = .ok x c₂) :
    unlessFurther size b c ≠ .ok b' c' := by
  have hsome : attempt (furtherByte size) c = .ok (some true) c₂ := by
    apply attempt_of_eq_ok
    rw [furtherByte, bind_of_eq_ok hmore]
    exact bind_of_eq_ok hx
  rw [unlessFurther, bind_of_eq_ok hsome]
  intro hread
  obtain ⟨_, _, hfail, -⟩ := bind_eq_ok_iff.mp hread
  exact fail_ne_ok hfail

theorem unlessFurther_of_error {f : Json.Fault} (h : byte c₁ = .error f c₂) :
    unlessFurther size b c = .ok b c₂ := by
  have hnone : attempt (furtherByte size) c = .ok none c₂ := by
    apply attempt_of_eq_error
    rw [furtherByte, bind_of_eq_ok hmore]
    exact bind_of_eq_error h
  exact unlessFurther_of_attempt hnone nofun

theorem not_closed_of_byte {x : UInt8} (hx : byte c₁ = .ok x c₂) :
    ¬ ∃ c₃, unlessFurther size b c = .ok b' c₃ ∧ closeList c₃ = .ok () c' := by
  rintro ⟨c₃, hread, -⟩
  exact unlessFurther_of_byte hmore hx hread

/-- An item that is not a byte is passed over, and the list must end behind it. -/
theorem unlessFurther_surplus_iff (hvalue : verbatim depth c₁ = .ok v c₂) (hv : Surplus v)
    (h : Items (verbatim depth) false c₂ vs c') :
    (∃ c₃, unlessFurther size b c = .ok b' c₃ ∧ closeList c₃ = .ok () c'') ↔
      (b' = b ∧ vs = []) ∧ c'' = c' := by
  obtain ⟨f, hread⟩ := byte_error_of_surplus hvalue hv
  simp only [unlessFurther_of_error hmore hread]
  cases h with
  | close hhead =>
    simp only [and_true]
    exact closed_iff (fun _ _ => closeList_eq_ok_iff) hhead rfl
  | cons hmore' _ _ =>
    refine iff_of_false ?_ fun h => nomatch h.1.2
    rintro ⟨c₃, heq, hclose⟩
    obtain ⟨-, rfl⟩ := EStateM.Result.ok.inj heq
    exact not_closeList_of_anotherItem hmore' hclose

theorem not_closed_of_nested (hvalue : verbatim depth c₁ = .ok v c₂) (hv : nesting v ≠ 0) :
    ¬ ∃ c₃, unlessFurther size b c = .ok b' c₃ ∧ closeList c₃ = .ok () c' := by
  obtain ⟨f, c₃, hread, hopen⟩ := byte_error_of_nested hvalue hv
  rw [unlessFurther_of_error hmore hread]
  rintro ⟨c₄, heq, hclose⟩
  obtain ⟨-, rfl⟩ := EStateM.Result.ok.inj heq
  exact hopen _ hclose

end

/-- What may stand behind the bytes is nothing, or one item that is passed over. -/
theorem unlessFurther_iff (h : Items (verbatim depth) (decide (size = 0)) c vs c')
    {b b' : FixedBytes size} :
    (∃ c₁, unlessFurther size b c = .ok b' c₁ ∧ closeList c₁ = .ok () c'') ↔
      (b' = b ∧ (vs = [] ∨ ∃ v, vs = [v] ∧ Surplus v)) ∧ c'' = c' := by
  cases h with
  | close hhead =>
    have hnone : attempt (furtherByte size) c = .ok (some false) c.token := by
      apply attempt_of_eq_ok
      rw [furtherByte, bind_of_eq_ok (anotherItem_of_close hhead _)]
      rfl
    simp only [unlessFurther_of_attempt hnone nofun, true_or, and_true]
    exact closed_iff (fun _ _ => closeList_eq_ok_iff) hhead (token_token c)
  | @cons _ _ c₁ c₂ _ v vs hmore hvalue hitems =>
    have hsole : (v :: vs = [] ∨ ∃ w, v :: vs = [w] ∧ Surplus w) ↔ vs = [] ∧ Surplus v := by
      simp
    rw [hsole]
    by_cases hsurplus : Surplus v
    · rw [and_iff_left hsurplus]
      exact unlessFurther_surplus_iff hmore hvalue hsurplus hitems
    · refine iff_of_false ?_ fun h => hsurplus h.1.2.2
      by_cases hbyte : ∃ x, IsByte v x
      · obtain ⟨x, hx⟩ := hbyte
        exact not_closed_of_byte hmore ((byte_eq_ok_iff hvalue x c₂).mpr ⟨hx, rfl⟩)
      · refine not_closed_of_nested hmore hvalue fun hflat => hsurplus ⟨hflat, fun x hx => ?_⟩
        exact hbyte ⟨x, hx⟩

theorem fixedInText_array_iff {b : FixedBytes size} :
    FixedInText size (.array vs) b ↔ ∃ taken rest, vs = taken ++ rest ∧
      List.Forall₂ IsByte taken b.toList ∧ (rest = [] ∨ ∃ v, rest = [v] ∧ Surplus v) := by
  constructor
  · intro h
    cases h with
    | items hall => exact ⟨vs, [], (List.append_nil _).symm, hall, .inl rfl⟩
    | surplus hall hv => exact ⟨_, _, rfl, hall, .inr ⟨_, rfl, hv⟩⟩
  · rintro ⟨taken, rest, rfl, hall, rfl | ⟨v, rfl, hv⟩⟩
    · rw [List.append_nil]
      exact .items hall
    · exact .surplus hall hv

theorem fixedItems_iff (h : Items (verbatim depth) true c vs c') {b : FixedBytes size} :
    (∃ c₁, fixedItems size c = .ok b c₁ ∧ closeList c₁ = .ok () c'') ↔
      FixedInText size (.array vs) b ∧ c'' = c' := by
  have hsize : decide (0 = size) = decide (size = 0) := decide_eq_decide.mpr eq_comm
  have hfirst : decide (size = size) = true := decide_eq_true rfl
  have hitems (c₁ : Cursor) : fixedItems size c = .ok b c₁ ↔
      ∃ bs c₂ b', someBytes size size [] c = .ok bs c₂ ∧ bs = b'.toList ∧
        unlessFurther size b' c₂ = .ok b c₁ := by
    have hdef : fixedItems size = (do
        let bs ← someBytes size size []
        let b ← lift (orElse (FixedBytes.ofList? bs) (.wrongLength bs.length (exactly size)))
        unlessFurther size b) := rfl
    simp only [hdef, bind_eq_ok_iff, lift_eq_ok_iff, orElse_eq_ok_iff,
      FixedBytes.ofList?_eq_some_iff]
    constructor
    · rintro ⟨bs, c₂, hbs, b', _, ⟨hb', rfl⟩, hread⟩
      exact ⟨bs, _, b', hbs, hb', hread⟩
    · rintro ⟨bs, c₂, b', hbs, hb', hread⟩
      exact ⟨bs, c₂, hbs, b', c₂, ⟨hb', rfl⟩, hread⟩
  rw [← hfirst] at h
  simp only [fixedInText_array_iff, hitems]
  constructor
  · rintro ⟨c₁, ⟨_, c₂, b', hbs, rfl, hread⟩, hclose⟩
    obtain ⟨taken, rest, xs, rfl, hlength, hall, hxs, hrest⟩ :=
      split_of_someBytes (Nat.le_refl size) h hbs
    rw [hsize] at hrest
    obtain ⟨⟨rfl, hbehind⟩, hc⟩ := (unlessFurther_iff hrest).mp ⟨c₁, hread, hclose⟩
    have hbytes : b.toList = xs := hxs
    exact ⟨⟨taken, rest, rfl, hbytes ▸ hall, hbehind⟩, hc⟩
  · rintro ⟨⟨taken, rest, rfl, hall, hbehind⟩, rfl⟩
    have hlength : taken.length = size := hall.length_eq.trans b.length_toList
    subst hlength
    obtain ⟨c₂, hread, hrest⟩ := exists_someBytes hall (Nat.le_refl _) h []
    rw [hsize] at hrest
    obtain ⟨c₁, hunless, hclose⟩ := (unlessFurther_iff hrest).mpr ⟨⟨rfl, hbehind⟩, rfl⟩
    exact ⟨c₁, ⟨b.toList, c₂, b, hread, rfl, hunless⟩, hclose⟩

theorem fixedOfText_eq_ok_iff {s : String} {b : FixedBytes size} :
    fixedOfText size s = .ok b ↔ FixedBytes.ofText s = .ok b := by
  unfold fixedOfText
  cases FixedBytes.ofText s <;> simp [Except.mapError]

theorem fixedOfJson_eq_ok_iff {d : Json} (hd : ∀ vs, d ≠ .array vs) {b : FixedBytes size} :
    fixedOfJson size d = .ok b ↔ FixedInText size d b := by
  cases d with
  | array vs => exact absurd rfl (hd vs)
  | string s =>
    refine fixedOfText_eq_ok_iff.trans ⟨.text, fun h => ?_⟩
    cases h with
    | text h => exact h
  | _ => exact iff_of_false (mismatch_ne_ok _ _ _) nofun

theorem followedBy_fixed (size : Nat) : (Shape.fixed size).FollowedBy (FixedInText size) := by
  intro depth c c' d h b c''
  rw [Shape.read]
  cases layer_of_verbatim h with
  | @scalar _ d _ hscalar =>
    refine (dispatch_scalar_iff hscalar).trans (and_congr_left fun _ => ?_)
    exact fixedOfJson_eq_ok_iff fun vs hvs => ne_array_of_scalar hscalar hvs
  | @list depth vs _ hhead hlength hitems =>
    refine (dispatch_list_iff hhead).trans ?_
    simp only [deeper, advance_bind]
    exact enclosed_eq_ok_iff.trans (fixedItems_iff hitems)
  | object hhead _ _ =>
    refine (dispatch_object_iff hhead).trans (iff_of_false noObject_ne_ok ?_)
    rintro ⟨h, -⟩
    cases h

end

end ChainGateway.Wire
