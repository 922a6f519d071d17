import ChainGateway.Proofs.JsonDocument

namespace ChainGateway.Json.Reader

variable {c c' : Cursor} {fuel : Nat}

theorem forward_keyword (bs : List UInt8) : Forward (keyword bs) := by
  induction bs with
  | nil => exact forward_pure ()
  | cons b bs ih =>
    refine forward_bind forward_next? fun next => ?_
    cases next with
    | none => exact forward_failHere _
    | some b' =>
      dsimp only
      split_ifs
      · exact ih
      · exact forward_failHere _

theorem left_lt_of_keyword {b : UInt8} {bs : List UInt8} (hhead : c.rest.head? = some b)
    (h : keyword bs c.advance = .ok () c') : c'.left < c.left := by
  have hadvance := Cursor.left_advance_of_head? hhead
  have hforward := forward_keyword _ _ _ _ h
  omega

theorem left_lt_of_scalar {v : Json} (h : Scalar c v c') : c'.left < c.left := by
  cases h with
  | null hhead hkeyword | true hhead hkeyword | false hhead hkeyword =>
    exact left_lt_of_keyword hhead hkeyword
  | negative hhead hnumber =>
    have hadvance := Cursor.left_advance_of_head? hhead
    have hskip := left_lt_of_skipNumber (number_eq_ok hnumber).2
    omega
  | positive hhead hb hnumber => exact left_lt_of_skipNumber (number_eq_ok hnumber).2
  | string hhead hstring =>
    have hadvance := Cursor.left_advance_of_head? hhead
    have hskip := (stringBody_eq_ok hstring (Nat.lt_succ_self _)).1
    omega

theorem skipFrom_of_scalar {v : Json} (h : Scalar c.token v c') (hfuel : c.left ≤ fuel)
    (stack : List Bracket) :
    skipFrom (fuel + 1) stack .value c = skipFrom fuel stack (.inside true) c' := by
  rw [skipFrom, peekToken?_bind]
  cases h with
  | null hhead hkeyword => simp [hhead, bind_of_eq_ok hkeyword]
  | true hhead hkeyword => simp [hhead, bind_of_eq_ok hkeyword]
  | false hhead hkeyword => simp [hhead, bind_of_eq_ok hkeyword]
  | negative hhead hnumber =>
    simp [hhead, bind_of_eq_ok (number_eq_ok hnumber).2]
  | @positive b v c' hhead hb hnumber =>
    have hn : b ≠ 110 := ne_of_isDigit hb rfl
    have ht : b ≠ 116 := ne_of_isDigit hb rfl
    have hf : b ≠ 102 := ne_of_isDigit hb rfl
    have hminus : b ≠ 45 := ne_of_isDigit hb rfl
    have hsquare : b ≠ 91 := ne_of_isDigit hb rfl
    have hbrace : b ≠ 123 := ne_of_isDigit hb rfl
    simp [hhead, hn, ht, hf, hminus, hb, hsquare, hbrace,
      bind_of_eq_ok (number_eq_ok hnumber).2]
  | string hhead hstring =>
    have hleft : c.token.advance.left < fuel + 1 :=
      Nat.lt_succ_of_le (Nat.le_trans (Nat.le_trans c.token.left_advance_le c.left_token_le) hfuel)
    simp [hhead, show isDigit 34 = false from rfl,
      bind_of_eq_ok (stringBody_eq_ok hstring hleft).2]

theorem skipFrom_of_open {bracket : Bracket} {b : UInt8} (hhead : c.token.rest.head? = some b)
    (hb : b = 91 ∧ bracket = .square ∨ b = 123 ∧ bracket = .brace) (stack : List Bracket) :
    skipFrom (fuel + 1) stack .value c =
      skipFrom fuel (bracket :: stack) (.inside false) c.token.advance := by
  rw [skipFrom, peekToken?_bind]
  obtain ⟨rfl, rfl⟩ | ⟨rfl, rfl⟩ := hb <;> simp [hhead]

theorem skipFrom_inside {bracket : Bracket} {b : UInt8} (hhead : c.token.rest.head? = some b)
    (afterItem : Bool) (stack : List Bracket) :
    skipFrom (fuel + 1) (bracket :: stack) (.inside afterItem) c =
      (if afterItem ∧ b = 44 then do
        advance
        if bracket = .brace then skipName (fuel + 1)
        skipFrom fuel (bracket :: stack) .value
      else if b = bracket.closing then do
        advance
        skipFrom fuel stack (.inside true)
      else if afterItem then failAhead bracket.noSeparator
      else do
        if bracket = .brace then skipName (fuel + 1)
        skipFrom fuel (bracket :: stack) .value : Reader Unit) c.token := by
  rw [skipFrom, peekToken?_bind, hhead]

theorem skipFrom_of_close {bracket : Bracket} (hhead : c.token.rest.head? = some bracket.closing)
    (afterItem : Bool) (stack : List Bracket) :
    skipFrom (fuel + 1) (bracket :: stack) (.inside afterItem) c =
      skipFrom fuel stack (.inside true) c.token.advance := by
  have hcomma : bracket.closing ≠ 44 := by cases bracket <;> decide
  rw [skipFrom_inside hhead]
  simp [hcomma]

theorem skipFrom_of_item {b : UInt8} (hhead : c.token.rest.head? = some b) (hb : b ≠ 93)
    (stack : List Bracket) :
    skipFrom (fuel + 1) (.square :: stack) (.inside false) c =
      skipFrom fuel (.square :: stack) .value c.token := by
  rw [skipFrom_inside hhead]
  simp [Bracket.closing, hb]

theorem skipFrom_of_nextItem (hhead : c.token.rest.head? = some 44) (stack : List Bracket) :
    skipFrom (fuel + 1) (.square :: stack) (.inside true) c =
      skipFrom fuel (.square :: stack) .value c.token.advance := by
  rw [skipFrom_inside hhead]
  simp

theorem skipFrom_of_member (hhead : c.token.rest.head? = some 34)
    (hname : skipName (fuel + 1) c.token = .ok () c') (stack : List Bracket) :
    skipFrom (fuel + 1) (.brace :: stack) (.inside false) c =
      skipFrom fuel (.brace :: stack) .value c' := by
  rw [skipFrom_inside hhead]
  simp [Bracket.closing, bind_of_eq_ok hname]

theorem skipFrom_of_nextMember (hhead : c.token.rest.head? = some 44)
    (hname : skipName (fuel + 1) c.token.advance = .ok () c') (stack : List Bracket) :
    skipFrom (fuel + 1) (.brace :: stack) (.inside true) c =
      skipFrom fuel (.brace :: stack) .value c' := by
  rw [skipFrom_inside hhead]
  simp [bind_of_eq_ok hname]

theorem forward_colon : Forward colon := by
  intro c _ c' h
  unfold colon at h
  rw [peekToken?_bind] at h
  cases hhead : c.token.rest.head? with
  | none => simp [hhead] at h
  | some b =>
    simp only [hhead] at h
    split_ifs at h
    · obtain ⟨-, rfl⟩ := EStateM.Result.ok.inj h
      exact Nat.le_trans c.token.left_advance_le c.left_token_le
    · simp at h

theorem skipName_of_name {k : String} {c₁ : Cursor} (hhead : c.token.rest.head? = some 34)
    (hname : name c.token = .ok k c₁) (hcolon : colon c₁ = .ok () c') (hfuel : c.left ≤ fuel) :
    c'.left < c.left ∧ skipName fuel c = .ok () c' := by
  have hquote := Cursor.left_advance_of_head? hhead
  have hblank := c.left_token_le
  obtain ⟨hleft, hstring⟩ := stringBody_eq_ok hname (show _ < fuel by omega)
  have hcolon' := forward_colon _ _ _ hcolon
  refine ⟨by omega, ?_⟩
  rw [skipName, peekToken?_bind, hhead]
  simp [bind_of_eq_ok hstring, hcolon]

/-- With two steps for each byte that is left, passing over goes from before a value to behind it,
whatever brackets are open, and keeps as many steps for the bytes behind it and one more. -/
def Passed (c c' : Cursor) : Prop :=
  ∀ fuel, 2 * c.left ≤ fuel → ∃ fuel', 2 * c'.left + 1 ≤ fuel' ∧
    ∀ stack, skipFrom fuel stack .value c = skipFrom fuel' stack (.inside true) c'

section

variable {depth : Nat} (hpassed : ∀ {c c' d}, verbatim depth c = .ok d c' → Passed c c')

include hpassed

theorem exists_skipFrom_items {first : Bool} {vs : List Json}
    (h : Items (verbatim depth) first c vs c') (hfuel : 2 * c.left + 1 ≤ fuel) :
    ∃ fuel', 2 * c'.left + 1 ≤ fuel' ∧ ∀ stack,
      skipFrom fuel (.square :: stack) (.inside !first) c =
        skipFrom fuel' stack (.inside true) c' := by
  induction h generalizing fuel with
  | @close first c hhead =>
    have hbracket := Cursor.left_advance_of_head? hhead
    have hblank := c.left_token_le
    obtain ⟨fuel, rfl⟩ := Nat.exists_eq_succ_of_ne_zero (n := fuel) (by omega)
    exact ⟨fuel, by omega, fun stack => skipFrom_of_close hhead (!first) stack⟩
  | @cons first c c₁ c₂ c' v vs hmore hitem _ ih =>
    obtain ⟨fuel, rfl⟩ := Nat.exists_eq_succ_of_ne_zero (n := fuel) (by omega)
    have hblank := c.left_token_le
    obtain ⟨hmore, -⟩ | ⟨-, b, hhead, hb, ⟨rfl, rfl⟩ | ⟨rfl, rfl, rfl⟩⟩ := anotherItem_cases hmore
    · cases hmore
    · obtain ⟨fuel₁, hfuel₁, hskip⟩ := hpassed hitem fuel (by omega)
      obtain ⟨fuel₂, hfuel₂, hrest⟩ := ih hfuel₁
      refine ⟨fuel₂, hfuel₂, fun stack => ?_⟩
      exact (skipFrom_of_item hhead hb stack).trans ((hskip _).trans (hrest stack))
    · have hcomma := Cursor.left_advance_of_head? hhead
      rw [verbatim_token] at hitem
      obtain ⟨fuel₁, hfuel₁, hskip⟩ := hpassed hitem fuel (by omega)
      obtain ⟨fuel₂, hfuel₂, hrest⟩ := ih hfuel₁
      refine ⟨fuel₂, hfuel₂, fun stack => ?_⟩
      exact (skipFrom_of_nextItem hhead stack).trans ((hskip _).trans (hrest stack))

theorem exists_skipFrom_members {first : Bool} {ms : List (String × Json)}
    (h : Members (verbatim depth) first c ms c') (hfuel : 2 * c.left + 1 ≤ fuel) :
    ∃ fuel', 2 * c'.left + 1 ≤ fuel' ∧ ∀ stack,
      skipFrom fuel (.brace :: stack) (.inside !first) c =
        skipFrom fuel' stack (.inside true) c' := by
  -- each byte is worth two units of fuel, enough for a value and what stands before it
  induction h generalizing fuel with
  | @close first c hhead =>
    have hbracket := Cursor.left_advance_of_head? hhead
    have hblank := c.left_token_le
    obtain ⟨fuel, rfl⟩ := Nat.exists_eq_succ_of_ne_zero (n := fuel) (by omega)
    exact ⟨fuel, by omega, fun stack => skipFrom_of_close hhead (!first) stack⟩
  | @cons first c c₁ c₂ c₃ c₄ c' k v ms hmore hname hcolon hvalue _ ih =>
    obtain ⟨fuel, rfl⟩ := Nat.exists_eq_succ_of_ne_zero (n := fuel) (by omega)
    have hblank := c.left_token_le
    obtain ⟨hmore, -⟩ | ⟨-, hquote, ⟨rfl, rfl⟩ | ⟨rfl, hhead, rfl⟩⟩ := anotherMember_cases hmore
    · cases hmore
    · rw [← token_token] at hname
      obtain ⟨hleft, hskipName⟩ := skipName_of_name (c := c.token)
        (by rw [token_token]; exact hquote) hname hcolon (show _ ≤ fuel + 1 by omega)
      obtain ⟨fuel₁, hfuel₁, hskip⟩ := hpassed hvalue fuel (by omega)
      obtain ⟨fuel₂, hfuel₂, hrest⟩ := ih hfuel₁
      refine ⟨fuel₂, hfuel₂, fun stack => ?_⟩
      exact (skipFrom_of_member hquote hskipName stack).trans ((hskip _).trans (hrest stack))
    · have hcomma := Cursor.left_advance_of_head? hhead
      obtain ⟨hleft, hskipName⟩ :=
        skipName_of_name hquote hname hcolon (show _ ≤ fuel + 1 by omega)
      obtain ⟨fuel₁, hfuel₁, hskip⟩ := hpassed hvalue fuel (by omega)
      obtain ⟨fuel₂, hfuel₂, hrest⟩ := ih hfuel₁
      refine ⟨fuel₂, hfuel₂, fun stack => ?_⟩
      exact (skipFrom_of_nextMember hhead hskipName stack).trans ((hskip _).trans (hrest stack))

end

theorem passed_of_scalar {v : Json} (h : Scalar c.token v c') : Passed c c' := by
  intro fuel hfuel
  have hleft := left_lt_of_scalar h
  have hblank := c.left_token_le
  obtain ⟨fuel, rfl⟩ := Nat.exists_eq_succ_of_ne_zero (n := fuel) (by omega)
  exact ⟨fuel, by omega, fun stack => skipFrom_of_scalar h (by omega) stack⟩

theorem passed_of_verbatim {depth : Nat} {d : Json} (h : verbatim depth c = .ok d c') :
    Passed c c' := by
  -- on the depth: what stands inside brackets is one level down
  induction depth generalizing c c' d with
  | zero =>
    cases layer_of_verbatim h with
    | scalar hscalar => exact passed_of_scalar hscalar
  | succ depth ih =>
    have hblank := c.left_token_le
    cases layer_of_verbatim h with
    | scalar hscalar => exact passed_of_scalar hscalar
    | list hhead _ hitems =>
      intro fuel hfuel
      have hbracket := Cursor.left_advance_of_head? hhead
      obtain ⟨fuel, rfl⟩ := Nat.exists_eq_succ_of_ne_zero (n := fuel) (by omega)
      obtain ⟨fuel', hfuel', hskip⟩ :=
        exists_skipFrom_items ih hitems (show _ ≤ fuel by omega)
      refine ⟨fuel', hfuel', fun stack => ?_⟩
      exact (skipFrom_of_open hhead (Or.inl ⟨rfl, rfl⟩) stack).trans (hskip stack)
    | object hhead _ hmembers =>
      intro fuel hfuel
      have hbracket := Cursor.left_advance_of_head? hhead
      obtain ⟨fuel, rfl⟩ := Nat.exists_eq_succ_of_ne_zero (n := fuel) (by omega)
      obtain ⟨fuel', hfuel', hskip⟩ :=
        exists_skipFrom_members ih hmembers (show _ ≤ fuel by omega)
      refine ⟨fuel', hfuel', fun stack => ?_⟩
      exact (skipFrom_of_open hhead (Or.inr ⟨rfl, rfl⟩) stack).trans (hskip stack)

/-- Where a document is read, it is passed over up to the same place. -/
theorem skip_of_verbatim {depth : Nat} {d : Json} (h : verbatim depth c = .ok d c') :
    skip c = .ok () c' := by
  obtain ⟨fuel, hfuel, hskip⟩ := passed_of_verbatim h (3 * (c.left + 1)) (by omega)
  obtain ⟨fuel, rfl⟩ := Nat.exists_eq_succ_of_ne_zero (n := fuel) (by omega)
  exact hskip []

end ChainGateway.Json.Reader
