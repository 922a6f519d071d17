import ChainGateway.Json.Reader
import ChainGateway.Json.Skip
import ChainGateway.Proofs.JsonTokens

namespace ChainGateway.Json

def Cursor.token (c : Cursor) : Cursor := c.advanceBy (c.rest.takeWhile Reader.isSpace).length

def Cursor.left (c : Cursor) : Nat := c.rest.length

def Cursor.pastDigits (c : Cursor) : Cursor :=
  c.advanceBy (c.rest.takeWhile Reader.isDigit).length

namespace Reader

variable {α β : Type} {r : Reader α} {f : α → Reader β} {a : α} {b : β} {c c' c'' : Cursor}

theorem bind_eq_ok_iff :
    (r >>= f) c = .ok b c'' ↔ ∃ a c', r c = .ok a c' ∧ f a c' = .ok b c'' := by
  change EStateM.bind r f c = _ ↔ _
  unfold EStateM.bind
  cases r c with
  | ok a c' => simp
  | error fault c' => simp

theorem bind_pure_eq_ok_iff {f : α → β} :
    (do
      let a ← r
      return f a : Reader β) c = .ok b c' ↔ ∃ a, r c = .ok a c' ∧ f a = b := by
  rw [bind_eq_ok_iff]
  constructor
  · rintro ⟨a, c₁, ha, hb⟩
    obtain ⟨rfl, rfl⟩ := EStateM.Result.ok.inj hb
    exact ⟨a, ha, rfl⟩
  · rintro ⟨a, ha, rfl⟩
    exact ⟨a, c', ha, rfl⟩

theorem bind_pair_eq_ok_iff {s : Reader β} :
    (do
      let a ← r
      return (a, ← s) : Reader (α × β)) c = .ok (a, b) c' ↔
        ∃ c₁, r c = .ok a c₁ ∧ s c₁ = .ok b c' := by
  rw [bind_eq_ok_iff]
  simp only [bind_pure_eq_ok_iff]
  constructor
  · rintro ⟨a', c₁, ha, b', hb, heq⟩
    obtain ⟨rfl, rfl⟩ := Prod.mk.inj heq
    exact ⟨c₁, ha, hb⟩
  · rintro ⟨c₁, ha, hb⟩
    exact ⟨a, c₁, ha, b, hb, rfl⟩

/-- Two runs go on alike where they read the same and what follows does the same with it. -/
theorem bind_congr_at {r' : Reader α} {f' : α → Reader β} (hr : r c = r' c)
    (hf : ∀ a c', r c = .ok a c' → f a c' = f' a c') : (r >>= f) c = (r' >>= f') c := by
  change EStateM.bind r f c = EStateM.bind r' f' c
  unfold EStateM.bind
  rw [← hr]
  cases hread : r c with
  | ok a c' => exact hf a c' hread
  | error fault c' => rfl

theorem discard_of_eq_ok (h : r c = .ok a c') : (discard r : Reader Unit) c = .ok () c' := by
  change EStateM.map (Function.const α ()) r c = _
  unfold EStateM.map
  rw [h]

@[simp]
theorem pure_apply : (pure a : Reader α) c = .ok a c := rfl

@[simp]
theorem peek?_bind {f : Option UInt8 → Reader β} : (peek? >>= f) c = f c.rest.head? c := rfl

@[simp]
theorem peekToken?_bind {f : Option UInt8 → Reader β} :
    (peekToken? >>= f) c = f c.token.rest.head? c.token := rfl

@[simp]
theorem advance_bind {f : Unit → Reader β} : (advance >>= f) c = f () c.advance := rfl

@[simp]
theorem advance_apply : advance c = .ok () c.advance := rfl

theorem token_token (c : Cursor) : c.token.token = c.token := by
  have hnone (text : List UInt8) :
      (text.drop (text.takeWhile isSpace).length).takeWhile isSpace = [] := by
    induction text with
    | nil => rfl
    | cons b text ih =>
      by_cases hb : isSpace b = Bool.true
      · simpa [hb] using ih
      · simp [hb]
  have hrest : c.token.rest = c.rest.drop (c.rest.takeWhile isSpace).length := rest_advanceBy _ c
  rw [Cursor.token, hrest, hnone]
  rfl

@[simp]
theorem next?_bind {f : Option UInt8 → Reader β} :
    (next? >>= f) c = f c.rest.head? c.advance := rfl

@[simp]
theorem digits_bind {f : List Nat → Reader β} :
    (digits >>= f) c = f ((c.rest.takeWhile isDigit).map digitValue) c.pastDigits := rfl

@[simp]
theorem discard_digits : (discard digits : Reader Unit) c = .ok () c.pastDigits := rfl

@[simp]
theorem discard_digits_bind {f : Unit → Reader β} :
    (discard digits >>= f) c = f () c.pastDigits := rfl

@[simp]
theorem steps_bind {f : Nat → Reader β} : (steps >>= f) c = f (c.rest.length + 1) c := rfl

@[simp]
theorem failHere_ne_ok {m : Malformed} : ¬ (failHere m : Reader α) c = .ok a c' := nofun

@[simp]
theorem failAhead_ne_ok {m : Malformed} : ¬ (failAhead m : Reader α) c = .ok a c' := nofun

@[simp]
theorem fail_ne_ok {cause : Cause} : ¬ (fail cause : Reader α) c = .ok a c' := nofun

@[simp]
theorem failHere_bind_ne_ok {m : Malformed} : ¬ (failHere m >>= f) c = .ok b c' := nofun

@[simp]
theorem failAhead_bind_ne_ok {m : Malformed} : ¬ (failAhead m >>= f) c = .ok b c' := nofun

@[simp]
theorem lift_eq_ok_iff {x : Except Cause α} : lift x c = .ok a c' ↔ x = .ok a ∧ c' = c := by
  cases x with
  | ok b => simp [lift, eq_comm]
  | error cause => simp [lift]

@[simp]
theorem placed_eq_ok_iff : placed r c = .ok a c' ↔ r c = .ok a c' := by
  unfold placed
  cases r c <;> simp

@[simp]
theorem enclosed_eq_ok_iff {close : Reader Unit} : enclosed r close c = .ok a c'' ↔
    ∃ c', r c = .ok a c' ∧ close c' = .ok () c'' := by
  unfold enclosed
  cases r c with
  | ok b c₁ =>
    cases hclose : close c₁ with
    | ok _ c₂ => simp only [EStateM.Result.ok.injEq]; grind
    | error fault c₂ => simp only [EStateM.Result.ok.injEq]; grind
  | error fault c₁ =>
    dsimp only
    cases close c₁ <;> simp

end Reader

namespace Cursor

variable {c : Cursor} {b : UInt8} {rest : List UInt8}

theorem left_advanceBy_le (n : Nat) (c : Cursor) : (c.advanceBy n).left ≤ c.left := by
  rw [left, Reader.rest_advanceBy, List.length_drop]
  exact Nat.sub_le _ _

theorem left_advance_le (c : Cursor) : c.advance.left ≤ c.left := left_advanceBy_le 1 c

theorem left_token_le (c : Cursor) : c.token.left ≤ c.left := left_advanceBy_le _ c

theorem left_advance_of_head? (h : c.rest.head? = some b) : c.advance.left + 1 = c.left := by
  obtain ⟨rest, hrest⟩ := List.head?_eq_some_iff.mp h
  rw [left, left, Reader.rest_advance, hrest]
  rfl

theorem pastDigits_of_digit (hrest : c.rest = b :: rest) (hb : Reader.isDigit b = true) :
    c.pastDigits = c.advance.pastDigits := by
  have hadvance : c.advance.rest = rest := by rw [Reader.rest_advance, hrest]; rfl
  rw [pastDigits, pastDigits, hrest, hadvance, List.takeWhile_cons, if_pos hb, List.length_cons,
    advanceBy]

theorem pastDigits_of_not (h : ∀ b ∈ c.rest.head?, Reader.isDigit b = false) :
    c.pastDigits = c := by
  have hnone : c.rest.takeWhile Reader.isDigit = [] := by
    cases hrest : c.rest with
    | nil => rfl
    | cons b rest =>
      rw [List.takeWhile_cons, h b (by rw [hrest]; rfl)]
      rfl
  rw [pastDigits, hnone]
  rfl

end Cursor

inductive Numeral : Json → Prop where
  | integer (n : Int) : Numeral (.integer n)
  | double (x : Decimal.Binary64) : Numeral (.double x)

namespace Reader

variable {c c' : Cursor} {v : Json} {negative downward : Bool} {significand : Nat} {start : Int}

theorem scaled_eq_ok {exponent : Int} (h : scaled negative significand exponent c = .ok v c') :
    (∃ x, v = .double x) ∧ c' = c := by
  unfold scaled at h
  cases hx : Decimal.Binary64.ofScientific? significand exponent with
  | none => simp [hx] at h
  | some rank =>
    simp [hx] at h
    obtain ⟨rfl, rfl⟩ := h
    exact ⟨⟨_, rfl⟩, rfl⟩

theorem exponentDigits_eq_ok {fuel e : Nat} (hfuel : c.rest.length < fuel)
    (h : exponentDigits negative significand start downward fuel e c = .ok v c') :
    (∃ x, v = .double x) ∧ c' = c.pastDigits := by
  -- on the fuel, of which each digit takes one unit
  induction fuel generalizing c e with
  | zero => cases hfuel
  | succ fuel ih =>
    rw [exponentDigits, peek?_bind] at h
    cases hrest : c.rest with
    | nil =>
      simp only [hrest, List.head?_nil] at h
      rw [Cursor.pastDigits_of_not (by simp [hrest])]
      exact scaled_eq_ok h
    | cons b rest =>
      simp only [hrest, List.head?_cons] at h
      by_cases hb : isDigit b = true
      · have hadvance : c.advance.rest.length < fuel := by
          rw [rest_advance, hrest]
          rw [hrest] at hfuel
          exact Nat.lt_of_succ_lt_succ hfuel
        rw [Cursor.pastDigits_of_digit hrest hb]
        simp only [hb, ↓reduceIte, advance_bind] at h
        split_ifs at h
        · exact ih hadvance h
        · simp at h
        · simp at h
          obtain ⟨rfl, rfl⟩ := h
          exact ⟨⟨_, rfl⟩, rfl⟩
      · simp only [hb] at h
        rw [Cursor.pastDigits_of_not (by simpa [hrest] using hb)]
        exact scaled_eq_ok h

theorem exponentDigits_of_next? {none none' : Malformed}
    (h : (do
      match ← next? with
      | .none => failHere none
      | some b =>
        if isDigit b then
          exponentDigits negative significand start downward (← steps) (digitValue b)
        else failHere .badNumber : Reader Json) c = .ok v c') :
    (∃ x, v = .double x) ∧ (do
      match ← next? with
      | .none => failHere none'
      | some b => if isDigit b then discard digits else failHere .badNumber : Reader Unit) c =
        .ok () c' := by
  simp only [next?_bind] at h ⊢
  cases hhead : c.rest.head? with
  | none => simp [hhead] at h
  | some b =>
    by_cases hb : isDigit b = true
    · simp only [hhead, hb, ↓reduceIte, steps_bind] at h
      obtain ⟨hv, rfl⟩ := exponentDigits_eq_ok (Nat.lt_succ_self _) h
      simp [hb, hv]
    · simp [hhead, hb] at h

theorem exponentPart_eq_ok (h : exponentPart negative significand start c = .ok v c') :
    (∃ x, v = .double x) ∧ skipExponent c = .ok () c' := by
  unfold exponentPart at h
  unfold skipExponent
  simp only [advance_bind, peek?_bind] at h ⊢
  by_cases hsign : c.advance.rest.head? = some 43 ∨ c.advance.rest.head? = some 45
  · simp only [hsign, ↓reduceIte, advance_bind] at h ⊢
    exact exponentDigits_of_next? h
  · simp only [hsign, ↓reduceIte] at h ⊢
    exact exponentDigits_of_next? h

theorem maybeExponent_eq_ok (h : maybeExponent negative significand start c = .ok v c') :
    (∃ x, v = .double x) ∧ (do
      let b ← peek?
      if b = some 101 ∨ b = some 69 then skipExponent : Reader Unit) c = .ok () c' := by
  unfold maybeExponent at h
  simp only [peek?_bind] at h ⊢
  split_ifs at h ⊢
  · exact exponentPart_eq_ok h
  · obtain ⟨hv, rfl⟩ := scaled_eq_ok h
    exact ⟨hv, rfl⟩

theorem decimals_eq_ok (h : decimals negative significand start c = .ok v c') :
    (∃ x, v = .double x) ∧ skipDecimals c = .ok () c' := by
  unfold decimals at h
  unfold skipDecimals
  simp only [advance_bind, digits_bind] at h ⊢
  by_cases hempty : (c.advance.rest.takeWhile isDigit).isEmpty = true
  · simp only [List.isEmpty_map, hempty, ↓reduceIte, peek?_bind] at h
    cases hhead : c.advance.pastDigits.rest.head? <;> simp [hhead] at h
  · simp only [List.isEmpty_map, hempty] at h ⊢
    exact maybeExponent_eq_ok h

theorem numeral_whole (negative : Bool) (n : Nat) : Numeral (whole negative n) := by
  unfold whole
  split_ifs
  · exact .double _
  · exact .integer _
  · exact .integer _

theorem afterWhole_eq_ok {ds : List Nat} (h : afterWhole negative ds c = .ok v c') :
    Numeral v ∧ (do
      let b ← peek?
      if b = some 46 then skipDecimals
      else if b = some 101 ∨ b = some 69 then skipExponent : Reader Unit) c = .ok () c' := by
  unfold afterWhole at h
  simp only [peek?_bind] at h ⊢
  split_ifs at h ⊢
  · obtain ⟨⟨x, rfl⟩, hskip⟩ := decimals_eq_ok h
    exact ⟨.double x, hskip⟩
  · obtain ⟨⟨x, rfl⟩, hskip⟩ := exponentPart_eq_ok h
    exact ⟨.double x, hskip⟩
  · obtain ⟨⟨x, rfl⟩, rfl⟩ := scaled_eq_ok h
    exact ⟨.double x, rfl⟩
  · obtain ⟨rfl, rfl⟩ := EStateM.Result.ok.inj h
    exact ⟨numeral_whole _ _, rfl⟩

/-- A number that is read is one, and is passed over up to the same place. -/
theorem number_eq_ok (h : number negative c = .ok v c') :
    Numeral v ∧ skipNumber c = .ok () c' := by
  unfold number at h
  unfold skipNumber
  simp only [next?_bind] at h ⊢
  cases hhead : c.rest.head? with
  | none => simp [hhead] at h
  | some b =>
    simp only [hhead] at h ⊢
    by_cases hzero : b = 48
    · simp only [hzero, ↓reduceIte, peek?_bind] at h ⊢
      cases hnext : c.advance.rest.head? with
      | none =>
        simp only [hnext, Option.any_none] at h ⊢
        exact afterWhole_eq_ok h
      | some d =>
        by_cases hd : isDigit d = true
        · simp [hnext, hd] at h
        · simp only [hnext, hd, Option.any_some] at h ⊢
          exact afterWhole_eq_ok h
    · simp only [hzero, ↓reduceIte] at h ⊢
      by_cases hb : isDigit b = true
      · simp only [hb, ↓reduceIte, digits_bind, discard_digits_bind] at h ⊢
        exact afterWhole_eq_ok h
      · simp [hb] at h

/-- What is read leaves no more than there was. -/
def Forward (r : Reader α) : Prop :=
  ∀ c a c', r c = .ok a c' → c'.left ≤ c.left

theorem forward_pure (a : α) : Forward (pure a) := by
  intro c _ c' h
  obtain ⟨-, rfl⟩ := EStateM.Result.ok.inj h
  exact Nat.le_refl _

theorem forward_bind {r : Reader α} {f : α → Reader β} (hr : Forward r)
    (hf : ∀ a, Forward (f a)) : Forward (r >>= f) := by
  intro c b c'' h
  obtain ⟨a, c', hc', h⟩ := bind_eq_ok_iff.mp h
  exact Nat.le_trans (hf a c' b c'' h) (hr c a c' hc')

theorem forward_failHere (m : Malformed) : Forward (failHere m : Reader α) := nofun

theorem forward_failAhead (m : Malformed) : Forward (failAhead m : Reader α) := nofun

theorem forward_advance : Forward advance := by
  intro c _ c' h
  obtain ⟨-, rfl⟩ := EStateM.Result.ok.inj h
  exact c.left_advance_le

theorem forward_peek? : Forward peek? := by
  intro c _ c' h
  obtain ⟨-, rfl⟩ := EStateM.Result.ok.inj h
  exact Nat.le_refl _

theorem forward_next? : Forward next? :=
  forward_bind forward_peek? fun _ => forward_bind forward_advance fun _ => forward_pure _

theorem forward_digits : Forward digits := by
  intro c _ c' h
  obtain ⟨-, rfl⟩ := EStateM.Result.ok.inj h
  exact Cursor.left_advanceBy_le _ c

theorem forward_discard_digits : Forward (discard digits : Reader Unit) := by
  intro c _ c' h
  obtain ⟨-, rfl⟩ := EStateM.Result.ok.inj h
  exact Cursor.left_advanceBy_le _ c

theorem forward_get : Forward get := by
  intro c _ c' h
  obtain ⟨-, rfl⟩ := EStateM.Result.ok.inj h
  exact Nat.le_refl _

theorem forward_advanceBy (k : Nat) : Forward (modify (Cursor.advanceBy k)) := by
  intro c _ c' h
  obtain ⟨-, rfl⟩ := EStateM.Result.ok.inj h
  exact Cursor.left_advanceBy_le k c

theorem forward_codeUnit : Forward codeUnit := by
  unfold codeUnit
  refine forward_bind forward_get fun c => forward_bind (forward_advanceBy _) fun _ => ?_
  split_ifs
  · exact forward_failHere _
  · split
    · exact forward_pure _
    · exact forward_failHere _

theorem within_eq_ok_iff {b : UInt8} :
    within c = .ok b c' ↔ c.rest.head? = some b ∧ c' = c.advance := by
  unfold within
  simp only [next?_bind]
  cases c.rest.head? with
  | none => simp
  | some d => simp [eq_comm]

end Reader

def Cursor.pastLiterals (c : Cursor) : Cursor :=
  c.advanceBy (c.rest.takeWhile Reader.isLiteral).length

namespace Reader

variable {c c' : Cursor}

theorem pastLiterals_of_head? {b : UInt8} (h : c.rest.head? = some b) (hb : isLiteral b = false) :
    c.pastLiterals = c := by
  obtain ⟨rest, hrest⟩ := List.head?_eq_some_iff.mp h
  rw [Cursor.pastLiterals, hrest, List.takeWhile_cons, hb]
  rfl

theorem skipString_succ (fuel : Nat) : skipString (fuel + 1) c = (do
    match ← peek? with
    | none => failHere .endInString
    | some b =>
      if b = 34 then advance
      else if b = 92 then
        advance
        let e ← within
        if e = 117 then discard codeUnit
        else if (escaped? e).isNone then failHere .badEscape
        skipString fuel
      else failHere .controlCharacter : Reader Unit) c.pastLiterals := rfl

theorem skipString_letter {e : UInt8} (hhead : c.pastLiterals.rest.head? = some 92)
    (he : c.pastLiterals.advance.rest.head? = some e) (hne : e ≠ 117)
    (hsome : escaped? e ≠ none) (fuel : Nat) :
    skipString (fuel + 1) c = skipString fuel c.pastLiterals.advance.advance := by
  have hwithin : within c.pastLiterals.advance = .ok e c.pastLiterals.advance.advance :=
    within_eq_ok_iff.mpr ⟨he, rfl⟩
  rw [skipString_succ, peek?_bind, hhead]
  simp [bind_of_eq_ok hwithin, hne, hsome]

theorem skipString_unit {n : Nat} (hhead : c.pastLiterals.rest.head? = some 92)
    (he : c.pastLiterals.advance.rest.head? = some 117)
    (h : codeUnit c.pastLiterals.advance.advance = .ok n c') (fuel : Nat) :
    skipString (fuel + 1) c = skipString fuel c' := by
  have hwithin : within c.pastLiterals.advance = .ok 117 c.pastLiterals.advance.advance :=
    within_eq_ok_iff.mpr ⟨he, rfl⟩
  have hunit : (discard codeUnit : Reader Unit) c.pastLiterals.advance.advance = .ok () c' :=
    discard_of_eq_ok h
  rw [skipString_succ, peek?_bind, hhead]
  simp [bind_of_eq_ok hwithin, bind_of_eq_ok hunit]

inductive Escape (c : Cursor) : Cursor → Prop where
  | letter {e : UInt8} : c.rest.head? = some e → e ≠ 117 → escaped? e ≠ none → Escape c c.advance
  | unit {n : Nat} {c' : Cursor} : c.rest.head? = some 117 → codeUnit c.advance = .ok n c' →
      Escape c c'
  | pair {n m : Nat} {c₁ c' : Cursor} : c.rest.head? = some 117 → codeUnit c.advance = .ok n c₁ →
      c₁.rest.head? = some 92 → c₁.advance.rest.head? = some 117 →
      codeUnit c₁.advance.advance = .ok m c' → Escape c c'

theorem escape_of_escapeSequence {ch : Char} (h : escapeSequence c = .ok ch c') : Escape c c' := by
  unfold escapeSequence at h
  obtain ⟨e, c₁, hwithin, h⟩ := bind_eq_ok_iff.mp h
  obtain ⟨hhead, rfl⟩ := within_eq_ok_iff.mp hwithin
  by_cases he : e = 117
  · subst he
    simp only [↓reduceIte] at h
    unfold numbered at h
    obtain ⟨n, c₁, hunit, h⟩ := bind_eq_ok_iff.mp h
    split_ifs at h
    · simp at h
    · simp only [pure_apply, EStateM.Result.ok.injEq] at h
      exact h.2 ▸ .unit hhead hunit
    · obtain ⟨b, c₂, hbackslash, h⟩ := bind_eq_ok_iff.mp h
      obtain ⟨hb, rfl⟩ := within_eq_ok_iff.mp hbackslash
      -- the first half of a pair has the second one right behind it
      by_cases hne : b ≠ 92
      · simp [hne] at h
      simp only [hne, ↓reduceIte] at h
      obtain ⟨d, c₃, hletter, h⟩ := bind_eq_ok_iff.mp h
      obtain ⟨hd, rfl⟩ := within_eq_ok_iff.mp hletter
      by_cases hne' : d ≠ 117
      · simp [hne'] at h
      simp only [hne', ↓reduceIte] at h
      obtain ⟨m, c₄, hunit', h⟩ := bind_eq_ok_iff.mp h
      obtain rfl := not_not.mp hne
      obtain rfl := not_not.mp hne'
      split_ifs at h
      · simp at h
      · simp only [pure_apply, EStateM.Result.ok.injEq] at h
        exact h.2 ▸ .pair hhead hunit hb hd hunit'
  · simp only [he, ↓reduceIte] at h
    cases hletter : escaped? e with
    | none => simp [hletter] at h
    | some ch' =>
      simp only [hletter, pure_apply, EStateM.Result.ok.injEq] at h
      exact h.2 ▸ .letter hhead he (by simp [hletter])

theorem exists_skipString_of_escape (hhead : c.pastLiterals.rest.head? = some 92)
    (h : Escape c.pastLiterals.advance c') {fuel : Nat} (hfuel : c.left < fuel) :
    c'.left < c.left ∧ ∃ fuel', c'.left < fuel' ∧ skipString fuel c = skipString fuel' c' := by
  have hliterals : c.pastLiterals.left ≤ c.left := Cursor.left_advanceBy_le _ c
  have hbackslash := Cursor.left_advance_of_head? hhead
  obtain ⟨fuel, rfl⟩ := Nat.exists_eq_succ_of_ne_zero (Nat.ne_zero_of_lt hfuel)
  cases h with
  | @letter e he hne hsome =>
    have hletter := Cursor.left_advance_of_head? he
    exact ⟨by omega, fuel, by omega, skipString_letter hhead he hne hsome fuel⟩
  | @unit n c' he hunit =>
    have hletter := Cursor.left_advance_of_head? he
    have hdigits := forward_codeUnit _ _ _ hunit
    exact ⟨by omega, fuel, by omega, skipString_unit hhead he hunit fuel⟩
  | @pair n m c₁ c' he hunit hhead' he' hunit' =>
    have hletter := Cursor.left_advance_of_head? he
    have hdigits := forward_codeUnit _ _ _ hunit
    have hbackslash' := Cursor.left_advance_of_head? hhead'
    have hletter' := Cursor.left_advance_of_head? he'
    have hdigits' := forward_codeUnit _ _ _ hunit'
    have hstay : c₁.pastLiterals = c₁ := pastLiterals_of_head? hhead' rfl
    obtain ⟨fuel, rfl⟩ := Nat.exists_eq_succ_of_ne_zero (n := fuel) (by omega)
    refine ⟨by omega, fuel, by omega, ?_⟩
    rw [skipString_unit hhead he hunit]
    rw [← hstay] at hhead' he' hunit'
    exact skipString_unit hhead' he' hunit' fuel

theorem stringBytes_cases {fuel : Nat} {acc bs : List UInt8}
    (h : stringBytes (fuel + 1) acc c = .ok bs c') :
    c.pastLiterals.rest.head? = some 34 ∧ bs = (c.rest.takeWhile isLiteral).reverse ++ acc ∧
        c' = c.pastLiterals.advance ∨
      c.pastLiterals.rest.head? = some 92 ∧ ∃ ch c₁,
        escapeSequence c.pastLiterals.advance = .ok ch c₁ ∧
        stringBytes fuel ((String.utf8EncodeChar ch).reverse ++
          ((c.rest.takeWhile isLiteral).reverse ++ acc)) c₁ = .ok bs c' := by
  have h : stringBytesOn fuel ((c.rest.takeWhile isLiteral).reverse ++ acc) c.pastLiterals =
      .ok bs c' := h
  rw [stringBytesOn, next?_bind] at h
  cases hhead : c.pastLiterals.rest.head? with
  | none => simp [hhead] at h
  | some b =>
    simp only [hhead] at h
    split_ifs at h with hquote hbackslash
    · obtain ⟨rfl, rfl⟩ := EStateM.Result.ok.inj h
      exact .inl ⟨hquote ▸ rfl, rfl, rfl⟩
    · obtain ⟨ch, c₁, hescape, hrest⟩ := bind_eq_ok_iff.mp h
      exact .inr ⟨hbackslash ▸ rfl, ch, c₁, hescape, hrest⟩
    · simp at h

theorem stringBytes_eq_ok {fuel fuel' : Nat} {acc bs : List UInt8} (hfuel : c.left < fuel)
    (hfuel' : c.left < fuel') (h : stringBytes fuel acc c = .ok bs c') :
    c'.left < c.left ∧ skipString fuel' c = .ok () c' := by
  induction fuel generalizing c acc fuel' with
  | zero => cases hfuel
  | succ fuel ih =>
    obtain ⟨hquote, rfl, rfl⟩ | ⟨hbackslash, ch, c₁, hescape, h⟩ := stringBytes_cases h
    · have hliterals : c.pastLiterals.left ≤ c.left := Cursor.left_advanceBy_le _ c
      have hleft := Cursor.left_advance_of_head? hquote
      obtain ⟨fuel', rfl⟩ := Nat.exists_eq_succ_of_ne_zero (Nat.ne_zero_of_lt hfuel')
      refine ⟨by omega, ?_⟩
      rw [skipString_succ, peek?_bind, hquote]
      rfl
    · obtain ⟨hleft, fuel'', hfuel'', hskip⟩ := exists_skipString_of_escape hbackslash
        (escape_of_escapeSequence hescape) hfuel'
      obtain ⟨hleft', hrest⟩ := ih (by omega) hfuel'' h
      exact ⟨by omega, hskip.trans hrest⟩

theorem stringBody_eq_ok {s : String} (h : stringBody c = .ok s c') {fuel : Nat}
    (hfuel : c.left < fuel) : c'.left < c.left ∧ skipString fuel c = .ok () c' := by
  unfold stringBody at h
  rw [steps_bind] at h
  obtain ⟨bs, c₁, hbytes, h⟩ := bind_eq_ok_iff.mp h
  have hskip := stringBytes_eq_ok (Nat.lt_succ_self _) hfuel hbytes
  cases htext : Text.ofUtf8? bs.reverse with
  | none => simp [htext] at h
  | some t =>
    simp only [htext, pure_apply, EStateM.Result.ok.injEq] at h
    exact h.2 ▸ hskip

theorem forward_skipExponent : Forward skipExponent := by
  have hdigits : Forward (do
      match ← next? with
      | none => failHere .badNumber
      | some b => if isDigit b then discard digits else failHere .badNumber : Reader Unit) := by
    refine forward_bind forward_next? fun next => ?_
    split
    · exact forward_failHere _
    · split_ifs
      · exact forward_discard_digits
      · exact forward_failHere _
  unfold skipExponent
  refine forward_bind forward_advance fun _ => forward_bind forward_peek? fun sign => ?_
  dsimp only
  split_ifs
  · exact forward_bind forward_advance fun _ => hdigits
  · exact hdigits

theorem forward_maybeSkipExponent : Forward (do
    let b ← peek?
    if b = some 101 ∨ b = some 69 then skipExponent : Reader Unit) := by
  refine forward_bind forward_peek? fun b => ?_
  split_ifs
  · exact forward_skipExponent
  · exact forward_pure ()

theorem forward_skipDecimals : Forward skipDecimals := by
  unfold skipDecimals
  refine forward_bind forward_advance fun _ => forward_bind forward_digits fun ds => ?_
  dsimp only
  split_ifs
  · exact forward_bind (forward_failAhead _) fun _ => forward_maybeSkipExponent
  · exact forward_maybeSkipExponent

theorem left_lt_of_skipNumber (h : skipNumber c = .ok () c') : c'.left < c.left := by
  have hfraction : Forward (do
      let b ← peek?
      if b = some 46 then skipDecimals
      else if b = some 101 ∨ b = some 69 then skipExponent : Reader Unit) := by
    refine forward_bind forward_peek? fun b => ?_
    split_ifs
    · exact forward_skipDecimals
    · exact forward_skipExponent
    · exact forward_pure ()
  unfold skipNumber at h
  rw [next?_bind] at h
  cases hhead : c.rest.head? with
  | none => simp [hhead] at h
  | some b =>
    have hleft := Cursor.left_advance_of_head? hhead
    suffices c'.left ≤ c.advance.left by omega
    simp only [hhead] at h
    split_ifs at h
    · rw [peek?_bind] at h
      split_ifs at h
      · simp at h
      · exact hfraction _ _ _ h
    · exact forward_bind forward_discard_digits (fun _ => hfraction) _ _ _ h
    · simp at h

end Reader
end ChainGateway.Json
