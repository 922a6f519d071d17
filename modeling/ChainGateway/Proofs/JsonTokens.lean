import ChainGateway.Json.Printer
import ChainGateway.Json.Reader
import ChainGateway.Proofs.Utf8
import Mathlib.Tactic.IntervalCases

namespace ChainGateway.Json

def bytes (cs : List Char) : List UInt8 := cs.flatMap String.utf8EncodeChar

theorem bytes_append (cs ds : List Char) : bytes (cs ++ ds) = bytes cs ++ bytes ds :=
  List.flatMap_append

theorem bytes_singleton (c : Char) : bytes [c] = String.utf8EncodeChar c :=
  List.flatMap_singleton _ c

namespace Reader

variable {α β : Type}

/-- Wherever a text stands, the reader gives a value and leaves what follows. -/
def Gives (r : Reader α) (text : List UInt8) (a : α) (rest : List UInt8) : Prop :=
  ∀ c : Cursor, c.rest = text → ∃ c', r c = .ok a c' ∧ c'.rest = rest

section

variable {r : Reader α} {f : α → Reader β} {a : α} {b : β} {text mid rest : List UInt8}
  {c c' : Cursor}

theorem bind_of_eq_ok (h : r c = .ok a c') : (r >>= f) c = f a c' := by
  change EStateM.bind r f c = _
  unfold EStateM.bind
  rw [h]

theorem gives_pure (a : α) (text : List UInt8) : Gives (pure a) text a text :=
  fun c hc => ⟨c, rfl, hc⟩

theorem gives_bind (hr : Gives r text a mid) (hf : Gives (f a) mid b rest) :
    Gives (r >>= f) text b rest := by
  intro c hc
  obtain ⟨c', hc', hmid⟩ := hr c hc
  obtain ⟨c'', hc'', hrest⟩ := hf c' hmid
  exact ⟨c'', (bind_of_eq_ok hc').trans hc'', hrest⟩

theorem gives_get_bind {f : Cursor → Reader β}
    (h : ∀ c : Cursor, c.rest = text → Gives (f c) text b rest) :
    Gives (get >>= f) text b rest :=
  fun c hc => h c hc c hc

theorem gives_placed (h : Gives r text a rest) : Gives (placed r) text a rest := by
  intro c hc
  obtain ⟨c', hc', hrest⟩ := h c hc
  exact ⟨c', by unfold placed; rw [hc'], hrest⟩

theorem gives_enclosed {close : Reader Unit} (hr : Gives r text a mid)
    (hclose : Gives close mid () rest) : Gives (enclosed r close) text a rest := by
  intro c hc
  obtain ⟨c', hc', hmid⟩ := hr c hc
  obtain ⟨c'', hc'', hrest⟩ := hclose c' hmid
  refine ⟨c'', ?_, hrest⟩
  unfold enclosed
  rw [hc']
  simp only [hc'']

end

theorem rest_advance (c : Cursor) : c.advance.rest = c.rest.tail := by
  unfold Cursor.advance
  split
  · simp_all
  · rename_i b r h
    split <;> simp [h]

theorem rest_advanceBy (n : Nat) (c : Cursor) : (c.advanceBy n).rest = c.rest.drop n := by
  induction n generalizing c with
  | zero => rfl
  | succ n ih =>
    rw [Cursor.advanceBy, ih, rest_advance, ← List.drop_one, List.drop_drop, Nat.add_comm]

theorem advanceBy_add (m n : Nat) (c : Cursor) :
    c.advanceBy (m + n) = (c.advanceBy m).advanceBy n := by
  induction m generalizing c with
  | zero => rw [Nat.zero_add]; rfl
  | succ m ih => rw [Nat.succ_add]; exact ih c.advance

theorem gives_advance (b : UInt8) (text : List UInt8) : Gives advance (b :: text) () text :=
  fun c hc => ⟨c.advance, rfl, by rw [rest_advance, hc]; rfl⟩

theorem gives_advanceBy (text rest : List UInt8) :
    Gives (modify (Cursor.advanceBy text.length)) (text ++ rest) () rest :=
  fun c hc => ⟨c.advanceBy text.length, rfl, by rw [rest_advanceBy, hc, List.drop_left]⟩

theorem gives_peek? (text : List UInt8) : Gives peek? text text.head? text :=
  fun c hc => ⟨c, by rw [← hc]; rfl, hc⟩

theorem gives_next? (b : UInt8) (text : List UInt8) : Gives next? (b :: text) (some b) text :=
  gives_bind (gives_peek? _) (gives_bind (gives_advance b text) (gives_pure _ _))

def Blanks (gap : List UInt8) : Prop := ∀ b ∈ gap, isSpace b = true

theorem blanks_nil : Blanks [] := fun _ h => absurd h List.not_mem_nil

theorem takeWhile_isSpace {gap : List UInt8} (hgap : Blanks gap) {text : List UInt8}
    (h : ∀ b ∈ text.head?, isSpace b = false) : (gap ++ text).takeWhile isSpace = gap := by
  rw [List.takeWhile_append_of_pos hgap]
  cases text with
  | nil => exact List.append_nil gap
  | cons b text => rw [List.takeWhile_cons, h b rfl]; exact List.append_nil gap

theorem gives_peekToken?_behind {gap : List UInt8} (hgap : Blanks gap) {text : List UInt8}
    (h : ∀ b ∈ text.head?, isSpace b = false) : Gives peekToken? (gap ++ text) text.head? text := by
  refine gives_bind (a := ()) (fun c hc => ⟨c.advanceBy gap.length, ?_, ?_⟩) (gives_peek? text)
  · have hskip : (c.rest.takeWhile isSpace).length = gap.length := by
      rw [hc, takeWhile_isSpace hgap h]
    change EStateM.Result.ok () (c.advanceBy _) = _
    rw [hskip]
  · rw [rest_advanceBy, hc, List.drop_left]

theorem gives_peekToken?_head? {text : List UInt8} (h : ∀ b ∈ text.head?, isSpace b = false) :
    Gives peekToken? text text.head? text :=
  gives_peekToken?_behind blanks_nil h

theorem gives_peekToken?_cons {gap : List UInt8} (hgap : Blanks gap) {b : UInt8}
    (hb : isSpace b = false) (text : List UInt8) :
    Gives peekToken? (gap ++ b :: text) (some b) (b :: text) :=
  gives_peekToken?_behind hgap fun _ h => Option.some.inj h ▸ hb

theorem gives_peekToken? {b : UInt8} (hb : isSpace b = false) (text : List UInt8) :
    Gives peekToken? (b :: text) (some b) (b :: text) :=
  gives_peekToken?_head? fun _ h => Option.some.inj h ▸ hb

theorem gives_steps (text : List UInt8) : Gives steps text (text.length + 1) text :=
  fun c hc => ⟨c, by rw [← hc]; rfl, hc⟩

theorem gives_keyword (bs rest : List UInt8) : Gives (keyword bs) (bs ++ rest) () rest := by
  induction bs with
  | nil => exact gives_pure () rest
  | cons b bs ih =>
    refine gives_bind (gives_next? b (bs ++ rest)) ?_
    simp only [↓reduceIte]
    exact ih

theorem gives_digits {ds rest : List UInt8} (hds : ∀ b ∈ ds, isDigit b = true)
    (hrest : ∀ b ∈ rest.head?, isDigit b = false) :
    Gives digits (ds ++ rest) (ds.map digitValue) rest := by
  have htake : (ds ++ rest).takeWhile isDigit = ds := by
    rw [List.takeWhile_append_of_pos hds]
    cases rest with
    | nil => simp
    | cons b rest => simp [hrest b rfl]
  refine gives_get_bind fun c hc => ?_
  simp only [hc, htake]
  exact gives_bind (gives_advanceBy ds rest) (gives_pure _ _)

def decimal (n : Nat) : List UInt8 := bytes (Nat.toDigits 10 n)

theorem bytes_digitChar {d : Nat} (hd : d < 10) : bytes [d.digitChar] = [UInt8.ofNat (48 + d)] := by
  interval_cases d <;> rfl

theorem decimal_of_lt {n : Nat} (hn : n < 10) : decimal n = [UInt8.ofNat (48 + n)] := by
  rw [decimal, Nat.toDigits_of_lt_base hn, bytes_digitChar hn]

theorem decimal_of_le {n : Nat} (hn : 10 ≤ n) :
    decimal n = decimal (n / 10) ++ [UInt8.ofNat (48 + n % 10)] := by
  rw [decimal, Nat.toDigits_of_base_le (by decide) hn, bytes_append,
    bytes_digitChar (Nat.mod_lt n (by decide)), decimal]

theorem isDigit_digit {d : Nat} (hd : d < 10) : isDigit (UInt8.ofNat (48 + d)) = true := by
  interval_cases d <;> rfl

theorem digitValue_digit {d : Nat} (hd : d < 10) : digitValue (UInt8.ofNat (48 + d)) = d := by
  interval_cases d <;> rfl

theorem isDigit_of_mem_decimal {n : Nat} {b : UInt8} (h : b ∈ decimal n) : isDigit b = true := by
  induction n using Nat.strong_induction_on with
  | _ n ih =>
    by_cases hn : n < 10
    · rw [decimal_of_lt hn, List.mem_singleton] at h
      rw [h]
      exact isDigit_digit hn
    · rw [decimal_of_le (Nat.not_lt.mp hn), List.mem_append, List.mem_singleton] at h
      obtain h | rfl := h
      · exact ih (n / 10) (by omega) h
      · exact isDigit_digit (Nat.mod_lt n (by decide))

theorem exists_decimal (n : Nat) : ∃ b r, decimal n = b :: r ∧ isDigit b = true := by
  have hdigits : ∀ b ∈ decimal n, isDigit b = true := fun _ => isDigit_of_mem_decimal
  cases hdecimal : decimal n with
  | cons b r => exact ⟨b, r, rfl, hdigits b (hdecimal ▸ List.mem_cons_self)⟩
  | nil =>
    by_cases hn : n < 10
    · rw [decimal_of_lt hn] at hdecimal
      cases hdecimal
    · rw [decimal_of_le (Nat.not_lt.mp hn)] at hdecimal
      exact absurd hdecimal (List.append_ne_nil_of_right_ne_nil _ (List.cons_ne_nil _ _))

theorem ne_of_isDigit {b d : UInt8} (hb : isDigit b = true) (hd : isDigit d = false) : b ≠ d := by
  rintro rfl
  rw [hd] at hb
  cases hb

theorem isSpace_of_isDigit {b : UInt8} (h : isDigit b = true) : isSpace b = false := by
  simp [isSpace, ne_of_isDigit (d := 32) h rfl, ne_of_isDigit (d := 9) h rfl,
    ne_of_isDigit (d := 10) h rfl, ne_of_isDigit (d := 13) h rfl]

theorem foldl_push_decimal {n : Nat} (hn : n < 0x10000000000000000) :
    ((decimal n).map digitValue).foldl Significand.push ⟨0, false⟩ = ⟨n, false⟩ := by
  induction n using Nat.strong_induction_on with
  | _ n ih =>
    by_cases hlt : n < 10
    · rw [decimal_of_lt hlt, List.map_singleton, digitValue_digit hlt]
      simp only [List.foldl_cons, List.foldl_nil, Significand.push, Bool.false_or, Nat.zero_mul,
        Nat.zero_add, ge_iff_le, Nat.not_le.mpr hn, decide_false, Bool.false_eq_true, ↓reduceIte]
    · have hlast : n % 10 < 10 := Nat.mod_lt n (by decide)
      have hsum : n / 10 * 10 + n % 10 = n := by omega
      rw [decimal_of_le (Nat.not_lt.mp hlt), List.map_append, List.map_singleton,
        List.foldl_append, ih (n / 10) (by omega) (by omega), digitValue_digit hlast]
      simp only [List.foldl_cons, List.foldl_nil, Significand.push, Bool.false_or, hsum,
        ge_iff_le, Nat.not_le.mpr hn, decide_false, Bool.false_eq_true, ↓reduceIte]

theorem decimal_head {n : Nat} (hn : 0 < n) :
    ∃ b r, decimal n = b :: r ∧ b ≠ 48 := by
  induction n using Nat.strong_induction_on with
  | _ n ih =>
    by_cases hlt : n < 10
    · exact ⟨_, [], decimal_of_lt hlt, by interval_cases n <;> decide⟩
    · obtain ⟨b, r, hdecimal, hb⟩ := ih (n / 10) (by omega) (by omega)
      exact ⟨b, _, by rw [decimal_of_le (Nat.not_lt.mp hlt), hdecimal]; rfl, hb⟩

/-- What follows a value in a text: its end, a comma, a closing bracket or a blank. -/
def Delimited (rest : List UInt8) : Prop :=
  ∀ b ∈ rest.head?, b = 44 ∨ b = 93 ∨ b = 125 ∨ isSpace b = true

theorem Delimited.not_isDigit {rest : List UInt8} (h : Delimited rest) :
    ∀ b ∈ rest.head?, isDigit b = false := by
  intro b hb
  obtain rfl | rfl | rfl | hspace := h b hb
  · rfl
  · rfl
  · rfl
  · by_contra hdigit
    rw [isSpace_of_isDigit (Bool.not_eq_false _ ▸ hdigit)] at hspace
    cases hspace

theorem gives_afterWhole {n : Nat} (hn : n < 0x10000000000000000) (negative : Bool)
    {rest : List UInt8} (hrest : Delimited rest) :
    Gives (afterWhole negative ((decimal n).map digitValue)) rest (whole negative n) rest := by
  unfold afterWhole
  refine gives_bind (gives_peek? rest) ?_
  have hpoint : rest.head? ≠ some 46 := fun h => absurd (hrest 46 h) (by decide)
  have hexponent : ¬ (rest.head? = some 101 ∨ rest.head? = some 69) := by
    rintro (h | h)
    · exact absurd (hrest 101 h) (by decide)
    · exact absurd (hrest 69 h) (by decide)
  simp only [hpoint, hexponent, ↓reduceIte, foldl_push_decimal hn, Bool.false_eq_true]
  exact gives_pure _ rest

theorem gives_number {n : Nat} (hn : n < 0x10000000000000000) (negative : Bool)
    {rest : List UInt8} (hrest : Delimited rest) :
    Gives (number negative) (decimal n ++ rest) (whole negative n) rest := by
  by_cases hzero : n = 0
  · subst hzero
    refine gives_bind (gives_next? 48 rest) ?_
    simp only [↓reduceIte]
    refine gives_bind (gives_peek? rest) ?_
    cases rest with
    | nil => exact gives_afterWhole hn negative hrest
    | cons b rest =>
      simp only [List.head?_cons, hrest.not_isDigit b rfl, Bool.false_eq_true, ↓reduceIte]
      exact gives_afterWhole hn negative hrest
  · obtain ⟨b, r, hdecimal, hb⟩ := decimal_head (Nat.pos_of_ne_zero hzero)
    have hdigits : ∀ d ∈ b :: r, isDigit d = true := fun d hd =>
      isDigit_of_mem_decimal (n := n) (hdecimal ▸ hd)
    have hafter := gives_afterWhole hn negative hrest
    rw [hdecimal] at hafter ⊢
    refine gives_bind (gives_next? b (r ++ rest)) ?_
    simp only [hb, hdigits b List.mem_cons_self, ↓reduceIte]
    exact gives_bind (gives_digits (fun d hd => hdigits d (List.mem_cons_of_mem b hd))
      hrest.not_isDigit) hafter

theorem gives_within (b : UInt8) (rest : List UInt8) : Gives within (b :: rest) b rest :=
  gives_bind (gives_next? b rest) (gives_pure b rest)

theorem gives_codeUnit {text : List UInt8} {n : Nat} (hlength : text.length = 4)
    (hn : fourDigits? text = some n) (rest : List UInt8) :
    Gives codeUnit (text ++ rest) n rest := by
  refine gives_get_bind fun c hc => ?_
  have htake : (text ++ rest).take 4 = text := List.take_left' hlength
  simp only [hc, htake]
  refine gives_bind (gives_advanceBy text rest) ?_
  simp only [hlength, Nat.lt_irrefl, ↓reduceIte, hn]
  exact gives_pure n rest

theorem gives_escapeSequence_letter {b : UInt8} {c : Char} (hb : b ≠ 117)
    (hc : escaped? b = some c) (rest : List UInt8) :
    Gives escapeSequence (b :: rest) c rest := by
  refine gives_bind (gives_within b rest) ?_
  simp only [hb, ↓reduceIte, hc]
  exact gives_pure c rest

theorem bytes_hexDigit {n : Nat} (hn : n < 16) :
    bytes [Hex.digit n] = [UInt8.ofNat (Hex.digit n).toNat] := by
  interval_cases n <;> rfl

theorem gives_escapeSequence_numbered {c : Char} (hc : c.toNat < 0x20) (rest : List UInt8) :
    Gives escapeSequence ([117, 48, 48, UInt8.ofNat (Hex.digit (c.toNat / 16)).toNat,
      UInt8.ofNat (Hex.digit (c.toNat % 16)).toNat] ++ rest) c rest := by
  have hn : fourDigits? [48, 48, UInt8.ofNat (Hex.digit (c.toNat / 16)).toNat,
      UInt8.ofNat (Hex.digit (c.toNat % 16)).toNat] = some c.toNat := by
    have hzero : Hex.digitValue? 48 = some 0 := rfl
    have hsum : c.toNat / 16 * 16 + c.toNat % 16 = c.toNat := by omega
    simp [fourDigits?, hzero, Hex.digitValue?_digit (n := c.toNat / 16) (by omega),
      Hex.digitValue?_digit (n := c.toNat % 16) (by omega), hsum]
  have hsurrogate : ¬ (0xDC00 ≤ c.toNat ∧ c.toNat ≤ 0xDFFF) := by omega
  have hplain : c.toNat < 0xD800 ∨ 0xDBFF < c.toNat := by omega
  refine gives_bind (gives_within 117 _) ?_
  simp only [↓reduceIte]
  refine gives_bind (gives_codeUnit rfl hn rest) ?_
  simp only [hsurrogate, hplain, ↓reduceIte]
  rw [Char.ofNat_toNat]
  exact gives_pure c rest

theorem isLiteral_ofNat {n : Nat} (hlow : 32 ≤ n) (hhigh : n < 256) (hquote : n ≠ 34)
    (hbackslash : n ≠ 92) : isLiteral (UInt8.ofNat n) = true := by
  have hn : (UInt8.ofNat n).toNat = n := BigEndian.toNat_byte hhigh
  have h₁ : 32 ≤ UInt8.ofNat n := UInt8.le_iff_toNat_le.mpr (hn.symm ▸ hlow)
  have h₂ : UInt8.ofNat n ≠ 34 := fun h => hquote (by rw [← hn, h]; rfl)
  have h₃ : UInt8.ofNat n ≠ 92 := fun h => hbackslash (by rw [← hn, h]; rfl)
  simp [isLiteral, h₁, h₂, h₃]

theorem isLiteral_of_mem {c : Char} (hlow : 0x20 ≤ c.toNat) (hquote : c ≠ '"')
    (hbackslash : c ≠ '\\') {b : UInt8} (h : b ∈ String.utf8EncodeChar c) :
    isLiteral b = true := by
  have hquote' : c.toNat ≠ 34 := fun h => hquote (Char.toNat_inj.mp h)
  have hbackslash' : c.toNat ≠ 92 := fun h => hbackslash (Char.toNat_inj.mp h)
  have hval : c.val.toNat = c.toNat := rfl
  have hbound : c.toNat < 0x110000 := by
    obtain h | ⟨-, h⟩ := c.valid
    · exact Nat.lt_trans h (by decide)
    · exact h
  unfold String.utf8EncodeChar at h
  simp only [hval] at h
  split at h
  · rw [List.mem_singleton.mp h]
    exact isLiteral_ofNat hlow (by omega) hquote' hbackslash'
  · split at h
    · simp only [List.mem_cons, List.not_mem_nil, or_false] at h
      obtain rfl | rfl := h
      all_goals exact isLiteral_ofNat (by omega) (by omega) (by omega) (by omega)
    · split at h
      · simp only [List.mem_cons, List.not_mem_nil, or_false] at h
        obtain rfl | rfl | rfl := h
        all_goals exact isLiteral_ofNat (by omega) (by omega) (by omega) (by omega)
      · simp only [List.mem_cons, List.not_mem_nil, or_false] at h
        obtain rfl | rfl | rfl | rfl := h
        all_goals exact isLiteral_ofNat (by omega) (by omega) (by omega) (by omega)

theorem escape_cases (c : Char) :
    (escape c = [c] ∧ ∀ b ∈ String.utf8EncodeChar c, isLiteral b = true) ∨
    ∃ text, bytes (escape c) = 92 :: text ∧ ∀ rest, Gives escapeSequence (text ++ rest) c rest := by
  have letter {b : UInt8} (hc : bytes (escape c) = [92, b]) (hb : b ≠ 117)
      (hletter : escaped? b = some c) : ∃ text, bytes (escape c) = 92 :: text ∧
        ∀ rest, Gives escapeSequence (text ++ rest) c rest :=
    ⟨[b], hc, gives_escapeSequence_letter hb hletter⟩
  by_cases hquote : c = '"'
  · subst hquote
    exact Or.inr (letter rfl (by decide) rfl)
  by_cases hbackslash : c = '\\'
  · subst hbackslash
    exact Or.inr (letter rfl (by decide) rfl)
  by_cases hlow : 0x20 ≤ c.toNat
  · refine Or.inl ⟨?_, fun b hb => isLiteral_of_mem hlow hquote hbackslash hb⟩
    simp only [escape, hquote, hbackslash, Nat.not_lt.mpr hlow, ↓reduceIte]
  -- only control characters are left: five have letters, and the others numbers
  have hcontrol : c.toNat < 0x20 := Nat.not_le.mp hlow
  by_cases hn : c = '\n'
  · subst hn
    exact Or.inr (letter rfl (by decide) rfl)
  by_cases hr : c = '\r'
  · subst hr
    exact Or.inr (letter rfl (by decide) rfl)
  by_cases ht : c = '\t'
  · subst ht
    exact Or.inr (letter rfl (by decide) rfl)
  by_cases hb : c.toNat = 8
  · obtain rfl : Char.ofNat 8 = c := hb ▸ Char.ofNat_toNat c
    exact Or.inr (letter rfl (by decide) rfl)
  by_cases hf : c.toNat = 12
  · obtain rfl : Char.ofNat 12 = c := hf ▸ Char.ofNat_toNat c
    exact Or.inr (letter rfl (by decide) rfl)
  refine Or.inr ⟨_, ?_, gives_escapeSequence_numbered hcontrol⟩
  have hhigh := bytes_hexDigit (n := c.toNat / 16) (by omega)
  have hlow' := bytes_hexDigit (n := c.toNat % 16) (by omega)
  have hescape : escape c =
      ['\\', 'u', '0', '0'] ++ [Hex.digit (c.toNat / 16)] ++ [Hex.digit (c.toNat % 16)] := by
    simp only [escape, hquote, hbackslash, hcontrol, hn, hr, ht, hb, hf, ↓reduceIte]
    rfl
  rw [hescape, bytes_append, bytes_append, hhigh, hlow']
  rfl

/-- What is left to do of a string once its next literal bytes are taken in. -/
def stringBytesOn (fuel : Nat) (acc : List UInt8) : Reader (List UInt8) := do
  match ← next? with
  | none => failHere .endInString
  | some b =>
    if b = 34 then return acc
    else if b = 92 then
      let c ← escapeSequence
      stringBytes fuel ((String.utf8EncodeChar c).reverse ++ acc)
    else failHere .controlCharacter

theorem stringBytes_succ (fuel : Nat) (acc : List UInt8) (c : Cursor) :
    stringBytes (fuel + 1) acc c =
      stringBytesOn fuel ((c.rest.takeWhile isLiteral).reverse ++ acc)
        (c.advanceBy (c.rest.takeWhile isLiteral).length) := rfl

/-- It makes no difference where a run of literal bytes is cut. -/
theorem gives_stringBytes_literal {text rest rest' : List UInt8}
    (htext : ∀ b ∈ text, isLiteral b = true) {fuel : Nat} {acc bs : List UInt8}
    (h : Gives (stringBytes (fuel + 1) (text.reverse ++ acc)) rest bs rest') :
    Gives (stringBytes (fuel + 1) acc) (text ++ rest) bs rest' := by
  intro c hc
  have hrest : (c.advanceBy text.length).rest = rest := by
    rw [rest_advanceBy, hc, List.drop_left]
  have hcut : stringBytes (fuel + 1) acc c =
      stringBytes (fuel + 1) (text.reverse ++ acc) (c.advanceBy text.length) := by
    rw [stringBytes_succ, stringBytes_succ, hrest, hc, List.takeWhile_append_of_pos htext,
      List.reverse_append, List.append_assoc, List.length_append, advanceBy_add]
  rw [hcut]
  exact h _ hrest

theorem gives_stringBytes_special {b : UInt8} (hb : isLiteral b = false) {text rest : List UInt8}
    {fuel : Nat} {acc bs : List UInt8} (h : Gives (stringBytesOn fuel acc) (b :: text) bs rest) :
    Gives (stringBytes (fuel + 1) acc) (b :: text) bs rest := by
  intro c hc
  have hnone : c.rest.takeWhile isLiteral = [] := by
    rw [hc, List.takeWhile_cons, hb]
    rfl
  rw [stringBytes_succ, hnone]
  exact h c hc

theorem gives_stringBytes (cs : List Char) {fuel : Nat} (hfuel : cs.length < fuel)
    (acc rest : List UInt8) :
    Gives (stringBytes fuel acc) (bytes (cs.flatMap escape) ++ 34 :: rest)
      ((bytes cs).reverse ++ acc) rest := by
  induction cs generalizing fuel acc with
  | nil =>
    obtain ⟨fuel, rfl⟩ := Nat.exists_eq_succ_of_ne_zero (Nat.ne_of_gt hfuel)
    refine gives_stringBytes_special rfl (gives_bind (gives_next? 34 rest) ?_)
    exact gives_pure acc rest
  | cons d cs ih =>
    obtain ⟨fuel, rfl⟩ := Nat.exists_eq_succ_of_ne_zero (Nat.ne_of_gt (Nat.zero_lt_of_lt hfuel))
    rw [List.flatMap_cons, bytes_append, List.append_assoc]
    obtain ⟨hsame, hliteral⟩ | ⟨text, hescape, htext⟩ := escape_cases d
    · rw [hsame, bytes_singleton]
      refine gives_stringBytes_literal hliteral ?_
      have hrest := ih (Nat.lt_of_succ_lt hfuel) ((String.utf8EncodeChar d).reverse ++ acc)
      rwa [← List.append_assoc, ← List.reverse_append] at hrest
    · rw [hescape]
      refine gives_stringBytes_special rfl (gives_bind (gives_next? 92 _) ?_)
      refine gives_bind (htext _) ?_
      have hrest := ih (Nat.lt_of_succ_lt_succ hfuel) ((String.utf8EncodeChar d).reverse ++ acc)
      rwa [← List.append_assoc, ← List.reverse_append] at hrest

theorem length_le_bytes_escape (cs : List Char) :
    cs.length ≤ (bytes (cs.flatMap escape)).length := by
  induction cs with
  | nil => exact Nat.zero_le _
  | cons d cs ih =>
    have hd : 0 < (bytes (escape d)).length := by
      obtain ⟨hsame, -⟩ | ⟨text, hescape, -⟩ := escape_cases d
      · rw [hsame, bytes_singleton, String.length_utf8EncodeChar]
        exact Char.utf8Size_pos d
      · rw [hescape]
        exact Nat.zero_lt_succ _
    rw [List.flatMap_cons, bytes_append, List.length_append, List.length_cons]
    omega

theorem gives_stringBody (s : String) (rest : List UInt8) :
    Gives stringBody (bytes (s.toList.flatMap escape) ++ 34 :: rest) s rest := by
  refine gives_bind (gives_steps _) ?_
  have hfuel : s.toList.length < (bytes (s.toList.flatMap escape) ++ 34 :: rest).length + 1 := by
    have := length_le_bytes_escape s.toList
    rw [List.length_append]
    omega
  refine gives_bind (gives_stringBytes s.toList hfuel [] rest) ?_
  have hread : Text.ofUtf8? (bytes s.toList) = some s := Text.ofUtf8?_utf8 s
  simp only [List.append_nil, List.reverse_reverse, hread]
  exact gives_pure s rest

theorem bytes_quoted (s : String) :
    bytes (quoted s) = 34 :: (bytes (s.toList.flatMap escape) ++ [34]) := by
  have hcons : quoted s = ['"'] ++ s.toList.flatMap escape ++ ['"'] := rfl
  rw [hcons, bytes_append, bytes_append]
  rfl

theorem gives_quoted (s : String) (rest : List UInt8) :
    ∃ text, bytes (quoted s) ++ rest = 34 :: text ∧ Gives stringBody text s rest := by
  refine ⟨_, ?_, gives_stringBody s rest⟩
  rw [bytes_quoted, List.cons_append, List.append_assoc]
  rfl

end Reader

end ChainGateway.Json
