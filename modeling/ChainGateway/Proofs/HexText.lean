import ChainGateway.FixedBytes
import ChainGateway.Proofs.Digits
import ChainGateway.Quantity

namespace ChainGateway

namespace Hex

theorem digit_eq_digitChar {n : Nat} (h : n < 16) : digit n = n.digitChar := by
  have hall : ∀ k : Fin 16, digit k.val = k.val.digitChar := by decide
  exact hall ⟨n, h⟩

theorem digit_lt_digit_iff {m n : Nat} (hm : m < 16) (hn : n < 16) : digit m < digit n ↔ m < n := by
  have hall : ∀ j k : Fin 16, digit j.val < digit k.val ↔ j.val < k.val := by decide
  exact hall ⟨m, hm⟩ ⟨n, hn⟩

theorem digit_inj {m n : Nat} (hm : m < 16) (hn : n < 16) : digit m = digit n ↔ m = n := by
  have hall : ∀ j k : Fin 16, digit j.val = digit k.val ↔ j.val = k.val := by decide
  exact hall ⟨m, hm⟩ ⟨n, hn⟩

theorem encode_cons (b : UInt8) (bs : List UInt8) :
    encode (b :: bs) = digit (b.toNat / 16) :: digit (b.toNat % 16) :: encode bs := rfl

theorem encode_eq_flatMap_digitChar (bs : List UInt8) :
    encode bs = bs.flatMap fun b => [(b.toNat / 16).digitChar, (b.toNat % 16).digitChar] := by
  induction bs with
  | nil => rfl
  | cons b bs ih =>
    have hb : b.toNat < 256 := b.toNat_lt
    rw [encode_cons, ih, digit_eq_digitChar (by omega), digit_eq_digitChar (by omega)]
    rfl

theorem utf8_digit {n : Nat} (h : n < 16) :
    String.utf8EncodeChar (digit n) = [UInt8.ofNat (digit n).toNat] := by
  have hall : ∀ k : Fin 16, String.utf8EncodeChar (digit k.val) =
      [UInt8.ofNat (digit k.val).toNat] := by decide
  exact hall ⟨n, h⟩

theorem utf8_encode (bs : List UInt8) :
    (encode bs).flatMap String.utf8EncodeChar = encodeBytes bs := by
  induction bs with
  | nil => rfl
  | cons b bs ih =>
    have hb : b.toNat < 256 := b.toNat_lt
    rw [encode_cons, List.flatMap_cons, List.flatMap_cons, ih, utf8_digit (by omega),
      utf8_digit (by omega), encodeBytes_cons]
    rfl

theorem utf8_encodeMarked (bs : List UInt8) :
    Text.utf8 (encodeMarked bs) = 48 :: 120 :: encodeBytes bs := by
  rw [Text.utf8, encodeMarked, String.toList_ofList, ← utf8_encode]
  rfl

theorem length_encodeBytes (bs : List UInt8) : (encodeBytes bs).length = 2 * bs.length := by
  rw [encodeBytes, List.length_map, length_encode]

theorem even_length_marked (bs : List UInt8) :
    ¬ (48 :: 120 :: encodeBytes bs).length % 2 = 1 := by
  rw [List.length_cons, List.length_cons, length_encodeBytes]
  omega

theorem decodeMarked_encodeMarked (bs : List UInt8) :
    decodeMarked (Text.utf8 (encodeMarked bs)) = .ok bs := by
  rw [utf8_encodeMarked, decodeMarked, if_neg (even_length_marked bs)]
  exact decodePairs_encodeBytes 0 bs

theorem decodeSized_encodeMarked (bs : List UInt8) :
    decodeSized bs.length (Text.utf8 (encodeMarked bs)) = .ok bs := by
  have hlength : ¬ (dropMarker (48 :: 120 :: encodeBytes bs)).length ≠ 2 * bs.length :=
    not_not.mpr (length_encodeBytes bs)
  rw [utf8_encodeMarked, decodeSized, if_neg (even_length_marked bs), if_neg hlength]
  exact decodePairs_encodeBytes 0 bs

theorem encode_lt_encode_iff {bs cs : List UInt8} (h : bs.length = cs.length) :
    encode bs < encode cs ↔ bs < cs := by
  induction bs generalizing cs with
  | nil =>
    obtain rfl := List.length_eq_zero_iff.mp h.symm
    exact iff_of_false (List.lt_irrefl []) (List.lt_irrefl [])
  | cons b bs ih =>
    obtain ⟨c, cs, rfl⟩ := List.exists_cons_of_length_eq_add_one h.symm
    have hb : b.toNat < 256 := b.toNat_lt
    have hc : c.toNat < 256 := c.toNat_lt
    rw [encode_cons, encode_cons, List.cons_lt_cons_iff, List.cons_lt_cons_iff,
      List.cons_lt_cons_iff, digit_lt_digit_iff (by omega) (by omega),
      digit_lt_digit_iff (by omega) (by omega), digit_inj (by omega) (by omega),
      digit_inj (by omega) (by omega), ih (Nat.succ.inj h), UInt8.lt_iff_toNat_lt,
      ← UInt8.toNat_inj]
    -- the high halves decide, or else the low halves
    have hdivmod : b.toNat / 16 = c.toNat / 16 ∧ b.toNat % 16 = c.toNat % 16 ↔
        b.toNat = c.toNat := by omega
    have hlt : b.toNat / 16 < c.toNat / 16 ∨
        b.toNat / 16 = c.toNat / 16 ∧ b.toNat % 16 < c.toNat % 16 ↔ b.toNat < c.toNat := by omega
    rw [← hlt, ← hdivmod]
    tauto

end Hex

theorem BigEndian.lt_iff_toNat_lt {bs cs : List UInt8} (h : bs.length = cs.length) :
    bs < cs ↔ toNat bs < toNat cs := by
  induction bs generalizing cs with
  | nil =>
    obtain rfl := List.length_eq_zero_iff.mp h.symm
    exact iff_of_false (List.lt_irrefl []) (Nat.lt_irrefl _)
  | cons b bs ih =>
    obtain ⟨c, cs, rfl⟩ := List.exists_cons_of_length_eq_add_one h.symm
    have hlength : bs.length = cs.length := Nat.succ.inj h
    have hbs : toNat bs < 256 ^ cs.length := hlength ▸ toNat_lt bs
    have hcs : toNat cs < 256 ^ cs.length := toNat_lt cs
    -- a greater first byte outweighs all that follow it
    rw [List.cons_lt_cons_iff, ih hlength, toNat_cons, toNat_cons, hlength,
      UInt8.lt_iff_toNat_lt, ← UInt8.toNat_inj]
    constructor
    · rintro (hlt | ⟨heq, hlt⟩)
      · have hstep : (b.toNat + 1) * 256 ^ cs.length ≤ c.toNat * 256 ^ cs.length :=
          Nat.mul_le_mul_right _ hlt
        rw [Nat.succ_mul] at hstep
        omega
      · rw [heq]
        exact Nat.add_lt_add_left hlt _
    · intro hlt
      rcases Nat.lt_trichotomy b.toNat c.toNat with hbc | hbc | hbc
      · exact .inl hbc
      · rw [hbc] at hlt
        exact .inr ⟨hbc, Nat.lt_of_add_lt_add_left hlt⟩
      · have hstep : (c.toNat + 1) * 256 ^ cs.length ≤ b.toNat * 256 ^ cs.length :=
          Nat.mul_le_mul_right _ hbc
        rw [Nat.succ_mul] at hstep
        omega

namespace FixedBytes

variable {size : Nat}

theorem ofText_text (b : FixedBytes size) : ofText b.text = .ok b := by
  have hread : Hex.decodeSized size (Text.utf8 b.text) = .ok b.toList := by
    obtain ⟨bs, rfl⟩ := b
    exact Hex.decodeSized_encodeMarked bs
  unfold ofText
  split
  · rename_i bs hbs
    rw [hread] at hbs
    cases hbs
    rfl
  · rename_i e he
    rw [hread] at he
    cases he

theorem text_injective : Function.Injective (text : FixedBytes size → String) := by
  intro a b h
  have hread : (.ok a : Except Hex.Fault (FixedBytes size)) = .ok b := by
    rw [← ofText_text a, h, ofText_text b]
  exact Except.ok.inj hread

theorem text_lt_text_iff {a b : FixedBytes size} : a.text < b.text ↔ a < b := by
  rw [String.lt_iff, text, text, Hex.encodeMarked, Hex.encodeMarked,
    String.toList_ofList, String.toList_ofList, List.cons_lt_cons_iff, List.cons_lt_cons_iff]
  simp only [Char.lt_irrefl, true_and, false_or]
  exact Hex.encode_lt_encode_iff (a.length_toList.trans b.length_toList.symm)

/-- Byte strings of one length are in the order of the numbers they spell, and so are their
texts. -/
theorem text_lt_text_iff_toNat_lt {a b : FixedBytes size} :
    a.text < b.text ↔ BigEndian.toNat a.toList < BigEndian.toNat b.toList :=
  text_lt_text_iff.trans
    (BigEndian.lt_iff_toNat_lt (a.length_toList.trans b.length_toList.symm))

end FixedBytes

namespace Quantity

theorem go_eq {fuel n : Nat} (hpos : 0 < n) (hn : n ≤ fuel) (acc : List Char) :
    digits.go fuel n acc = Nat.toDigits 16 n ++ acc := by
  induction fuel generalizing n acc with
  | zero => omega
  | succ fuel ih =>
    rw [digits.go, if_neg (Nat.ne_of_gt hpos), Hex.digit_eq_digitChar (Nat.mod_lt n (by decide))]
    by_cases hlt : n < 16
    · rw [Nat.div_eq_of_lt hlt, Nat.mod_eq_of_lt hlt, Nat.toDigits_of_lt_base hlt]
      cases fuel <;> rfl
    · rw [ih (by omega) (by omega), Nat.toDigits_of_base_le (by decide) (Nat.not_lt.mp hlt),
        List.append_assoc]
      rfl

theorem digits_eq_toDigits (n : Nat) : digits n = Nat.toDigits 16 n := by
  by_cases hn : n = 0
  · rw [hn]
    rfl
  · rw [digits, if_neg hn, go_eq (Nat.pos_of_ne_zero hn) (Nat.le_refl n), List.append_nil]

theorem mem_digits_of_mem_toDigits {n : Nat} {c : Char} (h : c ∈ Nat.toDigits 16 n) :
    c ∈ Hex.digits := by
  have hdigit {d : Nat} (hd : d < 16) : d.digitChar ∈ Hex.digits :=
    Hex.digit_eq_digitChar hd ▸ Hex.digit_mem_digits hd
  induction n using Nat.strong_induction_on with
  | _ n ih =>
    by_cases hlt : n < 16
    · rw [Nat.toDigits_of_lt_base hlt, List.mem_singleton] at h
      exact h ▸ hdigit hlt
    · rw [Nat.toDigits_of_base_le (by decide) (Nat.not_lt.mp hlt), List.mem_append,
        List.mem_singleton] at h
      obtain h | rfl := h
      · exact ih (n / 16) (by omega) h
      · exact hdigit (Nat.mod_lt n (by decide))

theorem head?_toDigits {n : Nat} (hn : 0 < n) : (Nat.toDigits 16 n).head? ≠ some '0' := by
  induction n using Nat.strong_induction_on with
  | _ n ih =>
    by_cases hlt : n < 16
    · have hall : ∀ k : Fin 16, 0 < k.val → k.val.digitChar ≠ '0' := by decide
      rw [Nat.toDigits_of_lt_base hlt, List.head?_cons]
      exact fun h => hall ⟨n, hlt⟩ hn (Option.some.inj h)
    · rw [Nat.toDigits_of_base_le (by decide) (Nat.not_lt.mp hlt),
        List.head?_append]
      obtain ⟨c, r, hdigits⟩ := List.exists_cons_of_ne_nil
        (Nat.toDigits_ne_nil : Nat.toDigits 16 (n / 16) ≠ [])
      have hhead := ih (n / 16) (by omega) (by omega)
      rw [hdigits] at hhead ⊢
      exact hhead

theorem readDigits_append (base n : Nat) (cs ds : List Char) :
    readDigits base n (cs ++ ds) = (readDigits base n cs).bind fun m => readDigits base m ds := by
  fun_induction readDigits base n cs with
  | case1 n => rfl
  | case2 n r ih => exact ih
  | case3 n c r hc m hm ih =>
    rw [List.cons_append, readDigits.eq_3 _ _ _ _ hc, hm]
    exact ih
  | case4 n c r hc hnone =>
    rw [List.cons_append, readDigits.eq_3 _ _ _ _ hc, hnone]
    rfl

theorem readDigits_digitChar (n : Nat) {d : Nat} (hd : d < 16) :
    readDigits 16 n [d.digitChar] = some (16 * n + d) := by
  have hall : ∀ k : Fin 16, k.val.digitChar ≠ '_' ∧
      Text.digitValue? k.val.digitChar = some k.val := by decide
  obtain ⟨hskip, hvalue⟩ := hall ⟨d, hd⟩
  rw [readDigits.eq_3 _ _ _ _ hskip, Text.pushDigit?, hvalue]
  simp only [hd, ↓reduceIte]
  rfl

theorem readDigits_toDigits (n : Nat) : readDigits 16 0 (Nat.toDigits 16 n) = some n := by
  induction n using Nat.strong_induction_on with
  | _ n ih =>
    by_cases hlt : n < 16
    · rw [Nat.toDigits_of_lt_base hlt, readDigits_digitChar 0 hlt, Nat.mul_zero, Nat.zero_add]
    · rw [Nat.toDigits_of_base_le (by decide) (Nat.not_lt.mp hlt), readDigits_append,
        ih (n / 16) (by omega), Option.bind_some, readDigits_digitChar _ (Nat.mod_lt n (by decide)),
        Nat.div_add_mod]

theorem number?_text (n : Nat) : number? (text n) = some n := by
  rw [number?, text, String.toList_ofList, digits_eq_toDigits]
  exact readDigits_toDigits n

theorem ofText?_text {bits : Nat} (w : Word bits) : ofText? bits (text w.toNat) = some w := by
  rw [ofText?, number?_text]
  exact Word.ofNat?_toNat w

end Quantity

end ChainGateway
