import ChainGateway.Proofs.Digits
import ChainGateway.Text.Utf8

namespace ChainGateway.Text

open BigEndian (toNat_byte)

theorem ofNat_eq_of_toNat {n : Nat} {c : Char} (h : n = c.toNat) : Char.ofNat n = c := by
  rw [h, Char.ofNat_toNat]

theorem leadByte?_two {a : UInt8} (hlow : 0xC2 ≤ a.toNat) (hhigh : a.toNat < 0xE0) :
    leadByte? a = some (2, 0x80, 0xBF) := by
  have h₁ : ¬ a < 0xC2 := UInt8.not_lt.mpr (UInt8.le_iff_toNat_le.mpr hlow)
  have h₂ : a < 0xE0 := UInt8.lt_iff_toNat_lt.mpr hhigh
  simp [leadByte?, h₁, h₂]

/-- Behind `0xE0` the second byte is not overlong, and behind `0xED` it begins no surrogate. -/
theorem leadByte?_three {a b : UInt8} (hlow : 0xE0 ≤ a.toNat) (hhigh : a.toNat < 0xF0)
    (hb : 0x80 ≤ b.toNat) (hb' : b.toNat ≤ 0xBF) (hlong : a.toNat = 0xE0 → 0xA0 ≤ b.toNat)
    (hsurrogate : a.toNat = 0xED → b.toNat ≤ 0x9F) :
    ∃ low high, leadByte? a = some (3, low, high) ∧ low ≤ b ∧ b ≤ high := by
  have h₁ : ¬ a < 0xC2 := UInt8.not_lt.mpr (UInt8.le_iff_toNat_le.mpr (by simp; omega))
  have h₂ : ¬ a < 0xE0 := UInt8.not_lt.mpr (UInt8.le_iff_toNat_le.mpr hlow)
  have h₃ : a < 0xF0 := UInt8.lt_iff_toNat_lt.mpr hhigh
  by_cases he : a = 0xE0
  · subst he
    exact ⟨0xA0, 0xBF, by simp [leadByte?],
      UInt8.le_iff_toNat_le.mpr (hlong rfl), UInt8.le_iff_toNat_le.mpr hb'⟩
  · by_cases hd : a = 0xED
    · subst hd
      exact ⟨0x80, 0x9F, by simp [leadByte?],
        UInt8.le_iff_toNat_le.mpr hb, UInt8.le_iff_toNat_le.mpr (hsurrogate rfl)⟩
    · exact ⟨0x80, 0xBF, by simp [leadByte?, h₁, h₂, h₃, he, hd],
        UInt8.le_iff_toNat_le.mpr hb, UInt8.le_iff_toNat_le.mpr hb'⟩

/-- Behind `0xF0` the second byte is not overlong, and behind `0xF4` the number is not too great. -/
theorem leadByte?_four {a b : UInt8} (hlow : 0xF0 ≤ a.toNat) (hhigh : a.toNat ≤ 0xF4)
    (hb : 0x80 ≤ b.toNat) (hb' : b.toNat ≤ 0xBF) (hlong : a.toNat = 0xF0 → 0x90 ≤ b.toNat)
    (hgreat : a.toNat = 0xF4 → b.toNat ≤ 0x8F) :
    ∃ low high, leadByte? a = some (4, low, high) ∧ low ≤ b ∧ b ≤ high := by
  have h₁ : ¬ a < 0xC2 := UInt8.not_lt.mpr (UInt8.le_iff_toNat_le.mpr (by simp; omega))
  have h₂ : ¬ a < 0xE0 := UInt8.not_lt.mpr (UInt8.le_iff_toNat_le.mpr (by simp; omega))
  have h₃ : ¬ a < 0xF0 := UInt8.not_lt.mpr (UInt8.le_iff_toNat_le.mpr hlow)
  have h₄ : a ≠ 0xE0 := fun he => by subst he; simp at hlow
  have h₅ : a ≠ 0xED := fun he => by subst he; simp at hlow
  by_cases he : a = 0xF0
  · subst he
    exact ⟨0x90, 0xBF, by simp [leadByte?],
      UInt8.le_iff_toNat_le.mpr (hlong rfl), UInt8.le_iff_toNat_le.mpr hb'⟩
  · by_cases hf : a = 0xF4
    · subst hf
      exact ⟨0x80, 0x8F, by simp [leadByte?],
        UInt8.le_iff_toNat_le.mpr hb, UInt8.le_iff_toNat_le.mpr (hgreat rfl)⟩
    · have h₆ : a < 0xF4 := UInt8.lt_iff_toNat_lt.mpr (by
        have : a.toNat ≠ 0xF4 := fun h => hf (UInt8.toNat_inj.mp h)
        simp
        omega)
      exact ⟨0x80, 0xBF, by simp [leadByte?, h₁, h₂, h₃, h₄, h₅, h₆, he],
        UInt8.le_iff_toNat_le.mpr hb, UInt8.le_iff_toNat_le.mpr hb'⟩

theorem toNat_tail (m : Nat) : (UInt8.ofNat (m % 64 + 128)).toNat = m % 64 + 128 :=
  toNat_byte (by omega)

theorem tailBits_tail (m : Nat) : tailBits (UInt8.ofNat (m % 64 + 128)) = m % 64 := by
  unfold tailBits
  rw [toNat_tail]
  omega

theorem isTail_tail (m : Nat) : isTail (UInt8.ofNat (m % 64 + 128)) = true := by
  have hlow : (0x80 : UInt8) ≤ UInt8.ofNat (m % 64 + 128) := by
    rw [UInt8.le_iff_toNat_le, toNat_tail]
    exact Nat.le_add_left _ _
  have hhigh : UInt8.ofNat (m % 64 + 128) ≤ 0xBF := by
    rw [UInt8.le_iff_toNat_le, toNat_tail]
    change m % 64 + 128 ≤ 191
    omega
  simp only [isTail, hlow, hhigh, decide_true, Bool.and_self]

theorem segments_ascii {a : UInt8} (ha : a < 0x80) (r : List UInt8) :
    segments (a :: r) = some (Char.ofNat a.toNat) :: segments r := by
  rw [segments]
  simp [ha]

theorem not_lt_0x80 {a : UInt8} (h : 0xC2 ≤ a.toNat) : ¬ a < 0x80 :=
  UInt8.not_lt.mpr (UInt8.le_iff_toNat_le.mpr (Nat.le_trans (by decide) h))

theorem segments_two {a b : UInt8} (hlow : 0xC2 ≤ a.toNat) (hhigh : a.toNat < 0xE0)
    (hb : 0x80 ≤ b.toNat) (hb' : b.toNat ≤ 0xBF) (r : List UInt8) :
    segments (a :: b :: r) =
      some (Char.ofNat (a.toNat % 32 * 64 + tailBits b)) :: segments r := by
  have hb₁ : (0x80 : UInt8) ≤ b := UInt8.le_iff_toNat_le.mpr hb
  have hb₂ : b ≤ 0xBF := UInt8.le_iff_toNat_le.mpr hb'
  rw [segments]
  simp [not_lt_0x80 hlow, leadByte?_two hlow hhigh, hb₁, hb₂]

theorem segments_three {a b c low high : UInt8} (hlow : 0xC2 ≤ a.toNat)
    (hlead : leadByte? a = some (3, low, high)) (hb : low ≤ b) (hb' : b ≤ high)
    (hc : isTail c = true) (r : List UInt8) :
    segments (a :: b :: c :: r) =
      some (Char.ofNat (a.toNat % 16 * 4096 + tailBits b * 64 + tailBits c)) :: segments r := by
  rw [segments]
  simp [not_lt_0x80 hlow, hlead, hb, hb', hc]

theorem segments_four {a b c d low high : UInt8} (hlow : 0xC2 ≤ a.toNat)
    (hlead : leadByte? a = some (4, low, high)) (hb : low ≤ b) (hb' : b ≤ high)
    (hc : isTail c = true) (hd : isTail d = true) (r : List UInt8) :
    segments (a :: b :: c :: d :: r) =
      some (Char.ofNat (a.toNat % 8 * 262144 + tailBits b * 4096 + tailBits c * 64
        + tailBits d)) :: segments r := by
  rw [segments]
  simp [not_lt_0x80 hlow, hlead, hb, hb', hc, hd]

theorem segments_encodeChar (c : Char) (r : List UInt8) :
    segments (String.utf8EncodeChar c ++ r) = some c :: segments r := by
  -- no number of a character is that of a surrogate, or too great
  have hvalid : c.toNat < 0xD800 ∨ 0xDFFF < c.toNat ∧ c.toNat < 0x110000 := c.valid
  have hval : c.val.toNat = c.toNat := rfl
  unfold String.utf8EncodeChar
  simp only [hval]
  generalize hn : c.toNat = n at hvalid
  split
  · have ha : (UInt8.ofNat n).toNat = n := toNat_byte (by omega)
    have hlt : UInt8.ofNat n < 0x80 := UInt8.lt_iff_toNat_lt.mpr (by simp only [ha]; simp; omega)
    rw [List.singleton_append, segments_ascii hlt, ha, ofNat_eq_of_toNat hn.symm]
  · split
    · have ha : (UInt8.ofNat (n / 64 % 32 + 192)).toNat = n / 64 % 32 + 192 :=
        toNat_byte (by omega)
      rw [List.cons_append, List.singleton_append, segments_two (by omega) (by omega)
        (by rw [toNat_tail]; omega) (by rw [toNat_tail]; omega), ha, tailBits_tail,
        ofNat_eq_of_toNat (c := c) (by omega)]
    · split
      · have ha : (UInt8.ofNat (n / 4096 % 16 + 224)).toNat = n / 4096 % 16 + 224 :=
          toNat_byte (by omega)
        obtain ⟨low, high, hlead, hb, hb'⟩ :=
          leadByte?_three (a := UInt8.ofNat (n / 4096 % 16 + 224))
            (b := UInt8.ofNat (n / 64 % 64 + 128)) (by omega) (by omega)
            (by rw [toNat_tail]; omega) (by rw [toNat_tail]; omega) (by rw [ha, toNat_tail]; omega)
            (by rw [ha, toNat_tail]; omega)
        rw [List.cons_append, List.cons_append, List.singleton_append,
          segments_three (by omega) hlead hb hb' (isTail_tail n), ha, tailBits_tail, tailBits_tail,
          ofNat_eq_of_toNat (c := c) (by omega)]
      · have ha : (UInt8.ofNat (n / 262144 % 8 + 240)).toNat = n / 262144 % 8 + 240 :=
          toNat_byte (by omega)
        obtain ⟨low, high, hlead, hb, hb'⟩ :=
          leadByte?_four (a := UInt8.ofNat (n / 262144 % 8 + 240))
            (b := UInt8.ofNat (n / 4096 % 64 + 128)) (by omega) (by omega)
            (by rw [toNat_tail]; omega) (by rw [toNat_tail]; omega) (by rw [ha, toNat_tail]; omega)
            (by rw [ha, toNat_tail]; omega)
        rw [List.cons_append, List.cons_append, List.cons_append, List.singleton_append,
          segments_four (by omega) hlead hb hb' (isTail_tail _) (isTail_tail n), ha,
          tailBits_tail, tailBits_tail, tailBits_tail, ofNat_eq_of_toNat (c := c) (by omega)]

theorem segments_utf8_append (cs : List Char) (r : List UInt8) :
    segments (cs.flatMap String.utf8EncodeChar ++ r) = cs.map some ++ segments r := by
  induction cs with
  | nil => rfl
  | cons c cs ih =>
    rw [List.flatMap_cons, List.append_assoc, segments_encodeChar, ih]
    rfl

theorem segments_utf8 (s : String) : segments (utf8 s) = s.toList.map some := by
  have h := segments_utf8_append s.toList []
  rwa [List.append_nil, segments, List.append_nil] at h

theorem ofUtf8?_utf8 (s : String) : ofUtf8? (utf8 s) = some s := by
  unfold ofUtf8?
  have h : (s.toList.map some).mapM id = some s.toList := by
    induction s.toList with
    | nil => rfl
    | cons c cs ih => simp [ih]
  rw [segments_utf8, h, Option.map_some, String.ofList_toList]

theorem utf8_injective : Function.Injective utf8 := by
  intro s t h
  have hread : some s = some t := by rw [← ofUtf8?_utf8 s, h, ofUtf8?_utf8 t]
  exact Option.some.inj hread

theorem utf8Size_ofNat_le {n k : Nat} (h : n < 0x80 ∧ k = 1 ∨ n < 0x800 ∧ k = 2 ∨
    n < 0x10000 ∧ k = 3 ∨ k = 4) : (Char.ofNat n).utf8Size ≤ k := by
  have hval : (Char.ofNat n).toNat ≤ n := by
    by_cases hvalid : n.isValidChar
    · rw [Char.ofNat, dif_pos hvalid]
      exact Nat.le_refl n
    · rw [Char.ofNat, dif_neg hvalid]
      exact Nat.zero_le n
  have hnat : (Char.ofNat n).val.toNat = (Char.ofNat n).toNat := rfl
  simp only [Char.utf8Size, UInt32.le_iff_toNat_le, hnat]
  change (if _ ≤ 127 then _ else if _ ≤ 2047 then _ else if _ ≤ 65535 then _ else _) ≤ k
  split_ifs <;> omega

theorem tailBits_lt (b : UInt8) : tailBits b < 64 := Nat.mod_lt _ (by decide)

/-- Characters that are cut out of bytes have no more bytes themselves. -/
theorem length_flatMap_le_of_segments {bs : List UInt8} {cs : List Char}
    (h : segments bs = cs.map some) :
    (cs.flatMap String.utf8EncodeChar).length ≤ bs.length := by
  have hcons {k n : Nat} {r : List UInt8} {cs : List Char}
      (hsize : (Char.ofNat n).utf8Size ≤ k)
      (ih : ∀ {cs : List Char}, segments r = cs.map some →
        (cs.flatMap String.utf8EncodeChar).length ≤ r.length)
      (h : some (Char.ofNat n) :: segments r = cs.map some) :
      (cs.flatMap String.utf8EncodeChar).length ≤ k + r.length := by
    obtain ⟨c, cs, rfl, hc, hcs⟩ := List.map_eq_cons_iff.mp h.symm
    obtain rfl := Option.some.inj hc
    rw [List.flatMap_cons, List.length_append, String.length_utf8EncodeChar]
    exact Nat.add_le_add hsize (ih hcs.symm)
  have hnone {r : List (Option Char)} {cs : List Char} : none :: r ≠ cs.map some := by
    intro h
    obtain ⟨c, cs, rfl, hc, -⟩ := List.map_eq_cons_iff.mp h.symm
    cases hc
  have htail := tailBits_lt
  -- a character is cut out of at least as many bytes as it has
  fun_induction segments bs generalizing cs with
  | case1 =>
    obtain rfl := List.map_eq_nil_iff.mp h.symm
    exact Nat.le_refl 0
  | case2 a r ha ih =>
    have ha' : a.toNat < 128 := UInt8.lt_iff_toNat_lt.mp ha
    rw [List.length_cons, Nat.add_comm]
    exact hcons (utf8Size_ofNat_le (by omega)) ih h
  | case5 a _ low high b r _ _ ih =>
    have hb := htail b
    have ha : a.toNat % 32 < 32 := Nat.mod_lt _ (by decide)
    have hlength := hcons (k := 2) (utf8Size_ofNat_le (by omega)) ih h
    simp only [List.length_cons]
    omega
  | case7 a _ low high b _ c r _ _ _ ih =>
    have hb := htail b
    have hc := htail c
    have ha : a.toNat % 16 < 16 := Nat.mod_lt _ (by decide)
    have hlength := hcons (k := 3) (utf8Size_ofNat_le (by omega)) ih h
    simp only [List.length_cons]
    omega
  | case9 a _ _ _ _ _ b _ _ c _ _ d r _ ih =>
    have hlength := hcons (k := 4) (utf8Size_ofNat_le (by omega)) ih h
    simp only [List.length_cons]
    omega
  | _ => exact absurd h hnone

theorem length_utf8_le {bs : List UInt8} {s : String} (h : ofUtf8? bs = some s) :
    (utf8 s).length ≤ bs.length := by
  have hall {os : List (Option Char)} {cs : List Char} (h : os.mapM id = some cs) :
      os = cs.map some := by
    induction os generalizing cs with
    | nil =>
      obtain rfl := Option.some.inj h
      rfl
    | cons o os ih =>
      rw [List.mapM_cons] at h
      obtain ⟨c, hc, h⟩ := Option.bind_eq_some_iff.mp h
      obtain ⟨cs, hcs, h⟩ := Option.bind_eq_some_iff.mp h
      obtain rfl := Option.some.inj h
      rw [ih hcs, List.map_cons, ← hc]
      rfl
  obtain ⟨cs, hcs, rfl⟩ := Option.map_eq_some_iff.mp h
  rw [utf8, String.toList_ofList]
  exact length_flatMap_le_of_segments (hall hcs)

/-- The bytes of a lesser character are less before either of them ends. -/
theorem utf8EncodeChar_append_lt {c d : Char} (h : c < d) (r s : List UInt8) :
    String.utf8EncodeChar c ++ r < String.utf8EncodeChar d ++ s := by
  have hlt : c.val.toNat < d.val.toNat := h
  have hvalid : d.val.toNat < 0xD800 ∨ 0xDFFF < d.val.toNat ∧ d.val.toNat < 0x110000 := d.valid
  have hbyte (k : Nat) : (UInt8.ofNat k).toNat = k % 256 := rfl
  -- the payload of a byte is a digit to base sixty-four
  have htwice (k : Nat) : k / 4096 = k / 64 / 64 := (Nat.div_div_eq_div_mul k 64 64).symm
  have hthrice (k : Nat) : k / 262144 = k / 4096 / 64 := (Nat.div_div_eq_div_mul k 4096 64).symm
  unfold String.utf8EncodeChar
  generalize c.val.toNat = m at hlt
  generalize d.val.toNat = n at hlt hvalid
  simp only
  -- a longer form has a greater first byte, and forms of one length are compared digit by digit
  split_ifs <;>
  · simp only [List.cons_append, List.nil_append, List.cons_lt_cons_iff, UInt8.lt_iff_toNat_lt,
      ← UInt8.toNat_inj, hbyte, hthrice, htwice]
    omega

theorem flatMap_utf8EncodeChar_lt {cs ds : List Char} (h : cs < ds) :
    cs.flatMap String.utf8EncodeChar < ds.flatMap String.utf8EncodeChar := by
  induction cs generalizing ds with
  | nil =>
    cases ds with
    | nil => exact absurd h (List.lt_irrefl [])
    | cons d ds =>
      rw [List.flatMap_cons]
      cases hd : String.utf8EncodeChar d with
      | nil =>
        have hlength := String.length_utf8EncodeChar d
        rw [hd] at hlength
        exact absurd d.utf8Size_pos (hlength ▸ Nat.lt_irrefl 0)
      | cons b bs => exact List.nil_lt_cons b _
  | cons c cs ih =>
    cases ds with
    | nil => cases h
    | cons d ds =>
      rw [List.flatMap_cons, List.flatMap_cons]
      obtain hlt | ⟨rfl, hlt⟩ := List.cons_lt_cons_iff.mp h
      · exact utf8EncodeChar_append_lt hlt _ _
      · exact List.append_left_lt (ih hlt)

theorem utf8_lt_utf8 {s t : String} (h : s < t) : utf8 s < utf8 t :=
  flatMap_utf8EncodeChar_lt (String.lt_iff.mp h)

end ChainGateway.Text
