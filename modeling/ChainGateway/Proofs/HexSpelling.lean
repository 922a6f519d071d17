import ChainGateway.Proofs.TransactionId

namespace ChainGateway

namespace Hex

/-- A text of so many bytes, and the number that they make up. -/
inductive Spells (size : Nat) : String → Nat → Prop where
  | intro {marker digits : String} : marker ∈ ["", "0x", "0X"] → digits.length = 2 * size →
      (∀ c ∈ digits.toList, c ∈ digitsOfCases) →
      Spells size (marker ++ digits) (number (Text.utf8 digits))

theorem byte_of_mem_digitsOfCases {c : Char} (h : c ∈ digitsOfCases) :
    String.utf8EncodeChar c = [UInt8.ofNat c.toNat] ∧ IsDigit (UInt8.ofNat c.toNat) := by
  have hall : digitsOfCases.all fun c =>
      String.utf8EncodeChar c = [UInt8.ofNat c.toNat] ∧ IsDigit (UInt8.ofNat c.toNat) := by
    decide +kernel
  exact of_decide_eq_true (List.all_eq_true.mp hall c h)

theorem utf8_digit_of_isDigit {b : UInt8} (h : IsDigit b) :
    String.utf8EncodeChar (Char.ofNat b.toNat) = [b] := by
  have hall : ∀ k : Fin 256, IsDigit (UInt8.ofNat k.val) →
      String.utf8EncodeChar (Char.ofNat (UInt8.ofNat k.val).toNat) = [UInt8.ofNat k.val] := by
    decide +kernel
  have hb := hall ⟨b.toNat, b.toNat_lt⟩
  rw [UInt8.ofNat_toNat] at hb
  exact hb h

theorem utf8_digits {cs : List Char} (h : ∀ c ∈ cs, c ∈ digitsOfCases) :
    (cs.flatMap String.utf8EncodeChar).length = cs.length ∧
      ∀ d ∈ cs.flatMap String.utf8EncodeChar, IsDigit d := by
  induction cs with
  | nil => exact ⟨rfl, nofun⟩
  | cons c cs ih =>
    obtain ⟨hc, hcs⟩ := List.forall_mem_cons.mp h
    obtain ⟨hencode, hdigit⟩ := byte_of_mem_digitsOfCases hc
    obtain ⟨hlength, hdigits⟩ := ih hcs
    rw [List.flatMap_cons, hencode]
    exact ⟨congrArg Nat.succ hlength, List.forall_mem_cons.mpr ⟨hdigit, hdigits⟩⟩

theorem exists_digits {ds : List UInt8} (h : ∀ d ∈ ds, IsDigit d) :
    ∃ digits : String, Text.utf8 digits = ds ∧ digits.length = ds.length ∧
      ∀ c ∈ digits.toList, c ∈ digitsOfCases := by
  refine ⟨String.ofList (ds.map fun d => Char.ofNat d.toNat), ?_, ?_, ?_⟩
  · rw [Text.utf8, String.toList_ofList]
    induction ds with
    | nil => rfl
    | cons d ds ih =>
      obtain ⟨hd, hds⟩ := List.forall_mem_cons.mp h
      rw [List.map_cons, List.flatMap_cons, utf8_digit_of_isDigit hd, ih hds]
      rfl
  · rw [String.length_ofList, List.length_map]
  · rw [String.toList_ofList]
    intro c hc
    obtain ⟨d, hd, rfl⟩ := List.mem_map.mp hc
    exact h d hd

def markers : List (List UInt8) := [[], [48, 120], [48, 88]]

theorem exists_marker (text : List UInt8) :
    ∃ marker ∈ markers, text = marker ++ dropMarker text := by
  unfold dropMarker
  split
  · exact ⟨[48, 120], by decide, rfl⟩
  · exact ⟨[48, 88], by decide, rfl⟩
  · exact ⟨[], by decide, rfl⟩

theorem dropMarker_append {marker ds : List UInt8} (hmarker : marker ∈ markers)
    (hds : ∀ d ∈ ds, IsDigit d) : dropMarker (marker ++ ds) = ds := by
  simp only [markers, List.mem_cons, List.not_mem_nil, or_false] at hmarker
  obtain rfl | rfl | rfl := hmarker
  · -- the letter of a marker is no digit
    rw [List.nil_append]
    unfold dropMarker
    split
    · exact absurd (hds 120 (by simp)) (by decide)
    · exact absurd (hds 88 (by simp)) (by decide)
    · rfl
  · rfl
  · rfl

theorem even_length_of_mem_markers {marker : List UInt8} (h : marker ∈ markers) :
    marker.length % 2 = 0 := by
  have hall : ∀ marker ∈ markers, marker.length % 2 = 0 := by decide
  exact hall marker h

theorem mem_markers_iff {text : List UInt8} :
    text ∈ markers ↔ ∃ marker ∈ ["", "0x", "0X"], Text.utf8 marker = text := by
  have hmarkers : ["", "0x", "0X"].map Text.utf8 = markers := by decide +kernel
  rw [← hmarkers, List.mem_map]

theorem utf8_append (s t : String) : Text.utf8 (s ++ t) = Text.utf8 s ++ Text.utf8 t := by
  rw [Text.utf8, String.toList_append, List.flatMap_append]
  rfl

theorem isDigit_of_decodePairs {position : Nat} {text bs : List UInt8}
    (h : decodePairs position text = .ok bs) : ∀ d ∈ text, IsDigit d := by
  have hlength := length_of_decodePairs h
  obtain hdigits | ⟨good, d, rest, rfl, hgood, hd⟩ := digits_or_leftmost text
  · exact hdigits
  · rw [decodePairs_of_badDigit hd rest position good (by omega) hgood] at h
    cases h

theorem number_of_decodePairs {position : Nat} {text bs : List UInt8}
    (h : decodePairs position text = .ok bs) : number text = BigEndian.toNat bs := by
  rw [← number_map_lower, map_lower_of_decodePairs h, number_encodeBytes]

theorem decodeSized_eq_ok_iff {size : Nat} {text bs : List UInt8} :
    decodeSized size text = .ok bs ↔
      ∃ marker ∈ markers, ∃ ds, text = marker ++ ds ∧ ds.length = 2 * size ∧
        (∀ d ∈ ds, IsDigit d) ∧ bs.length = size ∧ number ds = BigEndian.toNat bs := by
  constructor
  · intro h
    have hbs := length_of_decodeSized h
    unfold decodeSized at h
    split_ifs at h with hodd hlength
    obtain ⟨marker, hmarker, htext⟩ := exists_marker text
    exact ⟨marker, hmarker, dropMarker text, htext, not_not.mp hlength,
      isDigit_of_decodePairs h, hbs, number_of_decodePairs h⟩
  · rintro ⟨marker, hmarker, ds, rfl, hlength, hds, hbs, hnumber⟩
    have heven : ¬ (marker ++ ds).length % 2 = 1 := by
      have := even_length_of_mem_markers hmarker
      rw [List.length_append]
      omega
    obtain ⟨cs, hcs⟩ := decodePairs_of_digits 0 ds (by omega) hds
    have hsame : cs = bs := by
      apply BigEndian.eq_of_toNat_eq
      · have := length_of_decodePairs hcs
        omega
      · rw [← number_of_decodePairs hcs, hnumber]
    rw [decodeSized, if_neg heven, dropMarker_append hmarker hds, if_neg (not_not.mpr hlength),
      hcs, hsame]

end Hex

namespace FixedBytes

variable {size : Nat} {s : String}

theorem ofText_eq_ok_iff_decodeSized {b : FixedBytes size} :
    ofText s = .ok b ↔ Hex.decodeSized size (Text.utf8 s) = .ok b.toList := by
  unfold ofText
  split
  · rename_i bs hbs
    have hread : Hex.decodeSized size (Text.utf8 s) = .ok b.toList ↔ bs = b.toList := by
      rw [hbs, Except.ok.injEq]
    rw [hread, Except.ok.injEq, FixedBytes.ext_iff]
  · rename_i fault hfault
    rw [hfault]
    exact iff_of_false nofun nofun

theorem ofText_eq_ok_iff {b : FixedBytes size} :
    ofText s = .ok b ↔ Hex.Spells size s (BigEndian.toNat b.toList) := by
  rw [ofText_eq_ok_iff_decodeSized, Hex.decodeSized_eq_ok_iff]
  constructor
  · rintro ⟨marker, hmarker, ds, htext, hlength, hds, -, hnumber⟩
    obtain ⟨marker, hmember, rfl⟩ := Hex.mem_markers_iff.mp hmarker
    obtain ⟨digits, rfl, hdigits, hcases⟩ := Hex.exists_digits hds
    have hs : s = marker ++ digits := by
      apply Text.utf8_injective
      rw [htext, Hex.utf8_append]
    rw [hs, ← hnumber]
    exact .intro hmember (hdigits.trans hlength) hcases
  · intro h
    generalize BigEndian.toNat b.toList = n at h ⊢
    cases h with
    | @intro marker digits hmarker hlength hcases =>
      obtain ⟨hbytes, hdigits⟩ := Hex.utf8_digits hcases
      refine ⟨Text.utf8 marker, Hex.mem_markers_iff.mpr ⟨marker, hmarker, rfl⟩, Text.utf8 digits,
        Hex.utf8_append marker digits, ?_, hdigits, b.length_toList, rfl⟩
      rw [← hlength, ← String.length_toList]
      exact hbytes

theorem exists_ofText_of_spells {n : Nat} (h : Hex.Spells size s n) :
    ∃ b : FixedBytes size, ofText s = .ok b ∧ BigEndian.toNat b.toList = n := by
  cases h with
  | @intro marker digits hmarker hlength hcases =>
    obtain ⟨hbytes, hdigits⟩ := Hex.utf8_digits hcases
    have hlength' : (Text.utf8 digits).length = 2 * size := by
      rw [← hlength, ← String.length_toList]
      exact hbytes
    obtain ⟨bs, hbs⟩ := Hex.decodePairs_of_digits 0 (Text.utf8 digits) (by omega) hdigits
    have hsize : bs.length = size := by
      have := Hex.length_of_decodePairs hbs
      omega
    have hnumber := Hex.number_of_decodePairs hbs
    refine ⟨⟨bs, hsize⟩, ?_, hnumber.symm⟩
    rw [ofText_eq_ok_iff]
    exact hnumber ▸ Hex.Spells.intro hmarker hlength hcases

end FixedBytes

end ChainGateway
