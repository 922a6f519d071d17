import ChainGateway.Proofs.CallData
import ChainGateway.Proofs.HexText
import Mathlib.Data.Nat.Digits.Defs

namespace ChainGateway

namespace Hex

def digitsOfCases : List Char := "0123456789abcdefABCDEF".toList

def IsDigit (b : UInt8) : Prop := Char.ofNat b.toNat ∈ digitsOfCases

instance (b : UInt8) : Decidable (IsDigit b) := inferInstanceAs (Decidable (_ ∈ _))

def worth (b : UInt8) : Nat := digits.idxOf (Char.ofNat (lower b).toNat)

def number (ds : List UInt8) : Nat := Nat.ofDigits 16 (ds.reverse.map worth)

theorem digitValue?_eq (b : UInt8) :
    digitValue? b = if IsDigit b then some (worth b) else none := by
  have hall : ∀ k : Fin 256, digitValue? (UInt8.ofNat k.val) =
      if IsDigit (UInt8.ofNat k.val) then some (worth (UInt8.ofNat k.val)) else none := by
    decide +kernel
  have hb := hall ⟨b.toNat, b.toNat_lt⟩
  rwa [UInt8.ofNat_toNat] at hb

theorem worth_lower (b : UInt8) : worth (lower b) = worth b := by
  have hall : ∀ k : Fin 256, worth (lower (UInt8.ofNat k.val)) = worth (UInt8.ofNat k.val) := by
    decide +kernel
  have hb := hall ⟨b.toNat, b.toNat_lt⟩
  rwa [UInt8.ofNat_toNat] at hb

theorem worth_digit {n : Nat} (h : n < 16) : worth (UInt8.ofNat (digit n).toNat) = n := by
  have hall : ∀ k : Fin 16, worth (UInt8.ofNat (digit k.val).toNat) = k.val := by decide +kernel
  exact hall ⟨n, h⟩

theorem number_concat (ds : List UInt8) (d : UInt8) :
    number (ds ++ [d]) = worth d + 16 * number ds := by
  rw [number, List.reverse_append, List.reverse_singleton, List.singleton_append, List.map_cons,
    Nat.ofDigits_cons]
  rfl

theorem number_map_lower (ds : List UInt8) : number (ds.map lower) = number ds := by
  have hworth : worth ∘ lower = worth := funext worth_lower
  rw [number, number, ← List.map_reverse, List.map_map, hworth]

theorem number_encodeBytes (bs : List UInt8) : number (encodeBytes bs) = BigEndian.toNat bs := by
  induction bs using List.reverseRecOn with
  | nil => rfl
  | append_singleton bs b ih =>
    have hb : b.toNat < 256 := b.toNat_lt
    have hbyte : encodeBytes [b] = [UInt8.ofNat (digit (b.toNat / 16)).toNat] ++
        [UInt8.ofNat (digit (b.toNat % 16)).toNat] := rfl
    rw [encodeBytes_append, hbyte, ← List.append_assoc, number_concat, number_concat, ih,
      worth_digit (by omega), worth_digit (by omega), BigEndian.toNat_concat]
    omega

theorem decodePairs_of_digits (position : Nat) : (ds : List UInt8) → ds.length % 2 = 0 →
    (∀ d ∈ ds, IsDigit d) → ∃ bs, decodePairs position ds = .ok bs
  | [], _, _ => ⟨[], rfl⟩
  | [_], h, _ => nomatch h
  | a :: b :: r, h, hds => by
    obtain ⟨ha, hds⟩ := List.forall_mem_cons.mp hds
    obtain ⟨hb, hr⟩ := List.forall_mem_cons.mp hds
    have heven : r.length % 2 = 0 := by
      rw [List.length_cons, List.length_cons] at h
      omega
    obtain ⟨bs, hbs⟩ := decodePairs_of_digits (position + 2) r heven hr
    refine ⟨UInt8.ofNat (16 * worth a + worth b) :: bs, ?_⟩
    simp only [decodePairs, digitValue?_eq, ha, hb, hbs, ↓reduceIte]
    rfl

/-- Of the bytes that are no digits, the leftmost is reported. -/
theorem decodePairs_of_badDigit {d : UInt8} (hd : ¬ IsDigit d) (rest : List UInt8)
    (position : Nat) : (good : List UInt8) → (good ++ d :: rest).length % 2 = 0 →
    (∀ g ∈ good, IsDigit g) →
    decodePairs position (good ++ d :: rest) = .error (.badDigit d (position + good.length))
  | [], h, _ => by
    cases rest with
    | nil => cases h
    | cons b r => simp [decodePairs, digitValue?_eq, hd]
  | [a], h, hgood => by
    have ha : IsDigit a := hgood a List.mem_cons_self
    simp [decodePairs, digitValue?_eq, ha, hd]
  | a :: b :: good, h, hgood => by
    obtain ⟨ha, hgood⟩ := List.forall_mem_cons.mp hgood
    obtain ⟨hb, hgood⟩ := List.forall_mem_cons.mp hgood
    have heven : (good ++ d :: rest).length % 2 = 0 := by
      simp only [List.cons_append, List.length_cons] at h
      omega
    have hrest := decodePairs_of_badDigit hd rest (position + 2) good heven hgood
    have hposition : position + 2 + good.length = position + (a :: b :: good).length := by
      simp only [List.length_cons]
      omega
    simp only [List.cons_append, decodePairs, digitValue?_eq, ha, hb, hrest, ↓reduceIte,
      hposition]
    rfl

theorem digits_or_leftmost (ds : List UInt8) :
    (∀ d ∈ ds, IsDigit d) ∨
    ∃ good d rest, ds = good ++ d :: rest ∧ (∀ g ∈ good, IsDigit g) ∧ ¬ IsDigit d := by
  induction ds with
  | nil => exact Or.inl nofun
  | cons a ds ih =>
    by_cases ha : IsDigit a
    · obtain hds | ⟨good, d, rest, rfl, hgood, hd⟩ := ih
      · exact Or.inl (List.forall_mem_cons.mpr ⟨ha, hds⟩)
      · exact Or.inr ⟨a :: good, d, rest, rfl, List.forall_mem_cons.mpr ⟨ha, hgood⟩, hd⟩
    · exact Or.inr ⟨[], a, ds, rfl, nofun, ha⟩

end Hex

namespace Bridge.Export

theorem utf8_marked (rest : String) : Text.utf8 ("0x" ++ rest) = 48 :: 120 :: Text.utf8 rest := by
  rw [Text.utf8, String.toList_append]
  rfl

theorem exists_marked {s : String} {r : List UInt8} (h : Text.utf8 s = 48 :: 120 :: r) :
    ∃ rest, s = "0x" ++ rest ∧ Text.utf8 rest = r := by
  -- an ASCII byte is a character of its own
  have hsegments := Text.segments_utf8 s
  rw [h, Text.segments_ascii (by decide), Text.segments_ascii (by decide)] at hsegments
  obtain ⟨cs, hchars⟩ : ∃ cs, s.toList = '0' :: 'x' :: cs := by
    cases hchars : s.toList with
    | nil => rw [hchars] at hsegments; cases hsegments
    | cons a cs =>
      cases cs with
      | nil => rw [hchars] at hsegments; cases hsegments
      | cons b cs =>
        rw [hchars] at hsegments
        injection hsegments with ha hsegments
        injection hsegments with hb _
        rw [← Option.some.inj ha, ← Option.some.inj hb]
        exact ⟨cs, rfl⟩
  have hs : s = "0x" ++ String.ofList cs := by
    apply String.toList_injective
    rw [hchars, String.toList_append, String.toList_ofList, String.toList_ofList]
    rfl
  refine ⟨String.ofList cs, hs, ?_⟩
  rw [hs, utf8_marked] at h
  exact (List.cons.inj (List.cons.inj h).2).2

/-- One marker is no part of the digits, and only in lowercase. -/
theorem txidDigits_cases (txid : String) :
    (∃ rest, txid = "0x" ++ rest ∧ txidDigits txid = Text.utf8 rest) ∨
    ((∀ rest, txid ≠ "0x" ++ rest) ∧ txidDigits txid = Text.utf8 txid) := by
  by_cases h : ∃ r, Text.utf8 txid = 48 :: 120 :: r
  · obtain ⟨r, hr⟩ := h
    obtain ⟨rest, htxid, hrest⟩ := exists_marked hr
    refine Or.inl ⟨rest, htxid, ?_⟩
    simp only [txidDigits, hr, hrest]
  · refine Or.inr ⟨fun rest hrest => h ⟨_, hrest ▸ utf8_marked rest⟩, ?_⟩
    unfold txidDigits
    split
    · rename_i r hr
      exact absurd ⟨r, hr⟩ h
    · rfl

def reportedBytes (txid : String) : Except GatewayError Hash :=
  (txidBytes txid).mapError fun fault => .encoding fault.message

inductive Spells (txid : String) : Except GatewayError Hash → Prop where
  | bytes {b : Hash} :
      (txidDigits txid).length % 2 = 0 → (txidDigits txid).length ≤ 64 →
      (∀ d ∈ txidDigits txid, Hex.IsDigit d) →
      BigEndian.toNat b.toList = Hex.number (txidDigits txid) → Spells txid (.ok b)
  | oddLength :
      (txidDigits txid).length % 2 = 1 →
      Spells txid (.error (.encoding
        ("txid " ++ Text.Quoted.text txid ++ " is not hex: " ++ "Odd number of digits")))
  | badDigit {good rest : List UInt8} {d : UInt8} :
      (txidDigits txid).length % 2 = 0 → txidDigits txid = good ++ d :: rest →
      (∀ g ∈ good, Hex.IsDigit g) → ¬ Hex.IsDigit d →
      Spells txid (.error (.encoding ("txid " ++ Text.Quoted.text txid ++ " is not hex: "
        ++ ("Invalid character " ++ Text.Quoted.character (Char.ofNat d.toNat)
          ++ " at position " ++ toString good.length))))
  | tooLong :
      (txidDigits txid).length % 2 = 0 → 64 < (txidDigits txid).length →
      (∀ d ∈ txidDigits txid, Hex.IsDigit d) →
      Spells txid (.error (.encoding
        ("txid is " ++ toString ((txidDigits txid).length / 2) ++ " bytes, expected at most 32")))

variable {txid : String}

theorem number_of_txidBytes {b : Hash} (h : txidBytes txid = .ok b) :
    BigEndian.toNat b.toList = Hex.number (txidDigits txid) := by
  obtain ⟨bs, -, hdigits, hb⟩ := digits_of_txidBytes h
  rw [hb, toNat_pad, ← Hex.number_map_lower, hdigits, Hex.number_encodeBytes]

theorem txidBytes_of_digits (heven : (txidDigits txid).length % 2 = 0)
    (hdigits : ∀ d ∈ txidDigits txid, Hex.IsDigit d) :
    ((txidDigits txid).length ≤ 64 → ∃ b, txidBytes txid = .ok b) ∧
    (64 < (txidDigits txid).length →
      txidBytes txid = .error (.tooLong ((txidDigits txid).length / 2))) := by
  obtain ⟨bs, hbs⟩ := Hex.decodePairs_of_digits 0 _ heven hdigits
  have hdouble := Hex.length_of_decodePairs hbs
  have hdecode : Hex.decode (txidDigits txid) = .ok bs := by
    rw [Hex.decode, if_neg (by omega), hbs]
  refine ⟨fun hlength => ⟨leftPad bs (by omega), ?_⟩, fun hlength => ?_⟩
  · have hle : bs.length ≤ 32 := by omega
    simp only [txidBytes, hdecode, hle, ↓reduceDIte]
  · have hlt : ¬ bs.length ≤ 32 := by omega
    have hhalf : (txidDigits txid).length / 2 = bs.length := by omega
    simp only [txidBytes, hdecode, hlt, ↓reduceDIte, hhalf]

theorem txidBytes_of_oddLength (hodd : (txidDigits txid).length % 2 = 1) :
    txidBytes txid = .error (.notHex txid .oddLength) := by
  have hdecode : Hex.decode (txidDigits txid) = .error .oddLength := if_pos hodd
  simp only [txidBytes, hdecode]

theorem txidBytes_of_badDigit {good rest : List UInt8} {d : UInt8}
    (heven : (txidDigits txid).length % 2 = 0) (hsplit : txidDigits txid = good ++ d :: rest)
    (hgood : ∀ g ∈ good, Hex.IsDigit g) (hd : ¬ Hex.IsDigit d) :
    txidBytes txid = .error (.notHex txid (.badDigit d good.length)) := by
  have hpairs := Hex.decodePairs_of_badDigit hd rest 0 good (hsplit ▸ heven) hgood
  have hdecode : Hex.decode (txidDigits txid) = .error (.badDigit d good.length) := by
    rw [Hex.decode, if_neg (by omega), hsplit, hpairs, Nat.zero_add]
  simp only [txidBytes, hdecode]

theorem reportedBytes_of_spells {o : Except GatewayError Hash} (h : Spells txid o) :
    reportedBytes txid = o := by
  cases h with
  | @bytes b heven hlength hdigits hnumber =>
    obtain ⟨b', hb'⟩ := (txidBytes_of_digits heven hdigits).1 hlength
    have hsame : b' = b := by
      apply FixedBytes.ext
      apply BigEndian.eq_of_toNat_eq (by rw [b.length_toList, b'.length_toList])
      rw [number_of_txidBytes hb', hnumber]
    rw [reportedBytes, hb', hsame]
    rfl
  | oddLength hodd =>
    rw [reportedBytes, txidBytes_of_oddLength hodd]
    rfl
  | badDigit heven hsplit hgood hd =>
    rw [reportedBytes, txidBytes_of_badDigit heven hsplit hgood hd]
    rfl
  | tooLong heven hlength hdigits =>
    rw [reportedBytes, (txidBytes_of_digits heven hdigits).2 hlength]
    rfl

theorem spells_reportedBytes (txid : String) : Spells txid (reportedBytes txid) := by
  by_cases hodd : (txidDigits txid).length % 2 = 1
  · have h := Spells.oddLength hodd
    exact reportedBytes_of_spells h ▸ h
  have heven : (txidDigits txid).length % 2 = 0 := by omega
  obtain hdigits | ⟨good, d, rest, hsplit, hgood, hd⟩ := Hex.digits_or_leftmost (txidDigits txid)
  · by_cases hlength : (txidDigits txid).length ≤ 64
    · obtain ⟨b, hb⟩ := (txidBytes_of_digits heven hdigits).1 hlength
      have h := Spells.bytes heven hlength hdigits (number_of_txidBytes hb)
      exact reportedBytes_of_spells h ▸ h
    · have h := Spells.tooLong heven (Nat.not_le.mp hlength) hdigits
      exact reportedBytes_of_spells h ▸ h
  · have h := Spells.badDigit heven hsplit hgood hd
    exact reportedBytes_of_spells h ▸ h

theorem txidDigits_marked (rest : String) : txidDigits ("0x" ++ rest) = Text.utf8 rest := by
  simp only [txidDigits, utf8_marked]

theorem utf8_ofList_encode (bs : List UInt8) :
    Text.utf8 (String.ofList (Hex.encode bs)) = Hex.encodeBytes bs := by
  rw [Text.utf8, String.toList_ofList, Hex.utf8_encode]

theorem txidDigits_encode (bs : List UInt8) :
    txidDigits (String.ofList (Hex.encode bs)) = Hex.encodeBytes bs := by
  obtain ⟨rest, hrest, -⟩ | ⟨-, hdigits⟩ := txidDigits_cases (String.ofList (Hex.encode bs))
  · -- digits hold no marker, since its letter is no digit
    have hchars := congrArg String.toList hrest
    rw [String.toList_ofList, String.toList_append] at hchars
    have hx : 'x' ∈ Hex.encode bs := hchars ▸ List.mem_append_left _ (by decide)
    exact absurd (Hex.mem_digits_of_mem_encode hx) (by decide)
  · rw [hdigits, utf8_ofList_encode]

theorem reportedBytes_eq_ok_iff {b : Hash} :
    reportedBytes txid = .ok b ↔ txidBytes txid = .ok b := by
  unfold reportedBytes
  cases txidBytes txid with
  | ok b' => simp [Except.mapError]
  | error fault => simp [Except.mapError]

theorem reportedBytes_eq_iff {o : Except GatewayError Hash} :
    reportedBytes txid = o ↔ Spells txid o :=
  ⟨fun h => h ▸ spells_reportedBytes txid, reportedBytes_of_spells⟩

theorem exists_reportedBytes_iff :
    (∃ b, reportedBytes txid = .ok b) ↔
      (txidDigits txid).length % 2 = 0 ∧ (txidDigits txid).length ≤ 64 ∧
        ∀ d ∈ txidDigits txid, Hex.IsDigit d := by
  constructor
  · rintro ⟨b, hb⟩
    cases reportedBytes_eq_iff.mp hb with
    | bytes heven hlength hdigits _ => exact ⟨heven, hlength, hdigits⟩
  · rintro ⟨heven, hlength, hdigits⟩
    obtain ⟨b, hb⟩ := (txidBytes_of_digits heven hdigits).1 hlength
    exact ⟨b, reportedBytes_eq_ok_iff.mpr hb⟩

/-- Identifiers that are read denote the same bytes if they denote the same number. -/
theorem eq_iff_number_eq {txid' : String} {b b' : Hash} (h : reportedBytes txid = .ok b)
    (h' : reportedBytes txid' = .ok b') :
    b = b' ↔ Hex.number (txidDigits txid) = Hex.number (txidDigits txid') := by
  rw [← number_of_txidBytes (reportedBytes_eq_ok_iff.mp h),
    ← number_of_txidBytes (reportedBytes_eq_ok_iff.mp h')]
  constructor
  · rintro rfl
    rfl
  · intro hnumber
    apply FixedBytes.ext
    exact BigEndian.eq_of_toNat_eq (by rw [b.length_toList, b'.length_toList]) hnumber

theorem reportedBytes_of_encodeBytes {b : Hash}
    (h : txidDigits txid = Hex.encodeBytes b.toList) : reportedBytes txid = .ok b := by
  have hlength : (txidDigits txid).length = 64 := by
    rw [h, Hex.length_encodeBytes, b.length_toList]
  have hdecode : Hex.decode (txidDigits txid) = .ok b.toList := by
    rw [Hex.decode, if_neg (by omega), h, Hex.decodePairs_encodeBytes]
  have hle : b.toList.length ≤ 32 := b.length_toList.le
  rw [reportedBytes_eq_ok_iff]
  simp only [txidBytes, hdecode, hle, ↓reduceDIte, Except.ok.injEq]
  apply FixedBytes.ext
  simp only [leftPad, b.length_toList, Nat.sub_self, List.replicate_zero, List.nil_append]

structure ReadsByDigits (read : String → Except GatewayError Hash) : Prop where
  marker (txid : String) : (∃ rest, txid = "0x" ++ rest ∧ txidDigits txid = Text.utf8 rest) ∨
    ((∀ rest, txid ≠ "0x" ++ rest) ∧ txidDigits txid = Text.utf8 txid)
  outcome_iff (txid : String) (o : Except GatewayError Hash) : read txid = o ↔ Spells txid o
  succeeds_iff (txid : String) : (∃ b, read txid = .ok b) ↔
    (txidDigits txid).length % 2 = 0 ∧ (txidDigits txid).length ≤ 64 ∧
      ∀ d ∈ txidDigits txid, Hex.IsDigit d
  same_iff {txid txid' : String} {b b' : Hash} : read txid = .ok b → read txid' = .ok b' →
    (b = b' ↔ Hex.number (txidDigits txid) = Hex.number (txidDigits txid'))
  marked (b : Hash) : read ("0x" ++ String.ofList (Hex.encode b.toList)) = .ok b
  bare (b : Hash) : read (String.ofList (Hex.encode b.toList)) = .ok b
  exported (e : Export) : e.call = (read e.txid).map fun b => ⟨b, e.idx, e.fee, Text.utf8 e.sig⟩

/-- An identifier is at most one marker and then digits; what it is read as, or what is reported of
it, is laid down by the digits. -/
theorem txid_spelled : ReadsByDigits reportedBytes where
  marker := txidDigits_cases
  outcome_iff _ _ := reportedBytes_eq_iff
  succeeds_iff _ := exists_reportedBytes_iff
  same_iff := eq_iff_number_eq
  marked b := by
    apply reportedBytes_of_encodeBytes
    rw [txidDigits_marked, utf8_ofList_encode]
  bare b := reportedBytes_of_encodeBytes (txidDigits_encode b.toList)
  exported e := by
    unfold Export.call reportedBytes
    cases txidBytes e.txid <;> rfl

end Bridge.Export

end ChainGateway
