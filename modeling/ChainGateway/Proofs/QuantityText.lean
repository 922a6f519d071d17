import ChainGateway.Proofs.HexText
import Mathlib.Data.List.Forall2
import Mathlib.Data.Nat.Digits.Defs

namespace ChainGateway

namespace Text

/-- A character is a digit of a base, with letters of either case, and has the value. -/
def Digit (base : Nat) (c : Char) (d : Nat) : Prop :=
  d < base ∧ ("0123456789abcdef".toList[d]? = some c ∨ "0123456789ABCDEF".toList[d]? = some c)

instance (base : Nat) (c : Char) (d : Nat) : Decidable (Digit base c d) :=
  inferInstanceAs (Decidable (_ ∧ _))

theorem digitValue?_of_not_ascii {c : Char} (h : 128 ≤ c.toNat) : digitValue? c = none := by
  have hle {b : Char} (hb : b.toNat < 128) : ¬ c ≤ b := fun hc =>
    Nat.not_lt.mpr h (Nat.lt_of_le_of_lt hc hb)
  unfold digitValue?
  rw [if_neg fun hc => hle (by decide) hc.2, if_neg fun hc => hle (by decide) hc.2,
    if_neg fun hc => hle (by decide) hc.2]

theorem digitValue?_eq_some_iff {c : Char} {d : Nat} (hd : d < 16) :
    digitValue? c = some d ↔ Digit 16 c d := by
  have hascii : ∀ k : Fin 128, ∀ d : Fin 16,
      digitValue? (Char.ofNat k) = some d.val ↔ Digit 16 (Char.ofNat k) d := by
    decide +kernel
  have hall : ("0123456789abcdef".toList ++ "0123456789ABCDEF".toList).all (·.toNat < 128) :=
    rfl
  have hsmall {b : Char} (hb : b ∈ "0123456789abcdef".toList ++ "0123456789ABCDEF".toList) :
      b.toNat < 128 := of_decide_eq_true (List.all_eq_true.mp hall b hb)
  by_cases hc : c.toNat < 128
  · rw [← Char.ofNat_toNat c]
    exact hascii ⟨c.toNat, hc⟩ ⟨d, hd⟩
  · rw [digitValue?_of_not_ascii (Nat.not_lt.mp hc)]
    refine iff_of_false nofun fun hdigit => hc ?_
    obtain hlower | hupper := hdigit.2
    · exact hsmall (List.mem_append_left _ (List.mem_of_getElem? hlower))
    · exact hsmall (List.mem_append_right _ (List.mem_of_getElem? hupper))

theorem pushDigit?_eq_some_iff {base : Nat} (hbase : base ≤ 16) {n m : Nat} {c : Char} :
    pushDigit? base n c = some m ↔ ∃ d, Digit base c d ∧ m = base * n + d := by
  have hvalue {d : Nat} (hd : d < base) : digitValue? c = some d ↔ Digit base c d := by
    rw [digitValue?_eq_some_iff (by omega)]
    exact and_congr_left fun _ => iff_of_true (by omega) hd
  unfold pushDigit?
  constructor
  · intro h
    split at h
    · rename_i d hc
      split_ifs at h with hd
      exact ⟨d, (hvalue hd).mp hc, (Option.some.inj h).symm⟩
    · cases h
  · rintro ⟨d, hdigit, rfl⟩
    rw [(hvalue hdigit.1).mpr hdigit]
    exact if_pos hdigit.1

end Text

namespace Quantity

open Text (Digit)

/-- Digits of a base, with underscores anywhere among them, make up a number. -/
def Denote (base : Nat) (cs : List Char) (n : Nat) : Prop :=
  ∃ ds, List.Forall₂ (Digit base) (cs.filter (· ≠ '_')) ds ∧ n = Nat.ofDigits base ds.reverse

def markers : List (List Char × Nat) :=
  [(['0', 'x'], 16), (['0', 'X'], 16), (['0', 'o'], 8), (['0', 'O'], 8), (['0', 'b'], 2),
    (['0', 'B'], 2), ([], 10)]

def Spells (s : String) (n : Nat) : Prop :=
  ∃ m ∈ markers, ∃ digits, s.toList = m.1 ++ digits ∧ Denote m.2 digits n

theorem ofDigits_reverse_cons (base d : Nat) (ds : List Nat) :
    Nat.ofDigits base (d :: ds).reverse =
      d * base ^ ds.length + Nat.ofDigits base ds.reverse := by
  rw [List.reverse_cons, Nat.ofDigits_append, Nat.ofDigits_singleton, List.length_reverse]
  ring

/-- Digits are read onto a number, which moves up by as many places. -/
theorem readDigits_eq_some_iff {base : Nat} (hbase : base ≤ 16) {cs : List Char} {n m : Nat} :
    readDigits base n cs = some m ↔ ∃ ds, List.Forall₂ (Digit base) (cs.filter (· ≠ '_')) ds ∧
      m = n * base ^ ds.length + Nat.ofDigits base ds.reverse := by
  induction cs generalizing n with
  | nil =>
    rw [readDigits, List.filter_nil]
    simp only [List.forall₂_nil_left_iff, exists_eq_left, Option.some.injEq, eq_comm (a := m)]
    simp
  | cons c cs ih =>
    by_cases hc : c = '_'
    · subst hc
      rw [List.filter_cons_of_neg (by simp), ← ih]
      rfl
    · have hpush : readDigits base n (c :: cs) = some m ↔
          ∃ n', Text.pushDigit? base n c = some n' ∧ readDigits base n' cs = some m := by
        rw [readDigits.eq_3 _ _ _ _ hc]
        cases Text.pushDigit? base n c <;> simp
      rw [hpush, List.filter_cons_of_pos (by simpa using hc)]
      simp only [Text.pushDigit?_eq_some_iff hbase, ih, List.forall₂_cons_left_iff]
      constructor
      · rintro ⟨_, ⟨d, hd, rfl⟩, ds, hds, rfl⟩
        refine ⟨d :: ds, ⟨d, ds, hd, hds, rfl⟩, ?_⟩
        rw [ofDigits_reverse_cons, List.length_cons]
        ring
      · rintro ⟨_, ⟨d, ds, hd, hds, rfl⟩, rfl⟩
        refine ⟨_, ⟨d, hd, rfl⟩, ds, hds, ?_⟩
        rw [ofDigits_reverse_cons, List.length_cons]
        ring

theorem readDigits_zero_iff {base : Nat} (hbase : base ≤ 16) {cs : List Char} {n : Nat} :
    readDigits base 0 cs = some n ↔ Denote base cs n := by
  simp only [readDigits_eq_some_iff hbase, Nat.zero_mul, Nat.zero_add, Denote]

theorem base_le_of_mem_markers {m : List Char × Nat} (h : m ∈ markers) : m.2 ≤ 16 := by
  have hall : ∀ m ∈ markers, m.2 ≤ 16 := by decide
  exact hall m h

theorem exists_marker (cs : List Char) :
    ∃ m ∈ markers, cs = m.1 ++ (splitBase cs).2 ∧ (splitBase cs).1 = m.2 := by
  unfold splitBase
  split
  · exact ⟨(['0', 'x'], 16), by decide, rfl, rfl⟩
  · exact ⟨(['0', 'X'], 16), by decide, rfl, rfl⟩
  · exact ⟨(['0', 'o'], 8), by decide, rfl, rfl⟩
  · exact ⟨(['0', 'O'], 8), by decide, rfl, rfl⟩
  · exact ⟨(['0', 'b'], 2), by decide, rfl, rfl⟩
  · exact ⟨(['0', 'B'], 2), by decide, rfl, rfl⟩
  · exact ⟨([], 10), by decide, rfl, rfl⟩

/-- The letter of a marker is no decimal digit, so that it is not read without its marker. -/
theorem splitBase_of_readDigits {cs : List Char} {n : Nat} (h : readDigits 10 0 cs = some n) :
    splitBase cs = (10, cs) := by
  unfold splitBase
  split
  · cases h
  · cases h
  · cases h
  · cases h
  · cases h
  · cases h
  · rfl

theorem splitBase_append {m : List Char × Nat} (hm : m ∈ markers) {cs : List Char} {n : Nat}
    (h : readDigits m.2 0 cs = some n) : splitBase (m.1 ++ cs) = (m.2, cs) := by
  simp only [markers, List.mem_cons, List.not_mem_nil, or_false] at hm
  obtain rfl | rfl | rfl | rfl | rfl | rfl | rfl := hm
  · rfl
  · rfl
  · rfl
  · rfl
  · rfl
  · rfl
  · exact splitBase_of_readDigits h

theorem number?_eq_some_iff {s : String} {n : Nat} : number? s = some n ↔ Spells s n := by
  constructor
  · intro h
    obtain ⟨m, hm, hs, hbase⟩ := exists_marker s.toList
    refine ⟨m, hm, _, hs, (readDigits_zero_iff (base_le_of_mem_markers hm)).mp ?_⟩
    rw [← hbase]
    exact h
  · rintro ⟨m, hm, digits, hs, hdigits⟩
    have hread := (readDigits_zero_iff (base_le_of_mem_markers hm)).mpr hdigits
    rw [number?, hs, splitBase_append hm hread]
    exact hread

example : number? "0x" = some 0 ∧ number? "0b1_0" = some 2 ∧ number? "0x1g" = none :=
  ⟨rfl, rfl, rfl⟩

theorem ofText?_eq_some_iff {bits : Nat} {s : String} {w : Word bits} :
    ofText? bits s = some w ↔ Spells s w.toNat := by
  rw [ofText?, ← number?_eq_some_iff]
  constructor
  · intro h
    obtain ⟨n, hn, hw⟩ := Option.bind_eq_some_iff.mp h
    rw [hn, Word.ofNat?_eq_some_iff.mp hw]
  · intro h
    rw [h]
    exact Word.ofNat?_toNat w

end Quantity

end ChainGateway
