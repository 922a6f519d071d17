import ChainGateway.BigEndian
import ChainGateway.Hex
import Mathlib.Data.List.Induction
import Mathlib.Tactic.Ring

namespace ChainGateway.BigEndian

theorem toNat_byte {n : Nat} (h : n < 256) : (UInt8.ofNat n).toNat = n :=
  UInt8.toNat_ofNat_of_lt' h

@[simp] theorem toNat_nil : toNat [] = 0 := rfl

theorem toNat_concat (bs : List UInt8) (b : UInt8) :
    toNat (bs ++ [b]) = 256 * toNat bs + b.toNat := by
  simp [toNat, List.foldl_append]

/-- Enough fuel is as good as any, and what is accumulated stands behind the digits. -/
theorem go_eq (fuel n : Nat) (hn : n ≤ fuel) (acc : List UInt8) :
    ofNat.go fuel n acc = ofNat n ++ acc := by
  induction n using Nat.strong_induction_on generalizing fuel acc with
  | _ n ih =>
    by_cases h : n = 0
    · subst h
      cases fuel <;> simp [ofNat, ofNat.go]
    · obtain ⟨f, rfl⟩ : ∃ f, fuel = f + 1 := ⟨fuel - 1, by omega⟩
      obtain ⟨m, rfl⟩ : ∃ m, n = m + 1 := ⟨n - 1, by omega⟩
      have hlt : (m + 1) / 256 < m + 1 := by omega
      simp only [ofNat, ofNat.go, h, ↓reduceIte]
      rw [ih _ hlt f (by omega), ih _ hlt m (by omega), List.append_assoc]
      rfl

@[simp] theorem ofNat_zero : ofNat 0 = [] := rfl

theorem ofNat_of_pos {n : Nat} (hn : 0 < n) :
    ofNat n = ofNat (n / 256) ++ [UInt8.ofNat (n % 256)] := by
  obtain ⟨m, rfl⟩ : ∃ m, n = m + 1 := ⟨n - 1, by omega⟩
  have hd : (m + 1) / 256 ≤ m := by omega
  rw [← go_eq m _ hd]
  simp [ofNat, ofNat.go]

theorem ofNat_eq_nil_iff {n : Nat} : ofNat n = [] ↔ n = 0 := by
  constructor
  · intro h
    by_contra hn
    rw [ofNat_of_pos (by omega)] at h
    simp at h
  · rintro rfl
    exact ofNat_zero

@[simp] theorem toNat_ofNat (n : Nat) : toNat (ofNat n) = n := by
  induction n using Nat.strong_induction_on with
  | _ n ih =>
    by_cases h : n = 0
    · subst h; rfl
    · rw [ofNat_of_pos (by omega), toNat_concat, ih _ (by omega), toNat_byte (by omega)]
      omega

theorem ofNat_injective : Function.Injective ofNat := by
  intro m n h
  rw [← toNat_ofNat m, h, toNat_ofNat]

theorem head?_ofNat (n : Nat) : (ofNat n).head? ≠ some 0 := by
  induction n using Nat.strong_induction_on with
  | _ n ih =>
    by_cases h : n = 0
    · subst h; simp
    · rw [ofNat_of_pos (by omega)]
      by_cases hd : n / 256 = 0
      · rw [hd, ofNat_zero, List.nil_append, List.head?_cons, ne_eq, Option.some.injEq,
          ← UInt8.toNat_inj, toNat_byte (by omega)]
        change ¬ n % 256 = 0
        omega
      · obtain ⟨b, bs, hbs⟩ := List.exists_cons_of_ne_nil (mt ofNat_eq_nil_iff.mp hd)
        have hb := ih (n / 256) (by omega)
        rw [hbs] at hb ⊢
        exact hb

/-- Bytes without a leading zero are the digits of the number they spell. -/
theorem ofNat_toNat (bs : List UInt8) (h : bs.head? ≠ some 0) : ofNat (toNat bs) = bs := by
  induction bs using List.reverseRecOn with
  | nil => rfl
  | append_singleton bs b ih =>
    have hb : b.toNat < 256 := b.toNat_lt
    have hdiv : (256 * toNat bs + b.toNat) / 256 = toNat bs := by omega
    have hmod : (256 * toNat bs + b.toNat) % 256 = b.toNat := by omega
    have hh : bs.head? ≠ some 0 := by
      cases bs with
      | nil => simp
      | cons c cs => simpa using h
    have hpos : 0 < 256 * toNat bs + b.toNat := by
      by_contra hz
      have hz' : toNat bs = 0 ∧ b.toNat = 0 := by omega
      have hnil : bs = [] := by rw [← ih hh, hz'.1, ofNat_zero]
      have hb0 : b = 0 := UInt8.toNat_inj.mp hz'.2
      subst hnil hb0
      simp at h
    rw [toNat_concat, ofNat_of_pos hpos, hdiv, hmod, ih hh, UInt8.ofNat_toNat]

theorem length_ofNat_le {n size : Nat} (h : n < 256 ^ size) : (ofNat n).length ≤ size := by
  induction size generalizing n with
  | zero =>
    have hn : n = 0 := by simpa using h
    subst hn
    simp
  | succ size ih =>
    by_cases hn : n = 0
    · subst hn; simp
    · have hlt : n / 256 < 256 ^ size := by
        rw [Nat.pow_succ] at h
        omega
      rw [ofNat_of_pos (by omega), List.length_append, List.length_singleton]
      exact Nat.succ_le_succ (ih hlt)

theorem toNat_append (bs cs : List UInt8) :
    toNat (bs ++ cs) = toNat bs * 256 ^ cs.length + toNat cs := by
  induction cs using List.reverseRecOn with
  | nil => simp
  | append_singleton cs b ih =>
    rw [← List.append_assoc, toNat_concat, toNat_concat, ih, List.length_append,
      List.length_singleton, Nat.pow_succ]
    ring

@[simp] theorem toNat_replicate_zero (n : Nat) : toNat (List.replicate n 0) = 0 := by
  induction n with
  | zero => rfl
  | succ n ih => rw [List.replicate_succ', toNat_concat, ih]; rfl

theorem toNat_cons (b : UInt8) (bs : List UInt8) :
    toNat (b :: bs) = b.toNat * 256 ^ bs.length + toNat bs := by
  rw [← List.singleton_append, toNat_append]
  simp [toNat]

theorem toNat_lt (bs : List UInt8) : toNat bs < 256 ^ bs.length := by
  induction bs using List.reverseRecOn with
  | nil => simp
  | append_singleton bs b ih =>
    have hb : b.toNat < 256 := b.toNat_lt
    rw [toNat_concat, List.length_append, List.length_singleton, Nat.pow_succ]
    omega

/-- A fixed number of bytes holds a number up to multiples of what is out of range. -/
theorem toNat_fixed (size n : Nat) : toNat (fixed size n) = n % 256 ^ size := by
  induction size with
  | zero => simp [fixed, Nat.mod_one]
  | succ size ih =>
    have hpow : Nat.pow 256 size = 256 ^ size := rfl
    rw [fixed, toNat_cons, length_fixed, ih, toNat_byte (by omega), hpow, Nat.pow_succ,
      Nat.mod_mul]
    ring

theorem toNat_fixed_of_lt {size n : Nat} (h : n < 256 ^ size) : toNat (fixed size n) = n := by
  rw [toNat_fixed, Nat.mod_eq_of_lt h]

theorem eq_of_toNat_eq {bs cs : List UInt8} (hlength : bs.length = cs.length)
    (h : toNat bs = toNat cs) : bs = cs := by
  induction bs using List.reverseRecOn generalizing cs with
  | nil => exact (List.length_eq_zero_iff.mp hlength.symm).symm
  | append_singleton bs b ih =>
    obtain rfl | ⟨cs, c, rfl⟩ := List.eq_nil_or_concat cs
    · simp at hlength
    · rw [List.concat_eq_append] at *
      have hb : b.toNat < 256 := b.toNat_lt
      have hc : c.toNat < 256 := c.toNat_lt
      rw [toNat_concat, toNat_concat] at h
      have hbs : bs = cs := ih (by simpa using hlength) (by omega)
      have hbc : b = c := UInt8.toNat_inj.mp (by omega)
      rw [hbs, hbc]

theorem fixed_toNat {size : Nat} {bs : List UInt8} (h : bs.length = size) :
    fixed size (toNat bs) = bs := by
  apply eq_of_toNat_eq
  · rw [length_fixed, h]
  · rw [toNat_fixed_of_lt (h ▸ toNat_lt bs)]

end ChainGateway.BigEndian

namespace ChainGateway.Hex

def digits : List Char := "0123456789abcdef".toList

theorem digit_mem_digits {n : Nat} (h : n < 16) : digit n ∈ digits := by
  have hall : ∀ k : Fin 16, digit k.val ∈ digits := by decide
  exact hall ⟨n, h⟩

theorem mem_digits_of_mem_encode {bs : List UInt8} {c : Char} (h : c ∈ encode bs) :
    c ∈ digits := by
  obtain ⟨b, -, hc⟩ := List.mem_flatMap.mp h
  have hb : b.toNat < 256 := b.toNat_lt
  simp only [encodeByte, List.mem_cons, List.not_mem_nil, or_false] at hc
  obtain rfl | rfl := hc
  · exact digit_mem_digits (by omega)
  · exact digit_mem_digits (by omega)

@[simp] theorem length_encode (bs : List UInt8) : (encode bs).length = 2 * bs.length := by
  induction bs with
  | nil => rfl
  | cons b bs ih =>
    have hcons : encode (b :: bs) = encodeByte b ++ encode bs := rfl
    rw [hcons, List.length_append, ih, List.length_cons]
    simp only [encodeByte, List.length_cons, List.length_nil]
    omega

def lower (b : UInt8) : UInt8 := if 65 ≤ b && b ≤ 70 then b + 32 else b

def encodeBytes (bs : List UInt8) : List UInt8 := (encode bs).map fun c => UInt8.ofNat c.toNat

theorem lower_of_digitValue? {b : UInt8} {n : Nat} (h : digitValue? b = some n) :
    n < 16 ∧ UInt8.ofNat (digit n).toNat = lower b := by
  have hall : ∀ k : Fin 256, ∀ n ∈ digitValue? (UInt8.ofNat k.val),
      n < 16 ∧ UInt8.ofNat (digit n).toNat = lower (UInt8.ofNat k.val) := by decide +kernel
  have hb := hall ⟨b.toNat, b.toNat_lt⟩ n
  rw [UInt8.ofNat_toNat] at hb
  exact hb h

theorem encodeBytes_cons (b : UInt8) (bs : List UInt8) :
    encodeBytes (b :: bs) =
      UInt8.ofNat (digit (b.toNat / 16)).toNat :: UInt8.ofNat (digit (b.toNat % 16)).toNat ::
        encodeBytes bs := rfl

theorem map_lower_of_decodePairs {position : Nat} {text bs : List UInt8}
    (h : decodePairs position text = .ok bs) : text.map lower = encodeBytes bs := by
  fun_induction decodePairs position text generalizing bs with
  | case1 => simp_all [encodeBytes, encode]
  | case2 => simp at h
  | case3 position a b r high low ha hb ih =>
    cases hr : decodePairs (position + 2) r with
    | error e => simp [hr, Except.map] at h
    | ok cs =>
      simp only [hr, Except.map, Except.ok.injEq] at h
      subst h
      obtain ⟨hhigh, hdigit⟩ := lower_of_digitValue? ha
      obtain ⟨hlow, hdigit'⟩ := lower_of_digitValue? hb
      have hbyte : (UInt8.ofNat (16 * high + low)).toNat = 16 * high + low :=
        BigEndian.toNat_byte (by omega)
      have hdiv : (16 * high + low) / 16 = high := by omega
      have hmod : (16 * high + low) % 16 = low := by omega
      rw [List.map_cons, List.map_cons, ih hr, encodeBytes_cons, hbyte, hdiv, hmod, hdigit, hdigit']
  | case4 => simp at h
  | case5 => simp at h

theorem digitValue?_digit {n : Nat} (h : n < 16) :
    digitValue? (UInt8.ofNat (digit n).toNat) = some n := by
  have hall : ∀ k : Fin 16, digitValue? (UInt8.ofNat (digit k.val).toNat) = some k.val := by decide
  exact hall ⟨n, h⟩

theorem decodePairs_encodeBytes (position : Nat) (bs : List UInt8) :
    decodePairs position (encodeBytes bs) = .ok bs := by
  induction bs generalizing position with
  | nil => rfl
  | cons b bs ih =>
    have hb : b.toNat < 256 := b.toNat_lt
    have hbyte : 16 * (b.toNat / 16) + b.toNat % 16 = b.toNat := by omega
    rw [encodeBytes_cons, decodePairs, digitValue?_digit (by omega), digitValue?_digit (by omega)]
    simp only [ih, Except.map, hbyte, UInt8.ofNat_toNat]

theorem encodeBytes_injective : Function.Injective encodeBytes := by
  intro bs cs h
  have hread : (.ok bs : Except Fault (List UInt8)) = .ok cs := by
    rw [← decodePairs_encodeBytes 0 bs, h, decodePairs_encodeBytes 0 cs]
  exact Except.ok.inj hread

theorem encodeBytes_append (bs cs : List UInt8) :
    encodeBytes (bs ++ cs) = encodeBytes bs ++ encodeBytes cs := by
  unfold encodeBytes encode
  rw [List.flatMap_append, List.map_append]

theorem encodeBytes_replicate_zero (n : Nat) :
    encodeBytes (List.replicate n 0) = List.replicate (2 * n) 48 := by
  induction n with
  | zero => rfl
  | succ n ih =>
    rw [List.replicate_succ, encodeBytes_cons, ih, Nat.mul_succ]
    rfl

end ChainGateway.Hex
