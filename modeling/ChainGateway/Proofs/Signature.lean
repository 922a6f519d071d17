import ChainGateway.Crypto.Ecdsa
import ChainGateway.Proofs.GeneratorOrder

namespace ChainGateway.Crypto.Ecdsa

open Secp256k1 Point

theorem two_lt_n : 2 < n := of_decide_eq_true rfl

theorem cast_eq_zero_iff {a : Nat} : (a : ZMod n) = 0 ↔ a % n = 0 := by
  rw [ZMod.natCast_eq_zero_iff, Nat.dvd_iff_mod_eq_zero]

theorem cast_ne_zero {a : Nat} (hpos : 0 < a) (hlt : a < n) : (a : ZMod n) ≠ 0 := by
  rw [Ne, cast_eq_zero_iff, Nat.mod_eq_of_lt hlt]
  exact hpos.ne'

theorem cast_n_sub {a : Nat} (h : a ≤ n) : ((n - a : Nat) : ZMod n) = -(a : ZMod n) := by
  rw [Nat.cast_sub h, ZMod.natCast_self, zero_sub]

/-- A multiple of the generator that is not at infinity has a factor other than zero. -/
theorem cast_ne_zero_of_mul {k x y : Nat} (h : generator.mul k = .affine x y) :
    (k : ZMod n) ≠ 0 := by
  intro hk
  rw [← Nat.cast_zero, ← nsmul_base_eq_iff, zero_nsmul] at hk
  have hden := denotes_mul_generator k
  rw [h, hk] at hden
  cases eq_of_denotes hden .infinity

theorem mul_neg_generator {k k' : Nat} (h : (k' : ZMod n) = -(k : ZMod n)) :
    generator.mul k' = (generator.mul k).neg := by
  have hden := denotes_neg (denotes_mul_generator k)
  rw [← nsmul_base_eq_neg h] at hden
  exact eq_of_denotes (denotes_mul_generator k') hden

theorem ordinate_ne_zero {k x y : Nat} (h : generator.mul k = .affine x y) : y ≠ 0 := by
  rintro rfl
  have hneg : (generator.mul k).neg = generator.mul k := by
    rw [h, neg, Nat.sub_zero, Nat.mod_self]
  have hden := denotes_neg (denotes_mul_generator k)
  rw [hneg] at hden
  have hdouble : (2 * k) • base = 0 • base := by
    rw [two_mul, add_nsmul, zero_nsmul]
    exact eq_neg_iff_add_eq_zero.mp (denotes_unique (denotes_mul_generator k) hden)
  rw [nsmul_base_eq_iff, Nat.cast_zero, Nat.cast_mul, mul_eq_zero] at hdouble
  obtain htwo | hk := hdouble
  · exact cast_ne_zero (by omega) two_lt_n htwo
  · exact cast_ne_zero_of_mul h hk

/-- A signature fits a nonce: its first number and its parity are those of the nonce point, and its
second number solves the equation of signatures. -/
structure Signature.Fits (sig : Signature) (key : PrivateKey) (z nonce : Nat) : Prop where
  point : ∃ x y, generator.mul nonce = .affine x y ∧ sig.r = x % n ∧
    (y % 2 = 1 ↔ sig.odd = true)
  equation : (sig.s * nonce : ZMod n) = z + sig.r * key.scalar

/-- A signature is in range, with the lower of two values for its second number. -/
structure Signature.InRange (sig : Signature) : Prop where
  r_pos : 1 ≤ sig.r
  r_lt : sig.r < n
  s_pos : 1 ≤ sig.s
  s_le : sig.s ≤ n / 2

variable {key : PrivateKey} {k z : Nat} {sig : Signature}

def rawSecond (key : PrivateKey) (k z : Nat) : Nat :=
  invMod n k * (z + (generator.mul k).x % n * key.scalar) % n

theorem signWith_eq (k : Nat) (key : PrivateKey) (z : Nat) :
    signWith k key z =
      if (generator.mul k).x % n = 0 ∨ rawSecond key k z = 0 then none
      else if n / 2 < rawSecond key k z then
        some ⟨(generator.mul k).x % n, n - rawSecond key k z, (generator.mul k).y % 2 = 0⟩
      else some ⟨(generator.mul k).x % n, rawSecond key k z, (generator.mul k).y % 2 = 1⟩ := rfl

theorem rawSecond_lt (key : PrivateKey) (k z : Nat) : rawSecond key k z < n :=
  Nat.mod_lt _ prime_n.pos

theorem inRange_of_signWith (h : signWith k key z = some sig) : sig.InRange := by
  have hlt := rawSecond_lt key k z
  have hr : (generator.mul k).x % n < n := Nat.mod_lt _ prime_n.pos
  rw [signWith_eq] at h
  split at h
  · cases h
  · rename_i hpos
    obtain ⟨hr0, hs0⟩ := not_or.mp hpos
    split at h
    · rename_i hhigh
      obtain rfl := Option.some.inj h
      have hlow : n - rawSecond key k z ≤ n / 2 := by omega
      exact ⟨Nat.pos_of_ne_zero hr0, hr, Nat.sub_pos_of_lt hlt, hlow⟩
    · rename_i hlow
      obtain rfl := Option.some.inj h
      exact ⟨Nat.pos_of_ne_zero hr0, hr, Nat.pos_of_ne_zero hs0, Nat.le_of_not_lt hlow⟩

theorem exists_affine_of_x {point : Point} (h : point.x % n ≠ 0) :
    ∃ x y, point = .affine x y := by
  cases point with
  | infinity => exact absurd (Nat.zero_mod n) h
  | affine x y => exact ⟨x, y, rfl⟩

theorem rawSecond_equation {x y : Nat} (h : generator.mul k = .affine x y) :
    (rawSecond key k z * k : ZMod n) = z + (x % n : Nat) * key.scalar := by
  have hk := cast_ne_zero_of_mul h
  unfold rawSecond
  rw [h, ZMod.natCast_mod]
  push_cast [cast_invMod two_lt_n]
  rw [mul_comm, mul_inv_cancel_left₀ hk]
  rfl

/-- A signature fits its nonce, or where `s` was negated, the negative of its nonce. -/
theorem exists_fits (h : signWith k key z = some sig) :
    ∃ nonce, sig.Fits key z nonce ∧ (generator.mul nonce).x = (generator.mul k).x := by
  rw [signWith_eq] at h
  split at h
  · cases h
  · rename_i hpos
    obtain ⟨hr, -⟩ := not_or.mp hpos
    obtain ⟨x, y, hpoint⟩ := exists_affine_of_x hr
    have hequation : (rawSecond key k z * k : ZMod n) = z + (x % n : Nat) * key.scalar :=
      rawSecond_equation hpoint
    split at h
    · -- a negated second number goes with the negated nonce, whose point has the other parity
      obtain rfl := Option.some.inj h
      have hnegated : ((n - k % n : Nat) : ZMod n) = -(k : ZMod n) := by
        rw [cast_n_sub (Nat.mod_lt _ prime_n.pos).le, ZMod.natCast_mod]
      have hmul := mul_neg_generator hnegated
      rw [hpoint, neg] at hmul
      refine ⟨n - k % n, ⟨⟨x, _, hmul, by rw [hpoint]; rfl, ?_⟩, ?_⟩, by rw [hmul, hpoint]; rfl⟩
      · have hden := denotes_mul_generator k
        rw [hpoint] at hden
        have hy := ordinate_ne_zero hpoint
        have hlt := (lt_of_denotes hden).2
        have hodd : p % 2 = 1 := of_decide_eq_true rfl
        have hsmall : (p - y) % p = p - y := Nat.mod_eq_of_lt (by omega)
        have hparity : (p - y) % 2 = 1 ↔ y % 2 = 0 := by omega
        rw [hsmall, hparity, hpoint, decide_eq_true_eq]
        rfl
      · rw [hnegated, cast_n_sub (rawSecond_lt _ _ _).le, neg_mul_neg, hequation, hpoint]
        rfl
    · obtain rfl := Option.some.inj h
      refine ⟨k, ⟨⟨x, y, hpoint, by rw [hpoint]; rfl, ?_⟩, ?_⟩, rfl⟩
      · rw [hpoint, decide_eq_true_eq]
        rfl
      · rw [hequation, hpoint]
        rfl

theorem denotes_publicPoint (key : PrivateKey) :
    Denotes key.publicPoint (key.scalar • base) :=
  denotes_mul_generator key.scalar

theorem verify_of_fits {nonce : Nat} {hash : List UInt8} (hrange : sig.InRange)
    (h : sig.Fits key (BigEndian.toNat hash) nonce) :
    verify key.publicPoint hash sig = true := by
  obtain ⟨⟨x, y, hpoint, hr, -⟩, hequation⟩ := h
  have hs_lt : sig.s < n := by
    have h1 := hrange.s_le
    have h2 := two_lt_n
    omega
  have hs := cast_ne_zero hrange.s_pos hs_lt
  generalize hw : invMod n sig.s = w
  have hwcast : (w : ZMod n) = (sig.s : ZMod n)⁻¹ := by
    rw [← hw, cast_invMod two_lt_n]
  generalize hz : BigEndian.toNat hash = z at hequation
  have hsum : (z * w % n) • base + (sig.r * w % n) • key.scalar • base = nonce • base := by
    rw [← mul_nsmul', ← add_nsmul, nsmul_base_eq_iff]
    push_cast [ZMod.natCast_mod]
    rw [hwcast]
    field_simp
    exact hequation.symm
  have hden := denotes_add (denotes_mul_generator (z * w % n))
    (denotes_mul (sig.r * w % n) (denotes_publicPoint key))
  rw [hsum] at hden
  have hadd := (eq_of_denotes hden (denotes_mul_generator nonce)).trans hpoint
  simp only [verify, hw, hz, hadd, Bool.and_eq_true, decide_eq_true_eq]
  exact ⟨⟨⟨⟨⟨hrange.r_pos, hrange.r_lt⟩, hrange.s_pos⟩, hs_lt⟩, nofun⟩, hr.symm⟩

/-- The key is recovered from a signature that fits a nonce whose point has an abscissa below the
order. -/
theorem recover_of_fits {nonce : Nat} {hash : List UInt8} (hrange : sig.InRange)
    (h : sig.Fits key (BigEndian.toNat hash) nonce) (hx : (generator.mul nonce).x < n) :
    recover hash sig = some key.publicPoint := by
  obtain ⟨⟨x, y, hpoint, hr, hodd⟩, hequation⟩ := h
  rw [hpoint, Point.x] at hx
  rw [Nat.mod_eq_of_lt hx] at hr
  have hden := denotes_mul_generator nonce
  rw [hpoint] at hden
  have hlift : lift? sig.r sig.odd = some (.affine x y) := by
    rw [hr, lift?_of_denotes hden, if_pos (propext hodd)]
  have hr0 := cast_ne_zero hrange.r_pos hrange.r_lt
  generalize hw : invMod n sig.r = w
  have hwcast : (w : ZMod n) = (sig.r : ZMod n)⁻¹ := by
    rw [← hw, cast_invMod two_lt_n]
  generalize hz : BigEndian.toNat hash = z at hequation
  have hzcast : ((n - z % n : Nat) : ZMod n) = -(z : ZMod n) := by
    rw [cast_n_sub (Nat.mod_lt _ prime_n.pos).le, ZMod.natCast_mod]
  -- the signature equation is solved for the key, with the factors that recovery uses
  have hsum : (sig.s * w % n) • nonce • base + ((n - z % n) * w % n) • base =
      key.scalar • base := by
    rw [← mul_nsmul', ← add_nsmul, nsmul_base_eq_iff]
    push_cast [ZMod.natCast_mod, hzcast]
    rw [hwcast]
    field_simp
    rw [hequation]
    ring
  have hadd := denotes_add (denotes_mul (sig.s * w % n) hden)
    (denotes_mul_generator ((n - z % n) * w % n))
  rw [hsum] at hadd
  simp only [recover, hlift, hw, hz, Option.bind_eq_bind, Option.bind_some, Option.pure_def]
  rw [eq_of_denotes hadd (denotes_publicPoint key)]

/-- Whatever the nonce, a signature is in range and verifies, and the key is recovered from it
where the abscissa of the nonce point is below the order. -/
theorem signWith_sound {hash : List UInt8} (h : signWith k key (BigEndian.toNat hash) = some sig) :
    sig.InRange ∧ verify key.publicPoint hash sig = true ∧
      ((generator.mul k).x < n → recover hash sig = some key.publicPoint) := by
  have hrange := inRange_of_signWith h
  obtain ⟨nonce, hfits, hx⟩ := exists_fits h
  exact ⟨hrange, verify_of_fits hrange hfits,
    fun hlt => recover_of_fits hrange hfits (by rw [hx]; exact hlt)⟩

end ChainGateway.Crypto.Ecdsa
