import ChainGateway.Proofs.CurveGroup
import Mathlib.GroupTheory.OrderOfElement

namespace ChainGateway.Crypto.Secp256k1

open Point

theorem valid_generator : generator.valid = true := by decide +kernel

noncomputable def base : curve.Point := (valid_iff_denotes.mp valid_generator).choose

theorem denotes_generator : Denotes generator base :=
  (valid_iff_denotes.mp valid_generator).choose_spec

theorem denotes_mul_generator (k : Nat) : Denotes (generator.mul k) (k • base) :=
  denotes_mul k denotes_generator

/-- Coordinates of the point with abscissa `x / z ^ 2` and ordinate `y / z ^ 3`. Negative numbers
are multiples of `p - 1`. -/
structure Weighted where
  x : Nat
  y : Nat
  z : Nat

namespace Weighted

def double (t : Weighted) : Weighted :=
  let m := 3 * t.x * t.x % p
  let s := 4 * t.x * (t.y * t.y) % p
  let x := (m * m + (p - 1) * (2 * s)) % p
  ⟨x, (m * (s + (p - 1) * x) + (p - 1) * (8 * (t.y * t.y) * (t.y * t.y))) % p,
    2 * t.y * t.z % p⟩

def addPoint (t : Weighted) (u v : Nat) : Weighted :=
  let h := (u * (t.z * t.z) + (p - 1) * t.x) % p
  let r := (v * (t.z * t.z * t.z) + (p - 1) * t.y) % p
  let x := (r * r + (p - 1) * (h * h * h + 2 * t.x * (h * h))) % p
  ⟨x, (r * (t.x * (h * h) + (p - 1) * x) + (p - 1) * (t.y * (h * h * h))) % p, t.z * h % p⟩

/-- Doubling for each bit of the factor below the highest, and adding where the bit is set. -/
def multiple (u v : Nat) : Nat → Nat → Weighted
  | 0, _ => ⟨u, v, 1⟩
  | fuel + 1, k =>
    if k = 1 then ⟨u, v, 1⟩
    else if k % 2 = 1 then (multiple u v fuel (k / 2)).double.addPoint u v
    else (multiple u v fuel (k / 2)).double

/-- Weighted coordinates belong to a point if their weight is none of the multiples of `p`. A weight
that once was such a multiple stays one, so that only the last has to be looked at. -/
def Belongs (t : Weighted) (P : curve.Point) : Prop :=
  (t.z : ZMod p) ≠ 0 → ∃ a b h, P = .some a b h ∧
    (t.x : ZMod p) = a * t.z ^ 2 ∧ (t.y : ZMod p) = b * t.z ^ 3

variable {t : Weighted} {P Q : curve.Point}

theorem cast_pred_p : ((p - 1 : Nat) : ZMod p) = -1 := by
  rw [cast_p_sub prime_p.one_le, Nat.cast_one]

theorem cast_double_x (t : Weighted) :
    (t.double.x : ZMod p) = 9 * t.x ^ 4 - 8 * t.x * t.y ^ 2 := by
  simp only [double, ZMod.natCast_mod]
  push_cast [cast_pred_p, ZMod.natCast_mod]
  ring

theorem cast_double_y (t : Weighted) :
    (t.double.y : ZMod p) =
      3 * t.x ^ 2 * (4 * t.x * t.y ^ 2 - t.double.x) - 8 * t.y ^ 4 := by
  rw [cast_double_x]
  simp only [double, ZMod.natCast_mod]
  push_cast [cast_pred_p, ZMod.natCast_mod]
  ring

theorem cast_double_z (t : Weighted) : (t.double.z : ZMod p) = 2 * t.y * t.z := by
  simp only [double, ZMod.natCast_mod]
  push_cast
  ring

theorem belongs_double (ht : t.Belongs P) : t.double.Belongs (P + P) := by
  intro hz
  rw [cast_double_z] at hz
  have hz0 : (t.z : ZMod p) ≠ 0 := right_ne_zero_of_mul hz
  obtain ⟨a, b, hab, rfl, hx, hy⟩ := ht hz0
  have h2b : 2 * b ≠ 0 := by
    intro h
    apply hz
    rw [hy, ← mul_assoc, h, zero_mul, zero_mul]
  have hne : b ≠ curve.negY a b := by
    rw [negY_eq, Ne, eq_neg_iff_add_eq_zero, ← two_mul]
    exact h2b
  have hslope : curve.slope a a b b * (2 * b) = 3 * a ^ 2 := by
    rw [WeierstrassCurve.Affine.slope_of_Y_ne rfl hne, negY_eq, sub_neg_eq_add, ← two_mul,
      div_mul_cancel₀ _ h2b]
    simp only [curve]
    ring
  generalize hℓ : curve.slope a a b b = ℓ at hslope
  have hsum : (.some a b hab : curve.Point) + .some a b hab = .some _ _ _ :=
    WeierstrassCurve.Affine.Point.add_self_of_Y_ne hne
  have hX : (t.double.x : ZMod p) = curve.addX a a ℓ * (t.double.z : ZMod p) ^ 2 := by
    rw [addX_eq, cast_double_x, cast_double_z, hx, hy]
    linear_combination (-(t.z : ZMod p) ^ 8 * (ℓ * (2 * b) + 3 * a ^ 2)) * hslope
  refine ⟨_, _, _, hsum, by rw [hℓ]; exact hX, ?_⟩
  rw [hℓ, addY_eq, cast_double_y, hX, cast_double_z, hx, hy]
  linear_combination (-4 * (t.z : ZMod p) ^ 12 * b ^ 2 * (a - curve.addX a a ℓ)) * hslope

theorem cast_addPoint_z (t : Weighted) (u v : Nat) :
    ((t.addPoint u v).z : ZMod p) = t.z * (u * t.z ^ 2 - t.x) := by
  simp only [addPoint, ZMod.natCast_mod]
  push_cast [cast_pred_p, ZMod.natCast_mod]
  ring

theorem cast_addPoint_x (t : Weighted) (u v : Nat) :
    ((t.addPoint u v).x : ZMod p) =
      (v * t.z ^ 3 - t.y) ^ 2 - (u * t.z ^ 2 - t.x) ^ 3 -
        2 * t.x * (u * t.z ^ 2 - t.x) ^ 2 := by
  simp only [addPoint, ZMod.natCast_mod]
  push_cast [cast_pred_p, ZMod.natCast_mod]
  ring

theorem cast_addPoint_y (t : Weighted) (u v : Nat) :
    ((t.addPoint u v).y : ZMod p) =
      (v * t.z ^ 3 - t.y) * (t.x * (u * t.z ^ 2 - t.x) ^ 2 - (t.addPoint u v).x) -
        t.y * (u * t.z ^ 2 - t.x) ^ 3 := by
  rw [cast_addPoint_x]
  simp only [addPoint, ZMod.natCast_mod]
  push_cast [cast_pred_p, ZMod.natCast_mod]
  ring

theorem belongs_addPoint {u v : Nat} (ht : t.Belongs P) (hQ : Denotes (.affine u v) Q) :
    (t.addPoint u v).Belongs (P + Q) := by
  intro hz
  rw [cast_addPoint_z] at hz
  have hz0 : (t.z : ZMod p) ≠ 0 := left_ne_zero_of_mul hz
  obtain ⟨a, b, hab, rfl, hx, hy⟩ := ht hz0
  cases hQ with
  | @affine _ _ c d hu hv hc hd hcd =>
    subst hc hd
    have hne : a ≠ (u : ZMod p) := by
      intro h
      apply hz
      rw [hx, h, sub_self, mul_zero]
    have hslope : curve.slope a u b v * (u - a) = v - b := by
      rw [WeierstrassCurve.Affine.slope_of_X_ne hne, ← neg_sub a, mul_neg,
        div_mul_cancel₀ _ (sub_ne_zero.mpr hne), neg_sub]
    have hsum : (.some a b hab : curve.Point) + .some u v hcd = .some _ _ _ :=
      WeierstrassCurve.Affine.Point.add_of_X_ne hne
    generalize hℓ : curve.slope a u b v = ℓ at hslope
    have hX : ((t.addPoint u v).x : ZMod p) =
        curve.addX a u ℓ * ((t.addPoint u v).z : ZMod p) ^ 2 := by
      rw [addX_eq, cast_addPoint_x, cast_addPoint_z, hx, hy]
      linear_combination (-(t.z : ZMod p) ^ 6 * (ℓ * (u - a) + (v - b))) * hslope
    refine ⟨_, _, _, hsum, by rw [hℓ]; exact hX, ?_⟩
    rw [hℓ, addY_eq, cast_addPoint_y, hX, cast_addPoint_z, hx, hy]
    linear_combination (-(t.z : ZMod p) ^ 9 * (u - a) ^ 2 * (a - curve.addX a u ℓ)) * hslope

theorem belongs_multiple {u v : Nat} (hP : Denotes (.affine u v) P) (fuel k : Nat) (hk : 0 < k)
    (h : k < 2 ^ (fuel + 1)) : (multiple u v fuel k).Belongs (k • P) := by
  have hone : Belongs ⟨u, v, 1⟩ P := by
    intro _
    cases hP with
    | @affine _ _ c d _ _ hc hd hcd =>
      refine ⟨c, d, hcd, rfl, ?_, ?_⟩
      · rw [hc, Nat.cast_one, one_pow, mul_one]
      · rw [hd, Nat.cast_one, one_pow, mul_one]
  -- on the bits of the factor: what the higher ones come to is doubled
  induction fuel generalizing k with
  | zero =>
    have h1 : k = 1 := by omega
    rw [h1, one_nsmul]
    exact hone
  | succ fuel ih =>
    unfold multiple
    split
    · rename_i h1
      rw [h1, one_nsmul]
      exact hone
    · have hhalf := belongs_double (ih (k / 2) (by omega) (by omega))
      rw [← two_nsmul, ← mul_nsmul'] at hhalf
      split
      · have hsum : k • P = (2 * (k / 2)) • P + P := by
          rw [← succ_nsmul]
          congr 1
          omega
        rw [hsum]
        exact belongs_addPoint hhalf hP
      · have heven : 2 * (k / 2) = k := by omega
        rw [heven] at hhalf
        exact hhalf

def reaches (t : Weighted) (x y : Nat) : Bool :=
  t.z % p ≠ 0 && t.x % p = x * (t.z * t.z) % p && t.y % p = y * (t.z * t.z * t.z) % p

theorem denotes_of_reaches {x y : Nat} (ht : t.Belongs P) (hx : x < p) (hy : y < p)
    (h : t.reaches x y = true) : Denotes (.affine x y) P := by
  simp only [reaches, Bool.and_eq_true, decide_eq_true_eq, ne_eq] at h
  obtain ⟨⟨hz, hxz⟩, hyz⟩ := h
  rw [← cast_eq_zero_iff] at hz
  rw [← ZMod.natCast_eq_natCast_iff'] at hxz hyz
  push_cast at hxz hyz
  obtain ⟨a, b, hab, rfl, hX, hY⟩ := ht hz
  have ha : (x : ZMod p) = a := by
    apply mul_right_cancel₀ (pow_ne_zero 2 hz)
    rw [← hX, hxz, sq]
  have hb : (y : ZMod p) = b := by
    apply mul_right_cancel₀ (pow_ne_zero 3 hz)
    rw [← hY, hyz, pow_succ, sq]
  exact .affine hx hy ha hb hab

end Weighted

/-- A multiple of the generator, found without inverses. -/
theorem mul_generator_eq {k x y : Nat} (hk : 0 < k) (hlt : k < 2 ^ 256) (hx : x < p) (hy : y < p)
    (h : (Weighted.multiple generator.x generator.y 255 k).reaches x y = true) :
    generator.mul k = .affine x y := by
  have hbelongs := Weighted.belongs_multiple (u := generator.x) (v := generator.y)
    denotes_generator 255 k hk hlt
  exact eq_of_denotes (denotes_mul_generator k) (Weighted.denotes_of_reaches hbelongs hx hy h)

theorem mul_pred_n_generator : generator.mul (n - 1) = generator.neg :=
  mul_generator_eq (of_decide_eq_true rfl) (of_decide_eq_true rfl) (of_decide_eq_true rfl)
    (of_decide_eq_true rfl) (by decide +kernel)

theorem addOrderOf_base : addOrderOf base = n := by
  apply addOrderOf_eq_prime
  · have hpred := denotes_mul_generator (n - 1)
    rw [mul_pred_n_generator] at hpred
    have hneg : (n - 1) • base = -base := denotes_unique hpred (denotes_neg denotes_generator)
    have hn : n = n - 1 + 1 := of_decide_eq_true rfl
    rw [hn, succ_nsmul, hneg, neg_add_cancel]
  · intro h
    have hbase := denotes_generator
    rw [h] at hbase
    cases eq_of_denotes hbase .infinity

theorem nsmul_base_eq_iff (a b : Nat) : a • base = b • base ↔ (a : ZMod n) = (b : ZMod n) := by
  rw [nsmul_eq_nsmul_iff_modEq, addOrderOf_base, ZMod.natCast_eq_natCast_iff]

theorem nsmul_base_eq_neg {a b : Nat} (h : (a : ZMod n) = -(b : ZMod n)) :
    a • base = -(b • base) := by
  apply eq_neg_of_add_eq_zero_left
  rw [← add_nsmul, ← zero_nsmul base, nsmul_base_eq_iff, Nat.cast_add, h, neg_add_cancel,
    Nat.cast_zero]

end ChainGateway.Crypto.Secp256k1
