import ChainGateway.Proofs.Primality
import Mathlib.AlgebraicGeometry.EllipticCurve.Affine.Point

namespace ChainGateway.Crypto.Secp256k1

def curve : WeierstrassCurve.Affine (ZMod p) := ⟨0, 0, 0, 0, 7⟩

theorem two_lt_p : 2 < p := of_decide_eq_true rfl

theorem cast_eq_cast_iff {a b : Nat} (ha : a < p) (hb : b < p) :
    (a : ZMod p) = (b : ZMod p) ↔ a = b := by
  rw [ZMod.natCast_eq_natCast_iff', Nat.mod_eq_of_lt ha, Nat.mod_eq_of_lt hb]

theorem cast_p_sub {a : Nat} (h : a ≤ p) : ((p - a : Nat) : ZMod p) = -(a : ZMod p) := by
  rw [Nat.cast_sub h, ZMod.natCast_self, zero_sub]

theorem cast_eq_zero_iff {a : Nat} : (a : ZMod p) = 0 ↔ a % p = 0 := by
  rw [ZMod.natCast_eq_zero_iff, Nat.dvd_iff_mod_eq_zero]

theorem mod_p_lt (a : Nat) : a % p < p := Nat.mod_lt _ prime_p.pos

theorem equation_iff (x y : ZMod p) : curve.Equation x y ↔ y ^ 2 = x ^ 3 + 7 := by
  rw [WeierstrassCurve.Affine.equation_iff]
  simp [curve]

theorem discriminant_ne_zero : curve.Δ ≠ 0 := by
  have h : curve.Δ = -((21168 : Nat) : ZMod p) := by
    simp only [curve, WeierstrassCurve.Δ, WeierstrassCurve.b₂, WeierstrassCurve.b₄,
      WeierstrassCurve.b₆, WeierstrassCurve.b₈]
    norm_num
  rw [h, neg_ne_zero, Ne, cast_eq_zero_iff]
  exact of_decide_eq_false rfl

theorem nonsingular_iff (x y : ZMod p) : curve.Nonsingular x y ↔ y ^ 2 = x ^ 3 + 7 := by
  rw [← equation_iff, WeierstrassCurve.Affine.equation_iff_nonsingular_of_Δ_ne_zero
    discriminant_ne_zero]

theorem negY_eq (x y : ZMod p) : curve.negY x y = -y := by
  simp [curve, WeierstrassCurve.Affine.negY]

theorem addX_eq (x₁ x₂ ℓ : ZMod p) : curve.addX x₁ x₂ ℓ = ℓ ^ 2 - x₁ - x₂ := by
  simp [curve, WeierstrassCurve.Affine.addX]

theorem addY_eq (x₁ x₂ y₁ ℓ : ZMod p) :
    curve.addY x₁ x₂ y₁ ℓ = ℓ * (x₁ - curve.addX x₁ x₂ ℓ) - y₁ := by
  rw [WeierstrassCurve.Affine.addY, negY_eq, WeierstrassCurve.Affine.negAddY]
  ring

namespace Point

/-- What a point stands for on the curve. -/
inductive Denotes : Point → curve.Point → Prop where
  | infinity : Denotes .infinity 0
  | affine {x y : Nat} {u v : ZMod p} (hx : x < p) (hy : y < p) (hu : (x : ZMod p) = u)
      (hv : (y : ZMod p) = v) (h : curve.Nonsingular u v) : Denotes (.affine x y) (.some u v h)

variable {a b : Point} {P Q : curve.Point}

theorem eq_of_denotes (ha : Denotes a P) (hb : Denotes b P) : a = b := by
  cases ha with
  | infinity =>
    cases hb
    rfl
  | affine hx hy hu hv h =>
    cases hb with
    | affine hx' hy' hu' hv' _ =>
      rw [(cast_eq_cast_iff hx hx').mp (hu.trans hu'.symm),
        (cast_eq_cast_iff hy hy').mp (hv.trans hv'.symm)]

theorem denotes_unique (hP : Denotes a P) (hQ : Denotes a Q) : P = Q := by
  cases hP with
  | infinity =>
    cases hQ
    rfl
  | affine hx hy hu hv h =>
    subst hu hv
    cases hQ with
    | affine _ _ hu hv _ =>
      subst hu hv
      rfl

theorem lt_of_denotes {x y : Nat} (h : Denotes (.affine x y) P) : x < p ∧ y < p := by
  cases h with
  | affine hx hy => exact ⟨hx, hy⟩

theorem valid_iff_denotes : a.valid = true ↔ ∃ P, Denotes a P := by
  cases a with
  | infinity => exact ⟨fun _ => ⟨0, .infinity⟩, fun _ => rfl⟩
  | affine x y =>
    have hcurve : y * y % p = (x * x * x + 7) % p ↔
        curve.Nonsingular (x : ZMod p) (y : ZMod p) := by
      rw [nonsingular_iff, ← ZMod.natCast_eq_natCast_iff']
      push_cast
      rw [sq, pow_succ, sq]
    simp only [valid, Bool.and_eq_true, decide_eq_true_eq, hcurve]
    constructor
    · rintro ⟨⟨hx, hy⟩, h⟩
      exact ⟨_, .affine hx hy rfl rfl h⟩
    · rintro ⟨_, hP⟩
      cases hP with
      | affine hx hy hu hv h =>
        subst hu hv
        exact ⟨⟨hx, hy⟩, h⟩

theorem denotes_chord {slope x₁ y₁ x₂ : Nat} {ℓ : ZMod p} (hslope : (slope : ZMod p) = ℓ)
    (hx₁ : x₁ < p) (hy₁ : y₁ < p) (hx₂ : x₂ < p)
    (h : curve.Nonsingular (curve.addX x₁ x₂ ℓ) (curve.addY x₁ x₂ y₁ ℓ)) :
    Denotes (chord slope x₁ y₁ x₂) (.some _ _ h) := by
  have hx : (((slope * slope + (p - x₁) + (p - x₂)) % p : Nat) : ZMod p) = curve.addX x₁ x₂ ℓ := by
    rw [ZMod.natCast_mod, addX_eq]
    push_cast [cast_p_sub hx₁.le, cast_p_sub hx₂.le, hslope]
    ring
  refine .affine (mod_p_lt _) (mod_p_lt _) hx ?_ h
  rw [ZMod.natCast_mod, addY_eq]
  push_cast [cast_p_sub (mod_p_lt _).le, cast_p_sub hy₁.le, hslope]
  rw [hx]
  ring

theorem add_affine (x₁ y₁ x₂ y₂ : Nat) :
    add (affine x₁ y₁) (affine x₂ y₂) =
      if x₁ = x₂ then
        if (y₁ + y₂) % p = 0 then infinity
        else chord (3 * x₁ * x₁ * invMod p (2 * y₁) % p) x₁ y₁ x₂
      else chord ((y₂ + (p - y₁)) * invMod p (x₂ + (p - x₁)) % p) x₁ y₁ x₂ := rfl

theorem denotes_add (ha : Denotes a P) (hb : Denotes b Q) : Denotes (a.add b) (P + Q) := by
  cases ha with
  | infinity =>
    rw [zero_add]
    exact hb
  | @affine x₁ y₁ u₁ v₁ hx₁ hy₁ hu₁ hv₁ h₁ =>
    cases hb with
    | infinity =>
      rw [add_zero]
      exact .affine hx₁ hy₁ hu₁ hv₁ h₁
    | @affine x₂ y₂ u₂ v₂ hx₂ hy₂ hu₂ hv₂ h₂ =>
      subst hu₁ hv₁ hu₂ hv₂
      have hopposite : (y₁ + y₂) % p = 0 ↔ (y₁ : ZMod p) = curve.negY x₂ y₂ := by
        rw [negY_eq, eq_neg_iff_add_eq_zero, ← Nat.cast_add, cast_eq_zero_iff]
      rw [add_affine]
      -- two points above one abscissa are opposite or the same
      split
      · rename_i hx
        subst hx
        split
        · rename_i hy
          rw [WeierstrassCurve.Affine.Point.add_of_Y_eq rfl (hopposite.mp hy)]
          exact .infinity
        · rename_i hy
          have hne := mt hopposite.mpr hy
          rw [WeierstrassCurve.Affine.Point.add_of_Y_ne hne]
          refine denotes_chord ?_ hx₁ hy₁ hx₁ _
          rw [WeierstrassCurve.Affine.slope_of_Y_ne rfl hne, negY_eq, ZMod.natCast_mod]
          push_cast [cast_invMod two_lt_p]
          simp only [curve]
          ring
      · rename_i hx
        have hne := mt (cast_eq_cast_iff hx₁ hx₂).mp hx
        rw [WeierstrassCurve.Affine.Point.add_of_X_ne hne]
        refine denotes_chord ?_ hx₁ hy₁ hx₂ _
        rw [WeierstrassCurve.Affine.slope_of_X_ne hne, ZMod.natCast_mod]
        push_cast [cast_invMod two_lt_p, cast_p_sub hx₁.le, cast_p_sub hy₁.le]
        rw [← neg_sub (y₂ : ZMod p), ← neg_sub (x₂ : ZMod p), neg_div_neg_eq]
        ring

theorem denotes_neg (ha : Denotes a P) : Denotes a.neg (-P) := by
  cases ha with
  | infinity =>
    rw [neg_zero]
    exact .infinity
  | affine hx hy hu hv h =>
    rw [WeierstrassCurve.Affine.Point.neg_some]
    refine .affine hx (mod_p_lt _) hu ?_ _
    rw [ZMod.natCast_mod, cast_p_sub hy.le, hv, negY_eq]

/-- Each round halves what is left of the factor and doubles the point. -/
theorem denotes_go {acc : Point} {A : curve.Point} (fuel k : Nat) (h : k < 2 ^ fuel)
    (ha : Denotes a P) (hacc : Denotes acc A) : Denotes (mul.go fuel k a acc) (A + k • P) := by
  induction fuel generalizing k a acc P A with
  | zero =>
    have hk : k = 0 := by omega
    rw [hk, zero_nsmul, add_zero]
    exact hacc
  | succ fuel ih =>
    unfold mul.go
    split
    · rename_i hk
      rw [hk, zero_nsmul, add_zero]
      exact hacc
    · have hhalf : k / 2 < 2 ^ fuel := by omega
      have hdouble : (k / 2) • (P + P) = (2 * (k / 2)) • P := by
        rw [← two_nsmul, ← mul_nsmul]
      split
      · rename_i hodd
        have hk : k • P = P + (2 * (k / 2)) • P := by
          rw [← succ_nsmul']
          congr 1
          omega
        rw [hk, ← add_assoc, ← hdouble]
        exact ih _ hhalf (denotes_add ha ha) (denotes_add hacc ha)
      · have hk : k • P = (2 * (k / 2)) • P := by
          congr 1
          omega
        rw [hk, ← hdouble]
        exact ih _ hhalf (denotes_add ha ha) hacc

theorem denotes_mul (k : Nat) (ha : Denotes a P) : Denotes (a.mul k) (k • P) := by
  have h := denotes_go _ k Nat.lt_log2_self ha .infinity
  rwa [zero_add] at h

/-- The power that a root is taken by is a root up to its sign, by Fermat's theorem. -/
theorem root_sq (v : ZMod p) : ((v ^ 2) ^ ((p + 1) / 4)) ^ 2 = v ^ 2 := by
  have hexponent : 2 * ((p + 1) / 4 * 2) = p + 1 := of_decide_eq_true rfl
  rw [← pow_mul, ← pow_mul, hexponent, pow_succ, ZMod.pow_card, sq]

theorem lift?_of_denotes {x y : Nat} (h : Denotes (affine x y) P) (odd : Bool) :
    lift? x odd = some (affine x (if (y % 2 = 1) = odd then y else (p - y) % p)) := by
  cases h with
  | affine hx hy hu hv hcurve =>
    subst hu hv
    have hsquare : (((x * x * x + 7) % p : Nat) : ZMod p) = (y : ZMod p) ^ 2 := by
      rw [ZMod.natCast_mod, (nonsingular_iff _ _).mp hcurve]
      push_cast
      ring
    simp only [lift?]
    have hcast := cast_powMod p ((x * x * x + 7) % p) ((p + 1) / 4)
    have hlt : powMod p ((x * x * x + 7) % p) ((p + 1) / 4) < p := by
      rw [powMod_eq]
      exact mod_p_lt _
    generalize powMod p ((x * x * x + 7) % p) ((p + 1) / 4) = root at hcast hlt
    have hroot : (root : ZMod p) ^ 2 = (y : ZMod p) ^ 2 := by
      rw [hcast, hsquare, root_sq]
    have hcheck : root * root % p = (x * x * x + 7) % p := by
      rw [← cast_eq_cast_iff (mod_p_lt _) (mod_p_lt _), hsquare, ZMod.natCast_mod, ← hroot]
      push_cast
      ring
    rw [hcheck, if_pos ⟨hx, rfl⟩]
    -- a square has two roots, and the parity that is asked for picks one of them
    obtain hsame | hneg := sq_eq_sq_iff_eq_or_eq_neg.mp hroot
    · have hy := (cast_eq_cast_iff hlt hy).mp hsame
      rw [hy]
    · by_cases hy0 : y = 0
      · subst hy0
        rw [Nat.cast_zero, neg_zero, cast_eq_zero_iff, Nat.mod_eq_of_lt hlt] at hneg
        rw [hneg]
      · have hopposite : root = p - y := by
          apply (cast_eq_cast_iff hlt (by omega)).mp
          rw [hneg, cast_p_sub hy.le]
        have hodd : p % 2 = 1 := of_decide_eq_true rfl
        have hback : (p - (p - y)) % p = y := by
          rw [Nat.sub_sub_self hy.le, Nat.mod_eq_of_lt hy]
        have hsmall : (p - y) % p = p - y := Nat.mod_eq_of_lt (by omega)
        have hparity : (p - y) % 2 = 1 ↔ ¬ y % 2 = 1 := by omega
        rw [hopposite, hback, hsmall]
        congr 2
        cases odd with
        | false => simp only [hparity, Bool.false_eq_true, eq_iff_iff, iff_false, not_not, ite_not]
        | true => simp only [hparity, eq_iff_iff, iff_true, ite_not]

end Point

end ChainGateway.Crypto.Secp256k1
