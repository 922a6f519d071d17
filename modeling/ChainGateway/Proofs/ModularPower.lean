import ChainGateway.Crypto.Secp256k1
import Mathlib.FieldTheory.Finite.Basic

namespace ChainGateway.Crypto.Secp256k1

/-- Each round halves what is left of the exponent and squares the base. -/
theorem go_powMod (m fuel b e acc : Nat) (h : e < 2 ^ fuel) :
    powMod.go m fuel b e acc = acc * b ^ e % m := by
  induction fuel generalizing b e acc with
  | zero =>
    have he : e = 0 := by omega
    rw [he, powMod.go, pow_zero, Nat.mul_one]
  | succ fuel ih =>
    unfold powMod.go
    split
    · rename_i he
      rw [he, pow_zero, Nat.mul_one]
    · have hhalf : e / 2 < 2 ^ fuel := by omega
      have hsquare : (b * b % m) ^ (e / 2) ≡ b ^ (2 * (e / 2)) [MOD m] := by
        rw [pow_mul, sq]
        exact (Nat.mod_modEq _ _).pow _
      rw [ih _ _ _ hhalf]
      split
      · rename_i hodd
        have he : b ^ e = b * b ^ (2 * (e / 2)) := by
          rw [← pow_succ']
          congr 1
          omega
        rw [he, ← Nat.mul_assoc]
        exact (Nat.mod_modEq _ _).mul hsquare
      · have he : b ^ e = b ^ (2 * (e / 2)) := by
          congr 1
          omega
        rw [he]
        exact Nat.ModEq.rfl.mul hsquare

theorem powMod_eq (m b e : Nat) : powMod m b e = b ^ e % m := by
  unfold powMod
  rw [go_powMod _ _ _ _ _ Nat.lt_log2_self, Nat.one_mul, ← Nat.pow_mod]

theorem cast_powMod (m b e : Nat) : (powMod m b e : ZMod m) = (b : ZMod m) ^ e := by
  rw [powMod_eq, ZMod.natCast_mod, Nat.cast_pow]

/-- Also for zero, whose inverse is taken to be zero. -/
theorem cast_invMod {m : Nat} [Fact m.Prime] (h : 2 < m) (a : Nat) :
    (invMod m a : ZMod m) = (a : ZMod m)⁻¹ := by
  rw [invMod, cast_powMod]
  by_cases ha : (a : ZMod m) = 0
  · rw [ha, inv_zero]
    exact zero_pow (by omega)
  · apply eq_inv_of_mul_eq_one_left
    rw [← pow_succ, show m - 2 + 1 = m - 1 by omega]
    exact ZMod.pow_card_sub_one_eq_one ha

end ChainGateway.Crypto.Secp256k1
