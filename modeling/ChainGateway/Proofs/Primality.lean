import ChainGateway.Proofs.ModularPower
import Mathlib.Data.List.Prime
import Mathlib.NumberTheory.LucasPrimality

namespace ChainGateway.Crypto.Secp256k1

/-- A number with what shows it to be prime. -/
structure Witness where
  number : Nat
  root : Nat
  /-- The factors of the predecessor, each as often as it occurs. -/
  factors : List Nat

namespace Witness

/-- The root has no order smaller than the predecessor of the number. -/
def primitive (w : Witness) : Bool :=
  w.factors.prod + 1 = w.number && powMod w.number w.root w.factors.prod = 1 &&
    w.factors.all fun q => powMod w.number w.root (w.factors.prod / q) ≠ 1

/-- Each number has a primitive root, and each factor is two or a number further down. -/
def grounded : List Witness → Bool
  | [] => true
  | w :: rest =>
    w.primitive && w.factors.all (fun q => q = 2 || rest.any fun v => v.number = q) &&
      grounded rest

theorem prime_of_primitive {w : Witness} (h : w.primitive = true)
    (hfactors : ∀ q ∈ w.factors, q.Prime) : w.number.Prime := by
  simp only [primitive, Bool.and_eq_true, decide_eq_true_eq, List.all_eq_true, ne_eq] at h
  obtain ⟨⟨hnumber, hfull⟩, hpart⟩ := h
  have hone : 1 < w.number := by
    by_contra hle
    have h1 : w.number = 1 := by omega
    rw [h1, powMod_eq, Nat.mod_one] at hfull
    cases hfull
  have hpow (e : Nat) : powMod w.number w.root e = 1 ↔ (w.root : ZMod w.number) ^ e = 1 := by
    rw [← cast_powMod]
    constructor
    · intro h
      rw [h, Nat.cast_one]
    · intro h
      have h := (ZMod.natCast_eq_natCast_iff' _ _ _).mp (h.trans Nat.cast_one.symm)
      rwa [powMod_eq, Nat.mod_mod, Nat.mod_eq_of_lt hone, ← powMod_eq] at h
  rw [← hnumber] at hpow hfull hpart ⊢
  refine lucas_primality _ _ ((hpow _).mp hfull) fun q hq hdvd => ?_
  obtain ⟨q', hq', hdvd⟩ := (Prime.dvd_prod_iff hq.prime).mp hdvd
  rw [(Nat.prime_dvd_prime_iff_eq hq (hfactors q' hq')).mp hdvd]
  exact fun hone => hpart q' hq' ((hpow _).mpr hone)

theorem prime_of_grounded {table : List Witness} (h : grounded table = true) :
    ∀ w ∈ table, w.number.Prime := by
  induction table with
  | nil => exact fun w hw => absurd hw List.not_mem_nil
  | cons w rest ih =>
    simp only [grounded, Bool.and_eq_true, List.all_eq_true, Bool.or_eq_true, decide_eq_true_eq,
      List.any_eq_true] at h
    obtain ⟨⟨hprimitive, hfactors⟩, hrest⟩ := h
    have hrest := ih hrest
    refine List.forall_mem_cons.mpr ⟨prime_of_primitive hprimitive fun q hq => ?_, hrest⟩
    obtain rfl | ⟨v, hv, rfl⟩ := hfactors q hq
    · exact Nat.prime_two
    · exact hrest v hv

end Witness

/-- What shows the size of the field and the order of the generator to be prime. -/
def witnesses : List Witness := [
  ⟨115792089237316195423570985008687907853269984665640564039457584007908834671663, 3,
    [2, 3, 7, 13441, 205115282021455665897114700593932402728804164701536103180137503955397371]⟩,
  ⟨115792089237316195423570985008687907852837564279074904382605163141518161494337, 7,
    [2, 2, 2, 2, 2, 2, 3, 149, 631, 107361793816595537, 174723607534414371449,
      341948486974166000522343609283189]⟩,
  ⟨205115282021455665897114700593932402728804164701536103180137503955397371, 10,
    [2, 3, 5, 29, 29, 31, 7723, 132896956044521568488119,
      255515944373312847190720520512484175977]⟩,
  ⟨255515944373312847190720520512484175977, 3,
    [2, 2, 2, 7, 7, 11, 1627, 2657, 4423, 41201, 96557, 7240687, 107590001]⟩,
  ⟨341948486974166000522343609283189, 2, [2, 2, 3, 3, 3, 109, 29047611873442575647497758179]⟩,
  ⟨29047611873442575647497758179, 2, [2, 293, 305873, 545358713, 297159362677]⟩,
  ⟨132896956044521568488119, 6, [2, 3, 22149492674086928081353]⟩,
  ⟨22149492674086928081353, 5, [2, 2, 2, 3, 5323, 173378833005251801]⟩,
  ⟨174723607534414371449, 3, [2, 2, 2, 17, 59, 4051, 120233, 44706919]⟩,
  ⟨173378833005251801, 6, [2, 2, 2, 5, 5, 2621, 24809, 13331831]⟩,
  ⟨107361793816595537, 3, [2, 2, 2, 2, 16699, 85831, 4681609]⟩,
  ⟨297159362677, 2, [2, 2, 3, 3, 11, 461, 1627771]⟩,
  ⟨545358713, 5, [2, 2, 2, 41, 59, 28181]⟩,
  ⟨107590001, 3, [2, 2, 2, 2, 5, 5, 5, 5, 7, 29, 53]⟩,
  ⟨44706919, 6, [2, 3, 797, 9349]⟩,
  ⟨13331831, 13, [2, 5, 971, 1373]⟩,
  ⟨7240687, 3, [2, 3, 1206781]⟩,
  ⟨4681609, 23, [2, 2, 2, 3, 97, 2011]⟩,
  ⟨1627771, 3, [2, 3, 5, 29, 1871]⟩,
  ⟨1206781, 10, [2, 2, 3, 5, 20113]⟩,
  ⟨305873, 3, [2, 2, 2, 2, 7, 2731]⟩,
  ⟨120233, 3, [2, 2, 2, 7, 19, 113]⟩,
  ⟨96557, 2, [2, 2, 101, 239]⟩,
  ⟨85831, 3, [2, 3, 5, 2861]⟩,
  ⟨41201, 3, [2, 2, 2, 2, 5, 5, 103]⟩,
  ⟨28181, 2, [2, 2, 5, 1409]⟩,
  ⟨24809, 6, [2, 2, 2, 7, 443]⟩,
  ⟨20113, 10, [2, 2, 2, 2, 3, 419]⟩,
  ⟨16699, 3, [2, 3, 11, 11, 23]⟩,
  ⟨13441, 11, [2, 2, 2, 2, 2, 2, 2, 3, 5, 7]⟩,
  ⟨9349, 2, [2, 2, 3, 19, 41]⟩,
  ⟨7723, 3, [2, 3, 3, 3, 11, 13]⟩,
  ⟨5323, 5, [2, 3, 887]⟩,
  ⟨4423, 3, [2, 3, 11, 67]⟩,
  ⟨4051, 10, [2, 3, 3, 3, 3, 5, 5]⟩,
  ⟨2861, 2, [2, 2, 5, 11, 13]⟩,
  ⟨2731, 3, [2, 3, 5, 7, 13]⟩,
  ⟨2657, 3, [2, 2, 2, 2, 2, 83]⟩,
  ⟨2621, 2, [2, 2, 5, 131]⟩,
  ⟨2011, 3, [2, 3, 5, 67]⟩,
  ⟨1871, 14, [2, 5, 11, 17]⟩,
  ⟨1627, 3, [2, 3, 271]⟩,
  ⟨1409, 3, [2, 2, 2, 2, 2, 2, 2, 11]⟩,
  ⟨1373, 2, [2, 2, 7, 7, 7]⟩,
  ⟨971, 6, [2, 5, 97]⟩,
  ⟨887, 5, [2, 443]⟩,
  ⟨797, 2, [2, 2, 199]⟩,
  ⟨631, 3, [2, 3, 3, 5, 7]⟩,
  ⟨461, 2, [2, 2, 5, 23]⟩,
  ⟨443, 2, [2, 13, 17]⟩,
  ⟨419, 2, [2, 11, 19]⟩,
  ⟨293, 2, [2, 2, 73]⟩,
  ⟨271, 6, [2, 3, 3, 3, 5]⟩,
  ⟨239, 7, [2, 7, 17]⟩,
  ⟨199, 3, [2, 3, 3, 11]⟩,
  ⟨149, 2, [2, 2, 37]⟩,
  ⟨131, 2, [2, 5, 13]⟩,
  ⟨113, 3, [2, 2, 2, 2, 7]⟩,
  ⟨109, 6, [2, 2, 3, 3, 3]⟩,
  ⟨103, 5, [2, 3, 17]⟩,
  ⟨101, 2, [2, 2, 5, 5]⟩,
  ⟨97, 5, [2, 2, 2, 2, 2, 3]⟩,
  ⟨83, 2, [2, 41]⟩,
  ⟨73, 5, [2, 2, 2, 3, 3]⟩,
  ⟨67, 2, [2, 3, 11]⟩,
  ⟨59, 2, [2, 29]⟩,
  ⟨53, 2, [2, 2, 13]⟩,
  ⟨41, 6, [2, 2, 2, 5]⟩,
  ⟨37, 2, [2, 2, 3, 3]⟩,
  ⟨31, 3, [2, 3, 5]⟩,
  ⟨29, 2, [2, 2, 7]⟩,
  ⟨23, 5, [2, 11]⟩,
  ⟨19, 2, [2, 3, 3]⟩,
  ⟨17, 3, [2, 2, 2, 2]⟩,
  ⟨13, 2, [2, 2, 3]⟩,
  ⟨11, 2, [2, 5]⟩,
  ⟨7, 3, [2, 3]⟩,
  ⟨5, 2, [2, 2]⟩,
  ⟨3, 2, [2]⟩]

theorem grounded_witnesses : Witness.grounded witnesses = true := by decide +kernel

theorem prime_p : p.Prime :=
  Witness.prime_of_grounded grounded_witnesses _ (List.mem_cons_self)

theorem prime_n : n.Prime :=
  Witness.prime_of_grounded grounded_witnesses _ (List.mem_cons_of_mem _ List.mem_cons_self)

instance : Fact p.Prime := ⟨prime_p⟩

instance : Fact n.Prime := ⟨prime_n⟩

end ChainGateway.Crypto.Secp256k1
