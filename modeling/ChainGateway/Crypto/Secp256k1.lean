namespace ChainGateway.Crypto.Secp256k1

def p : Nat := 0xFFFFFFFFFFFFFFFFFFFFFFFFFFFFFFFFFFFFFFFFFFFFFFFFFFFFFFFEFFFFFC2F

def n : Nat := 0xFFFFFFFFFFFFFFFFFFFFFFFFFFFFFFFEBAAEDCE6AF48A03BBFD25E8CD0364141

def powMod (m : Nat) (b e : Nat) : Nat :=
  go e.log2.succ (b % m) e 1
where
  go : Nat → Nat → Nat → Nat → Nat
    | 0, _, _, acc => acc % m
    | fuel + 1, b, e, acc =>
      if e = 0 then acc % m
      else go fuel (b * b % m) (e / 2) (if e % 2 = 1 then acc * b % m else acc)

/-- The inverse modulo a prime number, and zero for zero. -/
def invMod (m a : Nat) : Nat := powMod m a (m - 2)

inductive Point where
  | infinity
  | affine (x y : Nat)
deriving DecidableEq, Repr, Inhabited

namespace Point

def generator : Point :=
  affine 0x79BE667EF9DCBBAC55A06295CE870B07029BFCDB2DCE28D959F2815B16F81798
    0x483ADA7726A3C4655DA4FBFC0E1108A8FD17B448A68554199C47D08FFB10D4B8

def valid : Point → Bool
  | infinity => true
  | affine x y => x < p && y < p && y * y % p = (x * x * x + 7) % p

def neg : Point → Point
  | infinity => infinity
  | affine x y => affine x ((p - y) % p)

/-- The third intersection of a line of some slope, reflected. -/
def chord (slope x₁ y₁ x₂ : Nat) : Point :=
  let x₃ := (slope * slope + (p - x₁) + (p - x₂)) % p
  affine x₃ ((slope * (x₁ + (p - x₃)) + (p - y₁)) % p)

def add : Point → Point → Point
  | infinity, b => b
  | a, infinity => a
  | affine x₁ y₁, affine x₂ y₂ =>
    if x₁ = x₂ then
      if (y₁ + y₂) % p = 0 then infinity
      else chord (3 * x₁ * x₁ * invMod p (2 * y₁) % p) x₁ y₁ x₂
    else chord ((y₂ + (p - y₁)) * invMod p (x₂ + (p - x₁)) % p) x₁ y₁ x₂

def mul (k : Nat) (a : Point) : Point :=
  go k.log2.succ k a infinity
where
  go : Nat → Nat → Point → Point → Point
    | 0, _, _, acc => acc
    | fuel + 1, k, a, acc =>
      if k = 0 then acc
      else go fuel (k / 2) (add a a) (if k % 2 = 1 then add acc a else acc)

/-- The abscissa, zero at infinity. -/
def x : Point → Nat
  | infinity => 0
  | affine x _ => x

def y : Point → Nat
  | infinity => 0
  | affine _ y => y

/-- The point with an abscissa and the parity of its ordinate, if there is one. -/
def lift? (x : Nat) (odd : Bool) : Option Point :=
  let square := (x * x * x + 7) % p
  let root := powMod p square ((p + 1) / 4)
  if x < p ∧ root * root % p = square then
    some (affine x (if (root % 2 = 1) = odd then root else (p - root) % p))
  else none

end Point

end ChainGateway.Crypto.Secp256k1
