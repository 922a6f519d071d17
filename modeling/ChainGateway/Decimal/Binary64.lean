namespace ChainGateway.Decimal

structure Binary64 where
  negative : Bool
  rank : Nat
deriving DecidableEq, Repr, Inhabited

namespace Binary64

/-- The first rank that is no finite magnitude. -/
def overflow : Nat := 2047 * Nat.pow 2 52

/-- The magnitude of a rank as `m * 2 ^ e / 2 ^ 1074`. -/
def parts (rank : Nat) : Nat × Nat :=
  if rank < Nat.pow 2 52 then (rank, 0)
  else (Nat.pow 2 52 + rank % Nat.pow 2 52, rank / Nat.pow 2 52 - 1)

def fraction (rank : Nat) : Nat × Nat :=
  let (m, e) := parts rank
  (m * Nat.pow 2 e, Nat.pow 2 1074)

/-- The quotient rounded to the nearest number, halves to the even one. -/
def divNearest (n d : Nat) : Nat :=
  let q := n / d
  let r := n % d
  if 2 * r < d then q else if 2 * r = d ∧ q % 2 = 0 then q else q + 1

/-- The exponent `e` at which `n / d`, in units of `2 ^ e / 2 ^ 1074`, has 53 binary digits, or zero
where it has fewer. -/
def exponentOf (n d : Nat) : Nat :=
  let scaled := n * Nat.pow 2 1074
  let e := scaled.log2 - d.log2 - 53
  if scaled < d * Nat.pow 2 (e + 53) then e else e + 1

/-- The rank of the magnitude nearest to `n / d`, halves to the even rank. The rank reaches
`overflow` where the fraction lies beyond the finite magnitudes. -/
def nearest (n d : Nat) : Nat :=
  if n = 0 then 0
  else
    let e := exponentOf n d
    e * Nat.pow 2 52 + divNearest (n * Nat.pow 2 1074) (d * Nat.pow 2 e)

def mul (a b : Nat) : Nat :=
  let (n, d) := fraction a
  let (n', d') := fraction b
  nearest (n * n') (d * d')

def div (a b : Nat) : Nat :=
  let (n, d) := fraction a
  let (n', d') := fraction b
  nearest (n * d') (d * n')

def powerOfTen (k : Nat) : Nat := nearest (Nat.pow 10 k) 1

/-- The magnitude that is read for `significand * 10 ^ exponent`. The significand is rounded first
and then multiplied or divided by powers of ten of at most the 308th, with one rounding at each
step. There is none where a product leaves the finite magnitudes. -/
def ofScientific? (significand : Nat) (exponent : Int) : Option Nat :=
  go exponent.natAbs (nearest significand 1) exponent
where
  go : Nat → Nat → Int → Option Nat
    | fuel, f, exponent =>
      if exponent.natAbs ≤ 308 then
        if 0 ≤ exponent then
          let product := mul f (powerOfTen exponent.natAbs)
          if product < overflow then some product else none
        else some (div f (powerOfTen exponent.natAbs))
      else if f = 0 then some 0
      else if 0 ≤ exponent then none
      else match fuel with
        | 0 => some 0
        | fuel + 1 => go fuel (div f (powerOfTen 308)) (exponent + 308)

end Binary64

end ChainGateway.Decimal
