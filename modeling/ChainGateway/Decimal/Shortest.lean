import ChainGateway.Decimal.Binary64

namespace ChainGateway.Decimal.Shortest

/-- The interval of magnitudes that round to a rank, in units of `2 ^ -1076`: its ends, the
magnitude itself, and whether the ends belong to it. -/
structure Interval where
  low : Nat
  value : Nat
  high : Nat
  closed : Bool

def intervalOf (rank : Nat) : Interval :=
  let (m, e) := Binary64.parts rank
  let unit := Nat.pow 2 e
  let below := if m = Nat.pow 2 52 ∧ 0 < e then unit else 2 * unit
  ⟨4 * m * unit - below, 4 * m * unit, 4 * m * unit + 2 * unit, m % 2 = 0⟩

def Interval.holds (i : Interval) (digits : Nat) (exponent : Int) : Bool :=
  let n := digits * Nat.pow 10 exponent.toNat * Nat.pow 2 1076
  let d := Nat.pow 10 (-exponent).toNat
  if i.closed then i.low * d ≤ n && n ≤ i.high * d else i.low * d < n && n < i.high * d

def leadingExponent (n d : Nat) : Int :=
  if d ≤ n then ((Nat.repr (n / d)).length : Int) - 1
  else
    -- the least `k` for which `n * 10 ^ k` reaches `d` is found from the length of `d / n`
    let k := (Nat.repr (d / n)).length
    if d ≤ n * Nat.pow 10 (k - 1) then -((k - 1 : Nat) : Int) else -(k : Int)

/-- The candidate of a number of digits: the nearer of the two neighbours of the value on the grid
of that many digits that lie in the interval. -/
def candidate (i : Interval) (exponent : Int) : Option Nat :=
  let n := i.value * Nat.pow 10 (-exponent).toNat
  let d := Nat.pow 2 1076 * Nat.pow 10 exponent.toNat
  let q := n / d
  let r := n % d
  match i.holds q exponent, i.holds (q + 1) exponent with
  | true, true => some (if 2 * r < d ∨ 2 * r = d ∧ q % 2 = 0 then q else q + 1)
  | true, false => some q
  | false, true => some (q + 1)
  | false, false => none

def search (i : Interval) (lead : Int) : Nat → Nat → Nat × Int
  | 0, n => (i.value * Nat.pow 10 (n - 1) / Nat.pow 2 1076, lead - n + 1)
  | fuel + 1, n =>
    let exponent := lead - n + 1
    match candidate i exponent with
    | some digits => (digits, exponent)
    | none => search i lead fuel (n + 1)

def trim : Nat → Nat → Int → Nat × Int
  | 0, digits, exponent => (digits, exponent)
  | fuel + 1, digits, exponent =>
    if digits % 10 = 0 ∧ digits ≠ 0 then trim fuel (digits / 10) (exponent + 1)
    else (digits, exponent)

def digitsOf (rank : Nat) : Nat × Int :=
  let i := intervalOf rank
  let (digits, exponent) := search i (leadingExponent i.value (Nat.pow 2 1076)) 17 1
  trim 20 digits exponent

/-- How decimal numbers are laid out: positional from `10 ^ least` on and below `10 ^ limit`, and
with a signed exponent elsewhere. A positional number has at least one decimal. -/
structure Layout where
  least : Int
  limit : Int

def zeros (n : Nat) : List Char := List.replicate n '0'

def Layout.magnitude (layout : Layout) (rank : Nat) : List Char :=
  if rank = 0 then "0.0".toList
  else
    let (digits, exponent) := digitsOf rank
    let ds := (Nat.repr digits).toList
    let lead := exponent + ds.length - 1
    if layout.least ≤ lead ∧ lead < layout.limit then
      if 0 ≤ exponent then ds ++ zeros exponent.toNat ++ ".0".toList
      else if 0 ≤ lead then
        ds.take (lead.toNat + 1) ++ '.' :: ds.drop (lead.toNat + 1)
      else "0.".toList ++ zeros (-lead - 1).toNat ++ ds
    else
      let mantissa := match ds with
        | [d] => [d]
        | d :: r => d :: '.' :: r
        | [] => []
      mantissa ++ 'e' :: (if lead < 0 then '-' else '+') :: (Nat.repr lead.natAbs).toList

def Layout.text (layout : Layout) (x : Binary64) : String :=
  String.ofList ((if x.negative then ['-'] else []) ++ layout.magnitude x.rank)

/-- Numbers of JSON texts and messages are positional from `0.00001` on and below `10 ^ 16`. -/
def plain : Layout := ⟨-5, 16⟩

end ChainGateway.Decimal.Shortest
