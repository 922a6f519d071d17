import ChainGateway.Hex
import ChainGateway.Text.Numeral
import ChainGateway.Word

namespace ChainGateway.Quantity

/-- Hexadecimal digits of a number without leading zeros, and `0` for zero. -/
def digits (n : Nat) : List Char :=
  if n = 0 then ['0'] else go n n []
where
  go : Nat → Nat → List Char → List Char
    | 0, _, acc => acc
    | fuel + 1, n, acc => if n = 0 then acc else go fuel (n / 16) (Hex.digit (n % 16) :: acc)

def text (n : Nat) : String := String.ofList ('0' :: 'x' :: digits n)

/-- Split off the marker of a base; without one the base is ten. -/
def splitBase : List Char → Nat × List Char
  | '0' :: 'x' :: r => (16, r)
  | '0' :: 'X' :: r => (16, r)
  | '0' :: 'o' :: r => (8, r)
  | '0' :: 'O' :: r => (8, r)
  | '0' :: 'b' :: r => (2, r)
  | '0' :: 'B' :: r => (2, r)
  | r => (10, r)

def readDigits (base : Nat) : Nat → List Char → Option Nat
  | n, [] => some n
  | n, '_' :: r => readDigits base n r
  | n, c :: r =>
    match Text.pushDigit? base n c with
    | some n => readDigits base n r
    | none => none

/-- The number that a text denotes; no digits at all denote zero. -/
def number? (s : String) : Option Nat :=
  let (base, digits) := splitBase s.toList
  readDigits base 0 digits

def ofText? (bits : Nat) (s : String) : Option (Word bits) :=
  number? s >>= Word.ofNat?

end ChainGateway.Quantity
