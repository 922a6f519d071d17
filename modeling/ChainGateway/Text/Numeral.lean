namespace ChainGateway.Text

/-- The value of a digit or letter, counting letters of either case from ten. -/
def digitValue? (c : Char) : Option Nat :=
  if '0' ≤ c ∧ c ≤ '9' then some (c.toNat - 48)
  else if 'a' ≤ c ∧ c ≤ 'z' then some (c.toNat - 87)
  else if 'A' ≤ c ∧ c ≤ 'Z' then some (c.toNat - 55)
  else none

def pushDigit? (base n : Nat) (c : Char) : Option Nat :=
  match digitValue? c with
  | some d => if d < base then some (base * n + d) else none
  | none => none

def numeral? (base : Nat) : List Char → Option Nat
  | [] => none
  | cs => cs.foldlM (pushDigit? base) 0

end ChainGateway.Text
