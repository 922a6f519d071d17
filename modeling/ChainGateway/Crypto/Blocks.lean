namespace ChainGateway.Crypto

/-- A message in blocks of a size, of which the last may be shorter. -/
def pieces {α : Type} (size : Nat) (xs : List α) : List (List α) :=
  go xs.length xs
where
  go : Nat → List α → List (List α)
    | 0, _ => []
    | fuel + 1, xs => if xs.isEmpty then [] else xs.take size :: go fuel (xs.drop size)

end ChainGateway.Crypto
