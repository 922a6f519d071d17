namespace ChainGateway.BigEndian

def toNat (bs : List UInt8) : Nat :=
  bs.foldl (fun n b => 256 * n + b.toNat) 0

/-- The digits to base 256 without leading zeros; zero has none. -/
def ofNat (n : Nat) : List UInt8 :=
  go n n []
where
  go : Nat → Nat → List UInt8 → List UInt8
    | 0, _, acc => acc
    | fuel + 1, n, acc => if n = 0 then acc else go fuel (n / 256) (UInt8.ofNat (n % 256) :: acc)

/-- The lowest `size` digits of a number, leading zeros included. -/
def fixed : (size : Nat) → Nat → List UInt8
  | 0, _ => []
  | size + 1, n => UInt8.ofNat (n / Nat.pow 256 size % 256) :: fixed size n

theorem length_fixed (size n : Nat) : (fixed size n).length = size := by
  induction size with
  | zero => rfl
  | succ size ih => simp [fixed, ih]

end ChainGateway.BigEndian
