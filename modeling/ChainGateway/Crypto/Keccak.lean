import ChainGateway.Crypto.Blocks

namespace ChainGateway.Crypto.Keccak

/-- The state, lane `x + 5 * y` at column `x` and row `y`. -/
abbrev State := Vector UInt64 25

def roundConstants : List UInt64 := [
  0x0000000000000001, 0x0000000000008082, 0x800000000000808A, 0x8000000080008000,
  0x000000000000808B, 0x0000000080000001, 0x8000000080008081, 0x8000000000008009,
  0x000000000000008A, 0x0000000000000088, 0x0000000080008009, 0x000000008000000A,
  0x000000008000808B, 0x800000000000008B, 0x8000000000008089, 0x8000000000008003,
  0x8000000000008002, 0x8000000000000080, 0x000000000000800A, 0x800000008000000A,
  0x8000000080008081, 0x8000000000008080, 0x0000000080000001, 0x8000000080008008]

def offsets : Vector UInt64 25 := #v[
  0, 1, 62, 28, 27,
  36, 44, 6, 55, 20,
  3, 10, 43, 25, 39,
  41, 45, 15, 21, 8,
  18, 2, 61, 56, 14]

def rotate (w : UInt64) (n : UInt64) : UInt64 :=
  if n = 0 then w else w <<< n ||| w >>> (64 - n)

def lane (s : State) (x y : Nat) : UInt64 :=
  s.get ⟨x % 5 + 5 * (y % 5), by omega⟩

def tabulate (f : Nat → Nat → UInt64) : State :=
  Vector.ofFn fun i => f (i.val % 5) (i.val / 5)

def theta (s : State) : State :=
  let parity : Vector UInt64 5 := Vector.ofFn fun x =>
    lane s x 0 ^^^ lane s x 1 ^^^ lane s x 2 ^^^ lane s x 3 ^^^ lane s x 4
  let column (x : Nat) : UInt64 := parity.get ⟨x % 5, by omega⟩
  tabulate fun x y => lane s x y ^^^ column (x + 4) ^^^ rotate (column (x + 1)) 1

def rhoPi (s : State) : State :=
  tabulate fun x y =>
    let column := (x + 3 * y) % 5
    rotate (lane s column x) (offsets.get ⟨column + 5 * (x % 5), by omega⟩)

def chi (s : State) : State :=
  tabulate fun x y => lane s x y ^^^ (~~~ lane s (x + 1) y &&& lane s (x + 2) y)

def round (s : State) (constant : UInt64) : State :=
  let s := chi (rhoPi (theta s))
  s.set 0 (s[0] ^^^ constant)

def permute (s : State) : State := roundConstants.foldl round s

def rate : Nat := 136

def laneOfBytes (bs : List UInt8) : UInt64 :=
  bs.foldr (fun b w => w <<< 8 ||| b.toUInt64) 0

def bytesOfLane (w : UInt64) : List UInt8 :=
  (List.range 8).map fun i => (w >>> (8 * UInt64.ofNat i)).toUInt8

/-- The message with a one, zeros and a one behind it, as many as fill the last block. -/
def pad (message : List UInt8) : List UInt8 :=
  let missing := rate - message.length % rate
  if missing = 1 then message ++ [0x81]
  else message ++ 0x01 :: (List.replicate (missing - 2) 0x00 ++ [0x80])

def absorb (s : State) (block : List UInt8) : State :=
  let lanes := (pieces 8 block).map laneOfBytes
  permute (Vector.ofFn fun i => s[i] ^^^ lanes.getD i.val 0)

def hash (message : List UInt8) : List UInt8 :=
  let s := (pieces rate (pad message)).foldl absorb (Vector.replicate 25 0)
  [s[0], s[1], s[2], s[3]].flatMap bytesOfLane

theorem length_hash (message : List UInt8) : (hash message).length = 32 := by
  simp [hash, bytesOfLane]

end ChainGateway.Crypto.Keccak
