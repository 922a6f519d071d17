import ChainGateway.BigEndian
import ChainGateway.Crypto.Secp256k1
import ChainGateway.Crypto.Sha256

namespace ChainGateway.Crypto.Ecdsa

open Secp256k1

@[ext]
structure PrivateKey where
  scalar : Nat
  pos : 0 < scalar
  lt_order : scalar < n
deriving DecidableEq

def PrivateKey.publicPoint (key : PrivateKey) : Point := Point.generator.mul key.scalar

def PrivateKey.ofNat? (d : Nat) : Option PrivateKey :=
  if h : 0 < d ∧ d < n then some ⟨d, h.1, h.2⟩ else none

structure Signature where
  r : Nat
  s : Nat
  odd : Bool
deriving DecidableEq, Repr

/-- The signature of a hash with a nonce, if neither of its numbers is zero. Where `s` lies in the
upper half it is negated, which turns the parity of the nonce point round. -/
def signWith (nonce : Nat) (key : PrivateKey) (z : Nat) : Option Signature :=
  let point := Point.generator.mul nonce
  let r := point.x % n
  let s := invMod n nonce * (z + r * key.scalar) % n
  if r = 0 ∨ s = 0 then none
  else if n / 2 < s then some ⟨r, n - s, point.y % 2 = 0⟩
  else some ⟨r, s, point.y % 2 = 1⟩

structure NonceChain where
  key : List UInt8
  value : List UInt8

namespace NonceChain

def feed (c : NonceChain) (bs : List UInt8) : NonceChain :=
  let key := Sha256.hmac c.key (c.value ++ bs)
  ⟨key, Sha256.hmac key c.value⟩

def next (c : NonceChain) : NonceChain := ⟨c.key, Sha256.hmac c.key c.value⟩

def search : Nat → NonceChain → Nat
  | 0, _ => 1
  | fuel + 1, c =>
    let c := c.next
    let k := BigEndian.toNat c.value
    if 0 < k ∧ k < n then k else search fuel (c.feed [0x00])

end NonceChain

def nonce (key : PrivateKey) (z : Nat) : Nat :=
  let secret := BigEndian.fixed 32 key.scalar ++ BigEndian.fixed 32 (z % n)
  let start : NonceChain := ⟨List.replicate 32 0x00, List.replicate 32 0x01⟩
  ((start.feed (0x00 :: secret)).feed (0x01 :: secret)).search 256

def sign (key : PrivateKey) (hash : List UInt8) : Option Signature :=
  let z := BigEndian.toNat hash
  signWith (nonce key z) key z

def verify (publicPoint : Point) (hash : List UInt8) (sig : Signature) : Bool :=
  let w := invMod n sig.s
  let z := BigEndian.toNat hash
  let point := (Point.generator.mul (z * w % n)).add (publicPoint.mul (sig.r * w % n))
  0 < sig.r && sig.r < n && 0 < sig.s && sig.s < n && point ≠ .infinity && point.x % n = sig.r

/-- The public point whose key signed the hash, for a nonce point with an abscissa below `n`. -/
def recover (hash : List UInt8) (sig : Signature) : Option Point := do
  let point ← Point.lift? sig.r sig.odd
  let w := invMod n sig.r
  let z := BigEndian.toNat hash % n
  return (point.mul (sig.s * w % n)).add (Point.generator.mul ((n - z) * w % n))

end ChainGateway.Crypto.Ecdsa
