import ChainGateway.BigEndian

namespace ChainGateway.Ethereum

inductive Rlp where
  | bytes (bs : List UInt8)
  | list (items : List Rlp)
deriving BEq, Repr

namespace Rlp

def ofNat (n : Nat) : Rlp := bytes (BigEndian.ofNat n)

/-- The bytes in front of a payload of some length; `base` tells strings from lists. -/
def header (base length : Nat) : List UInt8 :=
  if length < 56 then [UInt8.ofNat (base + length)]
  else
    let size := BigEndian.ofNat length
    UInt8.ofNat (base + 55 + size.length) :: size

def encodeBytes : List UInt8 → List UInt8
  | [b] => if b < 0x80 then [b] else [0x81, b]
  | bs => header 0x80 bs.length ++ bs

mutual

def encode : Rlp → List UInt8
  | bytes bs => encodeBytes bs
  | list items => header 0xC0 (encodeItems items).length ++ encodeItems items

def encodeItems : List Rlp → List UInt8
  | [] => []
  | item :: rest => encode item ++ encodeItems rest

end

def take? (size : Nat) (bs : List UInt8) : Option (List UInt8 × List UInt8) :=
  if size ≤ bs.length then some (bs.take size, bs.drop size) else none

/-- A length that is spelled with `size` bytes: it has no leading zero, and needs the spelling. -/
def longLength? (size : Nat) (bs : List UInt8) : Option (Nat × List UInt8) := do
  let (digits, rest) ← take? size bs
  let length := BigEndian.toNat digits
  if BigEndian.ofNat length = digits ∧ 56 ≤ length then some (length, rest) else none

/-- The payload behind a first byte that lies `offset` above the base of its kind. -/
def payload? (offset : Nat) (rest : List UInt8) : Option (List UInt8 × List UInt8) :=
  if offset < 56 then take? offset rest
  else do
    let (length, rest) ← longLength? (offset - 55) rest
    take? length rest

mutual

def decodeItem? : Nat → List UInt8 → Option (Rlp × List UInt8)
  | 0, _ => none
  | _ + 1, [] => none
  | fuel + 1, b :: rest =>
    if b < 0x80 then some (bytes [b], rest)
    else if b < 0xC0 then do
      let (bs, rest) ← payload? (b.toNat - 0x80) rest
      match bs with
      | [c] => if c < 0x80 then none else some (bytes [c], rest)
      | bs => some (bytes bs, rest)
    else do
      let (bs, rest) ← payload? (b.toNat - 0xC0) rest
      return (list (← decodeItems? fuel bs), rest)

def decodeItems? : Nat → List UInt8 → Option (List Rlp)
  | _, [] => some []
  | 0, _ :: _ => none
  | fuel + 1, b :: bs => do
    let (item, rest) ← decodeItem? fuel (b :: bs)
    return item :: (← decodeItems? fuel rest)

end

def decode? (bs : List UInt8) : Option Rlp :=
  match decodeItem? (2 * bs.length + 2) bs with
  | some (item, []) => some item
  | _ => none

def toNat? : Rlp → Option Nat
  | bytes bs => if bs.head? = some 0 then none else some (BigEndian.toNat bs)
  | list _ => none

end Rlp

end ChainGateway.Ethereum
