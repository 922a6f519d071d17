import ChainGateway.Ethereum.Address
import ChainGateway.Word

namespace ChainGateway.Ethereum

@[ext]
structure ExportCall where
  txid : Hash
  idx : Word 32
  fee : Word 64
  sig : List UInt8
deriving DecidableEq, Repr

namespace ExportCall

def signature : String := "export4337(bytes32,uint32,uint64,string)"

def selector : List UInt8 := (keccak256 (Text.utf8 signature)).toList.take 4

def word (n : Nat) : List UInt8 := BigEndian.fixed 32 n

def padding (length : Nat) : Nat := (32 - length % 32) % 32

def encode (c : ExportCall) : List UInt8 :=
  selector ++ c.txid.toList ++ word c.idx.toNat ++ word c.fee.toNat ++ word 128
    ++ word c.sig.length ++ c.sig ++ List.replicate (padding c.sig.length) 0

def takeWord? (bs : List UInt8) : Option (List UInt8 × List UInt8) :=
  if 32 ≤ bs.length then some (bs.take 32, bs.drop 32) else none

/-- The call that bytes spell, every one of which must be as it is written. -/
def decode? (bs : List UInt8) : Option ExportCall := do
  if bs.take 4 ≠ selector then none
  let (txid, rest) ← takeWord? (bs.drop 4)
  let txid ← FixedBytes.ofList? txid
  let (idx, rest) ← takeWord? rest
  let idx ← Word.ofNat? (BigEndian.toNat idx)
  let (fee, rest) ← takeWord? rest
  let fee ← Word.ofNat? (BigEndian.toNat fee)
  let (offset, rest) ← takeWord? rest
  if BigEndian.toNat offset ≠ 128 then none
  let (length, rest) ← takeWord? rest
  let length := BigEndian.toNat length
  if rest.length ≠ length + padding length then none
  if rest.drop length ≠ List.replicate (padding length) 0 then none
  return ⟨txid, idx, fee, rest.take length⟩

end ExportCall

end ChainGateway.Ethereum
