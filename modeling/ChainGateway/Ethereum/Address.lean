import ChainGateway.BigEndian
import ChainGateway.Crypto.Ecdsa
import ChainGateway.Crypto.Keccak
import ChainGateway.FixedBytes

namespace ChainGateway

open Crypto

def keccak256 (bs : List UInt8) : Hash := ⟨Keccak.hash bs, Keccak.length_hash bs⟩

namespace Address

def ofPoint (point : Secp256k1.Point) : Address :=
  let hash := keccak256 (BigEndian.fixed 32 point.x ++ BigEndian.fixed 32 point.y)
  ⟨hash.toList.drop 12, by simp [hash.length_toList]⟩

/-- Capital letters where the digit of the hash at the same place is eight or more. -/
def mixCase : List Char → List Char → List Char
  | c :: cs, h :: hs =>
    (if 'a' ≤ c ∧ c ≤ 'f' ∧ '8' ≤ h then c.toUpper else c) :: mixCase cs hs
  | cs, [] => cs
  | [], _ => []

def checksummed (a : Address) : String :=
  let digits := Hex.encode a.toList
  let hash := Hex.encode (Keccak.hash (Text.utf8 (String.ofList digits)))
  String.ofList ('0' :: 'x' :: mixCase digits hash)

end Address

def Crypto.Ecdsa.PrivateKey.address (key : PrivateKey) : Address := Address.ofPoint key.publicPoint

end ChainGateway
