import ChainGateway.Error

namespace ChainGateway.Bridge

open Wire

/-- An export: the hexadecimal identifier of a transaction, an output of it, a fee, and a signature
that the contract gets unchanged. -/
@[ext]
structure Export where
  txid : String
  idx : Word 32
  fee : Word 64
  sig : String
deriving DecidableEq, Repr

namespace Export

instance : OnWire Export where
  shape := .record "CrossOp" <|
    .cons "txid" .required .text <|
    .cons "idx" .required (.unsigned 32) <|
    .cons "fee" .required (.unsigned 64) <|
    .cons "sig" .required .text .nil
  pack e := (e.txid, e.idx, e.fee, e.sig, ())
  unpack | (txid, idx, fee, sig, ()) => ⟨txid, idx, fee, sig⟩

inductive TxidFault where
  | notHex (txid : String) (fault : Hex.Fault)
  | tooLong (length : Nat)
deriving DecidableEq, Repr

def hexMessage : Hex.Fault → String
  | .oddLength => "Odd number of digits"
  | .wrongLength => "Invalid string length"
  | .badDigit b position =>
    "Invalid character " ++ Text.Quoted.character (Char.ofNat b.toNat) ++ " at position "
      ++ toString position

def TxidFault.message : TxidFault → String
  | notHex txid fault => "txid " ++ Text.Quoted.text txid ++ " is not hex: " ++ hexMessage fault
  | tooLong length => "txid is " ++ toString length ++ " bytes, expected at most 32"

/-- The digits of an identifier, without one `0x` at the front. -/
def txidDigits (txid : String) : List UInt8 :=
  match Text.utf8 txid with
  | 48 :: 120 :: r => r
  | r => r

def leftPad (bs : List UInt8) (h : bs.length ≤ 32) : Hash :=
  ⟨List.replicate (32 - bs.length) 0 ++ bs, by simp; omega⟩

/-- The thirty-two bytes that an identifier denotes; a shorter one has zeros in front. -/
def txidBytes (txid : String) : Except TxidFault Hash :=
  match Hex.decode (txidDigits txid) with
  | .error fault => .error (.notHex txid fault)
  | .ok bs => if h : bs.length ≤ 32 then .ok (leftPad bs h) else .error (.tooLong bs.length)

end Export

/-- Where the contract lives, and the chain that transactions are signed for. -/
structure ContractSettings where
  contractAddress : String
  chainId : Word 64
deriving DecidableEq, Repr

instance : OnWire ContractSettings where
  shape := .record "MeerchangeConfig" <|
    .cons "contractAddress" .required .text <|
    .cons "chainId" .required (.unsigned 64) .nil
  pack s := (s.contractAddress, s.chainId, ())
  unpack | (contractAddress, chainId, ()) => ⟨contractAddress, chainId⟩

end ChainGateway.Bridge
