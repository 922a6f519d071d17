import ChainGateway.Ethereum.Address
import ChainGateway.Ethereum.Rlp
import ChainGateway.Word

namespace ChainGateway.Ethereum

open Crypto.Ecdsa (PrivateKey Signature)

inductive Fee where
  /-- A tip for the block's producer, and a cap on the price including it. -/
  | market (tip cap : Word 128)
  | legacy (price : Word 128)
deriving DecidableEq, Repr

@[ext]
structure Transaction where
  chainId : Word 64
  nonce : Word 64
  fee : Fee
  gasLimit : Word 64
  recipient : Address
  value : Word 256
  input : List UInt8
deriving DecidableEq, Repr

namespace Transaction

def marketType : UInt8 := 0x02

/-- The fields that both formats write last of those that say what the transaction does. -/
def callFields (t : Transaction) : List Rlp :=
  [.ofNat t.gasLimit.toNat, .bytes t.recipient.toList, .ofNat t.value.toNat, .bytes t.input]

/-- The fields of a fee-market transaction, of which the last is an empty list of accesses. -/
def marketFields (t : Transaction) (tip cap : Word 128) : List Rlp :=
  [.ofNat t.chainId.toNat, .ofNat t.nonce.toNat, .ofNat tip.toNat, .ofNat cap.toNat]
    ++ t.callFields ++ [.list []]

def legacyFields (t : Transaction) (price : Word 128) : List Rlp :=
  [.ofNat t.nonce.toNat, .ofNat price.toNat] ++ t.callFields

def preimage (t : Transaction) : List UInt8 :=
  match t.fee with
  | .market tip cap => marketType :: (Rlp.list (t.marketFields tip cap)).encode
  | .legacy price =>
    (Rlp.list (t.legacyFields price ++ [.ofNat t.chainId.toNat, .ofNat 0, .ofNat 0])).encode

/-- What legacy transactions write for the parity, which binds them to their chain. -/
def chainParity (chainId : Word 64) (odd : Bool) : Nat := 35 + 2 * chainId.toNat + odd.toNat

def raw (t : Transaction) (sig : Signature) : List UInt8 :=
  match t.fee with
  | .market tip cap =>
    marketType :: (Rlp.list (t.marketFields tip cap
      ++ [.ofNat sig.odd.toNat, .ofNat sig.r, .ofNat sig.s])).encode
  | .legacy price =>
    (Rlp.list (t.legacyFields price
      ++ [.ofNat (chainParity t.chainId sig.odd), .ofNat sig.r, .ofNat sig.s])).encode

def sign (t : Transaction) (key : PrivateKey) : Option Signature :=
  Crypto.Ecdsa.sign key (keccak256 t.preimage).toList

def wordOfItem? (bits : Nat) (item : Rlp) : Option (Word bits) := item.toNat? >>= Word.ofNat?

def addressOfItem? : Rlp → Option Address
  | .bytes bs => FixedBytes.ofList? bs
  | .list _ => none

def bytesOfItem? : Rlp → Option (List UInt8)
  | .bytes bs => some bs
  | .list _ => none

def ofMarketItems? : List Rlp → Option (Transaction × Signature)
  | [chainId, nonce, tip, cap, gasLimit, recipient, value, input, .list [], odd, r, s] => do
    let fee := Fee.market (← wordOfItem? 128 tip) (← wordOfItem? 128 cap)
    let odd ← odd.toNat?
    if 1 < odd then none
    return (⟨← wordOfItem? 64 chainId, ← wordOfItem? 64 nonce, fee, ← wordOfItem? 64 gasLimit,
      ← addressOfItem? recipient, ← wordOfItem? 256 value, ← bytesOfItem? input⟩,
      ⟨(← wordOfItem? 256 r).toNat, (← wordOfItem? 256 s).toNat, odd = 1⟩)
  | _ => none

def ofLegacyItems? : List Rlp → Option (Transaction × Signature)
  | [nonce, price, gasLimit, recipient, value, input, v, r, s] => do
    let v ← v.toNat?
    if v < 35 then none
    let chainId ← Word.ofNat? ((v - 35) / 2)
    return (⟨chainId, ← wordOfItem? 64 nonce, .legacy (← wordOfItem? 128 price),
      ← wordOfItem? 64 gasLimit, ← addressOfItem? recipient, ← wordOfItem? 256 value,
      ← bytesOfItem? input⟩,
      ⟨(← wordOfItem? 256 r).toNat, (← wordOfItem? 256 s).toNat, (v - 35) % 2 = 1⟩)
  | _ => none

/-- The signed transaction that raw bytes spell, in the only way in which they may spell it. -/
def ofRaw? : List UInt8 → Option (Transaction × Signature)
  | [] => none
  | b :: bs =>
    if b = marketType then
      match Rlp.decode? bs with
      | some (.list items) => ofMarketItems? items
      | _ => none
    else
      match Rlp.decode? (b :: bs) with
      | some (.list items) => ofLegacyItems? items
      | _ => none

end Transaction

end ChainGateway.Ethereum
