import ChainGateway.FixedBytes
import ChainGateway.Json.Basic
import ChainGateway.Quantity
import ChainGateway.Rpc.RequestId

namespace ChainGateway.Wire

/-- What it means that an object lacks a field. -/
inductive Presence where
  /-- The object is no record of this shape. -/
  | required
  /-- The field has the empty value of its shape. -/
  | defaulted
  /-- The field is none, and a none is written by leaving the field out. -/
  | omittable
deriving DecidableEq, Repr

mutual

inductive Shape where
  | text
  | boolean
  /-- An integer of some number of bits, without a sign. -/
  | unsigned (bits : Nat)
  /-- An integer of sixty-four bits with a sign. -/
  | signed
  /-- Hexadecimal text of a number of some number of bits. -/
  | quantity (bits : Nat)
  /-- Hexadecimal text of a number of bytes. -/
  | fixed (size : Nat)
  /-- Hexadecimal text of any number of bytes. -/
  | bytes
  | requestId
  | value
  | list (item : Shape)
  | nullable (item : Shape)
  | pair (first second : Shape)
  /-- An object whose names are hexadecimal texts of a number of bytes. -/
  | dictionary (size : Nat) (item : Shape)
  | record (name : String) (fields : Fields)

inductive Fields where
  | nil
  | cons (name : String) (presence : Presence) (shape : Shape) (rest : Fields)

end

mutual

def Shape.Carrier : Shape → Type
  | .text => String
  | .boolean => Bool
  | .unsigned bits => Word bits
  | .signed => SignedWord
  | .quantity bits => Word bits
  | .fixed size => FixedBytes size
  | .bytes => List UInt8
  | .requestId => Rpc.RequestId
  | .value => Json
  | .list item => List item.Carrier
  | .nullable item => Option item.Carrier
  | .pair first second => first.Carrier × second.Carrier
  | .dictionary size item => OrderedMap (FixedBytes size) item.Carrier
  | .record _ fields => fields.Carrier

def Fields.Carrier : Fields → Type
  | .nil => Unit
  | .cons _ _ shape rest => shape.Carrier × rest.Carrier

end

def Fields.Slots : Fields → Type
  | .nil => Unit
  | .cons _ _ shape rest => Option shape.Carrier × rest.Slots

def Fields.noSlots : (fields : Fields) → fields.Slots
  | .nil => ()
  | .cons _ _ _ rest => (none, rest.noSlots)

def Fields.length : Fields → Nat
  | .nil => 0
  | .cons _ _ _ rest => rest.length + 1

mutual

def Shape.empty : (s : Shape) → s.Carrier
  | .text => ""
  | .boolean => false
  | .unsigned bits => (default : Word bits)
  | .signed => (default : SignedWord)
  | .quantity bits => (default : Word bits)
  | .fixed size => FixedBytes.zero size
  | .bytes => ([] : List UInt8)
  | .requestId => Rpc.RequestId.null
  | .value => Json.null
  | .list item => ([] : List item.Carrier)
  | .nullable item => (none : Option item.Carrier)
  | .pair first second => (first.empty, second.empty)
  | .dictionary size item => (OrderedMap.empty : OrderedMap (FixedBytes size) item.Carrier)
  | .record _ fields => fields.empty

def Fields.empty : (fields : Fields) → fields.Carrier
  | .nil => ()
  | .cons _ _ shape rest => (shape.empty, rest.empty)

end

def Shape.isNone : (s : Shape) → s.Carrier → Bool
  | .nullable _, none => true
  | _, _ => false

mutual

def Shape.toJson : (s : Shape) → s.Carrier → Json
  | .text, t => .string t
  | .boolean, b => .bool b
  | .unsigned bits, w => .integer (w : Word bits).toNat
  | .signed, n => .integer (n : SignedWord).toInt
  | .quantity bits, w => .string (Quantity.text (w : Word bits).toNat)
  | .fixed _, b => .string (FixedBytes.text b)
  | .bytes, bs => .string (Hex.encodeMarked bs)
  | .requestId, .number n => .integer n.toNat
  | .requestId, .string s => .string s
  | .requestId, .null => .null
  | .value, v => v
  | .list item, (xs : List item.Carrier) => .array (xs.map item.toJson)
  | .nullable _, none => .null
  | .nullable item, some x => item.toJson x
  | .pair first second, (a, b) => .array [first.toJson a, second.toJson b]
  | .dictionary _ item, (m : OrderedMap (FixedBytes _) item.Carrier) =>
    .object (m.entries.map fun e => (e.1.text, item.toJson e.2))
  | .record _ fields, x => .object (fields.toMembers x)

def Fields.toMembers : (fields : Fields) → fields.Carrier → List (String × Json)
  | .nil, _ => []
  | .cons name presence shape rest, (x, y) =>
    if presence = .omittable ∧ shape.isNone x then rest.toMembers y
    else (name, shape.toJson x) :: rest.toMembers y

end

def Shape.wanted : Shape → String
  | .text => "a string"
  | .boolean => "a boolean"
  | .unsigned bits => "u" ++ toString bits
  | .signed => "i64"
  | .quantity bits => "a " ++ toString (bits / 8) ++ " byte hex string"
  | .fixed size =>
    toString size ++ " bytes, represented as a hex string of length " ++ toString (2 * size)
      ++ ", an array of u8, or raw bytes"
  | .bytes =>
    "a variable number of bytes represented as a hex string, an array of u8, or raw bytes"
  | .requestId => "RpcId"
  | .value => "any valid JSON value"
  | .list _ => "a sequence"
  | .nullable _ => "option"
  | .pair _ _ => "a tuple of size 2"
  | .dictionary _ _ => "a map"
  | .record name _ => "struct " ++ name

def elements (name : String) (n : Nat) : String :=
  "struct " ++ name ++ " with " ++ toString n ++ (if n = 1 then " element" else " elements")

def exactly (size : Nat) : String := "exactly " ++ toString size ++ " bytes"

/-- What is wanted of a JSON list that is longer than what it denotes. -/
def fewer : String := "fewer elements in array"

end ChainGateway.Wire
