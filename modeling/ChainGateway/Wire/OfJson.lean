import ChainGateway.Json.Reader
import ChainGateway.Wire.Shape

namespace ChainGateway.Wire

open Json (Cause Found mismatch)

def orElse {α : Type} (x : Option α) (cause : Cause) : Except Cause α :=
  match x with
  | some a => .ok a
  | none => .error cause

def unsignedOfJson (bits : Nat) : Json → Except Cause (Word bits)
  | .integer n =>
    if n < 0 then .error (.wrongValue (.integer n) (Shape.unsigned bits).wanted)
    else orElse (Word.ofNat? n.toNat) (.wrongValue (.integer n) (Shape.unsigned bits).wanted)
  | v => mismatch v (Shape.unsigned bits).wanted

def signedOfJson : Json → Except Cause SignedWord
  | .integer n => orElse (SignedWord.ofInt? n) (.wrongValue (.integer n) Shape.signed.wanted)
  | v => mismatch v Shape.signed.wanted

/-- A quantity is an integer of sixty-four bits at most, or the text of a number that fits. -/
def quantityOfJson (bits : Nat) : Json → Except Cause (Word bits)
  | .integer n =>
    if n < 0 then mismatch (.integer n) (Shape.quantity bits).wanted
    else orElse (Word.ofNat? n.toNat) (.wrongValue (.integer n) (Shape.quantity bits).wanted)
  | .string s =>
    orElse (Quantity.ofText? bits s) (.wrongValue (.string s) (Shape.quantity bits).wanted)
  | v => mismatch v (Shape.quantity bits).wanted

def byteOfJson (v : Json) : Except Cause UInt8 :=
  (unsignedOfJson 8 v).map fun w => UInt8.ofNat w.toNat

/-- Bytes of a fixed length as a list of numbers. One surplus item goes unnoticed if it is no
byte. -/
def fixedOfItems (size : Nat) (vs : List Json) : Except Cause (FixedBytes size) := do
  let bs ← (vs.take size).mapM byteOfJson
  let b ← orElse (FixedBytes.ofList? bs) (.wrongLength vs.length (exactly size))
  match vs.drop size with
  | [] => return b
  | v :: rest =>
    if (byteOfJson v).isOk then .error (.wrongLength (size + 1) (exactly size))
    else if rest.isEmpty then return b
    else .error (.wrongLength vs.length fewer)

def fixedOfText (size : Nat) (s : String) : Except Cause (FixedBytes size) :=
  (FixedBytes.ofText s).mapError .badHex

def fixedOfJson (size : Nat) : Json → Except Cause (FixedBytes size)
  | .string s => fixedOfText size s
  | .array vs => fixedOfItems size vs
  | v => mismatch v (Shape.fixed size).wanted

def bytesOfJson : Json → Except Cause (List UInt8)
  | .string s =>
    match Hex.decodeMarked (Text.utf8 s) with
    | .ok bs => .ok bs
    | .error _ => .error (.wrongValue (.string s) "a valid hex string")
  | .array vs => vs.mapM byteOfJson
  | v => mismatch v Shape.bytes.wanted

/-- An identifier is an integer of sixty-four bits without a sign, a string or null. -/
def requestIdOfJson : Json → Except Cause Rpc.RequestId
  | .null => .ok .null
  | .string s => .ok (.string s)
  | .integer n =>
    if n < 0 then .error (.noVariant Shape.requestId.wanted)
    else orElse ((Word.ofNat? n.toNat).map .number) (.noVariant Shape.requestId.wanted)
  | _ => .error (.noVariant Shape.requestId.wanted)

mutual

def Shape.ofJson : (s : Shape) → Json → Except Cause s.Carrier
  | .text, .string t => .ok t
  | .text, v => mismatch v Shape.text.wanted
  | .boolean, .bool b => .ok b
  | .boolean, v => mismatch v Shape.boolean.wanted
  | .unsigned bits, v => unsignedOfJson bits v
  | .signed, v => signedOfJson v
  | .quantity bits, v => quantityOfJson bits v
  | .fixed size, v => fixedOfJson size v
  | .bytes, v => bytesOfJson v
  | .requestId, v => requestIdOfJson v
  | .value, v => v.reread Json.ofBytes
  | .list item, .array vs => vs.mapM item.ofJson
  | .list item, v => mismatch v (Shape.list item).wanted
  | .nullable _, .null => .ok none
  | .nullable item, v => (item.ofJson v).map some
  | .pair first second, .array [] => .error (.wrongLength 0 (Shape.pair first second).wanted)
  | .pair first second, .array (v :: vs) => do
    let a ← first.ofJson v
    match vs with
    | [] => .error (.wrongLength 1 (Shape.pair first second).wanted)
    | w :: rest =>
      let b ← second.ofJson w
      if rest.isEmpty then return (a, b) else .error (.wrongLength (rest.length + 2) fewer)
  | .pair first second, v => mismatch v (Shape.pair first second).wanted
  | .dictionary size item, .object ms =>
    ms.foldlM (fun (m : OrderedMap (FixedBytes size) item.Carrier) (k, v) => do
      let b ← fixedOfText size k
      return m.insert b (← item.ofJson v)) .empty
  | .dictionary size item, v => mismatch v (Shape.dictionary size item).wanted
  | .record name fields, .array vs => fields.ofItems name vs.length fields.length 0 vs
  | .record _ fields, .object ms => do
    fields.ofSlots (← ms.foldlM (fun slots (k, v) => fields.put k v slots) fields.noSlots)
  | .record name fields, v => mismatch v (Shape.record name fields).wanted

/-- The fields from a list of items; those at the end may be absent unless they are required. -/
def Fields.ofItems (owner : String) (given total : Nat) :
    (fields : Fields) → (index : Nat) → List Json → Except Cause fields.Carrier
  | .nil, _, rest => if rest.isEmpty then .ok () else .error (.wrongLength given fewer)
  | .cons _ _ shape rest, index, v :: vs => do
    let x ← shape.ofJson v
    return (x, ← rest.ofItems owner given total (index + 1) vs)
  | .cons _ presence shape rest, index, [] => do
    if presence = .required then .error (.wrongLength index (elements owner total))
    return (shape.empty, ← rest.ofItems owner given total (index + 1) [])

/-- Put the value of a member into the slot of its field, which must be free. A member that belongs
to no field changes nothing. -/
def Fields.put : (fields : Fields) → String → Json → fields.Slots → Except Cause fields.Slots
  | .nil, _, _, slots => .ok slots
  | .cons name _ shape rest, key, v, (slot, slots) =>
    if key = name then
      match slot with
      | some _ => .error (.duplicateField name)
      | none => (shape.ofJson v).map fun x => (some x, slots)
    else (rest.put key v slots).map fun slots => (slot, slots)

/-- The fields of the filled slots; a slot may be empty unless its field is required. -/
def Fields.ofSlots : (fields : Fields) → fields.Slots → Except Cause fields.Carrier
  | .nil, _ => .ok ()
  | .cons _ _ _ rest, (some x, slots) => (rest.ofSlots slots).map fun y => (x, y)
  | .cons name presence shape rest, (none, slots) =>
    if presence = .required then .error (.missingField name)
    else (rest.ofSlots slots).map fun y => (shape.empty, y)

end

end ChainGateway.Wire
