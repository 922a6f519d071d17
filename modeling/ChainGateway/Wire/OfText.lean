import ChainGateway.Json.Skip
import ChainGateway.Wire.OfJson

namespace ChainGateway.Wire

open Json (Cause Found Reader)
open Json.Reader

def deeper {α : Type} (depth : Nat) (r : Nat → Reader α) : Reader α :=
  match depth with
  | 0 => failAhead .tooDeep
  | depth + 1 => r depth

/-- Read a list where none is wanted, which is noticed behind its bracket. -/
def noList {α : Type} (depth : Nat) (wanted : String) : Reader α :=
  deeper depth fun _ => do
    advance
    enclosed (fail (.wrongType .sequence wanted)) closeList

/-- Read an object where none is wanted, which is noticed behind its brace. -/
def noObject {α : Type} (depth : Nat) (wanted : String) : Reader α :=
  deeper depth fun _ => do
    advance
    enclosed (fail (.wrongType .map wanted)) closeObject

def boolean : Reader Bool := placed do
  match ← peekToken? with
  | none => failAhead .endInValue
  | some b =>
    if b = 116 then
      advance
      keyword [114, 117, 101]
      return true
    else if b = 102 then
      advance
      keyword [97, 108, 115, 101]
      return false
    else misfit Shape.boolean.wanted

/-- Read a number for which there is a use, and anything else as a misfit. -/
def numeric {α : Type} (wanted : String) (use : Json → Except Cause α) : Reader α := placed do
  match ← peekToken? with
  | none => failAhead .endInValue
  | some b =>
    if b = 45 then
      advance
      lift (use (← number true))
    else if isDigit b then lift (use (← number false))
    else misfit wanted

def unsigned (bits : Nat) : Reader (Word bits) :=
  numeric (Shape.unsigned bits).wanted (unsignedOfJson bits)

def byte : Reader UInt8 := do
  return UInt8.ofNat (← unsigned 8).toNat

def someBytes (size : Nat) : Nat → List UInt8 → Reader (List UInt8)
  | 0, acc => return acc.reverse
  | missing + 1, acc => do
    if ← anotherItem (missing + 1 = size) then someBytes size missing ((← byte) :: acc)
    else fail (.wrongLength (size - (missing + 1)) (exactly size))

/-- Read the bytes of a fixed length inside a list. What follows them is looked at only for being
another byte. -/
def fixedItems (size : Nat) : Reader (FixedBytes size) := do
  let bs ← someBytes size size []
  let b ← lift (orElse (FixedBytes.ofList? bs) (.wrongLength bs.length (exactly size)))
  let surplus ← attempt do
    if ← anotherItem (size = 0) then
      let _ ← byte
      return true
    else return false
  if surplus = some true then fail (.wrongLength (size + 1) (exactly size))
  return b

mutual

def Shape.read : (s : Shape) → (depth : Nat) → Reader s.Carrier
  | .text, _ =>
    startingWith 34 Shape.text.wanted do
      advance
      let t ← stringBody
      return t
  | .boolean, _ => boolean
  | .unsigned bits, _ => unsigned bits
  | .signed, _ => numeric Shape.signed.wanted signedOfJson
  | .quantity bits, depth =>
    dispatch (quantityOfJson bits) (noList depth (Shape.quantity bits).wanted)
      (noObject depth (Shape.quantity bits).wanted)
  | .fixed size, depth =>
    dispatch (fixedOfJson size)
      (deeper depth fun _ => do
        advance
        enclosed (fixedItems size) closeList)
      (noObject depth (Shape.fixed size).wanted)
  | .bytes, depth =>
    dispatch bytesOfJson (deeper depth fun _ => list byte) (noObject depth Shape.bytes.wanted)
  | .requestId, depth => do
    let id ← lift (requestIdOfJson (← verbatim depth))
    return id
  | .value, depth => value Json.ofBytes depth
  | .list item, depth =>
    startingWith 91 (Shape.list item).wanted (deeper depth fun d => list (item.read d))
  | .nullable item, depth => do
    if (← peekToken?) = some 110 then
      advance
      keyword [117, 108, 108]
      return none
    else
      let x ← item.read depth
      return some x
  | .pair first second, depth =>
    startingWith 91 (Shape.pair first second).wanted (deeper depth fun d => do
      advance
      enclosed (do
        if ← anotherItem true then
          let a ← first.read d
          if ← anotherItem false then
            let b ← second.read d
            return (a, b)
          else fail (.wrongLength 1 (Shape.pair first second).wanted)
        else fail (.wrongLength 0 (Shape.pair first second).wanted)) closeList)
  | .dictionary size item, depth =>
    startingWith 123 (Shape.dictionary size item).wanted (deeper depth fun d =>
      object (fun (m : OrderedMap (FixedBytes size) item.Carrier) => do
        let b ← lift (fixedOfText size (← name))
        colon
        let x ← item.read d
        return m.insert b x) .empty)
  | .record name fields, depth => placed do
    match ← peekToken? with
    | none => failAhead .endInValue
    | some b =>
      if b = 91 then
        deeper depth fun d => do
          advance
          enclosed (fields.readItems name fields.length d 0) closeList
      else if b = 123 then
        deeper depth fun d => do
          advance
          enclosed (do
            let slots ← members (fun slots => do
              let key ← Json.Reader.name
              fields.readMember d key slots) fields.noSlots
            lift (fields.ofSlots slots)) closeObject
      else misfit (Shape.record name fields).wanted

def Fields.readItems (owner : String) (total depth : Nat) :
    (fields : Fields) → (index : Nat) → Reader fields.Carrier
  | .nil, _ => return ()
  | .cons _ presence shape rest, index => do
    if ← anotherItem (index = 0) then
      let x ← shape.read depth
      let y ← rest.readItems owner total depth (index + 1)
      return (x, y)
    else if presence = .required then fail (.wrongLength index (elements owner total))
    else
      let y ← rest.readItems owner total depth (index + 1)
      return (shape.empty, y)

def Fields.readMember (depth : Nat) :
    (fields : Fields) → String → fields.Slots → Reader fields.Slots
  | .nil, _, slots => do
    colon
    skip
    return slots
  | .cons name _ shape rest, key, (slot, slots) => do
    if key = name then
      match slot with
      | some _ => fail (.duplicateField name)
      | none =>
        colon
        let x ← shape.read depth
        return (some x, slots)
    else
      let slots ← rest.readMember depth key slots
      return (slot, slots)

end

def Shape.ofBytes (s : Shape) (text : List UInt8) : Except Json.Fault s.Carrier :=
  all (s.read maxDepth) text

end ChainGateway.Wire
