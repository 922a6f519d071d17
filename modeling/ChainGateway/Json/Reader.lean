import ChainGateway.Json.Token

namespace ChainGateway.Json

def found : Json → Found
  | .null => .null
  | .bool b => .bool b
  | .integer n => .integer n
  | .double x => .double x
  | .string s => .string s
  | .array _ => .sequence
  | .object _ => .map

def mismatch {α : Type} (v : Json) (wanted : String) : Except Cause α :=
  .error (.wrongType (found v) wanted)

namespace Reader

def maxDepth : Nat := 127

def lift {α : Type} : Except Cause α → Reader α
  | .ok a => return a
  | .error cause => fail cause

def liftWhole {α : Type} : Except Fault α → Reader α
  | .ok a => return a
  | .error fault => throw fault

/-- Read what comes next: a value without brackets is handed to `leaf`, and a bracket is left to
`array` or `object`. -/
def dispatch {α : Type} (leaf : Json → Except Cause α) (array object : Reader α) : Reader α :=
  placed do
    match ← peekToken? with
    | none => failAhead .endInValue
    | some b =>
      if b = 110 then
        advance
        keyword [117, 108, 108]
        lift (leaf .null)
      else if b = 116 then
        advance
        keyword [114, 117, 101]
        lift (leaf (.bool true))
      else if b = 102 then
        advance
        keyword [97, 108, 115, 101]
        lift (leaf (.bool false))
      else if b = 45 then
        advance
        lift (leaf (← number true))
      else if isDigit b then lift (leaf (← number false))
      else if b = 34 then
        advance
        lift (leaf (.string (← stringBody)))
      else if b = 91 then array
      else if b = 123 then object
      else failAhead .noValue

/-- Read a value without brackets and fail, since it is not what was wanted. -/
def misfit {α : Type} (wanted : String) : Reader α :=
  dispatch (mismatch · wanted) (fail (.wrongType .sequence wanted))
    (fail (.wrongType .map wanted))

/-- Read what begins with one byte as it should, and anything else as a misfit. -/
def startingWith {α : Type} (b : UInt8) (wanted : String) (r : Reader α) : Reader α := placed do
  match ← peekToken? with
  | none => failAhead .endInValue
  | some b' => if b' = b then r else misfit wanted

def list {α : Type} (item : Reader α) : Reader (List α) := do
  advance
  enclosed (items item) closeList

/-- Read an object from its brace on, each member by `member` onto what the ones before it gave. -/
def object {α : Type} (member : α → Reader α) (a : α) : Reader α := do
  advance
  enclosed (members member a) closeObject

def member (value : Reader Json) (ms : List (String × Json)) : Reader (List (String × Json)) := do
  let k ← name
  colon
  return ms ++ [(k, ← value)]

/-- Read a value as it is written, inside which as many brackets may open as the number says. -/
def verbatim : Nat → Reader Json
  | 0 => dispatch .ok (failAhead .tooDeep) (failAhead .tooDeep)
  | depth + 1 =>
    dispatch .ok (return .array (← list (verbatim depth)))
      (return .object (← object (member (verbatim depth)) []))

def entry {α : Type} (value : Reader α) (m : OrderedMap String α) :
    Reader (OrderedMap String α) := do
  let k ← name
  colon
  return m.insert k (← value)

/-- What is written where the text of a value is to stand for the value. -/
def embeddedText : String := "raw value"

def embedded {α : Type} (whole : List UInt8 → Except Fault α) : Reader α :=
  startingWith 34 embeddedText do
    advance
    let text ← stringBody
    liftWhole (whole (Text.utf8 text))

end Reader

/-- An object whose first member has this name stands for a value of which the member holds the
text. -/
def embeddingName : String := "$serde_json::private::RawValue"

namespace Reader

def objectOrEmbedded (whole : List UInt8 → Except Fault Json) (value : Reader Json) :
    Reader Json := do
  advance
  enclosed (do
    if ← anotherMember true then
      let k ← name
      colon
      if k = embeddingName then embedded whole
      else
        let m := OrderedMap.empty.insert k (← value)
        return .object (← furtherMembers (entry value) m).entries
    else return .object []) closeObject

/-- Read a value inside which as many brackets may open as the number says, with the members of its
objects in order, and with the values that `whole` gives of embedded texts in their places. -/
def value (whole : List UInt8 → Except Fault Json) : Nat → Reader Json
  | 0 => dispatch .ok (failAhead .tooDeep) (failAhead .tooDeep)
  | depth + 1 =>
    dispatch .ok (return .array (← list (value whole depth)))
      (objectOrEmbedded whole (value whole depth))

end Reader

/-- The value of a text within which texts are embedded at fewer levels than the number says. -/
def ofBytesWithin : Nat → List UInt8 → Except Fault Json
  | 0, _ => .error ⟨.malformed .endInValue, none⟩
  | levels + 1, text => Reader.all (Reader.value (ofBytesWithin levels) Reader.maxDepth) text

/-- The value of a text. An embedded text is shorter than the one around it, so that there are no
more levels than the text has bytes. -/
def ofBytes (text : List UInt8) : Except Fault Json := ofBytesWithin (text.length + 1) text

/-- The first member of an object that embeds a text, and how many members there are besides. -/
def embedding? : List (String × Json) → Option (Json × Nat)
  | (k, v) :: rest => if k = embeddingName then some (v, rest.length) else none
  | [] => none

/-- The value of the text that a first member embeds. There must not be other members. -/
def unembed (whole : List UInt8 → Except Fault Json) : Json → Nat → Except Cause Json
  | .string text, besides => do
    let v ← (whole (Text.utf8 text)).mapError Fault.asCause
    if besides = 0 then return v
    else .error (.wrongLength (besides + 1) "fewer elements in map")
  | v, _ => mismatch v Reader.embeddedText

mutual

/-- The same value with the members of every object in the order of their names, and with the values
that `whole` gives of embedded texts in their places. -/
def reread (whole : List UInt8 → Except Fault Json) : Json → Except Cause Json
  | array items => (rereadItems whole items).map array
  | object members =>
    match embedding? members with
    | some (v, besides) => unembed whole v besides
    | none => (rereadMembers whole members).map ofMembers
  | v => .ok v

def rereadItems (whole : List UInt8 → Except Fault Json) : List Json → Except Cause (List Json)
  | [] => .ok []
  | v :: r => do return (← reread whole v) :: (← rereadItems whole r)

def rereadMembers (whole : List UInt8 → Except Fault Json) :
    List (String × Json) → Except Cause (List (String × Json))
  | [] => .ok []
  | (k, v) :: r => do return (k, ← reread whole v) :: (← rereadMembers whole r)

end

end ChainGateway.Json
