import ChainGateway.Json.Fault

namespace ChainGateway.Json

structure Cursor where
  rest : List UInt8
  line : Nat
  column : Nat
deriving Repr

namespace Cursor

def start (text : List UInt8) : Cursor := ⟨text, 1, 0⟩

def position (c : Cursor) : Position := ⟨c.line, c.column⟩

def advance (c : Cursor) : Cursor :=
  match c.rest with
  | [] => c
  | b :: r => if b = 10 then ⟨r, c.line + 1, 0⟩ else ⟨r, c.line, c.column + 1⟩

def advanceBy : Nat → Cursor → Cursor
  | 0, c => c
  | n + 1, c => advanceBy n c.advance

end Cursor

abbrev Reader := EStateM Fault Cursor

namespace Reader

variable {α : Type}

def fail (cause : Cause) : Reader α := throw ⟨cause, none⟩

def failHere (m : Malformed) : Reader α := fun c =>
  .error ⟨.malformed m, some c.position⟩ c

def failAhead (m : Malformed) : Reader α := fun c =>
  .error ⟨.malformed m, some c.advance.position⟩ c

def peek? : Reader (Option UInt8) := return (← get).rest.head?

def advance : Reader Unit := modify Cursor.advance

def next? : Reader (Option UInt8) := do
  let b ← peek?
  advance
  return b

def isSpace (b : UInt8) : Bool := b = 32 || b = 9 || b = 10 || b = 13

/-- Skip what may stand between tokens and look at the byte behind it. -/
def peekToken? : Reader (Option UInt8) := do
  modify fun c => c.advanceBy (c.rest.takeWhile isSpace).length
  peek?

/-- Give an unplaced fault the position at which the reader stopped. -/
def placed (r : Reader α) : Reader α := fun c =>
  match r c with
  | .ok a c' => .ok a c'
  | .error f c' => .error (f.placeAt c'.position) c'

/-- Read what stands between brackets and then the closing one. After a fault inside, the closing
bracket is still looked for, which moves the cursor, but the fault inside is the one reported. -/
def enclosed (inside : Reader α) (close : Reader Unit) : Reader α := fun c =>
  match inside c with
  | .ok a c' => match close c' with
    | .ok _ c'' => .ok a c''
    | .error f c'' => .error f c''
  | .error f c' => match close c' with
    | .ok _ c'' => .error f c''
    | .error _ c'' => .error f c''

/-- The value if one is read, and none if reading fails; the cursor stays where reading ended. -/
def attempt (r : Reader α) : Reader (Option α) := fun c =>
  match r c with
  | .ok a c' => .ok (some a) c'
  | .error _ c' => .ok none c'

def all (r : Reader α) (text : List UInt8) : Except Fault α :=
  let whole : Reader α := do
    let a ← r
    if (← peekToken?).isSome then failAhead .trailingCharacters
    return a
  match whole (Cursor.start text) with
  | .ok a _ => .ok a
  | .error f _ => .error f

def anotherItem (first : Bool) : Reader Bool := do
  match ← peekToken? with
  | none => failAhead .endInList
  | some b =>
    if b = 93 then return false
    else if first then return true
    else if b = 44 then
      advance
      match ← peekToken? with
      | none => failAhead .endInValue
      | some b => if b = 93 then failAhead .trailingComma else return true
    else failAhead .noListSeparator

def closeList : Reader Unit := do
  match ← peekToken? with
  | none => failAhead .endInList
  | some b =>
    if b = 93 then advance
    else if b = 44 then
      advance
      match ← peekToken? with
      | some b => if b = 93 then failAhead .trailingComma else failAhead .trailingCharacters
      | none => failAhead .trailingCharacters
    else failAhead .trailingCharacters

/-- Is there another member in an object? Its name, which follows, begins with a quote. -/
def anotherMember (first : Bool) : Reader Bool := do
  match ← peekToken? with
  | none => failAhead .endInObject
  | some b =>
    if b = 125 then return false
    else if first then
      if b = 34 then return true else failAhead .keyNotString
    else if b = 44 then
      advance
      match ← peekToken? with
      | none => failAhead .endInValue
      | some b =>
        if b = 34 then return true
        else if b = 125 then failAhead .trailingComma
        else failAhead .keyNotString
    else failAhead .noObjectSeparator

def colon : Reader Unit := do
  match ← peekToken? with
  | none => failAhead .endInObject
  | some b => if b = 58 then advance else failAhead .noColon

def closeObject : Reader Unit := do
  match ← peekToken? with
  | none => failAhead .endInObject
  | some b =>
    if b = 125 then advance
    else if b = 44 then failAhead .trailingComma
    else failAhead .trailingCharacters

def steps : Reader Nat := return (← get).rest.length + 1

def items (item : Reader α) : Reader (List α) := do
  go (← steps) true []
where
  go : Nat → Bool → List α → Reader (List α)
    | 0, _, acc => return acc.reverse
    | fuel + 1, first, acc => do
      if ← anotherItem first then go fuel false ((← item) :: acc) else return acc.reverse

/-- Read the members of an object up to its closing bracket, each by `member` onto what the ones
before it gave. -/
def members (member : α → Reader α) (a : α) : Reader α := do
  go (← steps) true a
where
  go : Nat → Bool → α → Reader α
    | 0, _, a => return a
    | fuel + 1, first, a => do
      if ← anotherMember first then go fuel false (← member a) else return a

def furtherMembers (member : α → Reader α) (a : α) : Reader α := do
  members.go member (← steps) false a

end Reader

end ChainGateway.Json
