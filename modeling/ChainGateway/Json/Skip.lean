import ChainGateway.Json.Token

namespace ChainGateway.Json.Reader

def skipExponent : Reader Unit := do
  advance
  let sign ← peek?
  if sign = some 43 ∨ sign = some 45 then advance
  match ← next? with
  | none => failHere .badNumber
  | some b => if isDigit b then discard digits else failHere .badNumber

def skipDecimals : Reader Unit := do
  advance
  if (← digits).isEmpty then failAhead .badNumber
  let b ← peek?
  if b = some 101 ∨ b = some 69 then skipExponent

def skipNumber : Reader Unit := do
  match ← next? with
  | none => failHere .badNumber
  | some b =>
    if b = 48 then
      if (← peek?).any isDigit then failAhead .badNumber
    else if isDigit b then discard digits
    else failHere .badNumber
  let b ← peek?
  if b = some 46 then skipDecimals
  else if b = some 101 ∨ b = some 69 then skipExponent

def skipString : Nat → Reader Unit
  | 0 => return
  | fuel + 1 => do
    modify fun c => c.advanceBy (c.rest.takeWhile isLiteral).length
    match ← peek? with
    | none => failHere .endInString
    | some b =>
      if b = 34 then advance
      else if b = 92 then
        advance
        let e ← within
        if e = 117 then discard codeUnit
        else if (escaped? e).isNone then failHere .badEscape
        skipString fuel
      else failHere .controlCharacter

inductive Bracket where
  | square
  | brace
deriving DecidableEq, Repr

def Bracket.closing : Bracket → UInt8
  | square => 93
  | brace => 125

def Bracket.ended : Bracket → Malformed
  | square => .endInList
  | brace => .endInObject

def Bracket.noSeparator : Bracket → Malformed
  | square => .noListSeparator
  | brace => .noObjectSeparator

def skipName (fuel : Nat) : Reader Unit := do
  match ← peekToken? with
  | none => failAhead .endInObject
  | some b => if b = 34 then advance else failAhead .keyNotString
  skipString fuel
  colon

/-- Where passing over a value has got to: before a value, or inside brackets behind an item or
behind the opening bracket. -/
inductive Stage where
  | value
  | inside (afterItem : Bool)
deriving DecidableEq, Repr

/-- Pass over a value. A comma must follow an item and is followed by another value, whatever comes;
in an object a name stands before each value. -/
def skipFrom : Nat → List Bracket → Stage → Reader Unit
  | 0, _, _ => return
  | fuel + 1, stack, .value => do
    match ← peekToken? with
    | none => failAhead .endInValue
    | some b =>
      if b = 91 then
        advance
        skipFrom fuel (.square :: stack) (.inside false)
      else if b = 123 then
        advance
        skipFrom fuel (.brace :: stack) (.inside false)
      else
        if b = 110 then
          advance
          keyword [117, 108, 108]
        else if b = 116 then
          advance
          keyword [114, 117, 101]
        else if b = 102 then
          advance
          keyword [97, 108, 115, 101]
        else if b = 45 then
          advance
          skipNumber
        else if isDigit b then skipNumber
        else if b = 34 then
          advance
          skipString (fuel + 1)
        else failAhead .noValue
        skipFrom fuel stack (.inside true)
  | _ + 1, [], .inside _ => return
  | fuel + 1, bracket :: stack, .inside afterItem => do
    match ← peekToken? with
    | none => failAhead bracket.ended
    | some b =>
      if afterItem ∧ b = 44 then
        advance
        if bracket = .brace then skipName (fuel + 1)
        skipFrom fuel (bracket :: stack) .value
      else if b = bracket.closing then
        advance
        skipFrom fuel stack (.inside true)
      else if afterItem then failAhead bracket.noSeparator
      else
        if bracket = .brace then skipName (fuel + 1)
        skipFrom fuel (bracket :: stack) .value

def skip : Reader Unit := do
  skipFrom (3 * (← steps)) [] .value

end ChainGateway.Json.Reader
