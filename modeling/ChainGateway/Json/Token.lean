import ChainGateway.Json.Basic
import ChainGateway.Json.Cursor
import ChainGateway.Text.Utf8

namespace ChainGateway.Json

open Decimal

namespace Reader

def keyword : List UInt8 → Reader Unit
  | [] => return
  | b :: r => do
    match ← next? with
    | none => failHere .endInValue
    | some b' => if b' = b then keyword r else failHere .noKeyword

def isDigit (b : UInt8) : Bool := 48 ≤ b && b ≤ 57

def digitValue (b : UInt8) : Nat := b.toNat - 48

def digits : Reader (List Nat) := do
  let ds := (← get).rest.takeWhile isDigit
  modify (Cursor.advanceBy ds.length)
  return ds.map digitValue

/-- A significand of 64 bits under construction. Once a digit does not fit, it and the digits
behind it are no longer taken in. -/
structure Significand where
  value : Nat
  full : Bool
deriving Repr

def Significand.push (s : Significand) (d : Nat) : Significand :=
  if s.full || s.value * 10 + d ≥ 0x10000000000000000 then ⟨s.value, true⟩
  else ⟨s.value * 10 + d, false⟩

def Significand.taken (s : Significand) : List Nat → Nat
  | [] => 0
  | d :: r => if (s.push d).full then 0 else (s.push d).taken r + 1

/-- A floating-point number of a sign, a significand and a decimal exponent. -/
def scaled (negative : Bool) (significand : Nat) (exponent : Int) : Reader Json :=
  match Binary64.ofScientific? significand exponent with
  | some rank => return .double ⟨negative, rank⟩
  | none => failHere .numberOutOfRange

def exponentLimit : Nat := 0x80000000

/-- Read the digits of an exponent. An exponent out of bounds makes the number too large at the
digit that does so, unless it is negative or the number is zero. -/
def exponentDigits (negative : Bool) (significand : Nat) (start : Int) (downward : Bool) :
    Nat → Nat → Reader Json
  | 0, e => scaled negative significand (if downward then start - e else start + e)
  | fuel + 1, e => do
    match ← peek? with
    | none => scaled negative significand (if downward then start - e else start + e)
    | some b =>
      if isDigit b then
        advance
        if e * 10 + digitValue b < exponentLimit then
          exponentDigits negative significand start downward fuel (e * 10 + digitValue b)
        else if significand ≠ 0 ∧ ¬ downward then failHere .numberOutOfRange
        else
          let _ ← digits
          return .double ⟨negative, 0⟩
      else scaled negative significand (if downward then start - e else start + e)

def exponentPart (negative : Bool) (significand : Nat) (start : Int) : Reader Json := do
  advance
  let sign ← peek?
  if sign = some 43 ∨ sign = some 45 then advance
  match ← next? with
  | none => failHere .endInValue
  | some b =>
    if isDigit b then
      exponentDigits negative significand start (sign = some 45) (← steps) (digitValue b)
    else failHere .badNumber

def maybeExponent (negative : Bool) (significand : Nat) (start : Int) : Reader Json := do
  let b ← peek?
  if b = some 101 ∨ b = some 69 then exponentPart negative significand start
  else scaled negative significand start

/-- Read decimals from their point on. Digits that the significand does not take in are left out of
account. -/
def decimals (negative : Bool) (significand : Nat) (start : Int) : Reader Json := do
  advance
  let ds ← digits
  if ds.isEmpty then
    match ← peek? with
    | some _ => failAhead .badNumber
    | none => failAhead .endInValue
  else
    let s : Significand := ⟨significand, false⟩
    maybeExponent negative (ds.foldl Significand.push s).value (start - s.taken ds)

/-- A number of whole digits: exact if it is one of 64 bits, and a floating-point number if it is
beyond them or a negative zero. -/
def whole (negative : Bool) (n : Nat) : Json :=
  if negative then
    if n = 0 ∨ n > 0x8000000000000000 then .double ⟨true, Binary64.nearest n 1⟩
    else .integer (-n)
  else .integer n

def afterWhole (negative : Bool) (ds : List Nat) : Reader Json := do
  let s : Significand := ⟨0, false⟩
  let significand := ds.foldl Significand.push s
  let dropped := ds.length - s.taken ds
  let b ← peek?
  if b = some 46 then decimals negative significand.value dropped
  else if b = some 101 ∨ b = some 69 then exponentPart negative significand.value dropped
  else if significand.full then scaled negative significand.value dropped
  else return whole negative significand.value

/-- Read a number behind its sign. A zero may only stand alone before the point. -/
def number (negative : Bool) : Reader Json := do
  match ← next? with
  | none => failHere .endInValue
  | some b =>
    if b = 48 then
      match ← peek? with
      | none => afterWhole negative [0]
      | some b => if isDigit b then failAhead .badNumber else afterWhole negative [0]
    else if isDigit b then
      let ds ← digits
      afterWhole negative (digitValue b :: ds)
    else failHere .badNumber

def fourDigits? : List UInt8 → Option Nat
  | [a, b, c, d] => do
    let a ← Hex.digitValue? a
    let b ← Hex.digitValue? b
    let c ← Hex.digitValue? c
    let d ← Hex.digitValue? d
    return ((a * 16 + b) * 16 + c) * 16 + d
  | _ => none

def codeUnit : Reader Nat := do
  let text := (← get).rest.take 4
  modify (Cursor.advanceBy text.length)
  if text.length < 4 then failHere .endInString
  else match fourDigits? text with
    | some n => return n
    | none => failHere .badEscape

def within : Reader UInt8 := do
  match ← next? with
  | some b => return b
  | none => failHere .endInString

/-- Read a numbered escape behind its letter: one unit, or two that make up a pair. -/
def numbered : Reader Char := do
  let n ← codeUnit
  if 0xDC00 ≤ n ∧ n ≤ 0xDFFF then failHere .loneSurrogate
  else if n < 0xD800 ∨ 0xDBFF < n then return Char.ofNat n
  else
    if (← within) ≠ 92 then failHere .unfinishedPair
    if (← within) ≠ 117 then failHere .unfinishedPair
    let m ← codeUnit
    if m < 0xDC00 ∨ 0xDFFF < m then failHere .loneSurrogate
    else return Char.ofNat ((n - 0xD800) * 1024 + (m - 0xDC00) + 0x10000)

def escaped? (b : UInt8) : Option Char :=
  if b = 34 then some '"'
  else if b = 92 then some '\\'
  else if b = 47 then some '/'
  else if b = 98 then some (Char.ofNat 8)
  else if b = 102 then some (Char.ofNat 12)
  else if b = 110 then some '\n'
  else if b = 114 then some '\r'
  else if b = 116 then some '\t'
  else none

def escapeSequence : Reader Char := do
  let b ← within
  if b = 117 then numbered
  else match escaped? b with
    | some c => return c
    | none => failHere .badEscape

def isLiteral (b : UInt8) : Bool := 32 ≤ b && b ≠ 34 && b ≠ 92

def stringBytes : Nat → List UInt8 → Reader (List UInt8)
  | 0, acc => return acc
  | fuel + 1, acc => do
    let bs := (← get).rest.takeWhile isLiteral
    modify (Cursor.advanceBy bs.length)
    let acc := bs.reverse ++ acc
    match ← next? with
    | none => failHere .endInString
    | some b =>
      if b = 34 then return acc
      else if b = 92 then
        let c ← escapeSequence
        stringBytes fuel ((String.utf8EncodeChar c).reverse ++ acc)
      else failHere .controlCharacter

def stringBody : Reader String := do
  let bs ← stringBytes (← steps) []
  match Text.ofUtf8? bs.reverse with
  | some s => return s
  | none => failHere .illFormedUtf8

def name : Reader String := do
  advance
  stringBody

end Reader

end ChainGateway.Json
