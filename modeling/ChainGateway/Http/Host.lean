import ChainGateway.Hex
import ChainGateway.Quantity
import ChainGateway.Text.Numeral
import ChainGateway.Text.Parts
import ChainGateway.Text.Utf8

namespace ChainGateway.Http

def percentDecode : List UInt8 → List UInt8
  | 37 :: a :: b :: r =>
    match Hex.digitValue? a, Hex.digitValue? b with
    | some high, some low => UInt8.ofNat (16 * high + low) :: percentDecode r
    | _, _ => 37 :: percentDecode (a :: b :: r)
  | b :: r => b :: percentDecode r
  | [] => []

def percentByte (b : UInt8) : List Char := '%' :: (Hex.encodeByte b).map Char.toUpper

def percentEncode (keep : Char → Bool) (cs : List Char) : List Char :=
  cs.flatMap fun c => if keep c then [c] else (String.utf8EncodeChar c).flatMap percentByte

/-- A part of a number in dots: hexadecimal behind `0x`, octal behind `0`, and otherwise decimal. -/
def dottedPart? : List Char → Option Nat
  | ['0', 'x'] | ['0', 'X'] => some 0
  | '0' :: 'x' :: r | '0' :: 'X' :: r => Text.numeral? 16 r
  | '0' :: c :: r => Text.numeral? 8 (c :: r)
  | r => Text.numeral? 10 r

def dottedParts (name : List Char) : List (List Char) :=
  let parts := Text.cutAt (· == '.') name
  if parts.getLast? = some [] then parts.dropLast else parts

/-- A name is meant as a number if its last part is one, or looks like one. -/
def isNumeric (name : List Char) : Bool :=
  match (dottedParts name).getLast? with
  | none => false
  | some last => (! last.isEmpty && last.all Char.isDigit) || (dottedPart? last).isSome

/-- The four bytes that parts denote. The last part fills the bytes that the others leave. -/
def fourBytes? (parts : List Nat) : Option Nat :=
  match parts.getLast? with
  | none => none
  | some last =>
    let leading := parts.dropLast
    if leading.length ≤ 3 ∧ leading.all (· < 256) ∧ last < Nat.pow 256 (4 - leading.length) then
      some (leading.foldl (fun n part => 256 * n + part) 0
        * Nat.pow 256 (4 - leading.length) + last)
    else none

def dotted (n : Nat) : List Char :=
  ".".toList.intercalate ([24, 16, 8, 0].map fun shift => (toString (n >>> shift % 256)).toList)

def group? (cs : List Char) : Option Nat :=
  if cs.length ≤ 4 then Text.numeral? 16 cs else none

/-- Four decimal numbers without leading zeros in place of two groups. -/
def embedded? (cs : List Char) : Option (List Nat) := do
  let bytes ← (Text.cutAt (· == '.') cs).mapM fun part => do
    let n ← Text.numeral? 10 part
    if n < 256 ∧ (toString n).toList = part then some n else none
  match bytes with
  | [a, b, c, d] => some [256 * a + b, 256 * c + d]
  | _ => none

def groups? : List (List Char) → Option (List Nat)
  | [] => some []
  | [last] => if last.contains '.' then embedded? last else (group? last).map ([·])
  | part :: rest => do
    let n ← group? part
    return n :: (← groups? rest)

def splitGap? : List Char → Option (List Char × List Char)
  | ':' :: ':' :: r => some ([], r)
  | c :: r => (splitGap? r).map fun (before, after) => (c :: before, after)
  | [] => none

def side? (cs : List Char) : Option (List Nat) :=
  if cs.isEmpty then some [] else groups? (Text.cutAt (· == ':') cs)

/-- The eight groups that a text denotes. A gap stands for the zeros that are missing. -/
def eightGroups? (cs : List Char) : Option (List Nat) :=
  match splitGap? cs with
  | none => (side? cs).filter (·.length = 8)
  | some (before, after) => do
    let before ← if before.contains '.' then none else side? before
    let after ← side? after
    if before.length + after.length ≤ 7 then
      some (before ++ List.replicate (8 - before.length - after.length) 0 ++ after)
    else none

def zeros (groups : List Nat) : Nat := (groups.takeWhile (· = 0)).length

/-- Where the first of the longest runs of zeros stands, and its length. -/
def longestGap (groups : List Nat) : Nat × Nat :=
  (List.range groups.length).foldl
    (fun best i => if best.2 < zeros (groups.drop i) then (i, zeros (groups.drop i)) else best)
    (0, 0)

/-- Groups in hexadecimal, with a gap for the longest run of zeros if it has two at least. -/
def grouped (groups : List Nat) : List Char :=
  let written (gs : List Nat) := ":".toList.intercalate (gs.map Quantity.digits)
  let (start, length) := longestGap groups
  if length < 2 then written groups
  else written (groups.take start) ++ "::".toList ++ written (groups.drop (start + length))

def bracketed? (cs : List Char) : Option (List Char) :=
  match cs.getLast? with
  | some ']' => (eightGroups? cs.dropLast).map fun groups => '[' :: grouped groups ++ [']']
  | _ => none

def isForbidden (c : Char) : Bool :=
  c.toNat ≤ 32 || "#/:<>?@[\\]^|".toList.contains c

def isForbiddenInDomain (c : Char) : Bool :=
  isForbidden c || 0x7F ≤ c.toNat || "%\x60\x7b\x7d".toList.contains c

def host? (cs : List Char) : Option (List Char) :=
  match cs with
  | '[' :: r => bracketed? r
  | _ => do
    let name ← Text.ofUtf8? (percentDecode (Text.utf8 (String.ofList cs)))
    let name := name.toList.map Char.toLower
    if name.isEmpty || name.any isForbiddenInDomain then none
    else if isNumeric name then
      let parts ← (dottedParts name).mapM dottedPart?
      (fourBytes? parts).map dotted
    else some name

def opaqueHost? (cs : List Char) : Option (List Char) :=
  match cs with
  | '[' :: r => bracketed? r
  | _ =>
    if cs.any isForbidden then none
    else some (percentEncode (fun c => c.toNat < 0x7F) cs)

end ChainGateway.Http
