import ChainGateway.Decimal.Shortest
import ChainGateway.Hex
import ChainGateway.Text.Quoted

namespace ChainGateway.Json

inductive Malformed where
  | endInValue
  | endInList
  | endInObject
  | endInString
  | noValue
  | noKeyword
  | noColon
  | noListSeparator
  | noObjectSeparator
  | keyNotString
  | trailingComma
  | trailingCharacters
  | badNumber
  | numberOutOfRange
  | badEscape
  | loneSurrogate
  | unfinishedPair
  | controlCharacter
  | illFormedUtf8
  | tooDeep
deriving DecidableEq, Repr

def Malformed.message : Malformed → String
  | endInValue => "EOF while parsing a value"
  | endInList => "EOF while parsing a list"
  | endInObject => "EOF while parsing an object"
  | endInString => "EOF while parsing a string"
  | noValue => "expected value"
  | noKeyword => "expected ident"
  | noColon => "expected `:`"
  | noListSeparator => "expected `,` or `]`"
  | noObjectSeparator => "expected `,` or `\x7d`"
  | keyNotString => "key must be a string"
  | trailingComma => "trailing comma"
  | trailingCharacters => "trailing characters"
  | badNumber => "invalid number"
  | numberOutOfRange => "number out of range"
  | badEscape => "invalid escape"
  | loneSurrogate => "lone leading surrogate in hex escape"
  | unfinishedPair => "unexpected end of hex escape"
  | controlCharacter => "control character (\\u0000-\\u001F) found while parsing a string"
  | illFormedUtf8 => "invalid unicode code point"
  | tooDeep => "recursion limit exceeded"

inductive Found where
  | null
  | bool (b : Bool)
  | integer (n : Int)
  | double (x : Decimal.Binary64)
  | string (s : String)
  | sequence
  | map
deriving DecidableEq, Repr

def Found.text : Found → String
  | null => "null"
  | bool b => "boolean `" ++ toString b ++ "`"
  | integer n => "integer `" ++ toString n ++ "`"
  | double x => "floating point `" ++ Decimal.Shortest.plain.text x ++ "`"
  | string s => "string " ++ Text.Quoted.text s
  | sequence => "sequence"
  | map => "map"

/-- A line, counted from one, and the number of its bytes that precede or make up the fault. -/
structure Position where
  line : Nat
  column : Nat
deriving DecidableEq, Repr

def Position.text (p : Position) : String :=
  " at line " ++ toString p.line ++ " column " ++ toString p.column

inductive Cause where
  | malformed (m : Malformed)
  | wrongType (found : Found) (wanted : String)
  | wrongValue (found : Found) (wanted : String)
  | wrongLength (length : Nat) (wanted : String)
  | missingField (name : String)
  | duplicateField (name : String)
  | badHex (fault : Hex.Fault)
  | noVariant (name : String)
  /-- A text within the value is at fault, at a position of its own. -/
  | embedded (cause : Cause) (position : Position)
deriving DecidableEq, Repr

/-- How a fault of hexadecimal text is told where bytes of a fixed length are read. The offending
byte is shown as the character of its number. -/
def hexMessage : Hex.Fault → String
  | .oddLength => "odd number of digits"
  | .wrongLength => "invalid string length"
  | .badDigit b position =>
    "invalid character " ++ Text.Quoted.character (Char.ofNat b.toNat) ++ " at position "
      ++ toString position

def Cause.message : Cause → String
  | malformed m => m.message
  | wrongType found wanted => "invalid type: " ++ found.text ++ ", expected " ++ wanted
  | wrongValue found wanted => "invalid value: " ++ found.text ++ ", expected " ++ wanted
  | wrongLength length wanted => "invalid length " ++ toString length ++ ", expected " ++ wanted
  | missingField name => "missing field `" ++ name ++ "`"
  | duplicateField name => "duplicate field `" ++ name ++ "`"
  | badHex fault => hexMessage fault
  | noVariant name => "data did not match any variant of untagged enum " ++ name
  | embedded cause position => cause.message ++ position.text

/-- A cause, and where in a text it was noticed, if it was noticed in one. -/
structure Fault where
  cause : Cause
  position : Option Position
deriving DecidableEq, Repr

def Fault.message (f : Fault) : String :=
  match f.position with
  | none => f.cause.message
  | some p => f.cause.message ++ p.text

def Fault.placeAt (p : Position) (f : Fault) : Fault :=
  ⟨f.cause, f.position.orElse fun _ => some p⟩

/-- A fault of a text as the cause why the value around it is none. -/
def Fault.asCause (f : Fault) : Cause :=
  match f.position with
  | none => f.cause
  | some p => .embedded f.cause p

end ChainGateway.Json
