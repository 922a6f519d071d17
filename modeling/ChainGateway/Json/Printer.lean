import ChainGateway.Decimal.Shortest
import ChainGateway.Hex
import ChainGateway.Json.Basic

namespace ChainGateway.Json

def escape (c : Char) : List Char :=
  if c = '"' then ['\\', '"']
  else if c = '\\' then ['\\', '\\']
  else if c.toNat < 0x20 then
    if c = '\n' then ['\\', 'n']
    else if c = '\r' then ['\\', 'r']
    else if c = '\t' then ['\\', 't']
    else if c.toNat = 8 then ['\\', 'b']
    else if c.toNat = 12 then ['\\', 'f']
    else ['\\', 'u', '0', '0', Hex.digit (c.toNat / 16), Hex.digit (c.toNat % 16)]
  else [c]

def quoted (s : String) : List Char :=
  '"' :: s.toList.flatMap escape ++ ['"']

def leaf : Json → List Char
  | null => ['n', 'u', 'l', 'l']
  | bool true => ['t', 'r', 'u', 'e']
  | bool false => ['f', 'a', 'l', 's', 'e']
  | integer n => (toString n).toList
  | double x => (Decimal.Shortest.plain.text x).toList
  | string s => quoted s
  | array _ => ['[', ']']
  | object _ => ['{', '}']

mutual

def compactChars : Json → List Char
  | array items => '[' :: compactItems items ++ [']']
  | object members => '{' :: compactMembers members ++ ['}']
  | v => leaf v

def compactItems : List Json → List Char
  | [] => []
  | [v] => compactChars v
  | v :: w :: r => compactChars v ++ ',' :: compactItems (w :: r)

def compactMembers : List (String × Json) → List Char
  | [] => []
  | [(k, v)] => quoted k ++ ':' :: compactChars v
  | (k, v) :: m :: r => quoted k ++ ':' :: compactChars v ++ ',' :: compactMembers (m :: r)

end

def compact (v : Json) : String := String.ofList (compactChars v)

def newline (level : Nat) : List Char := '\n' :: List.replicate (2 * level) ' '

mutual

def prettyChars (level : Nat) : Json → List Char
  | array [] => ['[', ']']
  | array (v :: r) =>
    '[' :: newline (level + 1) ++ prettyItems (level + 1) (v :: r) ++ newline level ++ [']']
  | object [] => ['{', '}']
  | object (m :: r) =>
    '{' :: newline (level + 1) ++ prettyMembers (level + 1) (m :: r) ++ newline level ++ ['}']
  | v => leaf v

def prettyItems (level : Nat) : List Json → List Char
  | [] => []
  | [v] => prettyChars level v
  | v :: w :: r => prettyChars level v ++ ',' :: newline level ++ prettyItems level (w :: r)

def prettyMembers (level : Nat) : List (String × Json) → List Char
  | [] => []
  | [(k, v)] => quoted k ++ ':' :: ' ' :: prettyChars level v
  | (k, v) :: m :: r =>
    quoted k ++ ':' :: ' ' :: prettyChars level v ++ ',' :: newline level
      ++ prettyMembers level (m :: r)

end

/-- The text over several lines, an empty array or object excepted. -/
def pretty (v : Json) : String := String.ofList (prettyChars 0 v)

end ChainGateway.Json
