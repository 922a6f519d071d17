import ChainGateway.Text.Category

namespace ChainGateway.Text.Quoted

def byNumber (c : Char) : List Char :=
  "\\u\x7b".toList ++ Nat.toDigits 16 c.toNat ++ ['}']

def escape (quote c : Char) : List Char :=
  if c = '\x00' then ['\\', '0']
  else if c = '\t' then ['\\', 't']
  else if c = '\r' then ['\\', 'r']
  else if c = '\n' then ['\\', 'n']
  else if c = '\\' ∨ c = quote then ['\\', c]
  else if isExtender c ∨ ¬ isPrintable c then byNumber c
  else [c]

def text (s : String) : String :=
  String.ofList ('"' :: s.toList.flatMap (escape '"') ++ ['"'])

def character (c : Char) : String :=
  String.ofList ('\'' :: escape '\'' c ++ ['\''])

end ChainGateway.Text.Quoted
