import ChainGateway.Word
import ChainGateway.Yaml.Document

namespace ChainGateway.Yaml

inductive Kind where
  | null
  | flag
  | integer

def Kind.tag : Kind → String
  | null => "tag:yaml.org,2002:null"
  | flag => "tag:yaml.org,2002:bool"
  | integer => "tag:yaml.org,2002:int"

namespace Scalar

def saysNull (s : Scalar) : Bool := ["null", "Null", "NULL", "~"].contains s.text

/-- The text of a scalar that can be of a kind other than text: a plain one, or a literal block with
a tag that tells so. -/
def textAs? (kind : Kind) (s : Scalar) : Option String :=
  if s.style = .plain ∨ (s.style = .literal ∧ s.tag = some kind.tag) then some s.text else none

/-- Does the scalar say that there is nothing? A tag may claim that of a text that does not. -/
def isNothing? (s : Scalar) : Option Bool :=
  if s.style ≠ .plain then some false
  else match s.tag with
    | none => some (s.text.isEmpty || s.saysNull)
    | some tag =>
      if tag ≠ Kind.null.tag then some false
      else if s.saysNull then some true
      else none

def flag? (s : Scalar) : Option Bool := do
  let text ← s.textAs? .flag
  if ["true", "True", "TRUE"].contains text then some true
  else if ["false", "False", "FALSE"].contains text then some false
  else none

/-- The number that digits denote behind the mark of their base, or without one in base ten, where
no zero may lead. -/
def digits? : List Char → Option Nat
  | '0' :: 'x' :: r => Text.numeral? 16 r
  | '0' :: 'o' :: r => Text.numeral? 8 r
  | '0' :: 'b' :: r => Text.numeral? 2 r
  | ['0'] => some 0
  | '0' :: _ => none
  | r => Text.numeral? 10 r

def natural? (s : Scalar) : Option Nat := do
  let text ← s.textAs? .integer
  match text.toList with
  | '+' :: r => digits? r
  | r => digits? r

end Scalar

namespace Document

def resolve? (d : Document) : Node → Option Node
  | .alias number => d.named.lookup number
  | node => some node

def scalar? (d : Document) (node : Node) : Option Scalar := do
  match ← d.resolve? node with
  | .scalar s => some s
  | _ => none

def text? (d : Document) (node : Node) : Option String := (d.scalar? node).map Scalar.text

def flag? (d : Document) (node : Node) : Option Bool := d.scalar? node >>= Scalar.flag?

def word? (d : Document) (bits : Nat) (node : Node) : Option (Word bits) :=
  d.scalar? node >>= Scalar.natural? >>= Word.ofNat?

def optional? {α : Type} (d : Document) (read : Node → Option α) (node : Node) :
    Option (Option α) := do
  match ← d.resolve? node with
  | .scalar s => if ← s.isNothing? then return none else return some (← read node)
  | _ => return some (← read node)

def entries? (d : Document) (node : Node) : Option (List (String × Node)) := do
  match ← d.resolve? node with
  | .mapping entries => entries.mapM fun (k, v) => do return (← d.text? k, v)
  | .scalar s => if s.style = .plain ∧ s.text.isEmpty then some [] else none
  | _ => none

/-- The value of a key that may be given once at most, or something else where it is not. -/
def field? {α : Type} (read : Node → Option α) (absent : α) (name : String)
    (entries : List (String × Node)) : Option α :=
  match entries.filter fun (k, _) => k = name with
  | [] => some absent
  | [(_, v)] => read v
  | _ => none

end Document

end ChainGateway.Yaml
