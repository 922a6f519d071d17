import ChainGateway.Decimal.Binary64
import ChainGateway.OrderedMap

namespace ChainGateway

inductive Json where
  | null
  | bool (b : Bool)
  | integer (n : Int)
  | double (x : Decimal.Binary64)
  | string (s : String)
  | array (items : List Json)
  | object (members : List (String × Json))
deriving Inhabited, BEq, Repr

namespace Json

def isNull : Json → Bool
  | null => true
  | _ => false

def member? (name : String) : Json → Option Json
  | object members => members.lookup name
  | _ => none

/-- The object of a list of members, ordered by name; of members of one name the last is kept. -/
def ofMembers (members : List (String × Json)) : Json :=
  object (OrderedMap.ofList members).entries

mutual

/-- The same value with the members of every object in the order of their names. -/
def sorted : Json → Json
  | array items => array (sortedItems items)
  | object members => ofMembers (sortedMembers members)
  | v => v

def sortedItems : List Json → List Json
  | [] => []
  | v :: r => sorted v :: sortedItems r

def sortedMembers : List (String × Json) → List (String × Json)
  | [] => []
  | (k, v) :: r => (k, sorted v) :: sortedMembers r

end

/-- Integers that are kept exact: those of 64 bits, signed or unsigned. -/
def exactInteger (n : Int) : Bool := -0x8000000000000000 ≤ n && n < 0x10000000000000000

end Json

end ChainGateway
