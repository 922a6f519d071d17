import ChainGateway.Hex
import ChainGateway.OrderedMap
import ChainGateway.Text.Utf8

namespace ChainGateway

@[ext]
structure FixedBytes (size : Nat) where
  toList : List UInt8
  length_toList : toList.length = size
deriving DecidableEq, Repr

abbrev Address := FixedBytes 20
abbrev Hash := FixedBytes 32

namespace FixedBytes

variable {size : Nat}

def zero (size : Nat) : FixedBytes size := ⟨List.replicate size 0, List.length_replicate⟩

instance : Inhabited (FixedBytes size) := ⟨zero size⟩

/-- Byte strings of one length are ordered byte by byte, which is the order of the numbers they
denote. -/
instance : OrderedKey (FixedBytes size) where
  lt a b := a.toList < b.toList
  decidableLT a b := inferInstanceAs (Decidable (a.toList < b.toList))
  irrefl a := List.lt_irrefl a.toList
  trans h₁ h₂ := List.lt_trans h₁ h₂
  eq_of_not_lt h₁ h₂ := FixedBytes.ext (List.le_antisymm (List.not_lt.1 h₂) (List.not_lt.1 h₁))

def ofList? (bs : List UInt8) : Option (FixedBytes size) :=
  if h : bs.length = size then some ⟨bs, h⟩ else none

theorem ofList?_eq_some_iff {bs : List UInt8} {b : FixedBytes size} :
    ofList? bs = some b ↔ bs = b.toList := by
  constructor
  · intro h
    unfold ofList? at h
    split at h
    · rw [← Option.some.inj h]
    · cases h
  · rintro rfl
    exact dif_pos b.length_toList

def text (b : FixedBytes size) : String := Hex.encodeMarked b.toList

def ofText (s : String) : Except Hex.Fault (FixedBytes size) :=
  match h : Hex.decodeSized size (Text.utf8 s) with
  | .ok bs => .ok ⟨bs, Hex.length_of_decodeSized h⟩
  | .error e => .error e

end FixedBytes

end ChainGateway
