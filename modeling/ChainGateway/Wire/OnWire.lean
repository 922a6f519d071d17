import ChainGateway.Json.Printer
import ChainGateway.Wire.OfText

namespace ChainGateway

open Wire

/-- A type with a shape, and the two ways between its values and those of the shape. -/
class OnWire (α : Type) where
  shape : Shape
  pack : α → shape.Carrier
  unpack : shape.Carrier → α

namespace OnWire

variable {α : Type} [OnWire α]

/-- The JSON value that a value is written as, with the fields of records in order. -/
def toJson (a : α) : Json := (shape α).toJson (pack a)

def text (a : α) : String := (toJson a).compact

def ofJson (v : Json) : Except Json.Fault α :=
  match (shape α).ofJson v with
  | .ok x => .ok (unpack x)
  | .error cause => .error ⟨cause, none⟩

def ofBytes (text : List UInt8) : Except Json.Fault α :=
  ((shape α).ofBytes text).map unpack

end OnWire

end ChainGateway
