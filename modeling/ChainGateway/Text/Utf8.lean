namespace ChainGateway.Text

def utf8 (s : String) : List UInt8 :=
  s.toList.flatMap String.utf8EncodeChar

/-- For a byte that opens a character of several bytes: how many bytes the character has, and the
least and the greatest byte that may stand second. -/
def leadByte? (b : UInt8) : Option (Nat × UInt8 × UInt8) :=
  if b < 0xC2 then none
  else if b < 0xE0 then some (2, 0x80, 0xBF)
  else if b = 0xE0 then some (3, 0xA0, 0xBF)
  else if b = 0xED then some (3, 0x80, 0x9F)
  else if b < 0xF0 then some (3, 0x80, 0xBF)
  else if b = 0xF0 then some (4, 0x90, 0xBF)
  else if b < 0xF4 then some (4, 0x80, 0xBF)
  else if b = 0xF4 then some (4, 0x80, 0x8F)
  else none

def isTail (b : UInt8) : Bool := 0x80 ≤ b && b ≤ 0xBF

def tailBits (b : UInt8) : Nat := b.toNat % 64

/-- Cut bytes into characters. Where no character can be made, the longest run of bytes that
begins one, or else a single byte, is dropped and leaves a `none`. -/
def segments : List UInt8 → List (Option Char)
  | [] => []
  | a :: r =>
    if a < 0x80 then some (Char.ofNat a.toNat) :: segments r
    else match leadByte? a with
      | none => none :: segments r
      | some (size, low, high) => match r with
        | [] => [none]
        | b :: r₁ =>
          if low ≤ b && b ≤ high then
            if size = 2 then some (Char.ofNat (a.toNat % 32 * 64 + tailBits b)) :: segments r₁
            else match r₁ with
              | [] => [none]
              | c :: r₂ =>
                if isTail c then
                  if size = 3 then
                    some (Char.ofNat (a.toNat % 16 * 4096 + tailBits b * 64 + tailBits c))
                      :: segments r₂
                  else match r₂ with
                    | [] => [none]
                    | d :: r₃ =>
                      if isTail d then
                        some (Char.ofNat (a.toNat % 8 * 262144 + tailBits b * 4096
                          + tailBits c * 64 + tailBits d)) :: segments r₃
                      else none :: segments (d :: r₃)
                else none :: segments (c :: r₂)
          else none :: segments (b :: r₁)

/-- The text that the bytes spell, if they are well formed throughout. -/
def ofUtf8? (bs : List UInt8) : Option String :=
  (segments bs).mapM id |>.map String.ofList

/-- The text that the bytes spell, with U+FFFD for each ill-formed run. -/
def ofUtf8Lossy (bs : List UInt8) : List Char :=
  (segments bs).map (·.getD (Char.ofNat 0xFFFD))

end ChainGateway.Text
