import ChainGateway.Crypto.Blocks

namespace ChainGateway.Crypto.Sha256

structure State where
  a : UInt32
  b : UInt32
  c : UInt32
  d : UInt32
  e : UInt32
  f : UInt32
  g : UInt32
  h : UInt32

def initial : State :=
  ⟨0x6A09E667, 0xBB67AE85, 0x3C6EF372, 0xA54FF53A, 0x510E527F, 0x9B05688C, 0x1F83D9AB, 0x5BE0CD19⟩

def constants : List UInt32 := [
  0x428A2F98, 0x71374491, 0xB5C0FBCF, 0xE9B5DBA5, 0x3956C25B, 0x59F111F1, 0x923F82A4, 0xAB1C5ED5,
  0xD807AA98, 0x12835B01, 0x243185BE, 0x550C7DC3, 0x72BE5D74, 0x80DEB1FE, 0x9BDC06A7, 0xC19BF174,
  0xE49B69C1, 0xEFBE4786, 0x0FC19DC6, 0x240CA1CC, 0x2DE92C6F, 0x4A7484AA, 0x5CB0A9DC, 0x76F988DA,
  0x983E5152, 0xA831C66D, 0xB00327C8, 0xBF597FC7, 0xC6E00BF3, 0xD5A79147, 0x06CA6351, 0x14292967,
  0x27B70A85, 0x2E1B2138, 0x4D2C6DFC, 0x53380D13, 0x650A7354, 0x766A0ABB, 0x81C2C92E, 0x92722C85,
  0xA2BFE8A1, 0xA81A664B, 0xC24B8B70, 0xC76C51A3, 0xD192E819, 0xD6990624, 0xF40E3585, 0x106AA070,
  0x19A4C116, 0x1E376C08, 0x2748774C, 0x34B0BCB5, 0x391C0CB3, 0x4ED8AA4A, 0x5B9CCA4F, 0x682E6FF3,
  0x748F82EE, 0x78A5636F, 0x84C87814, 0x8CC70208, 0x90BEFFFA, 0xA4506CEB, 0xBEF9A3F7, 0xC67178F2]

def rotateRight (w n : UInt32) : UInt32 := w >>> n ||| w <<< (32 - n)

def round (s : State) (k w : UInt32) : State :=
  let sigma₁ := rotateRight s.e 6 ^^^ rotateRight s.e 11 ^^^ rotateRight s.e 25
  let choice := (s.e &&& s.f) ^^^ (~~~ s.e &&& s.g)
  let t₁ := s.h + sigma₁ + choice + k + w
  let sigma₀ := rotateRight s.a 2 ^^^ rotateRight s.a 13 ^^^ rotateRight s.a 22
  let majority := (s.a &&& s.b) ^^^ (s.a &&& s.c) ^^^ (s.b &&& s.c)
  ⟨t₁ + sigma₀ + majority, s.a, s.b, s.c, s.d + t₁, s.e, s.f, s.g⟩

/-- The word that the schedule adds to the sixteen before it, given from the latest back. -/
def nextWord : List UInt32 → UInt32
  | [_, w₂, _, _, _, _, w₇, _, _, _, _, _, _, _, w₁₅, w₁₆] =>
    let sigma₀ := rotateRight w₁₅ 7 ^^^ rotateRight w₁₅ 18 ^^^ w₁₅ >>> 3
    let sigma₁ := rotateRight w₂ 17 ^^^ rotateRight w₂ 19 ^^^ w₂ >>> 10
    w₁₆ + sigma₀ + w₇ + sigma₁
  | _ => 0

/-- The rounds of a block, with the last sixteen words of the schedule from the latest back. The
first sixteen words are those of the block. -/
def rounds : List UInt32 → List UInt32 → List UInt32 → State → State
  | [], _, _, s => s
  | k :: ks, w :: ws, recent, s => rounds ks ws (w :: recent) (round s k w)
  | k :: ks, [], recent, s =>
    let w := nextWord (recent.take 16)
    rounds ks [] (w :: recent.take 15) (round s k w)

def wordOfBytes (bs : List UInt8) : UInt32 :=
  bs.foldl (fun w b => w <<< 8 ||| b.toUInt32) 0

def bytesOfWord (w : UInt32) : List UInt8 :=
  [(w >>> 24).toUInt8, (w >>> 16).toUInt8, (w >>> 8).toUInt8, w.toUInt8]

def absorb (s : State) (block : List UInt8) : State :=
  let t := rounds constants ((pieces 4 block).map wordOfBytes) [] s
  ⟨s.a + t.a, s.b + t.b, s.c + t.c, s.d + t.d, s.e + t.e, s.f + t.f, s.g + t.g, s.h + t.h⟩

def pad (message : List UInt8) : List UInt8 :=
  let length := UInt64.ofNat (8 * message.length)
  let size := (List.range 8).map fun i => (length >>> (8 * UInt64.ofNat (7 - i))).toUInt8
  message ++ 0x80 :: (List.replicate ((119 - message.length % 64) % 64) 0x00 ++ size)

def hash (message : List UInt8) : List UInt8 :=
  let s := (pieces 64 (pad message)).foldl absorb initial
  [s.a, s.b, s.c, s.d, s.e, s.f, s.g, s.h].flatMap bytesOfWord

/-- The keyed hash of a message, for a key of at most a block. -/
def hmac (key message : List UInt8) : List UInt8 :=
  let block := key ++ List.replicate (64 - key.length) 0x00
  hash (block.map (· ^^^ 0x5C) ++ hash (block.map (· ^^^ 0x36) ++ message))

end ChainGateway.Crypto.Sha256
