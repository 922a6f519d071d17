namespace ChainGateway.Hex

inductive Fault where
  | oddLength
  | wrongLength
  | badDigit (byte : UInt8) (position : Nat)
deriving DecidableEq, Repr

def digit (n : Nat) : Char :=
  if n < 10 then Char.ofNat (48 + n) else Char.ofNat (87 + n)

def digitValue? (b : UInt8) : Option Nat :=
  if 48 ≤ b && b ≤ 57 then some (b.toNat - 48)
  else if 97 ≤ b && b ≤ 102 then some (b.toNat - 87)
  else if 65 ≤ b && b ≤ 70 then some (b.toNat - 55)
  else none

def encodeByte (b : UInt8) : List Char :=
  [digit (b.toNat / 16), digit (b.toNat % 16)]

def encode (bs : List UInt8) : List Char :=
  bs.flatMap encodeByte

def encodeMarked (bs : List UInt8) : String :=
  String.ofList ('0' :: 'x' :: encode bs)

def decodePairs (position : Nat) : List UInt8 → Except Fault (List UInt8)
  | [] => .ok []
  | [_] => .error .oddLength
  | a :: b :: r =>
    match digitValue? a, digitValue? b with
    | some high, some low =>
      (decodePairs (position + 2) r).map (UInt8.ofNat (16 * high + low) :: ·)
    | none, _ => .error (.badDigit a position)
    | some _, none => .error (.badDigit b (position + 1))

def decode (text : List UInt8) : Except Fault (List UInt8) :=
  if text.length % 2 = 1 then .error .oddLength else decodePairs 0 text

def dropMarker : List UInt8 → List UInt8
  | 48 :: 120 :: r => r
  | 48 :: 88 :: r => r
  | r => r

/-- Read digits behind an optional marker. Parity is looked at before the marker is dropped, and
positions count from behind it. -/
def decodeMarked (text : List UInt8) : Except Fault (List UInt8) :=
  if text.length % 2 = 1 then .error .oddLength else decodePairs 0 (dropMarker text)

/-- Read exactly `size` bytes behind an optional marker. The length is looked at before any
digit. -/
def decodeSized (size : Nat) (text : List UInt8) : Except Fault (List UInt8) :=
  if text.length % 2 = 1 then .error .oddLength
  else if (dropMarker text).length ≠ 2 * size then .error .wrongLength
  else decodePairs 0 (dropMarker text)

theorem length_of_decodePairs {text bs : List UInt8} {position : Nat}
    (h : decodePairs position text = .ok bs) : text.length = 2 * bs.length := by
  fun_induction decodePairs position text generalizing bs with
  | case1 => simp_all
  | case2 => simp at h
  | case3 position a b r high low _ _ ih =>
    cases hr : decodePairs (position + 2) r with
    | error e => simp [hr, Except.map] at h
    | ok cs =>
      simp only [hr, Except.map, Except.ok.injEq] at h
      subst h
      simp only [List.length_cons, ih hr]
      omega
  | case4 => simp at h
  | case5 => simp at h

theorem length_of_decodeSized {size : Nat} {text bs : List UInt8}
    (h : decodeSized size text = .ok bs) : bs.length = size := by
  unfold decodeSized at h
  split at h
  · simp at h
  · split at h
    · simp at h
    · rename_i hl
      have := length_of_decodePairs h
      omega

end ChainGateway.Hex
