import ChainGateway.Text.Numeral
import ChainGateway.Yaml.Character

namespace ChainGateway.Yaml

inductive Style where
  | plain
  | quoted
  | literal
  | folded
deriving DecidableEq, Repr

structure Written where
  text : List Char
  rest : List Char

def endsPlain (inFlow : Bool) : List Char → Bool
  | [] => true
  | c :: r => isSpace c || (c == ':' && endsWord r) || (inFlow && isFlowMark c)

/-- Is there a colon within a flow collection that could be read in two ways? -/
def isDoubtfulColon (inFlow : Bool) : List Char → Bool
  | ':' :: c :: _ => inFlow && (isFlowMark c || c == '?')
  | _ => false

def plainWord? (inFlow : Bool) : List Char → Option Written
  | [] => some ⟨[], []⟩
  | c :: r =>
    if isDoubtfulColon inFlow (c :: r) then none
    else if endsPlain inFlow (c :: r) then some ⟨[], c :: r⟩
    else (plainWord? inFlow r).map fun w => { w with text := c :: w.text }

/-- Words up to the end of a plain scalar, and whether white space with a line break follows it.
Outside of flow collections a line that begins left of the margin does not belong to the scalar. -/
def plain? (inFlow : Bool) (margin : Nat) : (fuel : Nat) → List Char → Option (Written × Bool)
  | 0, _ => none
  | fuel + 1, cs => do
    let word ← plainWord? inFlow cs
    let (gap, after) := splitGap word.rest
    let fresh := freshLines gap
    let ended := some (⟨word.text, after⟩, ! fresh.isEmpty)
    if fresh.any fun line => (line.take margin).contains '\t' then none
    else
      let column := (fresh.getLast?.map List.length).getD (margin + 1)
      if gap.isEmpty || (! inFlow && column < margin) || after.head? == some '#'
          || (column = 0 && isDocumentMark after) then ended
      else
        let next ← plainWord? inFlow after
        if next.text.isEmpty then ended
        else
          let (more, broken) ← plain? inFlow margin fuel after
          return (⟨word.text ++ fold gap ++ more.text, more.rest⟩, broken)

inductive Piece where
  | literal (c : Char)
  | space (c : Char)
  /-- An escaped line break. -/
  | splice

/-- What white space between pieces stands for. Behind an escaped break, blanks count for nothing
and breaks stay. -/
def closeGap (spliced : Bool) (gap : List Char) : List Char :=
  if spliced then gap.filter isBreak else fold gap

def joinPieces (spliced : Bool) (gap : List Char) : List Piece → List Char
  | [] => closeGap spliced gap
  | .literal c :: r => closeGap spliced gap ++ c :: joinPieces false [] r
  | .space c :: r => joinPieces spliced (gap ++ [c]) r
  | .splice :: r => closeGap spliced gap ++ joinPieces true [] r

/-- Is a quoted scalar interrupted by a document mark behind this character? -/
def isInterrupted (c : Char) (r : List Char) : Bool := isBreak c && isDocumentMark r

def plainPiece (c : Char) : Piece := if isSpace c then .space c else .literal c

def prepend? (p : Option Piece) (found : Option (List Piece × List Char)) :
    Option (List Piece × List Char) := do
  let p ← p
  let (ps, r) ← found
  return (p :: ps, r)

def singlePieces? : List Char → Option (List Piece × List Char)
  | [] => none
  | '\'' :: '\'' :: r => prepend? (some (.literal '\'')) (singlePieces? r)
  | '\'' :: r => some ([], r)
  | c :: r => prepend? (if isInterrupted c r then none else some (plainPiece c)) (singlePieces? r)

def escapedChar? : Char → Option Nat
  | '0' => some 0x00
  | 'a' => some 0x07
  | 'b' => some 0x08
  | 't' => some 0x09
  | '\t' => some 0x09
  | 'n' => some 0x0A
  | 'v' => some 0x0B
  | 'f' => some 0x0C
  | 'r' => some 0x0D
  | 'e' => some 0x1B
  | ' ' => some 0x20
  | '"' => some 0x22
  | '/' => some 0x2F
  | '\\' => some 0x5C
  | 'N' => some 0x85
  | '_' => some 0xA0
  | 'L' => some 0x2028
  | 'P' => some 0x2029
  | _ => none

def charOfNat? (n : Nat) : Option Char :=
  if h : n.isValidChar then some (Char.ofNatAux n h) else none

def charOfDigits? (digits : List Char) : Option Char := Text.numeral? 16 digits >>= charOfNat?

def doublePieces? : List Char → Option (List Piece × List Char)
  | [] => none
  | '"' :: r => some ([], r)
  | '\\' :: 'x' :: a :: b :: r =>
    prepend? ((charOfDigits? [a, b]).map .literal) (doublePieces? r)
  | '\\' :: 'u' :: a :: b :: c :: d :: r =>
    prepend? ((charOfDigits? [a, b, c, d]).map .literal) (doublePieces? r)
  | '\\' :: 'U' :: a :: b :: c :: d :: e :: f :: g :: h :: r =>
    prepend? ((charOfDigits? [a, b, c, d, e, f, g, h]).map .literal) (doublePieces? r)
  | '\\' :: c :: r =>
    if isBreak c then prepend? (if isDocumentMark r then none else some .splice) (doublePieces? r)
    else prepend? ((escapedChar? c).map fun n => .literal (Char.ofNat n)) (doublePieces? r)
  | c :: r =>
    prepend? (if c == '\\' || isInterrupted c r then none else some (plainPiece c))
      (doublePieces? r)

def quoted? (single : Bool) (cs : List Char) : Option Written := do
  let (ps, rest) ← if single then singlePieces? cs else doublePieces? cs
  return ⟨joinPieces false [] ps, rest⟩

inductive Chomping where
  | strip
  | clip
  | keep
deriving DecidableEq, Repr

def chomping? : Char → Option Chomping
  | '-' => some .strip
  | '+' => some .keep
  | _ => none

def increment? (c : Char) : Option Nat :=
  if '1' ≤ c ∧ c ≤ '9' then some (c.toNat - 48) else none

def indicators? : List Char → Option (Chomping × Nat × List Char)
  | [] => some (.clip, 0, [])
  | c :: r =>
    match chomping? c, increment? c with
    | some chomping, _ =>
      match r with
      | d :: r' =>
        if d.isDigit then (increment? d).map fun n => (chomping, n, r') else some (chomping, 0, r)
      | [] => some (chomping, 0, [])
    | none, some n =>
      match r with
      | d :: r' =>
        match chomping? d with
        | some chomping => some (chomping, n, r')
        | none => some (.clip, n, r)
      | [] => some (.clip, n, [])
    | none, none => if c.isDigit then none else some (.clip, 0, c :: r)

/-- What follows the line on which a block begins; besides its indicators that line may hold a
comment only. -/
def afterHeader? (cs : List Char) : Option (List Char) :=
  let r := cs.dropWhile isBlank
  let r := if r.head? == some '#' then r.dropWhile (! isBreak ·) else r
  match r with
  | [] => some []
  | c :: r => if isBreak c then some r else none

/-- The breaks of empty lines at the start of a block, the width of the widest of them and of the
line behind them, that line's indentation, and what follows the indentation. -/
def detectMargin? : (fuel : Nat) → (widest : Nat) → List Char →
    Option (List Char × Nat × Nat × List Char)
  | 0, _, _ => none
  | fuel + 1, widest, cs =>
    let (spaces, rest) := cs.span (· == ' ')
    let widest := max widest spaces.length
    match rest with
    | [] => some ([], widest, spaces.length, [])
    | c :: r =>
      if c == '\t' then none
      else if isBreak c then
        (detectMargin? fuel widest r).map fun (breaks, found) => (c :: breaks, found)
      else some ([], widest, spaces.length, rest)

/-- The breaks of empty lines, how far the line behind them is indented up to the margin, and what
follows the indentation. -/
def emptyLines? (margin : Nat) : (fuel : Nat) → List Char → Option (List Char × Nat × List Char)
  | 0, _ => none
  | fuel + 1, cs =>
    let indented := ((cs.take margin).takeWhile (· == ' ')).length
    match cs.drop indented with
    | [] => some ([], indented, [])
    | c :: r =>
      if indented < margin ∧ c = '\t' then none
      else if isBreak c then
        (emptyLines? margin fuel r).map fun (breaks, found) => (c :: breaks, found)
      else some ([], indented, c :: r)

/-- What stands between two lines of a block: the break of the first, and the breaks of empty lines.
In a folded block a line feed between two lines that begin with no blank is folded. -/
def joint (style : Style) (lead trail : List Char) (indented : Bool) : List Char :=
  if style = .folded ∧ lead = ['\n'] ∧ ¬ indented then
    if trail.isEmpty then [' '] else trail
  else lead ++ trail

structure Lines where
  text : List Char
  lead : List Char
  trail : List Char
  rest : List Char

def lines? (style : Style) (margin : Nat) : (fuel : Nat) → (indented : Nat) →
    (lead trail : List Char) → (blankBefore : Bool) → List Char → Option Lines
  | 0, _, _, _, _, _ => none
  | fuel + 1, indented, lead, trail, blankBefore, cs =>
    match cs with
    | [] => some ⟨[], lead, trail, []⟩
    | first :: _ =>
      if indented ≠ margin then some ⟨[], lead, trail, cs⟩
      else do
        let (line, rest) := cs.span (! isBreak ·)
        let (trail', indented', rest') ← emptyLines? margin (rest.length + 1) (rest.drop 1)
        let more ← lines? style margin fuel indented' (rest.take 1) trail' (isBlank first) rest'
        return { more with
          text := joint style lead trail (blankBefore || isBlank first) ++ line ++ more.text }

/-- A block scalar from behind its first character, within a collection whose entries stand at the
column `parent`, if it is in any. -/
def block? (style : Style) (parent : Option Nat) (cs : List Char) : Option Written := do
  let (chomping, increment, r) ← indicators? cs
  let r ← afterHeader? r
  let (breaks, margin, indented, r) ← if increment = 0 then do
      let (breaks, widest, indented, r) ← detectMargin? (r.length + 1) 0 r
      pure (breaks, max (max widest 1) ((parent.map (· + 1)).getD 0), indented, r)
    else do
      let margin := parent.getD 0 + increment
      let (breaks, indented, r) ← emptyLines? margin (r.length + 1) r
      pure (breaks, margin, indented, r)
  let ls ← lines? style margin (r.length + 1) indented [] breaks false r
  let ending := match chomping with
    | .strip => []
    | .clip => ls.lead
    | .keep => ls.lead ++ ls.trail
  return ⟨ls.text ++ ending, ls.rest⟩

end ChainGateway.Yaml
