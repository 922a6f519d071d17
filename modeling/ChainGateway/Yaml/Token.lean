import ChainGateway.Text.Utf8
import ChainGateway.Yaml.Scalar

namespace ChainGateway.Yaml

inductive Token where
  | version (major minor : Nat)
  | handle (name stem : String)
  | documentStart
  | documentEnd
  | sequenceStart
  | mappingStart
  | blockEnd
  | flowSequenceStart
  | flowSequenceEnd
  | flowMappingStart
  | flowMappingEnd
  | entry
  | comma
  | key
  | value
  | alias (name : String)
  | anchor (name : String)
  | tag (handle rest : String)
  | scalar (style : Style) (text : String)
deriving DecidableEq, Repr

structure Place where
  line : Nat
  column : Nat
  index : Nat
  rest : List Char

def Place.past (p : Place) (c : Char) : Place :=
  if isBreak c then ⟨p.line + 1, 0, p.index + 1, p.rest.tail⟩
  else ⟨p.line, p.column + 1, p.index + 1, p.rest.tail⟩

def Place.goTo (p : Place) (rest : List Char) : Place :=
  (p.rest.take (p.rest.length - rest.length)).foldl Place.past p

/-- Where a key may have begun that has no mark of its own. Only the colon behind it tells. -/
structure Candidate where
  /-- Must it be a key, since it stands where the keys of a block mapping do? -/
  needed : Bool
  /-- How many tokens precede it. -/
  number : Nat
  line : Nat
  column : Nat
  index : Nat

structure Layout where
  place : Place
  /-- The columns of the block collections around the place, innermost first. -/
  columns : List Nat
  /-- For each flow collection around the place, innermost first, the latest candidate in it. -/
  flows : List (Option Candidate)
  /-- The latest candidate outside of flow collections. -/
  outer : Option Candidate
  /-- May a key without a mark begin here? -/
  keyAllowed : Bool
  tokens : Array Token

abbrev Scan := StateT Layout Option

namespace Scan

def inFlow (l : Layout) : Bool := ! l.flows.isEmpty

def allowKey (b : Bool) : Scan Unit := modify fun l => { l with keyAllowed := b }

def emit (t : Token) : Scan Unit := modify fun l => { l with tokens := l.tokens.push t }

def insert (number : Nat) (t : Token) : Scan Unit :=
  modify fun l => { l with tokens := l.tokens.insertIdxIfInBounds number t }

def goTo (rest : List Char) : Scan Unit := modify fun l => { l with place := l.place.goTo rest }

def skip (n : Nat) : Scan Unit :=
  modify fun l => { l with place := l.place.goTo (l.place.rest.drop n) }

def candidate (l : Layout) : Option Candidate := (l.flows.head?).getD l.outer

def setCandidate (k : Option Candidate) : Scan Unit :=
  modify fun l => match l.flows with
    | [] => { l with outer := k }
    | _ :: r => { l with flows := k :: r }

def dropCandidate : Scan Unit := do
  match candidate (← get) with
  | some k => if k.needed then failure else setCandidate none
  | none => return

def noteCandidate : Scan Unit := do
  let l ← get
  if l.keyAllowed then
    let needed := ! inFlow l && l.columns.head? == some l.place.column
    dropCandidate
    setCandidate
      (some ⟨needed, l.tokens.size, l.place.line, l.place.column, l.place.index⟩)

def longestKey : Nat := 1024

/-- Is a candidate too far back for a key, which has to end on its line? -/
def isStale (p : Place) (k : Candidate) : Bool :=
  k.line < p.line || k.index + longestKey < p.index

def dropStale : Scan Unit := do
  let l ← get
  let stale (k : Option Candidate) : Bool := k.any (isStale l.place)
  if (l.outer :: l.flows).any fun k => k.any fun k => isStale l.place k && k.needed then failure
  else
    let fresh (k : Option Candidate) := if stale k then none else k
    set { l with outer := fresh l.outer, flows := l.flows.map fresh }

/-- Begin a block collection at a column, unless one is there already. Its token goes to a number if
there is one, or else to the end. -/
def indent (column : Nat) (number : Option Nat) (t : Token) : Scan Unit := do
  let l ← get
  if ! inFlow l && l.columns.head?.all (· < column) then
    set { l with columns := column :: l.columns }
    match number with
    | some n => insert n t
    | none => emit t

/-- End the block collections that stand right of a column, or all. -/
def outdent (column : Option Nat) : Scan Unit := do
  let l ← get
  if ! inFlow l then
    let isEnded (c : Nat) : Bool := column.all (· < c)
    let ended := l.columns.takeWhile isEnded
    set { l with
      columns := l.columns.dropWhile isEnded
      tokens := l.tokens ++ ended.map fun _ => Token.blockEnd }

/-- Skip blanks, comments and line breaks. A tab does not count as a blank where a key may begin
outside of flow collections; a line break lets one begin there. -/
def skipVoid (flow : Bool) (comment : Bool) (opened : Bool) : List Char → Bool × List Char
  | [] => (opened, [])
  | c :: r =>
    if isBreak c then skipVoid flow false (opened || ! flow) r
    else if comment || c == ' ' || (c == '\t' && (flow || ! opened)) then
      skipVoid flow comment opened r
    else if c == '#' then skipVoid flow true opened r
    else (opened, c :: r)

def void : Scan Unit := do
  let l ← get
  let (opened, rest) := skipVoid (inFlow l) false l.keyAllowed l.place.rest
  allowKey opened
  goTo rest

def splitNumber? (cs : List Char) : Option (Nat × List Char) := do
  let (digits, rest) := cs.span Char.isDigit
  let n ← if digits.length ≤ 9 then Text.numeral? 10 digits else none
  return (n, rest)

def isTagChar (c : Char) : Bool := isNameChar c || ";/?:@&=+$.%!~*'()".toList.contains c

/-- The text of a tag, with bytes in place of percent signs and digits. -/
def tagText? (cs : List Char) : Option String := go cs >>= Text.ofUtf8?
where
  go : List Char → Option (List UInt8)
  | [] => some []
  | '%' :: a :: b :: r => do
    let n ← Text.numeral? 16 [a, b]
    return UInt8.ofNat n :: (← go r)
  | '%' :: _ => none
  | c :: r => do return String.utf8EncodeChar c ++ (← go r)

/-- Split off the handle of a tag: an exclamation mark, or a name between two. -/
def splitHandle? : List Char → Option (List Char × List Char)
  | '!' :: r =>
    let (name, rest) := r.span isNameChar
    match rest with
    | '!' :: rest => some ('!' :: name ++ ['!'], rest)
    | _ => some ('!' :: name, rest)
  | _ => none

def directive? (cs : List Char) : Option (Token × List Char) := do
  let (name, r) := cs.span isNameChar
  let r ← if name.isEmpty || ! endsWord r then none else some (r.dropWhile isBlank)
  match String.ofList name with
  | "YAML" =>
    let (major, r) ← splitNumber? r
    let r ← if r.head? == some '.' then some r.tail else none
    let (minor, r) ← splitNumber? r
    return (.version major minor, r)
  | "TAG" =>
    let (handle, r) ← splitHandle? r
    let isWhole := handle = ['!'] || (handle.length > 1 && handle.getLast? == some '!')
    let r ← if isWhole && (r.head?.any isBlank) then some (r.dropWhile isBlank) else none
    let (stem, r) := r.span fun c => isTagChar c || ",[]".toList.contains c
    let stem ← if stem.isEmpty || ! endsWord r then none else tagText? stem
    return (.handle (String.ofList handle) stem, r)
  | _ => none

/-- A tag from its exclamation mark on: its handle and the rest of it. -/
def tag? : List Char → Option (Token × List Char)
  | '!' :: '<' :: r => do
    let (text, r) := r.span fun c => isTagChar c || ",[]".toList.contains c
    match r with
    | '>' :: r => do
      let text ← if text.isEmpty then none else tagText? text
      return (.tag "" text, r)
    | _ => none
  | cs => do
    let (handle, r) ← splitHandle? cs
    let (text, r) := r.span isTagChar
    if handle.length > 1 ∧ handle.getLast? = some '!' then
      let text ← if text.isEmpty then none else tagText? text
      return (.tag (String.ofList handle) text, r)
    else
      let text ← tagText? (handle.tail ++ text)
      return (if text.isEmpty then .tag "" "!" else .tag "!" text, r)

def directive (cs : List Char) : Scan Unit := do
  outdent none
  dropCandidate
  allowKey false
  let (t, r) ← (directive? cs : Option _)
  let r ← (afterHeader? r : Option _)
  emit t
  goTo r

def documentMark (t : Token) : Scan Unit := do
  outdent none
  dropCandidate
  allowKey false
  skip 3
  emit t

def flowStart (t : Token) : Scan Unit := do
  noteCandidate
  modify fun l => { l with flows := none :: l.flows }
  allowKey true
  skip 1
  emit t

def flowEnd (t : Token) : Scan Unit := do
  dropCandidate
  modify fun l => { l with flows := l.flows.tail }
  allowKey false
  skip 1
  emit t

def comma : Scan Unit := do
  dropCandidate
  allowKey true
  skip 1
  emit .comma

def openBlock (t : Token) : Scan Unit := do
  let l ← get
  if ! inFlow l then
    if l.keyAllowed then indent l.place.column none t else failure

def entry : Scan Unit := do
  openBlock .sequenceStart
  dropCandidate
  allowKey true
  skip 1
  emit .entry

def key : Scan Unit := do
  openBlock .mappingStart
  dropCandidate
  allowKey (! inFlow (← get))
  skip 1
  emit .key

/-- A colon makes the latest candidate a key, if there is one. -/
def value : Scan Unit := do
  match candidate (← get) with
  | some k =>
    insert k.number .key
    indent k.column (some k.number) .mappingStart
    setCandidate none
    allowKey false
  | none =>
    openBlock .mappingStart
    allowKey (! inFlow (← get))
  skip 1
  emit .value

def name (t : String → Token) (cs : List Char) : Scan Unit := do
  noteCandidate
  allowKey false
  let (text, r) := cs.span isNameChar
  let isEnded := endsWord r || r.head?.any fun c => "?:,]\x7d%@\x60".toList.contains c
  if text.isEmpty || ! isEnded then failure
  goTo r
  emit (t (String.ofList text))

def tag (cs : List Char) : Scan Unit := do
  noteCandidate
  allowKey false
  let (t, r) ← (tag? cs : Option _)
  if ! endsWord r && ! (inFlow (← get) && r.head? == some ',') then failure
  goTo r
  emit t

def block (style : Style) (cs : List Char) : Scan Unit := do
  dropCandidate
  allowKey true
  let w ← (block? style (← get).columns.head? cs : Option _)
  goTo w.rest
  emit (.scalar style (String.ofList w.text))

def quoted (single : Bool) (cs : List Char) : Scan Unit := do
  noteCandidate
  allowKey false
  let w ← (quoted? single cs : Option _)
  goTo w.rest
  emit (.scalar .quoted (String.ofList w.text))

def plain (cs : List Char) : Scan Unit := do
  noteCandidate
  let l ← get
  let margin := (l.columns.head?.map (· + 1)).getD 0
  let (w, broken) ← (plain? (inFlow l) margin (cs.length + 1) cs : Option _)
  allowKey broken
  goTo w.rest
  emit (.scalar .plain (String.ofList w.text))

def beginsPlain (flow : Bool) : List Char → Bool
  | [] => false
  | c :: r =>
    (! isSpace c && ! "-?:,[]\x7b\x7d#&*!|>'\"%@\x60".toList.contains c)
      || (c == '-' && ! r.head?.any isBlank)
      || (! flow && (c == '?' || c == ':') && ! endsWord r)

def token : Scan Bool := do
  void
  dropStale
  let l ← get
  outdent (some l.place.column)
  let flow := inFlow l
  let cs := l.place.rest
  let fresh := l.place.column == 0
  match cs with
  | [] =>
    outdent none
    dropCandidate
    return false
  | c :: r =>
    if fresh && c == '%' then directive r
    else if fresh && isDocumentMark cs then
      documentMark (if c == '-' then .documentStart else .documentEnd)
    else if c == '[' then flowStart .flowSequenceStart
    else if c == '\x7b' then flowStart .flowMappingStart
    else if c == ']' then flowEnd .flowSequenceEnd
    else if c == '\x7d' then flowEnd .flowMappingEnd
    else if c == ',' then comma
    else if c == '-' && endsWord r then entry
    else if c == '?' && (flow || endsWord r) then key
    else if c == ':' && (flow || endsWord r) then value
    else if c == '*' then name .alias r
    else if c == '&' then name .anchor r
    else if c == '!' then tag cs
    else if c == '|' && ! flow then block .literal r
    else if c == '>' && ! flow then block .folded r
    else if c == '\'' then quoted true r
    else if c == '"' then quoted false r
    else if beginsPlain flow cs then plain cs
    else failure
    return true

def tokens : (fuel : Nat) → Scan Unit
  | 0 => failure
  | fuel + 1 => do if ← token then tokens fuel

end Scan

def withoutMark (cs : List Char) : List Char :=
  match cs with
  | c :: r => if c.toNat = 0xFEFF then r else cs
  | [] => []

def tokens? (s : String) : Option (List Token) := do
  let cs := withoutMark s.toList
  let cs ← if cs.all isAllowed then some (unifyBreaks cs) else none
  let (_, l) ← (Scan.tokens (cs.length + 1)).run
    { place := ⟨0, 0, 0, cs⟩, columns := [], flows := [], outer := none, keyAllowed := true,
      tokens := #[] }
  return l.tokens.toList

end ChainGateway.Yaml
