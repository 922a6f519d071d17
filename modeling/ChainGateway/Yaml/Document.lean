import ChainGateway.Yaml.Token

namespace ChainGateway.Yaml

structure Scalar where
  style : Style
  tag : Option String
  text : String
deriving DecidableEq, Repr

inductive Node where
  | scalar (s : Scalar)
  | sequence (items : List Node)
  | mapping (entries : List (Node × Node))
  /-- A reference to the node with a number. -/
  | alias (number : Nat)

def Node.empty (tag : Option String) : Node := .scalar ⟨.plain, tag, ""⟩

structure Document where
  /-- A text without any content has no root. -/
  root : Option Node
  named : List (Nat × Node)

/-- What is left of the tokens, and what the nodes so far have introduced. -/
structure Composition where
  tokens : List Token
  /-- The names given so far, the latest first; they are numbered in the order of introduction. -/
  names : List String
  named : List (Nat × Node)
  /-- The handles of tags and what they stand for. -/
  handles : List (String × String)

abbrev Compose := StateT Composition Option

namespace Compose

def peek? : Compose (Option Token) := do return (← get).tokens.head?

def skip : Compose Unit := modify fun c => { c with tokens := c.tokens.tail }

def isNext (ts : List Token) : Compose Bool := do
  return (← peek?).any ts.contains

def expect (t : Token) : Compose Unit := do
  if ← isNext [t] then skip else failure

/-- What a tag stands for. The tag that says nothing is none. -/
def resolveTag (handle rest : String) : Compose (Option String) := do
  match handle with
  | "" => return if rest = "!" then none else some rest
  | _ =>
    match (← get).handles.lookup handle with
    | some stem => return some (stem ++ rest)
    | none => failure

def anchor : Compose (Option Nat) := do
  match ← peek? with
  | some (.anchor name) =>
    skip
    let number := (← get).names.length
    modify fun c => { c with names := name :: c.names }
    return some number
  | _ => return none

def tag : Compose (Option (Option String)) := do
  match ← peek? with
  | some (.tag handle rest) =>
    skip
    return some (← resolveTag handle rest)
  | _ => return none

def number? (name : String) (names : List String) : Option Nat :=
  (names.findIdx? (· = name)).map fun i => names.length - 1 - i

mutual

/-- Read a node. A block collection can be one only where `block` says so, and a sequence whose
entries are not indented only where `flush` does. -/
def node (block flush : Bool) : (fuel : Nat) → Compose Node
  | 0 => failure
  | fuel + 1 => do
    match ← peek? with
    | some (.alias name) =>
      skip
      let n ← (number? name (← get).names : Option Nat)
      return .alias n
    | _ =>
      let before ← anchor
      let tag ← tag
      let anchor ← match before with
        | some n => pure (some n)
        | none => anchor
      let content : Node ← match ← peek? with
        | some .entry =>
          if flush then do pure (.sequence (← entries true fuel))
          else if anchor.isSome || tag.isSome then pure (.empty tag.join)
          else failure
        | some (.scalar style text) => do
          skip
          pure (.scalar ⟨style, tag.join, text⟩)
        | some .flowSequenceStart => do
          skip
          pure (.sequence (← flowItems true fuel))
        | some .flowMappingStart => do
          skip
          pure (.mapping (← flowEntries true fuel))
        | some .sequenceStart => do
          if block then do
            skip
            pure (.sequence (← entries false fuel))
          else if anchor.isSome || tag.isSome then pure (.empty tag.join)
          else failure
        | some .mappingStart => do
          if block then do
            skip
            pure (.mapping (← keys fuel))
          else if anchor.isSome || tag.isSome then pure (.empty tag.join)
          else failure
        | _ =>
          if anchor.isSome || tag.isSome then pure (.empty tag.join) else failure
      match anchor with
      | some n => modify fun c => { c with named := (n, content) :: c.named }
      | none => pure ()
      return content

/-- Read a node unless one of some tokens is next, before which it is empty. -/
def nodeBefore (ts : List Token) (block flush : Bool) : (fuel : Nat) → Compose Node
  | 0 => failure
  | fuel + 1 => do
    if ← isNext ts then return .empty none else node block flush fuel

/-- The entries of a block sequence; one that is not indented has no token at its end. -/
def entries (flush : Bool) : (fuel : Nat) → Compose (List Node)
  | 0 => failure
  | fuel + 1 => do
    if ← isNext [.entry] then
      skip
      let ends := if flush then [.entry, .key, .value, .blockEnd] else [.entry, .blockEnd]
      let item ← nodeBefore ends true false fuel
      return item :: (← entries flush fuel)
    else if flush then return []
    else do
      expect .blockEnd
      return []

def keys : (fuel : Nat) → Compose (List (Node × Node))
  | 0 => failure
  | fuel + 1 => do
    if ← isNext [.key] then
      skip
      let k ← nodeBefore [.key, .value, .blockEnd] true true fuel
      let v ← if ← isNext [.value] then do
          skip
          nodeBefore [.key, .value, .blockEnd] true true fuel
        else pure (.empty none)
      return (k, v) :: (← keys fuel)
    else do
      expect .blockEnd
      return []

def flowValue (close : Token) : (fuel : Nat) → Compose Node
  | 0 => failure
  | fuel + 1 => do
    if ← isNext [.value] then
      skip
      nodeBefore [.comma, close] false false fuel
    else return .empty none

/-- The items of a flow sequence. An item with a key is a mapping of one entry. -/
def flowItems (first : Bool) : (fuel : Nat) → Compose (List Node)
  | 0 => failure
  | fuel + 1 => do
    if ← isNext [.flowSequenceEnd] then
      skip
      return []
    else do
      if ! first then expect .comma
      if ← isNext [.flowSequenceEnd] then
        skip
        return []
      else if ← isNext [.key] then do
        skip
        let k ← if ← isNext [.value, .comma, .flowSequenceEnd] then do
            skip
            pure (.empty none)
          else node false false fuel
        let v ← flowValue .flowSequenceEnd fuel
        return .mapping [(k, v)] :: (← flowItems false fuel)
      else do
        let item ← node false false fuel
        return item :: (← flowItems false fuel)

/-- The keys and values of a flow mapping. A key without a mark of its own has no value. -/
def flowEntries (first : Bool) : (fuel : Nat) → Compose (List (Node × Node))
  | 0 => failure
  | fuel + 1 => do
    if ← isNext [.flowMappingEnd] then
      skip
      return []
    else do
      if ! first then expect .comma
      if ← isNext [.flowMappingEnd] then
        skip
        return []
      else if ← isNext [.key] then do
        skip
        let k ← nodeBefore [.value, .comma, .flowMappingEnd] false false fuel
        let v ← flowValue .flowMappingEnd fuel
        return (k, v) :: (← flowEntries false fuel)
      else do
        let k ← node false false fuel
        return (k, .empty none) :: (← flowEntries false fuel)

end

def standardHandles : List (String × String) := [("!", "!"), ("!!", "tag:yaml.org,2002:")]

/-- Read directives as far as they go. No two may say the same, and the version must be known. -/
def directives (versioned : Bool) (handles : List (String × String)) : (fuel : Nat) →
    Compose (List (String × String) × Bool)
  | 0 => failure
  | fuel + 1 => do
    match ← peek? with
    | some (.version major minor) =>
      if versioned || major ≠ 1 || (minor ≠ 1 && minor ≠ 2) then failure
      skip
      directives true handles fuel
    | some (.handle name stem) =>
      if (handles.lookup name).isSome then failure
      skip
      directives versioned ((name, stem) :: handles) fuel
    | _ => return (handles, versioned || ! handles.isEmpty)

def noMore : (fuel : Nat) → Compose Unit
  | 0 => failure
  | fuel + 1 => do
    match ← peek? with
    | none => return
    | some .documentEnd =>
      skip
      noMore fuel
    | _ => failure

def document (fuel : Nat) : Compose (Option Node) := do
  let (handles, directed) ← directives false [] fuel
  modify fun c => { c with handles := handles ++ standardHandles }
  match ← peek? with
  | none => if directed then failure else return none
  | some .documentStart =>
    skip
    let root ← if (← peek?).isNone then pure (.empty none)
      else nodeBefore [.documentEnd] true false fuel
    noMore fuel
    return some root
  | _ =>
    if directed then failure
    else
      let root ← node true false fuel
      noMore fuel
      return some root

end Compose

def Document.ofText? (s : String) : Option Document := do
  let ts ← tokens? s
  let (root, c) ← (Compose.document (3 * ts.length + 3)).run ⟨ts, [], [], []⟩
  return ⟨root, c.named⟩

end ChainGateway.Yaml
