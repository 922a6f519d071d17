import ChainGateway.Http.Host

namespace ChainGateway.Http

/-- An address in its parts. The service is the number behind the host, unless it is the usual one
of the scheme. -/
structure Url where
  scheme : String
  host : Option String
  service : Option Nat
  path : String
  query : Option String
  fragment : Option String
deriving DecidableEq, Repr

/-- The service that an address of the web names unless it says another. -/
def usualService? : String → Option Nat
  | "http" | "ws" => some 80
  | "https" | "wss" => some 443
  | "ftp" => some 21
  | _ => none

namespace Url

def text (u : Url) : String :=
  u.scheme ++ ":" ++ (match u.host with
    | some host => "//" ++ host
    | none => "")
    ++ (match u.service with
      | some service => ":" ++ toString service
      | none => "")
    ++ u.path
    ++ (match u.query with
      | some query => "?" ++ query
      | none => "")
    ++ (match u.fragment with
      | some fragment => "#" ++ fragment
      | none => "")

def isPostable (u : Url) : Bool :=
  (u.scheme = "http" || u.scheme = "https") && u.host.isSome

/-- The characters of an address that count: none at either end that is a space or a control, and
no tab or line break anywhere. -/
def significant (s : String) : List Char :=
  let isMargin (c : Char) : Bool := c.toNat ≤ 32
  let kept := ((s.toList.dropWhile isMargin).reverse.dropWhile isMargin).reverse
  kept.filter fun c => c != '\t' && c != '\n' && c != '\r'

def isVisible (c : Char) : Bool := 32 < c.toNat && c.toNat < 0x7F

def inPath (c : Char) : Bool := isVisible c && ! "\"#<>?\x60\x7b\x7d".toList.contains c

def inOpaquePath (c : Char) : Bool := 32 ≤ c.toNat && c.toNat < 0x7F

/-- An apostrophe stays as it is, save in an address of the web. -/
def inQuery (web : Bool) (c : Char) : Bool :=
  isVisible c && ! "\"#<>".toList.contains c && ! (web && c == '\'')

def inFragment (c : Char) : Bool := isVisible c && ! "\"<>\x60".toList.contains c

def splitScheme? (cs : List Char) : Option (String × List Char) :=
  let (name, rest) := cs.span fun c => c.isAlphanum || "+-.".toList.contains c
  match name, rest with
  | first :: _, ':' :: rest =>
    if first.isAlpha then some (String.ofList (name.map Char.toLower), rest) else none
  | _, _ => none

/-- Split off what follows the first character of a kind, and drop that character. -/
def splitOff (mark : Char) (cs : List Char) : List Char × Option (List Char) :=
  match cs.span (· != mark) with
  | (before, _ :: after) => (before, some after)
  | (before, []) => (before, none)

def dropCredentials (cs : List Char) : List Char :=
  (cs.reverse.takeWhile (· != '@')).reverse

/-- Split a host from what follows its colon; a colon between brackets does not count. -/
def splitService (bracketed : Bool) : List Char → List Char × Option (List Char)
  | [] => ([], none)
  | c :: r =>
    if c == ':' && ! bracketed then ([], some r)
    else
      let (host, service) := splitService (c == '[' || (bracketed && c != ']')) r
      (c :: host, service)

def service? (usual : Option Nat) : List Char → Option (Option Nat)
  | [] => some none
  | cs => do
    let n ← Text.numeral? 10 cs
    if n < 65536 then some (if some n = usual then none else some n) else none

def isStay (step : List Char) : Bool :=
  [".", "%2e"].contains (String.ofList (step.map Char.toLower))

def isUp (step : List Char) : Bool :=
  ["..", ".%2e", "%2e.", "%2e%2e"].contains (String.ofList (step.map Char.toLower))

/-- Follow steps from some that have been taken, the latest first. A path that ends with a step that
is not written ends with an empty step. -/
def follow (taken : List (List Char)) : List (List Char) → List (List Char)
  | [] => taken.reverse
  | step :: rest =>
    let ending (taken : List (List Char)) := if rest.isEmpty then [] :: taken else taken
    if isUp step then follow (ending taken.tail) rest
    else if isStay step then follow (ending taken) rest
    else follow (step :: taken) rest

def normalPath (web : Bool) (cs : List Char) : List Char :=
  let isSlash (c : Char) : Bool := c == '/' || (web && c == '\\')
  if cs.isEmpty && ! web then []
  else
    let steps := Text.cutAt isSlash (match cs with
      | c :: r => if isSlash c then r else cs
      | [] => [])
    (follow [] (steps.map (percentEncode inPath))).flatMap ('/' :: ·)

/-- An address from the text behind its scheme, in which neither query nor fragment is left. -/
def ofLocation? (scheme : String) (query fragment : Option String) (cs : List Char) : Option Url :=
  let web := (usualService? scheme).isSome
  let isSlash (c : Char) : Bool := c == '/' || (web && c == '\\')
  let authority (cs : List Char) : Option Url := do
    let (place, path) := cs.span fun c => ! isSlash c
    let (host, service) := splitService false (dropCredentials place)
    let host ← if web then host? host else opaqueHost? host
    let service ← service? (usualService? scheme) (service.getD [])
    return ⟨scheme, some (String.ofList host), service, String.ofList (normalPath web path),
      query, fragment⟩
  if web then authority (cs.dropWhile isSlash)
  else match cs with
    | '/' :: '/' :: r => authority r
    | '/' :: _ => some ⟨scheme, none, none, String.ofList (normalPath web cs), query, fragment⟩
    | _ =>
      some ⟨scheme, none, none, String.ofList (percentEncode inOpaquePath cs), query, fragment⟩

def ofText? (s : String) : Option Url := do
  let (scheme, rest) ← splitScheme? (significant s)
  let (rest, fragment) := splitOff '#' rest
  let (location, query) := splitOff '?' rest
  ofLocation? scheme
    (query.map fun cs =>
      String.ofList (percentEncode (inQuery (usualService? scheme).isSome) cs))
    (fragment.map fun cs => String.ofList (percentEncode inFragment cs))
    location

/-- The address that a text denotes where an address is known. The text may leave out what the two
have in common at their beginning; a fragment does not count. -/
def join? (base : Url) (s : String) : Option Url := do
  let cs := significant s
  if (splitScheme? cs).isSome then return { ← ofText? s with fragment := none }
  let web := (usualService? base.scheme).isSome
  let isSlash (c : Char) : Bool := c == '/' || (web && c == '\\')
  let (location, query) := splitOff '?' (splitOff '#' cs).1
  let query := query.map fun cs => String.ofList (percentEncode (inQuery web) cs)
  let withPath (path : List Char) : Url :=
    { base with path := String.ofList (normalPath web path), query := query, fragment := none }
  match location with
  | [] => return { base with query := query.or base.query, fragment := none }
  | c :: r =>
    if isSlash c then
      if (r.head?.map isSlash).getD false then ofLocation? base.scheme query none location
      else return withPath location
    else return withPath ((base.path.toList.reverse.dropWhile (· != '/')).reverse ++ location)

end Url

end ChainGateway.Http
