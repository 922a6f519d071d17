import ChainGateway.Http.Client
import ChainGateway.Text.Blank
import ChainGateway.Text.Numeral
import ChainGateway.Text.Parts

namespace ChainGateway.Http

def Url.authority (u : Url) : String :=
  u.host.getD "" ++ match u.service with
    | some service => ":" ++ toString service
    | none => ""

def Url.target (u : Url) : String :=
  u.path ++ match u.query with
    | some query => "?" ++ query
    | none => ""

def Post.lines (p : Post) : List String :=
  match p.verb with
  | .get =>
    ["GET " ++ p.url.target ++ " HTTP/1.1",
      "host: " ++ p.url.authority,
      "accept: */*",
      "connection: close",
      ""]
  | .post =>
    ["POST " ++ p.url.target ++ " HTTP/1.1",
      "host: " ++ p.url.authority,
      "accept: */*",
      "content-type: application/json",
      "content-length: " ++ toString p.body.length,
      "connection: close",
      ""]

def Post.bytes (p : Post) : List UInt8 :=
  Text.utf8 (String.join (p.lines.map (· ++ "\r\n"))) ++ p.body

def splitHead? : List UInt8 → Option (List UInt8 × List UInt8)
  | 13 :: 10 :: 13 :: 10 :: r => some ([], r)
  | b :: r => (splitHead? r).map fun (head, body) => (b :: head, body)
  | [] => none

structure Head where
  status : Nat
  fields : List (String × String)
deriving DecidableEq, Repr

namespace Head

def fieldOf (line : List Char) : String × String :=
  let (name, value) := line.span (· != ':')
  (Text.trim (String.ofList (name.map Char.toLower)), Text.trim (String.ofList value.tail))

def ofBytes? (bs : List UInt8) : Option Head := do
  match Text.cutAt (· == '\n') (Text.ofUtf8Lossy bs) with
  | [] => none
  | line :: fields =>
    match Text.cutAt (· == ' ') line with
    | version :: status :: _ =>
      if "HTTP/".toList.isPrefixOf version then
        let status ← Text.numeral? 10 ((Text.trim (String.ofList status)).toList)
        return ⟨status, fields.map fieldOf⟩
      else none
    | _ => none

def isInterim (h : Head) : Bool := 100 ≤ h.status && h.status < 200

def length? (h : Head) : Option Nat := do
  Text.numeral? 10 (← h.fields.lookup "content-length").toList

def isChunked (h : Head) : Bool := h.fields.lookup "transfer-encoding" == some "chunked"

def isBodiless (h : Head) : Bool := h.status = 204 || h.status = 304

/-- The place that a reply with one of these statuses sends on to. What is no text names none. -/
def location? (h : Head) : Option String :=
  if [301, 302, 303, 307, 308].contains h.status then
    (h.fields.lookup "location").filter fun location => ! location.toList.contains '\uFFFD'
  else none

end Head

/-- The data of chunks, once the last chunk, which is empty, is there. -/
def chunks? : (fuel : Nat) → List UInt8 → Option (List UInt8)
  | 0, _ => none
  | fuel + 1, bs => do
    let (line, rest) := bs.span (· != 10)
    let digits := (Text.ofUtf8Lossy line).takeWhile fun c => c.isAlphanum
    let size ← if rest.isEmpty then none else Text.numeral? 16 digits
    let data := rest.tail
    if size = 0 then return []
    else if data.length < size + 2 then none
    else return data.take size ++ (← chunks? fuel (data.drop (size + 2)))

def body? (h : Head) (ended : Bool) (bs : List UInt8) : Option (List UInt8) :=
  if h.isBodiless then some []
  else if h.isChunked then chunks? (bs.length + 1) bs
  else match h.length? with
    | some n => if bs.length < n then none else some (bs.take n)
    | none => if ended then some bs else none

/-- What the bytes received so far come to, unless more may follow that matters. -/
def Delivery.ofBytes? (ended : Bool) : (fuel : Nat) → List UInt8 → Option Delivery
  | 0, _ => some .unanswered
  | fuel + 1, bs =>
    match splitHead? bs with
    | none => if ended then some .unanswered else none
    | some (head, rest) =>
      match Head.ofBytes? head with
      | none => some .unanswered
      | some h =>
        if h.isInterim then ofBytes? ended fuel rest
        else match h.location?, body? h ended rest with
          | some location, some body => some (.moved h.status location (some body))
          | none, some body => some (.received h.status body)
          | some location, none => if ended then some (.moved h.status location none) else none
          | none, none => if ended then some .cutShort else none

end ChainGateway.Http
