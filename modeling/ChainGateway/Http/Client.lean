import ChainGateway.Http.Url
import ChainGateway.Rpc.Exchange
import ChainGateway.Text.Utf8

namespace ChainGateway.Http

inductive Verb where
  | get
  | post
deriving DecidableEq, Repr

/-- What is sent to an address, and how many milliseconds the whole exchange may take. -/
structure Post where
  verb : Verb
  url : Url
  body : List UInt8
  timeout : Nat
deriving DecidableEq, Repr

inductive Delivery where
  /-- The node is out of reach, closes the connection or takes too long. -/
  | unanswered
  /-- The reply ends before its body does. -/
  | cutShort
  | received (status : Nat) (body : List UInt8)
  /-- The reply names a place. Its body may be cut short. -/
  | moved (status : Nat) (location : String) (body : Option (List UInt8))
deriving DecidableEq, Repr, Inhabited

abbrev Network := Dialogue Post fun _ => Delivery

def isSuccess (status : Nat) : Bool := 200 ≤ status && status < 300

def excerptLength : Nat := 256

def excerpt (body : List UInt8) : String :=
  String.ofList ((Text.ofUtf8Lossy body).take excerptLength)

def replyOfBody (status : Nat) (body : List UInt8) : Rpc.Reply :=
  match OnWire.ofBytes body with
  | .ok response => .ok response
  | .error fault =>
    if isSuccess status then .error (.transport ("malformed response body: " ++ fault.message))
    else .error (.transport ("HTTP " ++ toString status ++ ": " ++ excerpt body))

/-- The reply that a delivery brings to a post that was first sent to an address. -/
def Delivery.reply (url : Url) : Delivery → Rpc.Reply
  | unanswered => .error (.transport ("error sending request for url (" ++ url.text ++ ")"))
  | cutShort | moved _ _ none => .error (.transport "error decoding response body")
  | received status body | moved status _ (some body) => replyOfBody status body

/-- The post that a delivery asks for behind another one. With most statuses the place that is named
is looked up; with two the same is posted there again. -/
def Delivery.next? (p : Post) : Delivery → Option Post
  | moved status location _ => do
    let url ← p.url.join? location
    match status with
    | 301 | 302 | 303 => some { p with verb := .get, url := url, body := [] }
    | 307 | 308 => some { p with url := url }
    | _ => none
  | _ => none

/-- A client for the node at an address. Whether the address is one is seen when something is
sent. -/
structure Client where
  url : String
  timeout : Nat
deriving DecidableEq, Repr

namespace Client

/-- The seconds that an exchange may take unless something else is said. -/
def defaultSeconds : Nat := 30

def defaultTimeout : Nat := 1000 * defaultSeconds

def ofUrl (url : String) : Client := ⟨url, defaultTimeout⟩

def maxHops : Nat := 10

/-- Send a post, and what is asked for behind it, as often as the number says at most. -/
def follow (origin : Url) : Nat → Post → Network Rpc.Reply
  | 0, p => .ask p fun d =>
    match d.next? p with
    | none => .done (d.reply origin)
    | some _ =>
      .done (.error (.transport ("error following redirect for url (" ++ p.url.text ++ ")")))
  | hops + 1, p => .ask p fun d =>
    match d.next? p with
    | none => .done (d.reply origin)
    | some next =>
      if next.url.isPostable then follow origin hops next
      else .done (.error (.transport ("builder error for url (" ++ next.url.text ++ ")")))

def send (c : Client) (request : Rpc.Request) : Network Rpc.Reply :=
  match Url.ofText? c.url with
  | none => .done (.error (.transport "builder error"))
  | some url =>
    if url.isPostable then
      follow url maxHops ⟨.post, url, Text.utf8 (OnWire.text request), c.timeout⟩
    else .done (.error (.transport ("builder error for url (" ++ url.text ++ ")")))

def exchange {α : Type} (c : Client) (x : Rpc.Exchange α) : Network (Except GatewayError α) :=
  x.run.via c.send

end Client

end ChainGateway.Http
