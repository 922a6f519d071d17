import ChainGateway.Http.Message
import Std.Async.DNS
import Std.Async.TCP
import Std.Async.Timer

namespace ChainGateway.Http

open Std.Async (Async)
open Std.Net (IPAddr SocketAddress)

def socketAddress (service : UInt16) : IPAddr → SocketAddress
  | .v4 addr => .v4 ⟨addr, service⟩
  | .v6 addr => .v6 ⟨addr, service⟩

abbrev Socket := Std.Async.TCP.Socket.Client

partial def receive (socket : Socket) (received : ByteArray) : Async Delivery := do
  let chunk ← socket.recv? 65536
  let received := received ++ chunk.getD ByteArray.empty
  match Delivery.ofBytes? chunk.isNone 8 received.toList with
  | some d => return d
  | none => receive socket received

def postTo (p : Post) (addr : SocketAddress) : Async Delivery := do
  let socket : Socket ← Std.Async.TCP.Socket.Client.mk
  socket.connect addr
  socket.send (ByteArray.mk p.bytes.toArray)
  receive socket ByteArray.empty

def postToUrl (p : Post) : Async Delivery := do
  if p.url.scheme ≠ "http" then return .unanswered
  let host := (p.url.host.getD "").toList.filter fun c => c != '[' && c != ']'
  let addrs ← Std.Async.DNS.getAddrInfo (String.ofList host) ""
  let service := (p.url.service.getD 80).toUInt16
  match addrs.toList with
  | addr :: _ => postTo p (socketAddress service addr)
  | [] => return .unanswered

def deliver (p : Post) : IO Delivery := do
  let late : Async Delivery := do
    Std.Async.sleep (Std.Time.Millisecond.Offset.ofNat p.timeout)
    return .unanswered
  try (Async.race (postToUrl p) late).block catch _ => return .unanswered

def Network.perform {α : Type} : Network α → IO α
  | .done a => return a
  | .ask p next => do Network.perform (next (← deliver p))

end ChainGateway.Http
