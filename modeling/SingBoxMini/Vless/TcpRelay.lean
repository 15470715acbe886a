import SingBoxMini.Support.Proxy
import SingBoxMini.Vless.Request

/-!
# VLESS — TcpRelay

A VLESS connection for TCP, from the first byte behind the TLS handshake to its return:
`tcp_server::serve` and `vless_server::serve` read the request, and `serve_tcp` connects the
destination, writes the response and runs the two copies side by side.

A request for UDP goes to `serve_udp` and leaves this relay.  The time-outs, and everything else
that is waited for, may come at any time.

* `vless_tcp_faithful`: nothing is written for a client that is not a user, and the destination and
  a user get the bytes they have sent each other.
-/

namespace SingBoxMini.Vless
open Bytes Outbound Protocol

/-- `RELAY_BUFFER_SIZE` -/
def relayBufferSize : Nat := 32 * 1024

/-- What is done with a request, and `connect_tcp`. -/
def connect (mode : OutboundMode) (request : Request) (dial : Dial) : Proxy.Outcome SocketAddr :=
  if request.command = commandTcp then
    match connectTcp mode dial request.destination with
    | .error _ => .fail ("connect VLESS destination " ++ request.destination)
    | .ok address => .accept address [version, 0]
  else if request.command = commandUdp then .leave
  else .fail ("unsupported VLESS command " ++ Protocol.hex request.command.toUInt64)

/-- `tcp_server::serve` and `vless_server::serve`, with the TCP side of it. -/
def tcpRelay (users : HashMap UserId String) (mode : OutboundMode) :
    Proxy.Protocol String Request Dial SocketAddr where
  read := readRequest users
  payload _ := []
  connect := connect mode
  size := relayBufferSize

/-- A stream of a client. -/
abbrev Stream := Proxy.Stream String Request SocketAddr

variable {users : HashMap UserId String} {mode : OutboundMode} {request : Request} {dial : Dial}
  {address : SocketAddr} {response : List UInt8} {s : Stream}

/-- The bytes are the header of a user's request for TCP whose destination is connected, and these
are behind it. -/
def Requested (users : HashMap UserId String) (mode : OutboundMode) (client : List UInt8)
    (address : SocketAddr) (behind : List UInt8) : Prop :=
  ∃ id username port dial, ∃ host : Address, users.lookup id = some username ∧
    client = header id commandTcp port host ++ behind ∧
      connectTcp mode dial (hostPort host.host port) = .ok address

/-- What was sent at any time. -/
def Safe (users : HashMap UserId String) (mode : OutboundMode) (s : Stream) : Prop :=
  (s.Unconnected ∧ s.down = {}) ∨
    ∃ address behind, s.connected = some address ∧
      Requested users mode s.client.flatten address behind ∧
      s.up.sent <+: behind ∧ s.down.sent <+: [version, 0] ++ s.destination ∧
      s.up.counted ≤ s.up.sent.length ∧ s.down.counted ≤ s.down.sent.length - 2

/-- What was sent in the end. -/
def Complete (users : HashMap UserId String) (mode : OutboundMode) (s : Stream) : Prop :=
  ∃ address behind, s.connected = some address ∧
    Requested users mode s.client.flatten address behind ∧
    (s.clientEnded = true ∧ s.destinationEnded = true) ∧
    s.up.sent = behind ∧ s.down.sent = [version, 0] ++ s.destination ∧
    s.up.counted = s.up.sent.length ∧ s.down.counted = s.destination.length

theorem connect_ne_refuse : connect mode request dial ≠ .refuse response := by
  intro h
  unfold connect at h
  split_ifs at h
  split at h <;> cases h

theorem connect_accept (h : connect mode request dial = .accept address response) :
    request.command = commandTcp ∧ connectTcp mode dial request.destination = .ok address ∧
      response = [version, 0] := by
  unfold connect at h
  split_ifs at h with hcommand
  split at h
  · cases h
  next hdial =>
    cases h
    exact ⟨hcommand, hdial, rfl⟩

theorem not_refused (h : s.Refused (tcpRelay users mode) response) : False := by
  obtain ⟨-, request, dial, -, hconnect⟩ := h
  exact connect_ne_refuse hconnect

theorem requested_of_accepted (h : s.Accepted (tcpRelay users mode) request response) :
    response = [version, 0] ∧ ∃ address, s.connected = some address ∧
      Requested users mode s.client.flatten address s.rest := by
  obtain ⟨⟨chunks, hrun, hrest⟩, dial, address, hconnect, hconnected⟩ := h
  have hvalue : (readRequest users).eval s.client.flatten = some (request, s.rest) :=
    hrest ▸ ((exact_readRequest users).value_run s.clientEnded s.client).symm.trans
      (congrArg Reader.Result.value hrun)
  obtain ⟨id, username, command, port, host, huser, hclient, rfl⟩ := eval_readRequest_iff.mp hvalue
  obtain ⟨hcommand, hdial, rfl⟩ := connect_accept hconnect
  obtain rfl : command = commandTcp := hcommand
  exact ⟨rfl, address, hconnected, id, username, port, dial, host, huser, hclient, hdial⟩

theorem safe_of_safe (h : s.Safe (tcpRelay users mode)) : Safe users mode s := by
  obtain hnone | ⟨_, hrefused, -⟩ | ⟨_, _, haccepted, hsent⟩ := h
  · exact .inl hnone
  · exact (not_refused hrefused).elim
  · obtain ⟨rfl, address, hconnected, hrequested⟩ := requested_of_accepted haccepted
    exact .inr ⟨address, s.rest, hconnected, hrequested, hsent⟩

theorem complete_of_complete (h : s.Complete (tcpRelay users mode)) : Complete users mode s := by
  obtain ⟨hrefused, -⟩ | ⟨_, _, haccepted, hsent⟩ := h
  · exact (not_refused hrefused).elim
  · obtain ⟨rfl, address, hconnected, hrequested⟩ := requested_of_accepted haccepted
    exact ⟨address, s.rest, hconnected, hrequested, hsent⟩

/-- **A VLESS connection for TCP.**  However the client, the destination and the relay go on,
whatever fails and wherever it is dropped: nothing is connected and nothing is written unless the
client's bytes begin with the header of a user's request for TCP.  Then the destination of that
header is connected, it gets a prefix of the bytes behind the header, the client gets a prefix of
the two bytes of the response and of the destination's bytes, and no byte is counted that was not
sent.  Where the relay returns without an error, both have ended and have all of it. -/
theorem vless_tcp_faithful (h : s.Reachable (tcpRelay users mode)) :
    Safe users mode s ∧ (s.stage = .returned (.ok ()) → Complete users mode s) :=
  ⟨safe_of_safe h.sound.safe, fun hstage => complete_of_complete (h.sound.complete hstage)⟩

/-- A user. -/
def sampleUsers : HashMap UserId String := .collect [(Vector.replicate 16 7, "alice")]

/-- A host that accepts. -/
def sampleDial : Dial where
  lookupHost _ := .ok [.v4 1 80]
  newSocket _ := .ok ()
  connect _ := .ok ()

/-- The user asks for `1.2.3.4:80`, in two chunks with two bytes behind, and one of these is
written. -/
def sampleActions : List (Proxy.Action Dial) :=
  [.clientSends (0 :: List.replicate 16 7), .clientSends [0, 1, 0, 80, 1, 1, 2, 3, 4, 71, 69],
    .request, .connect sampleDial, .down (.write 2), .up (.read 2), .up (.write 1)]

theorem vless_tcp_faithful_sample : ∃ s : Stream, s.Reachable (tcpRelay sampleUsers .preferIpv4) ∧
    s.connected = some (.v4 1 80) ∧ Safe sampleUsers .preferIpv4 s := by
  obtain ⟨s, hrun, hconnected⟩ : ∃ s : Stream, Runs.run (fun s a => if True then
      Proxy.Stream.step (tcpRelay sampleUsers .preferIpv4) s a else none) {} sampleActions =
        some s ∧ s.connected = some (.v4 1 80) := ⟨_, rfl, rfl⟩
  have hreach : s.Reachable (tcpRelay sampleUsers .preferIpv4) :=
    Runs.reaches_of_run sampleActions .refl hrun
  exact ⟨s, hreach, hconnected, (vless_tcp_faithful hreach).1⟩

end SingBoxMini.Vless
