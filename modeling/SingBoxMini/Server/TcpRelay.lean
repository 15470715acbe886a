import SingBoxMini.Outbound
import SingBoxMini.Protocol.TcpResponse
import SingBoxMini.Server.BufferPool
import SingBoxMini.Server.TcpStream
import SingBoxMini.Support.Proxy

/-!
# Server — TcpRelay

`relay_tcp_stream` (`src/server.rs`) from the first byte of a QUIC stream to its return: the request
is read, the destination is connected, the response and the payload are written, and the two copies
run side by side.

The network's answers to `connect_tcp` and the random bytes of a padding are inputs.  The copies are
directions of a relay, as the calls of `BufferPool` are (`Call.direction_step`).

* `relay_tcp_stream_faithful`: the destination gets the bytes behind the request's header, and the
  client the response and the destination's bytes.
* `relay_tcp_stream_returns`: once both have ended, the relay comes to its return.
-/

namespace SingBoxMini.Server.TcpRelay
open Bytes Outbound Protocol BufferPool

/-! ### Padding -/

/-- `PADDING_ALPHABET` -/
def paddingAlphabet : List UInt8 :=
  asBytes "abcdefghijklmnopqrstuvwxyzABCDEFGHIJKLMNOPQRSTUVWXYZ0123456789"

/-- The bytes `getrandom` fills in. -/
structure Random where
  selector : UInt16
  fill : Nat → UInt8

/-- `random_padding` -/
def randomPadding (minimum maximum : Nat) (random : Random) : List UInt8 :=
  let range := maximum - minimum
  let length := minimum + random.selector.toNat % range
  (List.range length).map fun i =>
    paddingAlphabet.getD ((random.fill i).toNat % paddingAlphabet.length) 0

/-! ### The relay -/

/-- The response that is written before the copies. -/
def accepted : TcpResponse := ⟨.ok, "", []⟩

/-- The response to a destination that was not connected. -/
def refused (text : String) : TcpResponse := ⟨.error, text, []⟩

/-- What the network and the random numbers answer to one stream. -/
structure Answers where
  dial : Dial
  random : Random

/-- The destination is connected, or refused with the text of the error. -/
def connect (mode : OutboundMode) (request : TcpRequest) (answers : Answers) :
    Proxy.Outcome SocketAddr :=
  match connectTcp mode answers.dial request.destination with
  | .error text =>
    match (refused text).encode (randomPadding 128 1024 answers.random) with
    | .error error => .fail error.message
    | .ok response => .refuse response
  | .ok address =>
    match accepted.encode (randomPadding 128 1024 answers.random) with
    | .error error => .fail error.message
    | .ok response => .accept address response

/-- `relay_tcp_stream` -/
def relayTcpStream (mode : OutboundMode) :
    Proxy.Protocol RelayError TcpRequest Answers SocketAddr where
  read := relayRequest
  payload := TcpRequest.payload
  connect := connect mode
  size := relayBufferSize

/-- A stream of a client. -/
abbrev Stream := Proxy.Stream RelayError TcpRequest SocketAddr

/-- The bytes are a request for the destination, with these behind the header. -/
def Requested (client : List UInt8) (destination : String) (behind : List UInt8) : Prop :=
  ∃ address padding, Framed client address padding behind ∧ fromUtf8 address = some destination

/-- The response to a request whose destination could not be connected, with the reason. -/
def Refused (mode : OutboundMode) (client response : List UInt8) : Prop :=
  ∃ destination behind dial text padding, Requested client destination behind ∧
    connectTcp mode dial destination = .error text ∧
      (refused text).encode padding = .ok response

/-- The destination of the request is connected, and this is what the client is told. -/
def Accepted (mode : OutboundMode) (client : List UInt8) (address : SocketAddr)
    (response behind : List UInt8) : Prop :=
  ∃ destination dial padding, Requested client destination behind ∧
    connectTcp mode dial destination = .ok address ∧ accepted.encode padding = .ok response

/-- What was sent at any time. -/
def Safe (mode : OutboundMode) (s : Stream) : Prop :=
  (s.Unconnected ∧ s.down.counted = 0 ∧ (s.down.sent = [] ∨
      ∃ response, Refused mode s.client.flatten response ∧ s.down.sent <+: response)) ∨
    ∃ address response behind, s.connected = some address ∧
      Accepted mode s.client.flatten address response behind ∧
      s.up.sent <+: behind ∧ s.down.sent <+: response ++ s.destination ∧
      s.up.counted ≤ s.up.sent.length ∧ s.down.counted ≤ s.down.sent.length - response.length

/-- What was sent in the end. -/
def Complete (mode : OutboundMode) (s : Stream) : Prop :=
  (s.Unconnected ∧ s.down.counted = 0 ∧ Refused mode s.client.flatten s.down.sent) ∨
    ∃ address response behind, s.connected = some address ∧
      Accepted mode s.client.flatten address response behind ∧
      (s.clientEnded = true ∧ s.destinationEnded = true) ∧
      s.up.sent = behind ∧ s.down.sent = response ++ s.destination ∧
      s.up.counted = s.up.sent.length ∧ s.down.counted = s.destination.length

/-- **A request that was read** is the one the client has sent. -/
theorem requested_of_run {finished : Bool} {chunks rest : List (List UInt8)} {request : TcpRequest}
    (h : relayRequest.run finished chunks = .done request rest) :
    Requested chunks.flatten request.destination (request.payload ++ rest.flatten) := by
  have hvalue : (relayRequest.run finished chunks).value = some (request, rest.flatten) := by
    rw [h]
    rfl
  obtain ⟨address, padding, payload, hframed⟩ := framed_of_value hvalue
  obtain ⟨chunks', rfl, hrun⟩ : ∃ chunks', chunks'.flatten = payload ∧
      relayRequest.run finished chunks = (Reader.chunk (answer address)).run finished chunks' :=
    run_of_framed hframed
  -- the last read returns the first chunk of what is behind the header, or the end of it
  have hanswer : ∀ chunk left, chunk.getD [] ++ left.flatten = chunks'.flatten →
      (answer address chunk).run finished left = .done request rest →
      Requested chunks.flatten request.destination (request.payload ++ rest.flatten) := by
    intro chunk left hbytes hdone
    rw [answer] at hdone
    cases hutf8 : fromUtf8 address with
    | none =>
        rw [hutf8] at hdone
        cases hdone
    | some destination =>
        rw [hutf8] at hdone
        cases hdone
        exact ⟨address, padding, hbytes ▸ hframed, hutf8⟩
  rw [hrun] at h
  by_cases hnil : chunks'.flatten = []
  · cases finished with
    | false =>
        rw [Reader.run_chunk_of_eq_nil hnil] at h
        cases h
    | true =>
        rw [Reader.run_chunk_of_finished hnil] at h
        exact hanswer none [] hnil.symm h
  · obtain ⟨chunk, left, hbytes, hlast⟩ : ∃ chunk left, chunk ++ left.flatten = chunks'.flatten ∧
        (Reader.chunk (answer address)).run finished chunks' =
          (answer address (some chunk)).run finished left :=
      Reader.run_chunk_of_ne_nil hnil
    rw [hlast] at h
    exact hanswer (some chunk) left hbytes h

variable {mode : OutboundMode} {request : TcpRequest} {answers : Answers} {address : SocketAddr}
  {response : List UInt8} {s : Stream}

theorem connect_refuse (h : connect mode request answers = .refuse response) :
    ∃ text padding, connectTcp mode answers.dial request.destination = .error text ∧
      (refused text).encode padding = .ok response := by
  unfold connect at h
  split at h
  next text hdial =>
    split at h
    · cases h
    next hencode =>
      cases h
      exact ⟨text, _, hdial, hencode⟩
  · split at h <;> cases h

theorem connect_accept (h : connect mode request answers = .accept address response) :
    connectTcp mode answers.dial request.destination = .ok address ∧
      ∃ padding, accepted.encode padding = .ok response := by
  unfold connect at h
  split at h
  · split at h <;> cases h
  next address hdial =>
    split at h
    · cases h
    next hencode =>
      cases h
      exact ⟨hdial, _, hencode⟩

theorem requested_of_read (h : s.Read (relayTcpStream mode) request) :
    Requested s.client.flatten request.destination (request.payload ++ s.rest) := by
  obtain ⟨chunks, hrun, hrest⟩ := h
  exact hrest ▸ requested_of_run hrun

theorem refused_of_refused (h : s.Refused (relayTcpStream mode) response) :
    s.Unconnected ∧ Refused mode s.client.flatten response := by
  obtain ⟨hnone, request, answers, hread, hconnect⟩ := h
  obtain ⟨text, padding, hdial, hencode⟩ := connect_refuse hconnect
  exact ⟨hnone, _, _, answers.dial, text, padding, requested_of_read hread, hdial, hencode⟩

theorem accepted_of_accepted (h : s.Accepted (relayTcpStream mode) request response) :
    ∃ address, s.connected = some address ∧
      Accepted mode s.client.flatten address response (request.payload ++ s.rest) := by
  obtain ⟨hread, answers, address, hconnect, hconnected⟩ := h
  obtain ⟨hdial, padding, hencode⟩ := connect_accept hconnect
  exact ⟨address, hconnected, _, answers.dial, padding, requested_of_read hread, hdial, hencode⟩

theorem safe_of_safe (h : s.Safe (relayTcpStream mode)) : Safe mode s := by
  obtain ⟨hnone, hdown⟩ | ⟨response, hrefused, hsent, hcounted⟩ | ⟨_, _, haccepted, hsent⟩ := h
  · exact .inl ⟨hnone, by rw [hdown], .inl (by rw [hdown])⟩
  · obtain ⟨hnone, hrefused⟩ := refused_of_refused hrefused
    exact .inl ⟨hnone, hcounted, .inr ⟨response, hrefused, hsent⟩⟩
  · obtain ⟨address, hconnected, haccepted⟩ := accepted_of_accepted haccepted
    exact .inr ⟨address, _, _, hconnected, haccepted, hsent⟩

theorem complete_of_complete (h : s.Complete (relayTcpStream mode)) : Complete mode s := by
  obtain ⟨hrefused, hcounted⟩ | ⟨_, _, haccepted, hsent⟩ := h
  · obtain ⟨hnone, hrefused⟩ := refused_of_refused hrefused
    exact .inl ⟨hnone, hcounted, hrefused⟩
  · obtain ⟨address, hconnected, haccepted⟩ := accepted_of_accepted haccepted
    exact .inr ⟨address, _, _, hconnected, haccepted, hsent⟩

/-- **The relay sends what it was sent.**  However the client, the destination and the relay go on,
whatever fails and wherever it is dropped:

* the destination that is connected is the one of the client's request, and it gets a prefix of the
  bytes behind the request's header; the client gets a prefix of the response and of the
  destination's bytes; and no byte is counted that was not sent;
* a client whose destination could not be connected gets a response with the error, and nothing
  else;
* where the relay returns without an error, both have ended and have all of it, and the traffic that
  was counted is what was sent. -/
theorem relay_tcp_stream_faithful (h : s.Reachable (relayTcpStream mode)) :
    Safe mode s ∧ (s.stage = .returned (.ok ()) → Complete mode s) :=
  ⟨safe_of_safe h.sound.safe, fun hstage => complete_of_complete (h.sound.complete hstage)⟩

/-- A host that is not there. -/
def deadDial : Dial where
  lookupHost _ := .ok [.v4 1 1]
  newSocket _ := .ok ()
  connect _ := .error "refused"

/-- A request for it. -/
def deadActions : List (Proxy.Action Answers) :=
  [.clientSends [0x44, 0x01, 3], .clientSends [97, 58, 49, 0, 5], .request,
    .connect ⟨deadDial, ⟨0, fun _ => 0⟩⟩, .down (.write 100),
    .down (.write 39), .finish]

/-- A host with two addresses, of which the one of IPv4 refuses. -/
def dualStackDial : Dial where
  lookupHost _ := .ok [.v6 1 443 0 0, .v4 1 443]
  newSocket _ := .ok ()
  connect address := if address.isIpv4 then .error "refused" else .ok ()

/-- A client and a destination that have ended before the response is written. -/
def hastyActions : List (Proxy.Action Answers) :=
  [.clientSends [0x44, 0x01, 3, 97, 58, 49, 0, 5], .clientEnds, .request,
    .connect ⟨dualStackDial, ⟨0, fun _ => 0⟩⟩, .destinationSends [7], .destinationEnds]

/-- What the relay does then. -/
def finalActions : List (Proxy.Action Answers) :=
  [.down (.write 132), .up (.write 1), .up .close, .down (.read 1), .down (.write 1), .down .close,
    .finish]

set_option maxRecDepth 10000 in
/-- A request that is refused, and one that is relayed to its end. -/
theorem relay_tcp_stream_faithful_both :
    (∃ s : Stream, s.Reachable (relayTcpStream .preferIpv4) ∧ s.stage = .returned (.ok ()) ∧
      s.connected = none ∧ Complete .preferIpv4 s) ∧
    ∃ s : Stream, s.Reachable (relayTcpStream .preferIpv4) ∧ s.stage = .returned (.ok ()) ∧
      s.connected = some (.v6 1 443 0 0) ∧ s.up.sent = [5] ∧ s.down.sent.length = 133 ∧
      Complete .preferIpv4 s := by
  constructor
  · obtain ⟨s, hrun, hstage, hnone⟩ : ∃ s : Stream, Runs.run (fun s a => if True then
        Proxy.Stream.step (relayTcpStream .preferIpv4) s a else none) {} deadActions = some s ∧
        s.stage = .returned (.ok ()) ∧ s.connected = none := ⟨_, rfl, rfl, rfl⟩
    have hreach : s.Reachable (relayTcpStream .preferIpv4) :=
      Runs.reaches_of_run deadActions .refl hrun
    exact ⟨s, hreach, hstage, hnone, (relay_tcp_stream_faithful hreach).2 hstage⟩
  · obtain ⟨s, hrun, hstage, hconnected, hup, hdown⟩ : ∃ s : Stream, Runs.run (fun s a =>
        if True then Proxy.Stream.step (relayTcpStream .preferIpv4) s a else none) {}
          (hastyActions ++ finalActions) = some s ∧
        s.stage = .returned (.ok ()) ∧ s.connected = some (.v6 1 443 0 0) ∧ s.up.sent = [5] ∧
        s.down.sent.length = 133 := ⟨_, rfl, rfl, rfl, rfl, rfl⟩
    have hreach : s.Reachable (relayTcpStream .preferIpv4) :=
      Runs.reaches_of_run (hastyActions ++ finalActions) .refl hrun
    exact ⟨s, hreach, hstage, hconnected, hup, hdown, (relay_tcp_stream_faithful hreach).2 hstage⟩

/-- **The relay returns.**  From every state where the destination is connected and both the client
and the destination have ended, if nothing fails from there on: whatever is left of the response, of
the payload and of the bytes of both is written, and the relay returns without an error. -/
theorem relay_tcp_stream_returns (h : s.Reachable (relayTcpStream mode))
    (hconnected : s.connected ≠ none) (hclient : s.clientEnded = true)
    (hdestination : s.destinationEnded = true)
    (hunfailed : ∀ error, s.stage ≠ .returned (.error error)) :
    Runs.Inevitable (Proxy.Stream.step (relayTcpStream mode))
      (fun _ action => action.isFailure = false) (fun _ action => action.isOwn = true)
      (fun s => s.stage = .returned (.ok ()) ∧ Complete mode s) s := by
  have hending : s.Ending (relayTcpStream mode) :=
    ⟨h.sound, hconnected, hclient, hdestination, hunfailed⟩
  have hpos : 0 < relayBufferSize := by decide
  exact (hending.returns hpos).mono fun t ht => ⟨ht.1, complete_of_complete ht.2⟩

set_option maxRecDepth 10000 in
theorem relay_tcp_stream_returns_hasty : ∃ s : Stream,
    s.Reachable (relayTcpStream .preferIpv4) ∧ s.down.sent = [] ∧
      Runs.Inevitable (Proxy.Stream.step (relayTcpStream .preferIpv4))
        (fun _ action => action.isFailure = false) (fun _ action => action.isOwn = true)
        (fun s => s.stage = .returned (.ok ()) ∧ Complete .preferIpv4 s) s := by
  obtain ⟨s, hrun, hconnected, hclient, hdestination, hstage, hnil⟩ : ∃ s : Stream,
      Runs.run (fun s a => if True then Proxy.Stream.step (relayTcpStream .preferIpv4) s a
        else none) {} hastyActions = some s ∧
      s.connected = some (.v6 1 443 0 0) ∧ s.clientEnded = true ∧
      s.destinationEnded = true ∧ s.stage.isOver = false ∧ s.down.sent = [] :=
    ⟨_, rfl, rfl, rfl, rfl, rfl, rfl⟩
  have hreach : s.Reachable (relayTcpStream .preferIpv4) :=
    Runs.reaches_of_run hastyActions .refl hrun
  refine ⟨s, hreach, hnil, relay_tcp_stream_returns hreach ?_ hclient hdestination ?_⟩
  · rw [hconnected]
    exact Option.some_ne_none _
  · intro error hreturned
    rw [hreturned] at hstage
    cases hstage

end SingBoxMini.Server.TcpRelay
