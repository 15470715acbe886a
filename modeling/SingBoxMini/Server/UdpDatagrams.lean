import SingBoxMini.Outbound
import SingBoxMini.Protocol.Reassembler
import SingBoxMini.Support.Text

/-!
# Server — UDP datagrams

`serve_udp_datagrams`, `get_udp_session` and `serve_connection` (`server.rs`): the datagram loop of
an authenticated connection and the `try_join!` that runs it beside the acceptor of TCP streams.

`isolatedRun` is what the connection is for, said without the source: the same packets and
sessions, where a packet that cannot be sent is dropped and nothing else is.

* `failing_destination_ends_connection`: one name that does not resolve ends the datagram loop, and
  with it the connection's other sessions and its TCP streams.
* `relay_ok_iff`: when the operations made for a packet succeed.
* `udp_failures_isolated_iff`: so the packets forwarded are those whose own operations succeed, and
  everything else stays up, exactly if no packet's own operations fail.

`next_packet_id` and the task that receives a session's responses are left out: the loop does not
read them.  The end of that task reaches the loop as an expiration.
-/

namespace SingBoxMini.Server
open Protocol Outbound

/-- `quinn::ConnectionError` -/
inductive ConnectionError where
  | applicationClosed
  | connectionClosed
  | locallyClosed
  | other (message : String)
deriving DecidableEq

/-- The errors that end a loop with `Ok(())`. -/
def ConnectionError.result : ConnectionError → Except AnyhowError Unit
  | .applicationClosed | .connectionClosed | .locallyClosed => .ok ()
  | .other message => .error [message]

/-- What comes to a connection, with what it meets: a datagram, when it is handled and what the
network answers to the operations for it; the expiration of a session; a TCP stream. -/
inductive Event where
  | datagram (received : Except ConnectionError (List UInt8)) (now : Nat)
      (it : HashMap.Iter Key PartialPacket) (net : Network)
  | expired (sessionId : UInt32) (ptr : Nat)
  | stream (accepted : Except ConnectionError Nat)

/-! ### The datagram loop -/

/-- `Arc<UdpSession>`: the allocation and the session's sockets. -/
structure UdpSession where
  ptr : Nat
  socket : OutboundUdpSession
deriving DecidableEq

/-- The variables of `serve_udp_datagrams`, the number of sessions opened so far and the packets
sent.  The traffic that is recorded is in `Server.Traffic`. -/
structure UdpLoop where
  sessions : HashMap UInt32 UdpSession
  reassembler : UdpReassembler
  opened : Nat
  forwarded : List UdpMessage

/-- The loop at its start. -/
def UdpLoop.start : UdpLoop := ⟨∅, .empty, 0, []⟩

/-- How `serve_udp_datagrams` returns. -/
inductive LoopEnd where
  | returned (result : Except AnyhowError Unit)
  | panicked (panic : Panic)

/-- What a datagram gives: nothing yet, a whole packet, or the end of the loop. -/
inductive Reading where
  | next (loop : UdpLoop)
  | message (message : UdpMessage) (loop : UdpLoop)
  | exit (how : LoopEnd)

/-- What one datagram makes of the loop: it goes on; it has a whole packet and the result of the
packet's own operations; it returns. -/
inductive Iteration where
  | next (loop : UdpLoop)
  | packet (message : UdpMessage) (loop : UdpLoop) (result : Except AnyhowError Nat)
  | exit (how : LoopEnd)

namespace UdpLoop

/-- `get_udp_session` -/
def getUdpSession (loop : UdpLoop) (mode : OutboundMode) (net : Network) (sessionId : UInt32) :
    UdpLoop × Except AnyhowError UdpSession :=
  match loop.sessions.lookup sessionId with
  | some session => (loop, .ok session)
  | none =>
    match openUdp mode net with
    | .error error => (loop, .error ["bind UDP session socket", error])
    | .ok socket =>
      let session := { ptr := loop.opened, socket }
      ({ loop with
          sessions := loop.sessions.insert sessionId session
          opened := loop.opened + 1 }, .ok session)

/-- The operations made for a packet: `get_udp_session` and `send_to`. -/
def relay (loop : UdpLoop) (mode : OutboundMode) (net : Network) (message : UdpMessage) :
    UdpLoop × Except AnyhowError Nat :=
  match loop.getUdpSession mode net message.sessionId with
  | (loop, .error error) => (loop, .error error)
  | (loop, .ok session) =>
    match session.socket.sendTo net message.destination with
    | .ok written => (loop, .ok written)
    | .error error => (loop, .error ["send UDP packet to " ++ message.destination, error])

/-- One datagram, up to the packet it completes. -/
def reading (loop : UdpLoop) (received : Except ConnectionError (List UInt8)) (now : Nat)
    (it : HashMap.Iter Key PartialPacket) : Reading :=
  match received with
  | .error error =>
    match error.result with
    | .ok () => .exit (.returned (.ok ()))
    | .error error => .exit (.returned (.error ("receive QUIC datagram" :: error)))
  | .ok datagram =>
    match UdpMessage.decode datagram with
    | .error error => .exit (.returned (.error ["decode HY2 UDP datagram", error.message]))
    | .ok fragment =>
      match loop.reassembler.pushAt it fragment now with
      | .error panic => .exit (.panicked panic)
      | .ok (_, .error error) =>
        .exit (.returned (.error ["reassemble HY2 UDP datagram", error.message]))
      | .ok (reassembler, .ok none) => .next { loop with reassembler }
      | .ok (reassembler, .ok (some message)) => .message message { loop with reassembler }

/-- One datagram, up to the `?` after `send_to`. -/
def onDatagram (loop : UdpLoop) (mode : OutboundMode)
    (received : Except ConnectionError (List UInt8)) (now : Nat)
    (it : HashMap.Iter Key PartialPacket) (net : Network) : Iteration :=
  match loop.reading received now it with
  | .next loop => .next loop
  | .exit how => .exit how
  | .message message loop =>
    let (loop, result) := loop.relay mode net message
    .packet message loop result

/-- A packet was sent. -/
def sent (loop : UdpLoop) (message : UdpMessage) : UdpLoop :=
  { loop with forwarded := loop.forwarded ++ [message] }

/-- An expiration removes the session it is about, if it is still that one. -/
def expire (loop : UdpLoop) (sessionId : UInt32) (ptr : Nat) : UdpLoop :=
  if (loop.sessions.lookup sessionId).any fun current => current.ptr = ptr then
    { loop with sessions := loop.sessions.erase sessionId }
  else loop

end UdpLoop

/-! ### The connection -/

/-- The two futures of `serve_connection`, `none` and `false` once they returned `Ok(())`, and the
TCP streams accepted. -/
structure Serving where
  udp : Option UdpLoop
  tcp : Bool
  streams : List Nat

/-- `serve_connection` is polled, or it has returned: then `h3` is dropped, which closes the
connection under its streams. -/
inductive ServeState where
  | serving (s : Serving)
  | returned (how : LoopEnd)

/-- One of the futures of the `try_join!` returned: an error ends both, `Ok(())` waits for the
other. -/
def Serving.joined (s : Serving) : LoopEnd → ServeState
  | .returned (.ok ()) =>
    if s.udp.isNone ∧ s.tcp = false then .returned (.returned (.ok ())) else .serving s
  | how => .returned how

/-- One event of a connection. -/
def serveStep (mode : OutboundMode) : ServeState → Event → ServeState
  | .returned how, _ => .returned how
  | .serving s, .datagram received now it net =>
    match s.udp with
    | none => .serving s
    | some loop =>
      match loop.onDatagram mode received now it net with
      | .next loop => .serving { s with udp := some loop }
      | .packet message loop (.ok _) => .serving { s with udp := some (loop.sent message) }
      | .packet _ _ (.error error) =>
        Serving.joined { s with udp := none } (.returned (.error error))
      | .exit how => Serving.joined { s with udp := none } how
  | .serving s, .expired sessionId ptr =>
    .serving { s with udp := s.udp.map fun loop => loop.expire sessionId ptr }
  | .serving s, .stream accepted =>
    if s.tcp then
      match accepted with
      | .ok id => .serving { s with streams := s.streams ++ [id] }
      | .error error => Serving.joined { s with tcp := false } (.returned error.result)
    else .serving s

/-- `serve_connection` -/
def serveConnection (udpEnabled : Bool) : ServeState :=
  .serving ⟨if udpEnabled then some .start else none, true, []⟩

/-- A connection with UDP after the events. -/
def serve (mode : OutboundMode) (events : List Event) : ServeState :=
  events.foldl (serveStep mode) (serveConnection true)

/-! ### Failure isolation -/

/-- The loop with every failing packet dropped, and the packets with the results of their own
operations. -/
def isolatedRun (mode : OutboundMode) (loop : UdpLoop) :
    List Event → UdpLoop × List (UdpMessage × Except AnyhowError Nat)
  | [] => (loop, [])
  | .datagram received now it net :: events =>
    match loop.onDatagram mode received now it net with
    | .next loop => isolatedRun mode loop events
    | .packet message loop result =>
      let loop := if result.toBool then loop.sent message else loop
      let (loop, packets) := isolatedRun mode loop events
      (loop, (message, result) :: packets)
    | .exit _ => isolatedRun mode loop events
  | .expired sessionId ptr :: events => isolatedRun mode (loop.expire sessionId ptr) events
  | .stream _ :: events => isolatedRun mode loop events

/-- The packets of a connection, with the results of their own operations. -/
def packets (mode : OutboundMode) (events : List Event) :
    List (UdpMessage × Except AnyhowError Nat) :=
  (isolatedRun mode .start events).2

/-- The packets whose own operations succeed. -/
def succeeding (packets : List (UdpMessage × Except AnyhowError Nat)) : List UdpMessage :=
  (packets.filter fun p => p.2.toBool).map Prod.fst

/-- The TCP streams among the events. -/
def streamsOf : List Event → List Nat
  | [] => []
  | .stream (.ok id) :: events => id :: streamsOf events
  | _ :: events => streamsOf events

/-- The datagrams are well formed, decoding and reassembly give no error, and the connection is not
closed from outside. -/
def WellFormed (r : UdpReassembler) : List Event → Prop
  | [] => True
  | .datagram received now it _ :: events =>
    ∃ datagram fragment r' out, received = .ok datagram ∧
      UdpMessage.decode datagram = .ok fragment ∧
      r.pushAt it fragment now = .ok (r', .ok out) ∧ WellFormed r' events
  | .expired _ _ :: events => WellFormed r events
  | .stream accepted :: events => (∃ id, accepted = .ok id) ∧ WellFormed r events

/-- **Failure isolation.**  After the events both futures run, the packets forwarded are those
whose own operations succeed, the sessions are those of `isolatedRun`, and every TCP stream is
there. -/
def FailuresIsolated (mode : OutboundMode) (events : List Event) : Prop :=
  ∃ loop, serve mode events = .serving ⟨some loop, true, streamsOf events⟩ ∧
    loop.forwarded = succeeding (packets mode events) ∧
    loop.sessions = (isolatedRun mode .start events).1.sessions

/-- The operations for a packet touch the session table only. -/
theorem relay_keeps (loop : UdpLoop) (mode : OutboundMode) (net : Network)
    (message : UdpMessage) : (loop.relay mode net message).1.reassembler = loop.reassembler ∧
      (loop.relay mode net message).1.forwarded = loop.forwarded := by
  unfold UdpLoop.relay UdpLoop.getUdpSession
  grind

theorem expire_keeps (loop : UdpLoop) (sessionId : UInt32) (ptr : Nat) :
    (loop.expire sessionId ptr).reassembler = loop.reassembler ∧
      (loop.expire sessionId ptr).forwarded = loop.forwarded := by
  unfold UdpLoop.expire
  split_ifs <;> exact ⟨rfl, rfl⟩

/-- **A well-formed datagram** is stored or completes a packet. -/
theorem onDatagram_of_wellFormed (mode : OutboundMode) {loop : UdpLoop}
    {received : Except ConnectionError (List UInt8)} {now : Nat}
    {it : HashMap.Iter Key PartialPacket} {net : Network} {events : List Event}
    (h : WellFormed loop.reassembler (.datagram received now it net :: events)) :
    (∃ loop', loop.onDatagram mode received now it net = .next loop' ∧
      loop'.forwarded = loop.forwarded ∧ WellFormed loop'.reassembler events) ∨
    (∃ message loop' result,
      loop.onDatagram mode received now it net = .packet message loop' result ∧
      loop'.forwarded = loop.forwarded ∧ WellFormed loop'.reassembler events) := by
  obtain ⟨datagram, fragment, r', out, rfl, hdecode, hpush, hrest⟩ := h
  cases out with
  | none =>
      refine .inl ⟨{ loop with reassembler := r' }, ?_, rfl, hrest⟩
      simp only [UdpLoop.onDatagram, UdpLoop.reading, hdecode, hpush]
  | some message =>
      obtain ⟨hr, hf⟩ := relay_keeps { loop with reassembler := r' } mode net message
      generalize hrelay : UdpLoop.relay { loop with reassembler := r' } mode net message = out
        at hr hf
      obtain ⟨loop', result⟩ := out
      refine .inr ⟨message, loop', result, ?_, hf, hr ▸ hrest⟩
      simp only [UdpLoop.onDatagram, UdpLoop.reading, hdecode, hpush, hrelay]

/-- What `isolatedRun` forwards is what succeeds. -/
theorem forwarded_isolatedRun (mode : OutboundMode) (events : List Event) : ∀ loop : UdpLoop,
    WellFormed loop.reassembler events →
      (isolatedRun mode loop events).1.forwarded =
        loop.forwarded ++ succeeding (isolatedRun mode loop events).2 := by
  induction events with
  | nil => simp [isolatedRun, succeeding]
  | cons event events ih =>
      intro loop h
      cases event with
      | datagram received now it net =>
          rcases onDatagram_of_wellFormed mode h with
            ⟨loop', hd, hf, hrest⟩ | ⟨message, loop', result, hd, hf, hrest⟩
          · simp only [isolatedRun, hd, ih loop' hrest, hf]
          · cases result with
            | error error =>
                simp only [isolatedRun, hd, Except.toBool, Bool.false_eq_true, if_false,
                  ih loop' hrest, hf]
                simp [succeeding, Except.toBool]
            | ok written =>
                simp only [isolatedRun, hd, Except.toBool, if_true, ih (loop'.sent message) hrest]
                simp [succeeding, Except.toBool, UdpLoop.sent, hf]
      | expired sessionId ptr =>
          obtain ⟨hr, hf⟩ := expire_keeps loop sessionId ptr
          rw [isolatedRun, ih _ (hr ▸ h), hf]
      | stream accepted => exact ih loop h.2

theorem serve_returned (mode : OutboundMode) (how : LoopEnd) (events : List Event) :
    events.foldl (serveStep mode) (.returned how) = .returned how := by
  induction events with
  | nil => rfl
  | cons event events ih => exact ih

/-- **The connection follows `isolatedRun` until a packet fails**, and then ends. -/
theorem serve_from (mode : OutboundMode) (events : List Event) : ∀ (loop : UdpLoop)
    (streams : List Nat), WellFormed loop.reassembler events →
      ((∀ p ∈ (isolatedRun mode loop events).2, ∃ written, p.2 = .ok written) →
        events.foldl (serveStep mode) (.serving ⟨some loop, true, streams⟩) =
          .serving ⟨some (isolatedRun mode loop events).1, true, streams ++ streamsOf events⟩) ∧
      (∀ p ∈ (isolatedRun mode loop events).2, ∀ error, p.2 = .error error →
        ∃ how, events.foldl (serveStep mode) (.serving ⟨some loop, true, streams⟩) =
          .returned how) := by
  induction events with
  | nil => simp [isolatedRun, streamsOf]
  | cons event events ih =>
      intro loop streams h
      cases event with
      | datagram received now it net =>
          rcases onDatagram_of_wellFormed mode h with
            ⟨loop', hd, -, hrest⟩ | ⟨message, loop', result, hd, -, hrest⟩
          · simpa only [isolatedRun, List.foldl_cons, serveStep, hd, streamsOf]
              using ih loop' streams hrest
          · cases result with
            | error error =>
                have hend : serveStep mode (.serving ⟨some loop, true, streams⟩)
                    (.datagram received now it net) = .returned (.returned (.error error)) := by
                  simp only [serveStep, hd, Serving.joined]
                rw [List.foldl_cons, hend, serve_returned]
                constructor
                · intro hall
                  obtain ⟨written, hok⟩ := hall (message, .error error) (by simp [isolatedRun, hd])
                  cases hok
                · exact fun _ _ _ _ => ⟨_, rfl⟩
            | ok written =>
                obtain ⟨hall, hfail⟩ := ih (loop'.sent message) streams hrest
                simp only [isolatedRun, List.foldl_cons, serveStep, hd, streamsOf, Except.toBool,
                  if_true, List.forall_mem_cons]
                refine ⟨fun hok => hall hok.2, ⟨nofun, hfail⟩⟩
      | expired sessionId ptr =>
          have hrest : WellFormed (loop.expire sessionId ptr).reassembler events :=
            (expire_keeps loop sessionId ptr).1 ▸ h
          simpa only [isolatedRun, List.foldl_cons, serveStep, Option.map_some, streamsOf]
            using ih (loop.expire sessionId ptr) streams hrest
      | stream accepted =>
          obtain ⟨⟨id, rfl⟩, hrest⟩ := h
          simpa only [isolatedRun, List.foldl_cons, serveStep, if_true, streamsOf,
            List.append_assoc, List.singleton_append] using ih loop (streams ++ [id]) hrest

/-! ### Packets to hosts that resolve, and to one that does not -/

/-- A network with an IPv4 socket where every name resolves to one address that takes packets. -/
def reachable : Network where
  bindIpv4 := .ok ()
  bindIpv6 := .error "Address family not supported by protocol"
  lookupHost := .ok [.v4 0xC0000201#32 53]
  sendTo := fun _ => .ok 1

/-- The same, for a name that does not resolve. -/
def unresolved : Network :=
  { reachable with lookupHost := .error "failed to lookup address information" }

/-- A one-byte packet of session `id` to the host `host`, port 53. -/
def packetTo (id host : UInt8) (net : Network) : Event :=
  .datagram (.ok [0, 0, 0, id, 0, 1, 0, 1, 4, host, 58, 53, 51, 7]) 0 (.inOrder _ _) net

/-- A TCP stream, a packet, a packet to a second host, and one to the first again. -/
def threePackets (second : Network) : List Event :=
  [.stream (.ok 5), packetTo 1 97 reachable, packetTo 2 98 second, packetTo 1 97 reachable]

theorem wellFormed_threePackets (second : Network) : WellFormed .empty (threePackets second) := by
  have hdecode₁ : UdpMessage.decode [0, 0, 0, 1, 0, 1, 0, 1, 4, 97, 58, 53, 51, 7] =
      .ok ⟨1, 1, 0, 1, "a:53", [7]⟩ := by decide
  have hdecode₂ : UdpMessage.decode [0, 0, 0, 2, 0, 1, 0, 1, 4, 98, 58, 53, 51, 7] =
      .ok ⟨2, 1, 0, 1, "b:53", [7]⟩ := by decide
  refine ⟨⟨5, rfl⟩, _, _, _, _, rfl, hdecode₁, rfl, _, _, _, _, rfl, hdecode₂, rfl, ?_⟩
  exact ⟨_, _, _, _, rfl, hdecode₁, rfl, trivial⟩

/-- **One name that does not resolve ends the connection**: the third packet, whose operations
would succeed, is not forwarded, and the TCP stream goes down with the loop. -/
theorem failing_destination_ends_connection :
    WellFormed .empty (threePackets unresolved) ∧
    succeeding (packets .preferIpv4 (threePackets unresolved)) =
      [⟨1, 1, 0, 1, "a:53", [7]⟩, ⟨1, 1, 0, 1, "a:53", [7]⟩] ∧
    serve .preferIpv4 (threePackets unresolved) = .returned (.returned (.error
      ["send UDP packet to b:53", "failed to lookup address information"])) ∧
    ¬ FailuresIsolated .preferIpv4 (threePackets unresolved) := by
  have hserve : serve .preferIpv4 (threePackets unresolved) = .returned (.returned (.error
      ["send UDP packet to b:53", "failed to lookup address information"])) := rfl
  refine ⟨wellFormed_threePackets unresolved, by decide, hserve, ?_⟩
  rintro ⟨loop, hserving, -⟩
  rw [hserve] at hserving
  cases hserving

/-- **Failures are isolated exactly if there are none**: for well-formed datagrams and any answers
of the network, the connection forwards the packets whose own operations succeed and stays up with
its sessions and streams if and only if every packet's own operations succeed. -/
theorem udp_failures_isolated_iff (mode : OutboundMode) (events : List Event)
    (h : WellFormed .empty events) :
    FailuresIsolated mode events ↔ ∀ p ∈ packets mode events, ∃ written, p.2 = .ok written := by
  obtain ⟨hall, hfail⟩ := serve_from mode events .start [] h
  constructor
  · rintro ⟨loop, hserve, -, -⟩ p hp
    cases hresult : p.2 with
    | ok written => exact ⟨written, rfl⟩
    | error error =>
        obtain ⟨how, hreturned⟩ := hfail p hp error hresult
        rw [serve, serveConnection, if_pos rfl, hreturned] at hserve
        cases hserve
  · intro hok
    refine ⟨_, hall hok, ?_, rfl⟩
    exact forwarded_isolatedRun mode events .start h

theorem udp_failures_isolated_three_packets :
    WellFormed .empty (threePackets reachable) ∧
      FailuresIsolated .preferIpv4 (threePackets reachable) := by
  have hwf := wellFormed_threePackets reachable
  refine ⟨hwf, (udp_failures_isolated_iff .preferIpv4 _ hwf).mpr ?_⟩
  have hpackets : packets .preferIpv4 (threePackets reachable) =
      [(⟨1, 1, 0, 1, "a:53", [7]⟩, .ok 1), (⟨2, 1, 0, 1, "b:53", [7]⟩, .ok 1),
        (⟨1, 1, 0, 1, "a:53", [7]⟩, .ok 1)] := by decide
  simp [hpackets]

end SingBoxMini.Server
