import SingBoxMini.NatTunnel.Assignment
import SingBoxMini.NatTunnel.Handshake

/-!
# NAT tunnel — Link

One tunnel from end to end (`nat_tunnel.rs`): `manage_idle_tunnel` on the gateway, `client_session`
on the client, two FIFO byte channels between them, and `copy_bidirectional` on both sides once an
assignment was answered with the stream.

* The task is the `Manager` of the gateway model.  Here its commands are bytes it writes, and the
  replies it gets are bytes it reads; when a heartbeat ticks, when an assignment comes, when a
  time-out strikes and when a side fails is open.
* The client may still have to read the verdict on its authentication; nothing else is left of the
  handshake then (`handshake_hands_over`).
* A side of the forwarding is a `Copying`; the ends of the streams are not bytes and are left out.

`InStep` relates the two program counters to the contents of the channels, and
`control_and_payload_never_mix` is what follows: with the stream, the gateway hands over a tunnel
that carries nothing but what the local service sent.
-/

namespace SingBoxMini.NatTunnel

/-- `START` -/
def startCommand : UInt8 := 1
/-- `PING` -/
def pingCommand : UInt8 := 3

/-! ### Forwarding -/

/-- One side's `copy_bidirectional`: the bytes it has read from its peer and those it has written to
it, those read from the peer and not yet written to the tunnel, those read from the tunnel and not
yet written to the peer, and whether it has returned. -/
structure Copying where
  read : List UInt8
  written : List UInt8
  toTunnel : List UInt8
  fromTunnel : List UInt8
  returned : Bool
deriving DecidableEq

/-- What `copy_bidirectional` does. -/
inductive CopyAction where
  | readPeer (bytes : List UInt8)
  | writeTunnel (n : Nat)
  | readTunnel (n : Nat)
  | writePeer (n : Nat)
  /-- Both directions are done, or one of them failed. -/
  | finish
deriving DecidableEq

namespace Copying

/-- Nothing is read yet. -/
def start : Copying := ⟨[], [], [], [], false⟩

/-- One step, with the channel it writes and the channel it reads. -/
def step (c : Copying) (out inp : List UInt8) :
    CopyAction → Option (Copying × List UInt8 × List UInt8)
  | .readPeer bytes =>
    if c.returned then none
    else some ({ c with read := c.read ++ bytes, toTunnel := c.toTunnel ++ bytes }, out, inp)
  | .writeTunnel n =>
    if c.returned then none
    else some ({ c with toTunnel := c.toTunnel.drop n }, out ++ c.toTunnel.take n, inp)
  | .readTunnel n =>
    if c.returned then none
    else some ({ c with fromTunnel := c.fromTunnel ++ inp.take n }, out, inp.drop n)
  | .writePeer n =>
    if c.returned then none
    else some ({ c with
      written := c.written ++ c.fromTunnel.take n
      fromTunnel := c.fromTunnel.drop n }, out, inp)
  | .finish => if c.returned then none else some ({ c with returned := true }, out, inp)

/-- **Exactly the bytes of the other side.**  What `reader` has read from its peer is, in order,
what `writer` has written to its own, and then what is still under way. -/
def Relayed (reader writer : Copying) (channel : List UInt8) : Prop :=
  writer.written ++ writer.fromTunnel ++ channel ++ reader.toTunnel = reader.read

variable {c c' : Copying} {out inp out' inp' : List UInt8} {action : CopyAction}

/-- A step only adds to the channel it writes, whatever is in front there. -/
theorem step_cons {front : UInt8} (h : c.step (front :: out) inp action = some (c', out', inp')) :
    ∃ rest, c.step out inp action = some (c', rest, inp') ∧ out' = front :: rest := by
  cases action with
  | readPeer bytes | writeTunnel n | readTunnel n | writePeer n | finish =>
      obtain ⟨hrun, h⟩ := Option.ite_none_left_eq_some.mp h
      cases h
      exact ⟨_, if_neg hrun, rfl⟩

/-- The side that reads from its peer loses nothing. -/
theorem Relayed.reader_step {writer : Copying} (hr : Relayed c writer out)
    (h : c.step out inp action = some (c', out', inp')) : Relayed c' writer out' := by
  unfold Relayed at hr ⊢
  cases action with
  | readPeer bytes =>
      obtain ⟨-, h⟩ := Option.ite_none_left_eq_some.mp h
      cases h
      simp only [← hr, List.append_assoc]
  | writeTunnel n =>
      obtain ⟨-, h⟩ := Option.ite_none_left_eq_some.mp h
      cases h
      simp only [← hr, List.append_assoc, List.take_append_drop]
  | readTunnel n | writePeer n | finish =>
      obtain ⟨-, h⟩ := Option.ite_none_left_eq_some.mp h
      cases h
      exact hr

/-- The side that writes to its peer adds nothing. -/
theorem Relayed.writer_step {reader : Copying} (hr : Relayed reader c inp)
    (h : c.step out inp action = some (c', out', inp')) : Relayed reader c' inp' := by
  unfold Relayed at hr ⊢
  cases action with
  | readTunnel n =>
      obtain ⟨-, h⟩ := Option.ite_none_left_eq_some.mp h
      cases h
      simp only [← hr, List.append_assoc]
      rw [← List.append_assoc (inp.take n), List.take_append_drop]
  | writePeer n =>
      obtain ⟨-, h⟩ := Option.ite_none_left_eq_some.mp h
      cases h
      simp only [← hr, List.append_assoc]
      rw [← List.append_assoc (c.fromTunnel.take n), List.take_append_drop]
  | readPeer bytes | writeTunnel n | finish =>
      obtain ⟨-, h⟩ := Option.ite_none_left_eq_some.mp h
      cases h
      exact hr

end Copying

/-! ### The two ends -/

/-- Where a `client_session` is: reading the verdict on its authentication; in its command loop;
with `PING`, before it writes `PONG`; with `START`, connecting to the local service; connected,
before it writes `READY`; forwarding; returned with an error before that. -/
inductive ClientPc where
  | authenticating
  | commands
  | ponging
  | connecting
  | connected
  | forwarding (copy : Copying)
  | failed
deriving DecidableEq

/-- The gateway's end of the stream: with the task; sent to a public connection as `Ok(stream)`;
dropped. -/
inductive StreamEnd where
  | task
  | resolved (copy : Copying)
  | dropped
deriving DecidableEq

/-- The client and the bytes under way. -/
structure Wire where
  client : ClientPc
  toClient : List UInt8
  toGateway : List UInt8
deriving DecidableEq

/-- A tunnel: the gateway's task and stream, and the wire. -/
structure Link where
  manager : Manager
  stream : StreamEnd
  wire : Wire
deriving DecidableEq

/-- What can happen on a tunnel. -/
inductive LinkAction where
  /-- A public connection puts an assignment into the slot. -/
  | assign (call : AcquireId)
  | manager (action : ManagerAction)
  /-- The task answers its assignment, if it has one, and returns; `kept` if the public connection
  still waits for the answer. -/
  | finish (kept : Bool)
  /-- The client reads one byte. -/
  | hear
  /-- The client writes `PONG` or `READY`. -/
  | reply
  /-- `TcpStream::connect(&options.local)` -/
  | connect (ok : Bool)
  /-- The client gives up before it forwards. -/
  | fail
  /-- `copy_bidirectional` of the public connection. -/
  | publicCopy (action : CopyAction)
  /-- `copy_bidirectional` of the client. -/
  | localCopy (action : CopyAction)
deriving DecidableEq

/-- The command the task writes. -/
def ManagerAction.writes : ManagerAction → List UInt8
  | .recv => [startCommand]
  | .tick => [pingCommand]
  | _ => []

/-- What is left of the channel after the byte the task reads. -/
def ManagerAction.reads : ManagerAction → List UInt8 → Option (List UInt8)
  | .pong (.byte command), first :: rest => if first = command then some rest else none
  | .ready (.byte command), first :: rest => if first = command then some rest else none
  | .pong (.byte _), [] => none
  | .ready (.byte _), [] => none
  | _, channel => some channel

/-- The client after it read a byte. -/
def ClientPc.heard : ClientPc → UInt8 → Option ClientPc
  | .authenticating, verdict => some (if verdict = authOk then .commands else .failed)
  | .commands, command =>
    if command = pingCommand then some .ponging
    else if command = startCommand then some .connecting
    else some .failed
  | _, _ => none

/-- The client after it wrote its reply, and the reply. -/
def ClientPc.replied : ClientPc → Option (ClientPc × UInt8)
  | .ponging => some (.commands, pongCommand)
  | .connected => some (.forwarding .start, readyCommand)
  | _ => none

/-- The stream after the task's last step. -/
def ManagerPc.ends (kept : Bool) : ManagerPc → Option StreamEnd
  | .answering _ (.ok ()) => some (if kept then .resolved .start else .dropped)
  | .answering _ (.error _) => some .dropped
  | .stopped => some .dropped
  | _ => none

namespace Link

/-- The tunnel right after `gateway_authenticate` returned `Ok`. -/
def start : Link := ⟨⟨none, .unspawned⟩, .task, ⟨.authenticating, [authOk], []⟩⟩

/-- The client moves on. -/
def toClientPc (s : Link) (client : ClientPc) : Link :=
  { s with wire := { s.wire with client } }

/-- The step an action makes, if it is enabled. -/
def step (s : Link) : LinkAction → Option Link
  | .assign call =>
    if s.manager.pc ≠ .ended ∧ s.manager.slot = none then
      some { s with manager := { s.manager with slot := some call } }
    else none
  | .manager action =>
    match s.manager.step action, action.reads s.wire.toGateway with
    | some manager, some toGateway =>
      some { s with
        manager
        wire := ⟨s.wire.client, s.wire.toClient ++ action.writes, toGateway⟩ }
    | _, _ => none
  | .finish kept =>
    (s.manager.pc.ends kept).map fun stream => { s with stream, manager := ⟨none, .ended⟩ }
  | .hear =>
    match s.wire.toClient with
    | byte :: toClient =>
      (s.wire.client.heard byte).map fun client =>
        { s with wire := ⟨client, toClient, s.wire.toGateway⟩ }
    | [] => none
  | .reply =>
    s.wire.client.replied.map fun (client, byte) =>
      { s with wire := ⟨client, s.wire.toClient, s.wire.toGateway ++ [byte]⟩ }
  | .connect ok =>
    if s.wire.client = .connecting then some (s.toClientPc (if ok then .connected else .failed))
    else none
  | .fail =>
    match s.wire.client with
    | .forwarding _ | .failed => none
    | _ => some (s.toClientPc .failed)
  | .publicCopy action =>
    match s.stream with
    | .resolved copy =>
      (copy.step s.wire.toClient s.wire.toGateway action).map fun (copy, toClient, toGateway) =>
        { s with stream := .resolved copy, wire := ⟨s.wire.client, toClient, toGateway⟩ }
    | _ => none
  | .localCopy action =>
    match s.wire.client with
    | .forwarding copy =>
      (copy.step s.wire.toGateway s.wire.toClient action).map fun (copy, toGateway, toClient) =>
        { s with wire := ⟨.forwarding copy, toClient, toGateway⟩ }
    | _ => none

/-! ### What a step can do -/

/-- **The steps, one by one**, with their guards. -/
inductive Did (s : Link) : LinkAction → Link → Prop where
  | assign {call : AcquireId} :
      Did s (.assign call) { s with manager := { s.manager with slot := some call } }
  | manager {action : ManagerAction} {manager : Manager} {toGateway : List UInt8}
      (hm : s.manager.Did action manager)
      (hr : action.reads s.wire.toGateway = some toGateway) :
      Did s (.manager action) { s with
        manager
        wire := ⟨s.wire.client, s.wire.toClient ++ action.writes, toGateway⟩ }
  | finish {kept : Bool} {stream : StreamEnd} (h : s.manager.pc.ends kept = some stream) :
      Did s (.finish kept) { s with stream, manager := ⟨none, .ended⟩ }
  | hear {byte : UInt8} {toClient : List UInt8} {client : ClientPc}
      (hc : s.wire.toClient = byte :: toClient) (h : s.wire.client.heard byte = some client) :
      Did s .hear { s with wire := ⟨client, toClient, s.wire.toGateway⟩ }
  | reply {client : ClientPc} {byte : UInt8} (h : s.wire.client.replied = some (client, byte)) :
      Did s .reply { s with wire := ⟨client, s.wire.toClient, s.wire.toGateway ++ [byte]⟩ }
  | connect {ok : Bool} (h : s.wire.client = .connecting) :
      Did s (.connect ok) (s.toClientPc (if ok then .connected else .failed))
  | fail (h : ∀ copy, s.wire.client ≠ .forwarding copy) : Did s .fail (s.toClientPc .failed)
  | publicCopy {action : CopyAction} {copy copy' : Copying} {toClient toGateway : List UInt8}
      (h : s.stream = .resolved copy)
      (hc : copy.step s.wire.toClient s.wire.toGateway action =
        some (copy', toClient, toGateway)) :
      Did s (.publicCopy action)
        { s with stream := .resolved copy', wire := ⟨s.wire.client, toClient, toGateway⟩ }
  | localCopy {action : CopyAction} {copy copy' : Copying} {toClient toGateway : List UInt8}
      (h : s.wire.client = .forwarding copy)
      (hc : copy.step s.wire.toGateway s.wire.toClient action =
        some (copy', toGateway, toClient)) :
      Did s (.localCopy action) { s with wire := ⟨.forwarding copy', toClient, toGateway⟩ }

theorem did_of_step {s s' : Link} {action : LinkAction} (h : s.step action = some s') :
    Did s action s' := by
  cases action with
  | assign call =>
      obtain ⟨-, h⟩ := Option.ite_none_right_eq_some.mp h
      cases h
      exact .assign
  | manager action =>
      simp only [step] at h
      split at h
      · rename_i manager toGateway hm hr
        cases h
        exact .manager (Manager.did_of_step hm) hr
      · cases h
  | finish kept =>
      obtain ⟨stream, hstream, rfl⟩ := Option.map_eq_some_iff.mp h
      exact .finish hstream
  | hear =>
      simp only [step] at h
      split at h
      · rename_i byte toClient hc
        obtain ⟨client, hclient, rfl⟩ := Option.map_eq_some_iff.mp h
        exact .hear hc hclient
      · cases h
  | reply =>
      obtain ⟨⟨client, byte⟩, hclient, rfl⟩ := Option.map_eq_some_iff.mp h
      exact .reply hclient
  | connect ok =>
      obtain ⟨hc, h⟩ := Option.ite_none_right_eq_some.mp h
      cases h
      exact .connect hc
  | fail =>
      simp only [step] at h
      split at h
      · cases h
      · cases h
      · rename_i hf _
        cases h
        exact .fail hf
  | publicCopy action =>
      simp only [step] at h
      split at h
      · rename_i copy hs
        obtain ⟨⟨copy', toClient, toGateway⟩, hc, rfl⟩ := Option.map_eq_some_iff.mp h
        exact .publicCopy hs hc
      · cases h
  | localCopy action =>
      simp only [step] at h
      split at h
      · rename_i copy hs
        obtain ⟨⟨copy', toGateway, toClient⟩, hc, rfl⟩ := Option.map_eq_some_iff.mp h
        exact .localCopy hs hc
      · cases h

end Link

/-! ### What is under way -/

/-- The phases of a tunnel: no command is out; `PING` is, or its answer; `START` is, or its answer;
the assignment is resolved with the stream; the tunnel is lost. -/
inductive Phase where
  | idle
  | pinging
  | activating
  | resolved (g : Copying)
  | lost

namespace Wire

/-- The client has these commands still to read. -/
def ToHear (w : Wire) (commands : List UInt8) : Prop :=
  (w.client = .commands ∧ w.toClient = commands) ∨
    (w.client = .authenticating ∧ w.toClient = authOk :: commands)

/-- A command is out and not answered: the client has it to read, or has read it, or has failed. -/
def Asked (w : Wire) (command : UInt8) (reading : ClientPc → Prop) : Prop :=
  w.toGateway = [] ∧
    (w.ToHear [command] ∨ (reading w.client ∧ w.toClient = []) ∨ w.client = .failed)

/-- No command is out. -/
def Idle (w : Wire) : Prop := w.toGateway = [] ∧ (w.ToHear [] ∨ w.client = .failed)

/-- The client forwards, and so far `g` and it have exchanged exactly their peers' bytes. -/
def Forwards (w : Wire) (g : Copying) : Prop :=
  ∃ c, w.client = .forwarding c ∧ g.Relayed c w.toClient ∧ c.Relayed g w.toGateway

/-- **What the client is doing in a phase, and what the two channels hold.** -/
def InPhase (w : Wire) : Phase → Prop
  | .idle => w.Idle
  | .pinging =>
    w.Asked pingCommand (· = .ponging) ∨
      ∃ rest, w.toGateway = pongCommand :: rest ∧ Idle { w with toGateway := rest }
  | .activating =>
    w.Asked startCommand (fun client => client = .connecting ∨ client = .connected) ∨
      ∃ rest, w.toGateway = readyCommand :: rest ∧ Forwards { w with toGateway := rest } .start
  | .resolved g => w.Forwards g
  | .lost => True

section Client

variable {w : Wire}

variable {commands toClient toGateway : List UInt8} {byte command : UInt8} {client : ClientPc}
  {reading : ClientPc → Prop} {copy : Copying} {action : CopyAction} {phase : Phase}

theorem ToHear.append (h : w.ToHear commands) (command : UInt8) :
    ToHear { w with toClient := w.toClient ++ [command] } (commands ++ [command]) := by
  rcases h with ⟨hclient, hto⟩ | ⟨hclient, hto⟩
  · exact .inl ⟨hclient, by rw [hto]⟩
  · exact .inr ⟨hclient, by rw [hto]; rfl⟩

/-- A command goes out when none is. -/
theorem Idle.ask (h : w.Idle) (command : UInt8) (reading : ClientPc → Prop) :
    Asked { w with toClient := w.toClient ++ [command] } command reading := by
  obtain ⟨hto, hidle | hfailed⟩ := h
  · exact ⟨hto, .inl (hidle.append command)⟩
  · exact ⟨hto, .inr (.inr hfailed)⟩

/-- The client reads the first of the commands, or the verdict before them. -/
theorem ToHear.hear (h : w.ToHear commands) (hc : w.toClient = byte :: toClient)
    (hh : w.client.heard byte = some client) :
    ToHear { w with client, toClient } commands ∨
      (commands = byte :: toClient ∧ ClientPc.commands.heard byte = some client) := by
  rcases h with ⟨hclient, hto⟩ | ⟨hclient, hto⟩
  · rw [hclient] at hh
    exact .inr ⟨hto ▸ hc, hh⟩
  · rw [hto] at hc
    cases hc
    rw [hclient] at hh
    cases hh
    exact .inl (.inl ⟨rfl, rfl⟩)

theorem Idle.hear (h : w.Idle) (hc : w.toClient = byte :: toClient)
    (hh : w.client.heard byte = some client) :
    Idle { w with client, toClient } := by
  obtain ⟨hto, hidle | hfailed⟩ := h
  · rcases hidle.hear hc hh with hidle | ⟨hnil, -⟩
    · exact ⟨hto, .inl hidle⟩
    · cases hnil
  · rw [hfailed] at hh
    cases hh

/-- A command that is read puts the client where it is answered. -/
theorem Asked.hear (h : w.Asked command reading)
    (hread : ∀ client, ClientPc.commands.heard command = some client → reading client)
    (hnone : ∀ client, reading client → ∀ byte, client.heard byte = none)
    (hc : w.toClient = byte :: toClient) (hh : w.client.heard byte = some client) :
    Asked { w with client, toClient } command reading := by
  obtain ⟨hto, hask | ⟨hreading, -⟩ | hfailed⟩ := h
  · rcases hask.hear hc hh with hask | ⟨hcommands, hheard⟩
    · exact ⟨hto, .inl hask⟩
    · cases hcommands
      exact ⟨hto, .inr (.inl ⟨hread client hheard, rfl⟩)⟩
  · rw [hnone w.client hreading byte] at hh
    cases hh
  · rw [hfailed] at hh
    cases hh

/-- Only a client that was asked has something to reply. -/
theorem not_replied_of_toHear {reply : ClientPc × UInt8} (h : w.ToHear commands) :
    w.client.replied ≠ some reply := by
  rcases h with ⟨hclient, -⟩ | ⟨hclient, -⟩ <;> simp [hclient, ClientPc.replied]

theorem Idle.not_replied {reply : ClientPc × UInt8} (h : w.Idle) :
    w.client.replied ≠ some reply := by
  obtain ⟨-, hidle | hfailed⟩ := h
  · exact not_replied_of_toHear hidle
  · simp [hfailed, ClientPc.replied]

theorem Asked.reply (h : w.Asked command reading) (hr : w.client.replied = some (client, byte)) :
    reading w.client ∧ w.toClient = [] ∧ w.toGateway = [] := by
  obtain ⟨hto, hask | ⟨hreading, hnil⟩ | hfailed⟩ := h
  · exact absurd hr (not_replied_of_toHear hask)
  · exact ⟨hreading, hnil, hto⟩
  · simp [hfailed, ClientPc.replied] at hr

theorem Idle.fail (h : w.Idle) : Idle { w with client := .failed } := ⟨h.1, .inr rfl⟩

theorem Asked.fail (h : w.Asked command reading) :
    Asked { w with client := .failed } command reading := ⟨h.1, .inr (.inr rfl)⟩

theorem Idle.not_forwarding (h : w.Idle) : w.client ≠ .forwarding copy := by
  obtain ⟨-, (⟨hclient, -⟩ | ⟨hclient, -⟩) | hclient⟩ := h <;> simp [hclient]

theorem Asked.not_forwarding {command : UInt8} {reading : ClientPc → Prop} {copy : Copying}
    (h : w.Asked command reading) (hreading : ¬ reading (.forwarding copy)) :
    w.client ≠ .forwarding copy := by
  intro hclient
  obtain ⟨-, (⟨hcommands, -⟩ | ⟨hauth, -⟩) | ⟨hr, -⟩ | hfailed⟩ := h
  · cases hclient.symm.trans hcommands
  · cases hclient.symm.trans hauth
  · exact hreading (hclient ▸ hr)
  · cases hclient.symm.trans hfailed

/-- A step of the client's copying keeps the exchange exact. -/
theorem Forwards.localCopy {g copy' : Copying} (h : w.Forwards g)
    (hclient : w.client = .forwarding copy)
    (hc : copy.step w.toGateway w.toClient action = some (copy', toGateway, toClient)) :
    Forwards { w with client := .forwarding copy', toGateway, toClient } g := by
  obtain ⟨c, hforwarding, hin, hout⟩ := h
  cases hclient.symm.trans hforwarding
  exact ⟨copy', rfl, hin.writer_step hc, hout.reader_step hc⟩

/-- A step of the public connection's copying keeps the exchange exact. -/
theorem Forwards.publicCopy {g g' : Copying} (h : w.Forwards g)
    (hc : g.step w.toClient w.toGateway action = some (g', toClient, toGateway)) :
    Forwards { w with toClient, toGateway } g' := by
  obtain ⟨c, hforwarding, hin, hout⟩ := h
  exact ⟨c, hforwarding, hin.reader_step hc, hout.writer_step hc⟩

theorem InPhase.hear (h : w.InPhase phase) (hc : w.toClient = byte :: toClient)
    (hh : w.client.heard byte = some client) : InPhase { w with client, toClient } phase := by
  have hforwards : ∀ {v : Wire} {g : Copying}, v.client = w.client → ¬ v.Forwards g := by
    rintro v g hclient ⟨c, hforwarding, -⟩
    rw [← hclient, hforwarding] at hh
    cases hh
  cases phase with
  | idle => exact Idle.hear h hc hh
  | pinging =>
      rcases h with h | ⟨rest, hto, h⟩
      · refine .inl (h.hear (fun _ hh => by cases hh; rfl) ?_ hc hh)
        rintro _ rfl _
        rfl
      · exact .inr ⟨rest, hto, Idle.hear (w := { w with toGateway := rest }) h hc hh⟩
  | activating =>
      rcases h with h | ⟨rest, -, h⟩
      · refine .inl (h.hear (fun _ hh => by cases hh; exact .inl rfl) ?_ hc hh)
        rintro _ (rfl | rfl) _ <;> rfl
      · exact absurd h (hforwards rfl)
  | resolved g => exact absurd h (hforwards rfl)
  | lost => trivial

theorem InPhase.reply (h : w.InPhase phase) (hr : w.client.replied = some (client, byte)) :
    InPhase { w with client, toGateway := w.toGateway ++ [byte] } phase := by
  have hforwards : ∀ {v : Wire} {g : Copying}, v.client = w.client → ¬ v.Forwards g := by
    rintro v g hclient ⟨c, hforwarding, -⟩
    rw [← hclient, hforwarding] at hr
    cases hr
  cases phase with
  | idle => exact absurd hr (Idle.not_replied h)
  | pinging =>
      rcases h with h | ⟨rest, -, h⟩
      · obtain ⟨hponging, hnil, hto⟩ := h.reply hr
        rw [hponging] at hr
        cases hr
        exact .inr ⟨[], by rw [hto]; rfl, rfl, .inl (.inl ⟨rfl, hnil⟩)⟩
      · exact absurd hr (Idle.not_replied (w := { w with toGateway := rest }) h)
  | activating =>
      rcases h with h | ⟨rest, -, h⟩
      · obtain ⟨hconnecting | hconnected, hnil, hto⟩ := h.reply hr
        · rw [hconnecting] at hr
          cases hr
        · rw [hconnected] at hr
          cases hr
          refine .inr ⟨[], by rw [hto]; rfl, .start, rfl, ?_, rfl⟩
          simp only [hnil]
          rfl
      · exact absurd h (hforwards rfl)
  | resolved g => exact absurd h (hforwards rfl)
  | lost => trivial

/-- The client moves on from `connecting`, or fails: the channels stay as they are. -/
theorem InPhase.move (h : w.InPhase phase) (hno : ∀ copy, w.client ≠ .forwarding copy)
    (hc : client = .failed ∨ (client = .connected ∧ w.client = .connecting)) :
    InPhase { w with client } phase := by
  have hforwards : ∀ {v : Wire} {g : Copying}, v.client = w.client → ¬ v.Forwards g := by
    rintro v g hclient ⟨c, hforwarding, -⟩
    exact hno c (hclient ▸ hforwarding)
  rcases hc with rfl | ⟨rfl, hconnecting⟩
  · cases phase with
    | idle => exact Idle.fail h
    | pinging =>
        rcases h with h | ⟨rest, hto, h⟩
        · exact .inl h.fail
        · exact .inr ⟨rest, hto, Idle.fail (w := { w with toGateway := rest }) h⟩
    | activating =>
        rcases h with h | ⟨rest, -, h⟩
        · exact .inl h.fail
        · exact absurd h (hforwards rfl)
    | resolved g => exact absurd h (hforwards rfl)
    | lost => trivial
  · have hidle : ∀ {v : Wire}, v.client = w.client → ¬ v.Idle := by
      rintro v hclient ⟨-, (⟨h, -⟩ | ⟨h, -⟩) | h⟩ <;> rw [hclient, hconnecting] at h <;> cases h
    cases phase with
    | idle => exact absurd h (hidle rfl)
    | pinging =>
        rcases h with ⟨-, (⟨h, -⟩ | ⟨h, -⟩) | ⟨h, -⟩ | h⟩ | ⟨rest, -, h⟩
        · cases hconnecting.symm.trans h
        · cases hconnecting.symm.trans h
        · cases hconnecting.symm.trans h
        · cases hconnecting.symm.trans h
        · exact absurd h (hidle rfl)
    | activating =>
        rcases h with ⟨hto, (⟨h, -⟩ | ⟨h, -⟩) | ⟨-, hnil⟩ | h⟩ | ⟨rest, -, h⟩
        · cases hconnecting.symm.trans h
        · cases hconnecting.symm.trans h
        · exact .inl ⟨hto, .inr (.inl ⟨.inr rfl, hnil⟩)⟩
        · cases hconnecting.symm.trans h
        · exact absurd h (hforwards rfl)
    | resolved g => exact absurd h (hforwards rfl)
    | lost => trivial

theorem InPhase.localCopy {copy' : Copying} (h : w.InPhase phase)
    (hclient : w.client = .forwarding copy)
    (hc : copy.step w.toGateway w.toClient action = some (copy', toGateway, toClient)) :
    InPhase { w with client := .forwarding copy', toGateway, toClient } phase := by
  cases phase with
  | idle => exact absurd hclient (Idle.not_forwarding h)
  | pinging =>
      rcases h with h | ⟨rest, -, h⟩
      · exact absurd hclient (h.not_forwarding (by simp))
      · exact absurd hclient (Idle.not_forwarding (w := { w with toGateway := rest }) h)
  | activating =>
      rcases h with h | ⟨rest, hto, h⟩
      · exact absurd hclient (h.not_forwarding (by simp))
      · -- `READY` stays in front of what the copying adds
        rw [hto] at hc
        obtain ⟨rest', hrest, rfl⟩ := Copying.step_cons hc
        exact .inr ⟨rest', rfl, Forwards.localCopy (w := { w with toGateway := rest }) h hclient
          hrest⟩
  | resolved g => exact Forwards.localCopy h hclient hc
  | lost => trivial

end Client

end Wire

namespace Link

/-- The phase, by the place of the task. -/
def phase (s : Link) : Phase :=
  match s.manager.pc, s.stream with
  | .unspawned, _ | .select, _ => .idle
  | .pinging, _ => .pinging
  | .activating _, _ => .activating
  | .activated _ (.ok ()), _ | .answering _ (.ok ()), _ => .resolved .start
  | .ended, .resolved g => .resolved g
  | _, _ => .lost

/-- **The task and the client are in step**, and the stream is the task's until it has ended. -/
structure InStep (s : Link) : Prop where
  inPhase : s.wire.InPhase s.phase
  stream : s.manager.pc ≠ .ended → s.stream = .task

theorem inStep_start : start.InStep := ⟨⟨rfl, .inl (.inr ⟨rfl, rfl⟩)⟩, fun _ => rfl⟩

/-! ### The task -/

theorem eq_byte_of_exchange {expected : UInt8} {late invalid : String} {reply : Reply}
    (h : exchange expected late invalid reply = .ok ()) : reply = .byte expected := by
  cases reply with
  | failed error => cases h
  | timedOut => cases h
  | byte command =>
      simp only [exchange] at h
      split_ifs at h with hne
      rw [not_not.mp hne]

variable {s : Link}

theorem InStep.manager {action : ManagerAction} {manager : Manager} {toGateway : List UInt8}
    (h : s.InStep) (hm : s.manager.Did action manager)
    (hr : action.reads s.wire.toGateway = some toGateway) :
    InStep { s with
      manager
      wire := ⟨s.wire.client, s.wire.toClient ++ action.writes, toGateway⟩ } := by
  obtain ⟨⟨slot, pc⟩, stream, client, toClient, received⟩ := s
  obtain ⟨hphase, hstream⟩ := h
  cases hm with
  | spawn hpc =>
      cases hpc
      cases hr
      refine ⟨?_, fun _ => hstream (by simp)⟩
      simp only [ManagerAction.writes, List.append_nil]
      exact hphase
  | recv hpc hslot =>
      cases hpc
      cases hr
      exact ⟨.inl (Wire.Idle.ask hphase _ _), fun _ => hstream (by simp)⟩
  | tick hpc =>
      cases hpc
      cases hr
      exact ⟨.inl (Wire.Idle.ask hphase _ _), fun _ => hstream (by simp)⟩
  | pong hpc hok =>
      cases hpc
      rw [eq_byte_of_exchange hok] at hr ⊢
      refine ⟨?_, fun _ => hstream (by simp)⟩
      rcases hphase with ⟨hnil, -⟩ | ⟨rest, hto, hidle⟩
      · cases hnil
        cases hr
      · cases hto
        cases hr
        simp only [ManagerAction.writes, List.append_nil]
        exact hidle
  | noPong hpc =>
      cases hpc
      exact ⟨trivial, fun _ => hstream (by simp)⟩
  | @ready reply call hpc =>
      cases hpc
      refine ⟨?_, fun _ => hstream (by simp)⟩
      cases hresult : activation reply with
      | error error => trivial
      | ok _ =>
          rw [eq_byte_of_exchange hresult] at hr ⊢
          rcases hphase with ⟨hnil, -⟩ | ⟨rest, hto, hforwards⟩
          · cases hnil
            cases hr
          · cases hto
            cases hr
            simp only [ManagerAction.writes, List.append_nil]
            exact hforwards
  | @clear call result hpc =>
      cases hpc
      cases hr
      refine ⟨?_, fun _ => hstream (by simp)⟩
      cases result with
      | error error => trivial
      | ok _ =>
          simp only [ManagerAction.writes, List.append_nil]
          exact hphase
  | clearBroken hpc =>
      cases hpc
      exact ⟨trivial, fun _ => hstream (by simp)⟩

theorem InStep.finish {kept : Bool} {stream : StreamEnd} (h : s.InStep)
    (hf : s.manager.pc.ends kept = some stream) :
    InStep { s with stream, manager := ⟨none, .ended⟩ } := by
  obtain ⟨⟨slot, pc⟩, stream, wire⟩ := s
  refine ⟨?_, fun hpc => absurd rfl hpc⟩
  cases pc with
  | answering call result =>
      cases result with
      | error error =>
          cases hf
          trivial
      | ok _ =>
          cases hf
          cases kept with
          | true => exact h.inPhase
          | false => trivial
  | stopped =>
      cases hf
      trivial
  | unspawned | select | pinging | activating call | activated call result | broken | ended =>
      cases hf

/-- The stream is resolved only by a task that has ended. -/
theorem InStep.ended {g : Copying} (h : s.InStep) (hstream : s.stream = .resolved g) :
    s.manager.pc = .ended := by
  by_contra hpc
  cases hstream.symm.trans (h.stream hpc)

theorem InStep.forwards {g : Copying} (h : s.InStep) (hphase : s.phase = .resolved g) :
    s.wire.Forwards g := by
  have hforwards := h.inPhase
  rwa [hphase] at hforwards

/-- **Every step keeps the task and the client in step.** -/
theorem InStep.step {s' : Link} {action : LinkAction} (h : s.InStep) (hs : s.step action = some s')
    : s'.InStep := by
  cases did_of_step hs with
  | assign => exact ⟨h.inPhase, h.stream⟩
  | manager hm hr => exact h.manager hm hr
  | finish hf => exact h.finish hf
  | hear hc hh => exact ⟨h.inPhase.hear hc hh, h.stream⟩
  | reply hr => exact ⟨h.inPhase.reply hr, h.stream⟩
  | @connect ok hconnecting =>
      refine ⟨h.inPhase.move (fun copy => by simp [hconnecting]) ?_, h.stream⟩
      cases ok with
      | true => exact .inr ⟨rfl, hconnecting⟩
      | false => exact .inl rfl
  | fail hno => exact ⟨h.inPhase.move hno (.inl rfl), h.stream⟩
  | @publicCopy action g g' toClient toGateway hstream hc =>
      have hended := h.ended hstream
      have hphase : s.phase = .resolved g := by simp only [phase, hended, hstream]
      have hphase' : phase { s with
          stream := .resolved g', wire := ⟨s.wire.client, toClient, toGateway⟩ } =
          .resolved g' := by
        simp only [phase, hended]
      refine ⟨?_, fun hpc => absurd hended hpc⟩
      rw [hphase']
      exact Wire.Forwards.publicCopy (h.forwards hphase) hc
  | localCopy hclient hc => exact ⟨h.inPhase.localCopy hclient hc, h.stream⟩

/-- The task has its activation and is about to answer the assignment with the stream. -/
def Resolving (s : Link) : Prop :=
  ∃ call, s.manager.pc = .activated call (.ok ()) ∨ s.manager.pc = .answering call (.ok ())

/-- **Control and payload never mix.**  In every state in which the task is about to resolve an
assignment with `Ok(stream)`, the client has left its command loop and forwards, no command is on
its way to it, and all that is on its way to the gateway was read from the local service.  From then
on, each of the two peers is sent exactly the bytes the other one sent, in order. -/
theorem control_and_payload_never_mix {s : Link}
    (h : Runs.Reaches step (fun _ _ => True) start s) :
    (s.Resolving → ∃ c, s.wire.client = .forwarding c ∧ s.wire.toClient = [] ∧
      s.wire.toGateway ++ c.toTunnel = c.read) ∧
    (∀ g, s.stream = .resolved g → ∃ c, s.wire.client = .forwarding c ∧
      g.Relayed c s.wire.toClient ∧ c.Relayed g s.wire.toGateway) := by
  have hinv : s.InStep := h.invariant inStep_start fun _ _ _ hs _ hstep => hs.step hstep
  constructor
  · rintro ⟨call, hpc | hpc⟩
    all_goals
      have hphase : s.phase = .resolved .start := by simp only [phase, hpc]
      obtain ⟨c, hclient, hin, hout⟩ := hinv.forwards hphase
      refine ⟨c, hclient, ?_, hout⟩
      -- nothing was read from the public peer yet, so nothing is under way from there
      simp only [Copying.Relayed, Copying.start, List.append_eq_nil_iff] at hin
      exact hin.1.2
  · intro g hstream
    have hphase : s.phase = .resolved g := by
      simp only [phase, hinv.ended hstream, hstream]
    exact hinv.forwards hphase

/-- A heartbeat, an assignment while its answer is under way, and a byte each way. -/
def sampleActions : List LinkAction :=
  [.manager .spawn, .manager .tick, .hear, .assign 0, .hear, .reply,
    .manager (.pong (.byte pongCommand)), .manager .recv, .hear, .connect true, .reply,
    .localCopy (.readPeer [7]), .localCopy (.writeTunnel 1),
    .manager (.ready (.byte readyCommand)), .manager .clear, .finish true,
    .publicCopy (.readPeer [9]), .publicCopy (.writeTunnel 1), .publicCopy (.readTunnel 1),
    .publicCopy (.writePeer 1), .localCopy (.readTunnel 1)]

theorem control_and_payload_never_mix_sample :
    ∃ s g, Runs.Reaches step (fun _ _ => True) start s ∧ s.stream = .resolved g ∧
      g.written = [7] ∧
      ∃ c, s.wire.client = .forwarding c ∧ g.Relayed c s.wire.toClient ∧
        c.Relayed g s.wire.toGateway := by
  obtain ⟨s, hs, hstream⟩ : ∃ s, Runs.run (fun s a => if True then step s a else none) start
      sampleActions = some s ∧ s.stream = .resolved ⟨[9], [7], [], [], false⟩ := ⟨_, rfl, rfl⟩
  have hreach : Runs.Reaches step (fun _ _ => True) start s := Runs.reaches_of_run _ .refl hs
  exact ⟨s, _, hreach, hstream, rfl, (control_and_payload_never_mix hreach).2 _ hstream⟩

end Link

end SingBoxMini.NatTunnel
