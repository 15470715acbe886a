import SingBoxMini.Server.UdpDatagrams
import SingBoxMini.Support.Runs
import SingBoxMini.Support.Tasks

/-!
# Server — UDP sessions

`serve_udp_datagrams` with the receive tasks that `get_udp_session` spawns (`server.rs`), as atomic
steps between their await points.

* The loop is in its `select!`, waits for the sockets of a new session, or waits for a packet to be
  sent.  Only the loop touches the session table.
* A receive task takes packets from the session's sockets, cuts them into datagrams and sends those
  to the client.  When its loop ends it sends the id of the session and a weak pointer to it through
  a channel without a bound.
* A session (`Arc<UdpSession>`) is its position in the order of creation, and so is its task.

`Tracked` ties the three together: a task that runs has its session in the table, a session in the
table has a task that runs or a message in the channel, and a message is about a session in the
table.  `session_life_cycle` is what follows for the table and for the handling of a message.
-/

namespace SingBoxMini.Server.UdpSessions
open Protocol Outbound

/-! ### Receive tasks -/

/-- Where a receive task is: in `recv_from`; with datagrams left to be sent for a packet; after its
loop; ended. -/
inductive TaskPc where
  | receiving
  | responding (fragments : List (List UInt8))
  | leaving
  | ended
deriving DecidableEq

/-- A receive task, with the `next_packet_id` of its session. -/
structure SessionTask where
  sessionId : UInt32
  socket : OutboundUdpSession
  maximumDatagramSize : Nat
  nextPacketId : UInt16
  pc : TaskPc
deriving DecidableEq

namespace SessionTask

/-- A task that was just spawned; a datagram has 1200 bytes if the connection does not say. -/
def start (sessionId : UInt32) (socket : OutboundUdpSession) (maxDatagramSize : Option Nat) :
    SessionTask :=
  ⟨sessionId, socket, maxDatagramSize.getD 1200, 0, .receiving⟩

/-- `recv_from` returns.  A packet that cannot be encoded is dropped, an error ends the loop. -/
def received (task : SessionTask) (result : Except String (List UInt8 × String)) : SessionTask :=
  match task.socket.recvFrom result with
  | none => { task with pc := .ended }
  | some (.error _) => { task with pc := .leaving }
  | some (.ok (payload, source)) =>
    { task with
      nextPacketId := task.nextPacketId + 1
      pc :=
        match UdpMessage.encodeFragments task.sessionId task.nextPacketId source payload
            task.maximumDatagramSize with
        | .ok fragments => .responding fragments
        | .error _ => .receiving }

/-- The next `send_datagram` with its result, or the end of the packet. -/
def respond (task : SessionTask) (error : Option String) : Option SessionTask :=
  match task.pc, error with
  | .responding [], none => some { task with pc := .receiving }
  | .responding (_ :: fragments), none => some { task with pc := .responding fragments }
  | .responding (_ :: _), some _ => some { task with pc := .leaving }
  | _, _ => none

/-- The task is the same one, and has not ended. -/
structure Goes (task task' : SessionTask) : Prop where
  sessionId : task'.sessionId = task.sessionId
  socket : task'.socket = task.socket
  running : task'.pc ≠ .ended

/-- A task whose session has a socket does not panic in `recv_from`. -/
theorem goes_received {task : SessionTask}
    (hsocket : task.socket.ipv4 = true ∨ task.socket.ipv6 = true)
    (result : Except String (List UInt8 × String)) : task.Goes (task.received result) := by
  have hrecv : task.socket.recvFrom result = some result := if_neg (by grind)
  rw [received, hrecv]
  rcases result with error | ⟨payload, source⟩
  · exact ⟨rfl, rfl, by simp⟩
  · refine ⟨rfl, rfl, ?_⟩
    simp only
    split <;> simp

theorem goes_respond {task task' : SessionTask} {error : Option String}
    (h : task.respond error = some task') : task.pc ≠ .ended ∧ task.Goes task' := by
  unfold respond at h
  split at h <;> cases h <;> simp_all [Goes.mk]

end SessionTask

/-! ### The loop -/

/-- Where the loop is: in its `select!`; waiting for `open_udp`; waiting for `send_to`; returned;
dropped by the `try_join!` around it. -/
inductive ServePc where
  | select
  | opening (message : UdpMessage)
  | sending (message : UdpMessage) (session : UdpSession)
  | returned (how : LoopEnd)
  | dropped

/-- The loop, the receive tasks and the channel between them. -/
structure State where
  pc : ServePc
  loop : UdpLoop
  tasks : List SessionTask
  /-- The expiration messages in the channel. -/
  channel : List (UInt32 × Nat)

/-- What the loop and the tasks wait for. -/
inductive Action where
  /-- `read_datagram` returns. -/
  | datagram (received : Except ConnectionError (List UInt8)) (now : Nat)
      (it : HashMap.Iter Key PartialPacket)
  /-- `open_udp` returns; a new session takes the size of the connection's datagrams. -/
  | opened (net : Network) (maxDatagramSize : Option Nat)
  /-- `send_to` returns. -/
  | sent (net : Network)
  /-- The loop receives an expiration message. -/
  | expire
  | drop
  | receive (k : Nat) (result : Except String (List UInt8 × String))
  | respond (k : Nat) (error : Option String)
  /-- A task that has left its loop sends its message. -/
  | notify (k : Nat)

namespace State

/-- The loop at its start. -/
def start : State := ⟨.select, .start, [], []⟩

/-- The loop has ended, and with it the table and the receiver of the channel. -/
def gone (s : State) : Bool :=
  match s.pc with
  | .returned _ | .dropped => true
  | _ => false

/-- The loop with a new session. -/
def insertSession (loop : UdpLoop) (sessionId : UInt32) (socket : OutboundUdpSession) : UdpLoop :=
  { loop with
    sessions := loop.sessions.insert sessionId ⟨loop.opened, socket⟩
    opened := loop.opened + 1 }

/-- `Weak::upgrade`: the table, the session's task or the loop has a strong pointer left. -/
def upgrade (s : State) (ptr : Nat) : Bool :=
  s.loop.sessions.entries.any (fun e => e.2.ptr = ptr) ||
    s.tasks[ptr]?.any (fun task => task.pc ≠ .ended) ||
    match s.pc with
    | .sending _ session => session.ptr = ptr
    | _ => false

/-- The loop handles an expiration message. -/
def expired (s : State) (sessionId : UInt32) (ptr : Nat) : UdpLoop :=
  if (s.loop.sessions.lookup sessionId).any fun current => s.upgrade ptr && current.ptr = ptr then
    { s.loop with sessions := s.loop.sessions.erase sessionId }
  else s.loop

/-- The step an action makes, if it is enabled. -/
def step (mode : OutboundMode) (s : State) : Action → Option State
  | .datagram received now it =>
    match s.pc with
    | .select =>
      match s.loop.reading received now it with
      | .next loop => some { s with loop }
      | .exit how => some { s with pc := .returned how }
      | .message message loop =>
        match loop.sessions.lookup message.sessionId with
        | some session => some { s with loop, pc := .sending message session }
        | none => some { s with loop, pc := .opening message }
    | _ => none
  | .opened net maxDatagramSize =>
    match s.pc with
    | .opening message =>
      match openUdp mode net with
      | .error error =>
        some { s with pc := .returned (.returned (.error ["bind UDP session socket", error])) }
      | .ok socket => some { s with
          loop := insertSession s.loop message.sessionId socket
          pc := .sending message ⟨s.loop.opened, socket⟩
          tasks := s.tasks ++ [.start message.sessionId socket maxDatagramSize] }
    | _ => none
  | .sent net =>
    match s.pc with
    | .sending message session =>
      match session.socket.sendTo net message.destination with
      | .ok _ => some { s with loop := s.loop.sent message, pc := .select }
      | .error error => some { s with pc := .returned (.returned (.error
          ["send UDP packet to " ++ message.destination, error])) }
    | _ => none
  | .expire =>
    match s.pc, s.channel with
    | .select, (sessionId, ptr) :: rest =>
      some { s with loop := s.expired sessionId ptr, channel := rest }
    | _, _ => none
  | .drop => if s.gone then none else some { s with pc := .dropped }
  | .receive k result =>
    s.tasks[k]?.bind fun task =>
      if task.pc = .receiving then
        some { s with tasks := s.tasks.set k (task.received result) }
      else none
  | .respond k error =>
    s.tasks[k]?.bind fun task => (task.respond error).map fun task =>
      { s with tasks := s.tasks.set k task }
  | .notify k =>
    s.tasks[k]?.bind fun task =>
      if task.pc = .leaving then
        some { s with
          tasks := s.tasks.set k { task with pc := .ended }
          channel := if s.gone then s.channel else s.channel ++ [(task.sessionId, k)] }
      else none

/-! ### The steps of an iteration -/

/-- Where the loop is after an iteration. -/
def After (s : State) : Iteration → Prop
  | .next loop => s.pc = .select ∧ s.loop = loop
  | .packet message loop (.ok _) => s.pc = .select ∧ s.loop = loop.sent message
  | .packet _ _ (.error error) => s.pc = .returned (.returned (.error error))
  | .exit how => s.pc = .returned how

/-- `send_to` ends the iteration. -/
theorem after_sent (mode : OutboundMode) {s : State} {message : UdpMessage} {session : UdpSession}
    (hpc : s.pc = .sending message session) (net : Network) {loop : UdpLoop}
    (hget : loop.getUdpSession mode net message.sessionId = (s.loop, .ok session)) :
    ∃ s', step mode s (.sent net) = some s' ∧
      s'.After (.packet message (loop.relay mode net message).1
        (loop.relay mode net message).2) := by
  simp only [UdpLoop.relay, hget, step, hpc]
  cases session.socket.sendTo net message.destination with
  | ok written => exact ⟨_, rfl, rfl, rfl⟩
  | error error => exact ⟨_, rfl, rfl⟩

/-- **The steps refine the iteration.**  Without steps of the tasks in between, a datagram and the
operations for its packet lead to where `UdpLoop.onDatagram` leads. -/
theorem run_onDatagram (mode : OutboundMode) {s : State} (hpc : s.pc = .select)
    (received : Except ConnectionError (List UInt8)) (now : Nat)
    (it : HashMap.Iter Key PartialPacket) (net : Network) (maxDatagramSize : Option Nat) :
    ∃ actions s', Runs.run (step mode) s (.datagram received now it :: actions) = some s' ∧
      s'.After (s.loop.onDatagram mode received now it net) := by
  rw [UdpLoop.onDatagram]
  cases hreading : s.loop.reading received now it with
  | next loop =>
      refine ⟨[], { s with loop }, ?_, hpc, rfl⟩
      simp only [Runs.run, step, hpc, hreading, Option.bind_some]
  | exit how =>
      refine ⟨[], { s with pc := .returned how }, ?_, rfl⟩
      simp only [Runs.run, step, hpc, hreading, Option.bind_some]
  | message message loop =>
      cases hlookup : loop.sessions.lookup message.sessionId with
      | some session =>
          have hget : loop.getUdpSession mode net message.sessionId = (loop, .ok session) := by
            simp only [UdpLoop.getUdpSession, hlookup]
          obtain ⟨s', hstep, hafter⟩ := after_sent mode
            (s := { s with loop, pc := .sending message session }) rfl net hget
          refine ⟨[.sent net], s', ?_, hafter⟩
          simp only [Runs.run, step, hpc, hreading, hlookup, Option.bind_some] at hstep ⊢
          rw [hstep, Option.bind_some]
      | none =>
          cases hopen : openUdp mode net with
          | error error =>
              refine ⟨[.opened net maxDatagramSize], { s with
                loop, pc := .returned (.returned (.error ["bind UDP session socket", error])) },
                ?_, ?_⟩
              · simp only [Runs.run, step, hpc, hreading, hlookup, hopen, Option.bind_some]
              · simp only [UdpLoop.relay, UdpLoop.getUdpSession, hlookup, hopen, After]
          | ok socket =>
              have hget : loop.getUdpSession mode net message.sessionId =
                  (insertSession loop message.sessionId socket, .ok ⟨loop.opened, socket⟩) := by
                simp only [UdpLoop.getUdpSession, hlookup, hopen, insertSession]
              obtain ⟨s', hstep, hafter⟩ := after_sent mode (s := { s with
                loop := insertSession loop message.sessionId socket
                pc := .sending message ⟨loop.opened, socket⟩
                tasks := s.tasks ++ [.start message.sessionId socket maxDatagramSize] })
                rfl net hget
              refine ⟨[.opened net maxDatagramSize, .sent net], s', ?_, hafter⟩
              simp only [Runs.run, step, hpc, hreading, hlookup, hopen, Option.bind_some]
                at hstep ⊢
              rw [hstep, Option.bind_some]

theorem reading_keeps {loop loop' : UdpLoop} {received : Except ConnectionError (List UInt8)}
    {now : Nat} {it : HashMap.Iter Key PartialPacket}
    (h : loop.reading received now it = .next loop' ∨
      ∃ message, loop.reading received now it = .message message loop') :
    loop'.sessions = loop.sessions ∧ loop'.opened = loop.opened := by
  unfold UdpLoop.reading at h
  grind

/-! ### The table, the tasks and the channel -/

/-- The pointer in a message can be upgraded while its session is in the table. -/
theorem expired_eq_expire (s : State) (id : UInt32) (ptr : Nat) :
    s.expired id ptr = s.loop.expire id ptr := by
  have hupgrade : ∀ session, s.loop.sessions.lookup id = some session →
      s.upgrade session.ptr = true := by
    intro session hlookup
    have hmem := AList.mem_lookup_iff.mp hlookup
    simp only [upgrade, Bool.or_eq_true, List.any_eq_true, decide_eq_true_eq]
    exact .inl (.inl ⟨_, hmem, rfl⟩)
  rw [expired, UdpLoop.expire]
  cases hlookup : s.loop.sessions.lookup id with
  | none => rfl
  | some session =>
      by_cases hptr : session.ptr = ptr
      · simp [hptr, hptr ▸ hupgrade session hlookup]
      · simp [hptr]

/-- **The sessions are tracked.**  Every task that runs has its session in the table; every session
in the table has a task that runs or a message in the channel; every message is about a session in
the table whose task has ended. -/
structure Tracked (s : State) : Prop where
  opened : s.tasks.length = s.loop.opened
  /-- A session was opened with a socket, so that its task does not panic. -/
  sockets : ∀ (k : Nat) (task : SessionTask), s.tasks[k]? = some task →
    task.socket.ipv4 = true ∨ task.socket.ipv6 = true
  running : ∀ (k : Nat) (task : SessionTask), s.tasks[k]? = some task → task.pc ≠ .ended →
    ∃ session, s.loop.sessions.lookup task.sessionId = some session ∧ session.ptr = k
  table : ∀ id session, s.loop.sessions.lookup id = some session →
    ∃ task, s.tasks[session.ptr]? = some task ∧ task.sessionId = id ∧
      (task.pc ≠ .ended ∨ (id, session.ptr) ∈ s.channel)
  messages : ∀ id ptr, (id, ptr) ∈ s.channel →
    (∃ session, s.loop.sessions.lookup id = some session ∧ session.ptr = ptr) ∧
      ∃ task, s.tasks[ptr]? = some task ∧ task.pc = .ended
  once : s.channel.Nodup
  /-- The session table does not change while `open_udp` is awaited. -/
  opening : ∀ message, s.pc = .opening message →
    s.loop.sessions.lookup message.sessionId = none

namespace Tracked

variable {s s' : State}

/-- Where the table and the tasks stay, so does the rest. -/
theorem congr (h : Tracked s) (hsessions : s'.loop.sessions = s.loop.sessions)
    (hopened : s'.loop.opened = s.loop.opened) (htasks : s'.tasks = s.tasks)
    (hchannel : s'.channel = s.channel)
    (hopening : ∀ message, s'.pc = .opening message →
      s.loop.sessions.lookup message.sessionId = none) : Tracked s' := by
  constructor
  all_goals simp only [hsessions, hopened, htasks, hchannel]
  · exact h.opened
  · exact h.sockets
  · exact h.running
  · exact h.table
  · exact h.messages
  · exact h.once
  · exact hopening

variable {k : Nat} {task task' : SessionTask} {id : UInt32}

/-- **A task that runs makes a step**: it goes on, or it ends and its message goes to the
channel. -/
theorem replace (h : Tracked s) (htask : s.tasks[k]? = some task) (hpc : task.pc ≠ .ended)
    (hid : task'.sessionId = task.sessionId) (hsocket : task'.socket = task.socket)
    {sent : List (UInt32 × Nat)}
    (hsent : task'.pc ≠ .ended ∧ sent = [] ∨ task'.pc = .ended ∧ sent = [(task.sessionId, k)]) :
    Tracked { s with tasks := s.tasks.set k task', channel := s.channel ++ sent } := by
  have hget := Tasks.getElem?_replace htask task'
  -- a message in the channel is about a task that has ended, so not about this one
  have hother : ∀ id ptr, (id, ptr) ∈ s.channel → k ≠ ptr := by
    rintro id ptr hmem rfl
    obtain ⟨-, other, hother, hended⟩ := h.messages id k hmem
    cases htask.symm.trans hother
    exact hpc hended
  refine ⟨by rw [List.length_set]; exact h.opened, ?_, ?_, ?_, ?_, ?_, h.opening⟩
  all_goals simp only [hget, List.mem_append]
  · intro j other hj
    split_ifs at hj
    · cases hj
      exact hsocket ▸ h.sockets k task htask
    · exact h.sockets j other hj
  · intro j other hj hrun
    split_ifs at hj with hk
    · cases hj
      subst hk
      exact hid ▸ h.running k task htask hpc
    · exact h.running j other hj hrun
  · intro id session hlookup
    obtain ⟨other, hj, hid', hrun⟩ := h.table id session hlookup
    by_cases hk : k = session.ptr
    · subst hk
      cases htask.symm.trans hj
      refine ⟨task', if_pos rfl, hid.trans hid', ?_⟩
      rcases hsent with ⟨hrun', -⟩ | ⟨-, rfl⟩
      · exact .inl hrun'
      · exact .inr (.inr (by simp [hid']))
    · exact ⟨other, (if_neg hk).trans hj, hid', hrun.imp_right .inl⟩
  · rintro id ptr (hmem | hmem)
    · obtain ⟨hsession, other, hj, hended⟩ := h.messages id ptr hmem
      exact ⟨hsession, other, (if_neg (hother id ptr hmem)).trans hj, hended⟩
    · rcases hsent with ⟨-, rfl⟩ | ⟨hended, rfl⟩
      · cases hmem
      · obtain ⟨rfl, rfl⟩ : id = task.sessionId ∧ ptr = k := by simpa using hmem
        exact ⟨h.running ptr task htask hpc, task', if_pos rfl, hended⟩
  · rcases hsent with ⟨-, rfl⟩ | ⟨-, rfl⟩
    · simpa using h.once
    · have hnew : (task.sessionId, k) ∉ s.channel := fun hmem => hother _ _ hmem rfl
      simpa using h.once.concat hnew

/-- A task that runs goes on. -/
theorem goOn (h : Tracked s) (htask : s.tasks[k]? = some task) (hpc : task.pc ≠ .ended)
    (hgoes : task.Goes task') :
    Tracked { s with tasks := s.tasks.set k task' } := by
  have hreplaced := h.replace htask hpc hgoes.sessionId hgoes.socket (.inl ⟨hgoes.running, rfl⟩)
  rwa [List.append_nil] at hreplaced

/-- A session is opened under an id that is free, and its task is spawned. -/
theorem spawn (h : Tracked s) {message : UdpMessage} (hpc : s.pc = .opening message)
    {socket : OutboundUdpSession} (hsocket : socket.ipv4 = true ∨ socket.ipv6 = true)
    (maxDatagramSize : Option Nat) : Tracked { s with
      loop := insertSession s.loop message.sessionId socket
      pc := .sending message ⟨s.loop.opened, socket⟩
      tasks := s.tasks ++ [.start message.sessionId socket maxDatagramSize] } := by
  have hfree := h.opening message hpc
  have hget := Tasks.getElem?_spawn s.tasks (.start message.sessionId socket maxDatagramSize)
  -- the table has no session under the id, so the sessions in it are under other ids
  have hother : ∀ id session, s.loop.sessions.lookup id = some session →
      (s.loop.sessions.insert message.sessionId ⟨s.loop.opened, socket⟩).lookup id =
        some session := by
    intro id session hlookup
    have hne : id ≠ message.sessionId := by
      rintro rfl
      rw [hfree] at hlookup
      cases hlookup
    rwa [AList.lookup_insert_ne hne]
  have hold : ∀ {k : Nat} {task : SessionTask}, s.tasks[k]? = some task →
      k ≠ s.tasks.length := fun hk => (Tasks.lt_length hk).ne
  refine ⟨by simp [insertSession, h.opened], ?_, ?_, ?_, ?_, h.once, by simp⟩
  all_goals simp only [hget, insertSession]
  · intro k task htask
    split_ifs at htask with hk
    · cases htask
      exact hsocket
    · exact h.sockets k task htask
  · intro k task htask hrun
    split_ifs at htask with hk
    · cases htask
      exact ⟨_, AList.lookup_insert _, hk ▸ h.opened.symm⟩
    · obtain ⟨session, hlookup, hptr⟩ := h.running k task htask hrun
      exact ⟨session, hother _ _ hlookup, hptr⟩
  · intro id session hlookup
    by_cases hid : id = message.sessionId
    · subst hid
      rw [AList.lookup_insert] at hlookup
      cases hlookup
      exact ⟨_, if_pos h.opened.symm, rfl, .inl (by simp [SessionTask.start])⟩
    · rw [AList.lookup_insert_ne hid] at hlookup
      obtain ⟨task, htask, hrest⟩ := h.table id session hlookup
      exact ⟨task, (if_neg (hold htask)).trans htask, hrest⟩
  · intro id ptr hmem
    obtain ⟨⟨session, hlookup, hptr⟩, task, htask, hended⟩ := h.messages id ptr hmem
    exact ⟨⟨session, hother _ _ hlookup, hptr⟩, task, (if_neg (hold htask)).trans htask, hended⟩

/-- **The message about a session removes it**: the session in the table is the one the message is
about, since a session that reuses the id is opened only after that. -/
theorem expired_eq (h : Tracked s) {ptr : Nat} (hmem : (id, ptr) ∈ s.channel) :
    s.expired id ptr = { s.loop with sessions := s.loop.sessions.erase id } := by
  obtain ⟨⟨session, hlookup, rfl⟩, -⟩ := h.messages id ptr hmem
  rw [State.expired_eq_expire, UdpLoop.expire, hlookup]
  simp

theorem expire (h : Tracked s) {ptr : Nat} {rest : List (UInt32 × Nat)} (hpc : s.pc = .select)
    (hchannel : s.channel = (id, ptr) :: rest) :
    Tracked { s with loop := s.expired id ptr, channel := rest } := by
  have hmem : (id, ptr) ∈ s.channel := hchannel ▸ List.mem_cons_self
  have hsub : ∀ m, m ∈ rest → m ∈ s.channel := fun m hm => hchannel ▸ List.mem_cons_of_mem _ hm
  have hnodup := h.once
  rw [hchannel, List.nodup_cons] at hnodup
  obtain ⟨⟨session, hlookup, hptr⟩, task, htask, hended⟩ := h.messages id ptr hmem
  rw [h.expired_eq hmem]
  refine ⟨h.opened, h.sockets, ?_, ?_, ?_, hnodup.2, by simp [hpc]⟩
  all_goals simp only [HashMap.lookup_erase_eq]
  · intro k other hother hrun
    obtain ⟨session', hlookup', hptr'⟩ := h.running k other hother hrun
    have hne : other.sessionId ≠ id := by
      rintro rfl
      cases hlookup.symm.trans hlookup'
      rw [← hptr', hptr, htask] at hother
      cases hother
      exact hrun hended
    exact ⟨session', (if_neg hne).trans hlookup', hptr'⟩
  · intro id' session' hlookup'
    split_ifs at hlookup' with hid
    obtain ⟨other, hother, hother', hrun⟩ := h.table id' session' hlookup'
    refine ⟨other, hother, hother', hrun.imp_right fun hmem' => ?_⟩
    rw [hchannel, List.mem_cons, Prod.mk.injEq] at hmem'
    exact hmem'.resolve_left fun heq => hid heq.1
  · intro id' ptr' hmem'
    obtain ⟨⟨session', hlookup', hptr'⟩, hother⟩ := h.messages id' ptr' (hsub _ hmem')
    have hne : id' ≠ id := by
      rintro rfl
      cases hlookup.symm.trans hlookup'
      exact hnodup.1 (hptr ▸ hptr' ▸ hmem')
    exact ⟨⟨session', (if_neg hne).trans hlookup', hptr'⟩, hother⟩

/-- **One step keeps the sessions tracked**, as long as there is a table. -/
theorem step {mode : OutboundMode} {action : Action} (h : s.gone = false → Tracked s)
    (hstep : State.step mode s action = some s') (hgone : s'.gone = false) : Tracked s' := by
  cases action with
  | datagram received now it =>
      simp only [State.step] at hstep
      split at hstep
      case h_2 => cases hstep
      case h_1 hpc =>
        have hs : Tracked s := h (by simp [gone, hpc])
        split at hstep
        case h_1 loop hreading =>
          cases hstep
          obtain ⟨hsessions, hopened⟩ := reading_keeps (.inl hreading)
          exact hs.congr hsessions hopened rfl rfl (by simp [hpc])
        case h_2 how hreading =>
          cases hstep
          simp [gone] at hgone
        case h_3 message loop hreading =>
          obtain ⟨hsessions, hopened⟩ := reading_keeps (.inr ⟨message, hreading⟩)
          split at hstep
          case h_1 session hlookup =>
            cases hstep
            exact hs.congr hsessions hopened rfl rfl (by simp)
          case h_2 hlookup =>
            cases hstep
            rw [hsessions] at hlookup
            exact hs.congr hsessions hopened rfl rfl (by grind)
  | opened net maxDatagramSize =>
      simp only [State.step] at hstep
      split at hstep
      case h_2 => cases hstep
      case h_1 message hpc =>
        have hs : Tracked s := h (by simp [gone, hpc])
        split at hstep
        case h_1 =>
          cases hstep
          simp [gone] at hgone
        case h_2 socket hopen =>
          cases hstep
          exact hs.spawn hpc (openUdp_ok hopen) maxDatagramSize
  | sent net =>
      simp only [State.step] at hstep
      split at hstep
      case h_2 => cases hstep
      case h_1 message session hpc =>
        have hs : Tracked s := h (by simp [gone, hpc])
        split at hstep
        case h_1 =>
          cases hstep
          exact hs.congr rfl rfl rfl rfl (by simp)
        case h_2 =>
          cases hstep
          simp [gone] at hgone
  | expire =>
      simp only [State.step] at hstep
      split at hstep
      case h_2 => cases hstep
      case h_1 id ptr rest hpc hchannel =>
        cases hstep
        exact (h (by simp [gone, hpc])).expire hpc hchannel
  | drop =>
      simp only [State.step] at hstep
      split_ifs at hstep
      cases hstep
      simp [gone] at hgone
  | receive k result =>
      obtain ⟨task, htask, hstep⟩ := Option.bind_eq_some_iff.mp hstep
      split_ifs at hstep with hpc
      cases hstep
      have hs := h hgone
      exact hs.goOn htask (by simp [hpc])
        (SessionTask.goes_received (hs.sockets k task htask) result)
  | respond k error =>
      obtain ⟨task, htask, hstep⟩ := Option.bind_eq_some_iff.mp hstep
      obtain ⟨task', hrespond, hstep⟩ := Option.map_eq_some_iff.mp hstep
      cases hstep
      obtain ⟨hpc, hgoes⟩ := SessionTask.goes_respond hrespond
      exact (h hgone).goOn htask hpc hgoes
  | notify k =>
      obtain ⟨task, htask, hstep⟩ := Option.bind_eq_some_iff.mp hstep
      split_ifs at hstep with hpc
      · cases hstep
        simp_all [gone]
      · cases hstep
        refine (h hgone).replace htask (by simp [hpc]) ?_ ?_ ?_
        · rfl
        · rfl
        · exact .inr ⟨rfl, rfl⟩

theorem start : Tracked State.start := by
  refine ⟨rfl, ?_, ?_, ?_, ?_, List.nodup_nil, ?_⟩ <;> simp [State.start, UdpLoop.start]

theorem of_reaches {mode : OutboundMode}
    (h : Runs.Reaches (State.step mode) (fun _ _ => True) State.start s) :
    s.gone = false → Tracked s :=
  h.invariant (fun _ => start) fun _ _ _ hs _ hstep => step hs hstep

/-- Two sessions in the table are different ones. -/
theorem table_inj (h : Tracked s) {id' : UInt32} {session session' : UdpSession}
    (hlookup : s.loop.sessions.lookup id = some session)
    (hlookup' : s.loop.sessions.lookup id' = some session') (hptr : session.ptr = session'.ptr) :
    id = id' := by
  obtain ⟨task, htask, hid, -⟩ := h.table id session hlookup
  obtain ⟨task', htask', hid', -⟩ := h.table id' session' hlookup'
  rw [hptr, htask'] at htask
  cases htask
  exact hid.symm.trans hid'

/-- No two tasks run for one session id. -/
theorem running_inj (h : Tracked s) {k' : Nat} (htask : s.tasks[k]? = some task)
    (htask' : s.tasks[k']? = some task') (hrun : task.pc ≠ .ended) (hrun' : task'.pc ≠ .ended)
    (hid : task.sessionId = task'.sessionId) : k = k' := by
  obtain ⟨session, hlookup, rfl⟩ := h.running k task htask hrun
  obtain ⟨session', hlookup', rfl⟩ := h.running k' task' htask' hrun'
  rw [hid, hlookup'] at hlookup
  cases hlookup
  rfl

end Tracked

/-! ### The life of a session -/

/-- **The life cycle of sessions.**  In every state of every run, until the loop ends:

* the table has one session for an id, different ids have different sessions, and no two tasks run
  for one id;
* the task of each session in the table runs, or its message is in the channel;
* handling a message removes the session whose task sent it from the table, and no other. -/
theorem session_life_cycle {mode : OutboundMode} {s : State}
    (h : Runs.Reaches (step mode) (fun _ _ => True) start s) (hgone : s.gone = false) :
    (s.loop.sessions.keys.Nodup ∧
      (∀ id id' session session', s.loop.sessions.lookup id = some session →
        s.loop.sessions.lookup id' = some session' → session.ptr = session'.ptr → id = id') ∧
      ∀ (k k' : Nat) (task task' : SessionTask), s.tasks[k]? = some task →
        s.tasks[k']? = some task' → task.pc ≠ .ended → task'.pc ≠ .ended →
        task.sessionId = task'.sessionId → k = k') ∧
    (∀ id session, s.loop.sessions.lookup id = some session →
      ∃ task, s.tasks[session.ptr]? = some task ∧ task.sessionId = id ∧
        (task.pc ≠ .ended ∨ (id, session.ptr) ∈ s.channel)) ∧
    ∀ s', step mode s .expire = some s' →
      ∃ id session rest, s.channel = (id, session.ptr) :: rest ∧ s'.channel = rest ∧
        s.loop.sessions.lookup id = some session ∧ s'.loop.sessions.lookup id = none ∧
        ∀ id', id' ≠ id → s'.loop.sessions.lookup id' = s.loop.sessions.lookup id' := by
  have hs := Tracked.of_reaches h hgone
  refine ⟨⟨s.loop.sessions.keys_nodup, fun _ _ _ _ => hs.table_inj,
    fun _ _ _ _ => hs.running_inj⟩, hs.table, ?_⟩
  intro s' hstep
  simp only [step] at hstep
  split at hstep
  case h_2 => cases hstep
  case h_1 id ptr rest hpc hchannel =>
    cases hstep
    have hmem : (id, ptr) ∈ s.channel := hchannel ▸ List.mem_cons_self
    obtain ⟨⟨session, hlookup, rfl⟩, -⟩ := hs.messages id ptr hmem
    refine ⟨id, session, rest, hchannel, rfl, hlookup, ?_, ?_⟩
    · rw [hs.expired_eq hmem]
      exact AList.lookup_erase id s.loop.sessions
    · intro id' hne
      rw [hs.expired_eq hmem]
      exact AList.lookup_erase_ne hne

/-- A one-byte packet of session 1 to a host. -/
def packet : Action :=
  .datagram (.ok [0, 0, 0, 1, 0, 1, 0, 1, 4, 97, 58, 53, 51, 7]) 0 (.inOrder _ _)

/-- The session times out and is removed, its id is reused, and the new session gets a response that
cannot be sent. -/
def reuse : List Action :=
  [packet, .opened reachable none, .sent reachable, .receive 0 (.error "UDP session timed out"),
    packet, .sent reachable, .notify 0, .expire, packet, .opened reachable none, .sent reachable,
    .receive 1 (.ok ([8], "192.0.2.1:53")), .respond 1 (some "connection lost"), .notify 1]

theorem session_life_cycle_reused_id :
    ∃ s, Runs.run (step .preferIpv4) start reuse = some s ∧ s.channel = [(1, 1)] ∧
      ∃ s' session, step .preferIpv4 s .expire = some s' ∧ session.ptr = 1 ∧
        s.loop.sessions.lookup 1 = some session ∧ s'.loop.sessions.lookup 1 = none := by
  obtain ⟨s, hrun, hchannel, hgone, s', hexpire⟩ :
      ∃ s, Runs.run (step .preferIpv4) start reuse = some s ∧ s.channel = [(1, 1)] ∧
        s.gone = false ∧ ∃ s', step .preferIpv4 s .expire = some s' :=
    ⟨_, rfl, rfl, rfl, _, rfl⟩
  have hreaches : Runs.Reaches (step .preferIpv4) (fun _ _ => True) start s :=
    Runs.reaches_of_run reuse .refl (by simpa only [if_true] using hrun)
  obtain ⟨-, -, hall⟩ := session_life_cycle hreaches hgone
  obtain ⟨id, session, rest, hhead, -, hlookup, hremoved, -⟩ := hall s' hexpire
  rw [hchannel] at hhead
  obtain ⟨⟨rfl, hptr⟩, -⟩ : ((1 : UInt32) = id ∧ 1 = session.ptr) ∧ [] = rest := by
    simpa using hhead
  exact ⟨s, hrun, hchannel, s', session, hexpire, hptr.symm, hlookup, hremoved⟩

end State

end SingBoxMini.Server.UdpSessions
