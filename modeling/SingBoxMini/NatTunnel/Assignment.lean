import SingBoxMini.NatTunnel.Pool
import SingBoxMini.Support.Oneshot
import SingBoxMini.Support.Text

/-!
# NAT tunnel — Assignment

The gateway around its pool (`nat_tunnel.rs`): the `manage_idle_tunnel` task of each tunnel, and the
public connections that `serve_public_connection` serves, as atomic steps.

* A tunnel's stream is named by the tunnel.  It belongs to the tunnel's task until it sends it.
* A public connection makes up to 8 attempts.  An attempt is one `acquire` call and one `oneshot`,
  and both have the number of the call; the channel is there, unused, from the start of the attempt.
* An assignment is the sender of the attempt's channel.  It goes through the tunnel's `mpsc` slot,
  which the task reads.  `recv` never gives `None`: the task's own handle has a sender.
* What the peer answers and when a time-out strikes is open.

`pool_of_step`: to the pool, the gateway is some of the runs of `Pool`.
-/

namespace SingBoxMini.NatTunnel

/-- `READY` -/
def readyCommand : UInt8 := 2
/-- `PONG` -/
def pongCommand : UInt8 := 4

/-! ### The task of a tunnel -/

/-- How the peer answers a command: an I/O error, nothing in time, or a byte. -/
inductive Reply where
  | failed (error : String)
  | timedOut
  | byte (command : UInt8)
deriving DecidableEq

/-- A command is written, and one byte is read as its answer. -/
def exchange (expected : UInt8) (late invalid : String) : Reply → Except String Unit
  | .failed error => .error error
  | .timedOut => .error late
  | .byte command => if command ≠ expected then .error invalid else .ok ()

/-- `START` and its answer. -/
def activation : Reply → Except String Unit :=
  exchange readyCommand "NAT tunnel assignment timed out" "invalid NAT tunnel ready response"

/-- `PING` and its answer. -/
def heartbeat : Reply → Except String Unit :=
  exchange pongCommand "NAT tunnel heartbeat timed out" "invalid NAT tunnel heartbeat response"

/-- `AssignmentResult`; the stream of a tunnel is named by the tunnel. -/
abbrev AssignmentResult := Except String TunnelId

/-- Where a `manage_idle_tunnel` task is: not spawned; in its `select!`; waiting for `PONG`; with an
assignment, waiting for `READY`; before it clears `alive` and before it answers the assignment;
after a failed heartbeat, before it clears `alive` and before it returns; returned. -/
inductive ManagerPc where
  | unspawned
  | select
  | pinging
  | activating (call : AcquireId)
  | activated (call : AcquireId) (result : Except String Unit)
  | answering (call : AcquireId) (result : Except String Unit)
  | broken
  | stopped
  | ended
deriving DecidableEq

/-- The task of a tunnel, and the slot of its `mpsc` channel. -/
structure Manager where
  slot : Option AcquireId
  pc : ManagerPc
deriving DecidableEq

/-- The steps of a task before its last. -/
inductive ManagerAction where
  | spawn
  | recv
  /-- `heartbeat.tick()` -/
  | tick
  | pong (reply : Reply)
  | ready (reply : Reply)
  /-- `handle.alive.store(false, ..)` -/
  | clear
deriving DecidableEq

/-- One step of a task. -/
def Manager.step : Manager → ManagerAction → Option Manager
  | ⟨slot, .unspawned⟩, .spawn => some ⟨slot, .select⟩
  | ⟨some call, .select⟩, .recv => some ⟨none, .activating call⟩
  | ⟨slot, .select⟩, .tick => some ⟨slot, .pinging⟩
  | ⟨slot, .pinging⟩, .pong reply =>
    match heartbeat reply with
    | .ok () => some ⟨slot, .select⟩
    | .error _ => some ⟨slot, .broken⟩
  | ⟨slot, .activating call⟩, .ready reply => some ⟨slot, .activated call (activation reply)⟩
  | ⟨slot, .activated call result⟩, .clear => some ⟨slot, .answering call result⟩
  | ⟨slot, .broken⟩, .clear => some ⟨slot, .stopped⟩
  | _, _ => none

/-- **The steps of a task, one by one**, with their guards. -/
inductive Manager.Did (m : Manager) : ManagerAction → Manager → Prop where
  | spawn (h : m.pc = .unspawned) : Did m .spawn { m with pc := .select }
  | recv {call : AcquireId} (h : m.pc = .select) (hslot : m.slot = some call) :
      Did m .recv ⟨none, .activating call⟩
  | tick (h : m.pc = .select) : Did m .tick { m with pc := .pinging }
  | pong {reply : Reply} (h : m.pc = .pinging) (hok : heartbeat reply = .ok ()) :
      Did m (.pong reply) { m with pc := .select }
  | noPong {reply : Reply} (h : m.pc = .pinging) : Did m (.pong reply) { m with pc := .broken }
  | ready {reply : Reply} {call : AcquireId} (h : m.pc = .activating call) :
      Did m (.ready reply) { m with pc := .activated call (activation reply) }
  | clear {call : AcquireId} {result : Except String Unit} (h : m.pc = .activated call result) :
      Did m .clear { m with pc := .answering call result }
  | clearBroken (h : m.pc = .broken) : Did m .clear { m with pc := .stopped }

theorem Manager.did_of_step {m m' : Manager} {action : ManagerAction}
    (h : m.step action = some m') : m.Did action m' := by
  unfold Manager.step at h
  split at h
  · cases h
    exact .spawn rfl
  · cases h
    exact .recv rfl rfl
  · cases h
    exact .tick rfl
  · split at h
    · rename_i hok
      cases h
      exact .pong rfl hok
    · cases h
      exact .noPong rfl
  · cases h
    exact .ready rfl
  · cases h
    exact .clear rfl
  · cases h
    exact .clearBroken rfl
  · cases h

/-- What the step does to the pool. -/
def ManagerAction.onPool (t : TunnelId) : ManagerAction → Option PoolAction
  | .spawn => some (.spawn t)
  | .clear => some (.die t)
  | _ => none

/-- The assignments a task has: in its slot, or taken out of it. -/
def Manager.Holds (m : Manager) (call : AcquireId) : Prop :=
  m.slot = some call ∨ m.pc = .activating call ∨ (∃ result, m.pc = .activated call result) ∨
    ∃ result, m.pc = .answering call result

/-! ### Public connections -/

/-- Where an attempt is: in `acquire`; with a candidate, before the assignment is in its slot;
waiting for the answer.  Or the connection has a stream, or failed. -/
inductive PublicPc where
  | acquiring
  | sending (t : TunnelId)
  | awaiting
  | forwarding (t : TunnelId)
  | failed (error : AnyhowError)
deriving DecidableEq

/-- A public connection, and its present attempt. -/
structure PublicConnection where
  attempts : Nat
  call : AcquireId
  pc : PublicPc
deriving DecidableEq

/-- A public connection, by its position among all of them. -/
abbrev PublicId := Nat

/-! ### The gateway -/

/-- The pool, the tasks of its tunnels, the channels for their answers and the public connections.
-/
structure Gateway where
  pool : PoolState
  managers : List Manager
  responses : List (Oneshot AssignmentResult)
  publics : List PublicConnection
deriving DecidableEq

/-- What can happen at a gateway. -/
inductive GatewayAction where
  /-- A tunnel was authenticated: a call of `register`. -/
  | tunnel
  /-- A public connection was accepted. -/
  | accept
  /-- A step of a `register` or `acquire` call. -/
  | pool (action : PoolAction)
  | manager (t : TunnelId) (action : ManagerAction)
  /-- The task answers its assignment, if it has one, and returns. -/
  | finish (t : TunnelId)
  /-- `acquire` has returned. -/
  | candidate (p : PublicId)
  /-- `candidate.assignments.send(response_tx).await` -/
  | send (p : PublicId)
  /-- `response_rx` is ready. -/
  | receive (p : PublicId)
  /-- The 10 s for the answer are over. -/
  | expire (p : PublicId)
deriving DecidableEq

/-- The steps within a call; the others are made together with those of a task or a connection. -/
def PoolAction.Within : PoolAction → Prop
  | .push _ _ | .notify _ | .pop _ _ | .poll _ | .timeout _ => True
  | _ => False

instance : (action : PoolAction) → Decidable action.Within
  | .push _ _ | .notify _ | .pop _ _ | .poll _ | .timeout _ => isTrue trivial
  | .register | .spawn _ | .die _ | .acquire => isFalse id

/-- The pool after an action, if there is one. -/
def PoolState.perform (s : PoolState) : Option PoolAction → Option PoolState
  | none => some s
  | some action => s.step action

namespace Gateway

/-- A gateway without tunnels. -/
def new (capacity : Nat) : Gateway := ⟨.new capacity, [], [], []⟩

/-- A call of `register`. -/
def tunnel (s : Gateway) : Gateway :=
  { s with pool := s.pool.register, managers := s.managers ++ [⟨none, .unspawned⟩] }

/-- A new attempt begins with a call of `acquire`. -/
def attempt (s : Gateway) : Gateway :=
  { s with pool := s.pool.acquire, responses := s.responses ++ [.empty] }

/-- A public connection was accepted. -/
def accept (s : Gateway) : Gateway :=
  { s.attempt with publics := s.publics ++ [⟨1, s.pool.acquires.length, .acquiring⟩] }

/-- A connection moves on within its attempt. -/
def toPublic (s : Gateway) (p : PublicId) (conn : PublicConnection) (pc : PublicPc) : Gateway :=
  { s with publics := s.publics.set p { conn with pc } }

variable {s s' : Gateway} {p : PublicId}

/-- The connections after one of them moved on. -/
theorem getElem?_toPublic {conn : PublicConnection} (hp : s.publics[p]? = some conn) (pc : PublicPc)
    (q : PublicId) :
    (s.toPublic p conn pc).publics[q]? = if p = q then some { conn with pc } else s.publics[q]? :=
  Tasks.getElem?_replace hp _ q

/-- The receiver of an attempt is gone. -/
def close (s : Gateway) (call : AcquireId) : Gateway :=
  { s with responses := s.responses.modify call .close }

/-- An attempt failed: its receiver is dropped, and there are at most 8. -/
def retry (s : Gateway) (p : PublicId) (conn : PublicConnection) : Gateway :=
  if conn.attempts ≥ 8 then
    (s.close conn.call).toPublic p conn (.failed ["no usable NAT tunnel was available"])
  else
    { (s.close conn.call).attempt with
      publics := s.publics.set p ⟨conn.attempts + 1, s.pool.acquires.length, .acquiring⟩ }

/-- An assignment left in the slot is dropped with the receiver of the `mpsc` channel. -/
def dropSlot (responses : List (Oneshot AssignmentResult)) (m : Manager) :
    List (Oneshot AssignmentResult) :=
  match m.slot with
  | some call => responses.modify call .dropSender
  | none => responses

/-- The task's last step: with an assignment it sends the stream or the error of the activation. -/
def answers (responses : List (Oneshot AssignmentResult)) (t : TunnelId) (m : Manager) :
    Option (List (Oneshot AssignmentResult)) :=
  match m.pc with
  | .answering call result =>
    some ((dropSlot responses m).modify call (.send (result.map fun _ => t)))
  | .stopped => some (dropSlot responses m)
  | _ => none

/-- The step an action makes, if it is enabled. -/
def step (s : Gateway) : GatewayAction → Option Gateway
  | .tunnel => some s.tunnel
  | .accept => some s.accept
  | .pool action =>
    if action.Within then (s.pool.step action).map fun pool => { s with pool } else none
  | .manager t action =>
    match s.managers[t]? with
    | some m =>
      match m.step action, s.pool.perform (action.onPool t) with
      | some m', some pool => some { s with pool, managers := s.managers.set t m' }
      | _, _ => none
    | none => none
  | .finish t =>
    match s.managers[t]? with
    | some m =>
      (answers s.responses t m).map fun responses =>
        { s with responses, managers := s.managers.set t ⟨none, .ended⟩ }
    | none => none
  | .candidate p =>
    match s.publics[p]? with
    | some conn =>
      match conn.pc, s.pool.acquires[conn.call]? with
      | .acquiring, some (.acquired t) => some (s.toPublic p conn (.sending t))
      | .acquiring, some .timedOut => some (s.toPublic p conn
          (.failed ["wait for an idle NAT tunnel timed out", "deadline has elapsed"]))
      | _, _ => none
    | none => none
  | .send p =>
    match s.publics[p]? with
    | some conn =>
      match conn.pc with
      | .sending t =>
        match s.managers[t]? with
        | some m =>
          if m.pc = .ended then some (s.retry p conn)
          else if m.slot = none then
            some { s.toPublic p conn .awaiting with
              managers := s.managers.set t { m with slot := some conn.call } }
          else none
        | none => none
      | _ => none
    | none => none
  | .receive p =>
    match s.publics[p]? with
    | some conn =>
      match conn.pc, s.responses[conn.call]?.bind Oneshot.poll with
      | .awaiting, some (some (.ok t)) => some ((s.close conn.call).toPublic p conn (.forwarding t))
      | .awaiting, some _ => some (s.retry p conn)
      | _, _ => none
    | none => none
  | .expire p =>
    match s.publics[p]? with
    | some conn => if conn.pc = .awaiting then some (s.retry p conn) else none
    | none => none

/-! ### What a step can do -/

/-- **The steps, one by one**, with their guards. -/
inductive Did (s : Gateway) : GatewayAction → Gateway → Prop where
  | tunnel : Did s .tunnel s.tunnel
  | accept : Did s .accept s.accept
  | pool {action : PoolAction} {pool : PoolState} (hw : action.Within)
      (hpool : s.pool.step action = some pool) : Did s (.pool action) { s with pool }
  | manager {t : TunnelId} {action : ManagerAction} {m m' : Manager} {pool : PoolState}
      (hm : s.managers[t]? = some m) (hstep : m.step action = some m')
      (hpool : s.pool.perform (action.onPool t) = some pool) :
      Did s (.manager t action) { s with pool, managers := s.managers.set t m' }
  | finish {t : TunnelId} {m : Manager} {responses : List (Oneshot AssignmentResult)}
      (hm : s.managers[t]? = some m) (h : answers s.responses t m = some responses) :
      Did s (.finish t) { s with responses, managers := s.managers.set t ⟨none, .ended⟩ }
  | candidate {p : PublicId} {conn : PublicConnection} {t : TunnelId}
      (hp : s.publics[p]? = some conn) (hpc : conn.pc = .acquiring)
      (ht : s.pool.Acquired conn.call t) : Did s (.candidate p) (s.toPublic p conn (.sending t))
  | noCandidate {p : PublicId} {conn : PublicConnection} (hp : s.publics[p]? = some conn)
      (hpc : conn.pc = .acquiring) : Did s (.candidate p) (s.toPublic p conn
        (.failed ["wait for an idle NAT tunnel timed out", "deadline has elapsed"]))
  | refused {p : PublicId} {conn : PublicConnection} {t : TunnelId} {m : Manager}
      (hp : s.publics[p]? = some conn) (hpc : conn.pc = .sending t)
      (hm : s.managers[t]? = some m) (hended : m.pc = .ended) : Did s (.send p) (s.retry p conn)
  | send {p : PublicId} {conn : PublicConnection} {t : TunnelId} {m : Manager}
      (hp : s.publics[p]? = some conn) (hpc : conn.pc = .sending t)
      (hm : s.managers[t]? = some m) (hopen : m.pc ≠ .ended) (hslot : m.slot = none) :
      Did s (.send p) { s.toPublic p conn .awaiting with
        managers := s.managers.set t { m with slot := some conn.call } }
  | receive {p : PublicId} {conn : PublicConnection} {t : TunnelId}
      (hp : s.publics[p]? = some conn) (hpc : conn.pc = .awaiting)
      (hr : s.responses[conn.call]? = some (.sent (.ok t))) :
      Did s (.receive p) ((s.close conn.call).toPublic p conn (.forwarding t))
  | noStream {p : PublicId} {conn : PublicConnection} (hp : s.publics[p]? = some conn)
      (hpc : conn.pc = .awaiting) : Did s (.receive p) (s.retry p conn)
  | expire {p : PublicId} {conn : PublicConnection} (hp : s.publics[p]? = some conn)
      (hpc : conn.pc = .awaiting) : Did s (.expire p) (s.retry p conn)

theorem did_of_manager {t : TunnelId} {action : ManagerAction}
    (h : s.step (.manager t action) = some s') : Did s (.manager t action) s' := by
  simp only [step] at h
  split at h
  · rename_i m hm
    split at h
    · rename_i m' pool hstep hpool
      cases h
      exact .manager hm hstep hpool
    · cases h
  · cases h

theorem did_of_finish {t : TunnelId} (h : s.step (.finish t) = some s') :
    Did s (.finish t) s' := by
  simp only [step] at h
  split at h
  · rename_i m hm
    obtain ⟨responses, hresponses, rfl⟩ := Option.map_eq_some_iff.mp h
    exact .finish hm hresponses
  · cases h

theorem did_of_candidate (h : s.step (.candidate p) = some s') :
    Did s (.candidate p) s' := by
  simp only [step] at h
  split at h
  · rename_i conn hp
    split at h
    · rename_i t hpc ht
      cases h
      exact .candidate hp hpc ht
    · rename_i hpc _
      cases h
      exact .noCandidate hp hpc
    · cases h
  · cases h

theorem did_of_send (h : s.step (.send p) = some s') :
    Did s (.send p) s' := by
  simp only [step] at h
  split at h
  · rename_i conn hp
    split at h
    · rename_i t hpc
      split at h
      · rename_i m hm
        split_ifs at h with hended hslot
        · cases h
          exact .refused hp hpc hm hended
        · cases h
          exact .send hp hpc hm hended hslot
      · cases h
    · cases h
  · cases h

theorem did_of_receive (h : s.step (.receive p) = some s') :
    Did s (.receive p) s' := by
  simp only [step] at h
  split at h
  · rename_i conn hp
    split at h
    · rename_i t hpc hr
      cases h
      obtain ⟨channel, hchannel, hpoll⟩ := Option.bind_eq_some_iff.mp hr
      rw [Oneshot.poll_eq_value_iff.mp hpoll] at hchannel
      exact .receive hp hpc hchannel
    · rename_i hpc _
      cases h
      exact .noStream hp hpc
    · cases h
  · cases h

theorem did_of_step {action : GatewayAction} (h : s.step action = some s') :
    Did s action s' := by
  cases action with
  | tunnel =>
      cases h
      exact .tunnel
  | accept =>
      cases h
      exact .accept
  | pool action =>
      simp only [step] at h
      split_ifs at h with hw
      obtain ⟨pool, hpool, rfl⟩ := Option.map_eq_some_iff.mp h
      exact .pool hw hpool
  | manager t action => exact did_of_manager h
  | finish t => exact did_of_finish h
  | candidate p => exact did_of_candidate h
  | send p => exact did_of_send h
  | receive p => exact did_of_receive h
  | expire p =>
      simp only [step] at h
      split at h
      · rename_i conn hp
        split_ifs at h with hpc
        cases h
        exact .expire hp hpc
      · cases h

/-! ### The pool within the gateway -/

/-- A failed attempt leaves the pool as it is, or calls `acquire` again. -/
theorem pool_retry (s : Gateway) (p : PublicId) (conn : PublicConnection) :
    (s.retry p conn).pool = s.pool ∨ (s.retry p conn).pool = s.pool.acquire := by
  unfold retry
  split_ifs
  · exact .inl rfl
  · exact .inr rfl

/-- **The gateway refines the pool**: a step of the gateway is a step of the pool, or none. -/
theorem pool_of_step {action : GatewayAction} (h : s.step action = some s') :
    s'.pool = s.pool ∨ ∃ b, s.pool.step b = some s'.pool := by
  have hretry : ∀ (p : PublicId) (conn : PublicConnection), (s.retry p conn).pool = s.pool ∨
      ∃ b, s.pool.step b = some (s.retry p conn).pool := by
    intro p conn
    rcases pool_retry s p conn with heq | heq
    · exact .inl heq
    · exact .inr ⟨.acquire, by rw [heq]; rfl⟩
  cases did_of_step h with
  | tunnel => exact .inr ⟨.register, rfl⟩
  | accept => exact .inr ⟨.acquire, rfl⟩
  | pool _ hpool => exact .inr ⟨_, hpool⟩
  | @manager t b _ _ pool _ _ hpool =>
      cases hb : b.onPool t with
      | none =>
          rw [hb] at hpool
          cases hpool
          exact .inl rfl
      | some action =>
          rw [hb] at hpool
          exact .inr ⟨action, hpool⟩
  | finish | candidate | noCandidate | send | receive => exact .inl rfl
  | refused | noStream | expire => exact hretry _ _

theorem pool_reaches {capacity : Nat} {ok : Gateway → GatewayAction → Prop}
    (h : Runs.Reaches step ok (new capacity) s) :
    Runs.Reaches PoolState.step (fun _ _ => True) (PoolState.new capacity) s.pool := by
  refine h.project pool fun s a s' _ hs => ?_
  rcases pool_of_step hs with heq | ⟨b, hb⟩
  · exact .inl heq
  · exact .inr ⟨b, trivial, hb⟩

end Gateway

end SingBoxMini.NatTunnel
