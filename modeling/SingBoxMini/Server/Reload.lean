import SingBoxMini.Server.Users
import SingBoxMini.Support.Runs
import SingBoxMini.Support.Tasks
import SingBoxMini.Vless.Users

/-!
# Server — Reload

The connections `run_until_with_traffic` (`server.rs`) has accepted when it is shut down, and what
their tasks do afterwards.

* A HY2 connection belongs to the endpoint.  The shutdown closes the endpoint: nothing arrives at or
  leaves a closed connection, so its task fails at its next operation.  But the tasks that relay its
  streams go on with what they have read already, and with what quinn has received before and still
  hands out (`readsAfterClose` says whether it does).
* A TCP connection belongs to its task (`tcp_server::serve`), which nothing ends.

Data is counted in pieces, whatever their size, and without distinction of the streams: the pieces
the client's side has received, and those a task has read and not yet written.  The queue of rate
cells, which may hold up the loop between an accept and the spawn, is in `Server.AcceptLoop`.

* `revoked_iff`: after a shutdown has returned, no connection authenticates or relays any more
  exactly if no TCP connection was left, and no piece of data of a HY2 connection.
-/

namespace SingBoxMini.Server.Reload
open Vless (Sha256 UserId)

/-- The crates, and the configuration the server was started with. -/
structure Env where
  http : Http
  sha256 : Sha256
  /-- `quinn` hands out data it received before the connection was closed. -/
  readsAfterClose : Bool
  config : Config

/-! ### Connections -/

/-- How the client is connected. -/
inductive Transport where
  | hy2
  | tcp
deriving DecidableEq

/-- Where a connection is; SSH connections are relayed without a user. -/
inductive Stage where
  | handshaking
  | authenticating
  | relaying (user : Option String)
  | ended
deriving DecidableEq

/-- A connection and what is under way on it. -/
structure Conn where
  transport : Transport
  stage : Stage
  /-- Pieces from the client that were received and not read. -/
  unread : Nat
  /-- Pieces from the client that were read and not written to the target. -/
  held : Nat
deriving DecidableEq

/-- What can happen on a connection. -/
inductive ConnAction where
  | handshake (ok : Bool)
  /-- `is_ssh_connection` says so. -/
  | sniffSsh
  /-- `authenticate_connection` has read a request. -/
  | request (request : Request)
  /-- `serve` has read the version and the id. -/
  | identify (version : UInt8) (id : UserId)
  | arrive
  | read
  | write
  | writeError
  /-- A piece from the target is written to the client. -/
  | download
  /-- The task ends, at a time-out or an error or because a side is done. -/
  | finish

/-- The action relays data. -/
def ConnAction.relays : ConnAction → Bool
  | .write | .download => true
  | _ => false

/-- The connection can carry data. -/
def Conn.isOpen (closed : Bool) (conn : Conn) : Bool :=
  match conn.transport with
  | .hy2 => conn.stage ≠ .ended && !closed
  | .tcp => conn.stage ≠ .ended

/-- The end of a task.  The relays of a HY2 connection are tasks of their own. -/
def Conn.finished (conn : Conn) : Conn :=
  match conn.transport with
  | .hy2 => { conn with stage := .ended }
  | .tcp => { conn with stage := .ended, unread := 0, held := 0 }

/-- The task of a relay is there. -/
def Conn.hasRelay (conn : Conn) : Bool :=
  match conn.transport, conn.stage with
  | .hy2, _ => true
  | .tcp, .relaying _ => true
  | .tcp, _ => false

/-- A step of a connection; `closed` says that the endpoint is. -/
def Conn.step (env : Env) (closed : Bool) (conn : Conn) : ConnAction → Option Conn
  | .handshake ok =>
    if conn.stage = .handshaking then
      some (if ok ∧ conn.isOpen closed then { conn with stage := .authenticating }
        else conn.finished)
    else none
  | .sniffSsh =>
    if conn.transport = .tcp ∧ conn.stage = .handshaking ∧ env.config.ssh.enabled then
      some { conn with stage := .relaying none }
    else none
  | .request request =>
    if conn.transport = .hy2 ∧ conn.stage = .authenticating then
      -- the response is sent before the user is returned
      if closed then some conn.finished
      else
        match authenticate env.http (authenticationOptions env.config) request with
        | some user => some { conn with stage := .relaying (some user) }
        | none => some conn
    else none
  | .identify version id =>
    if conn.transport = .tcp ∧ conn.stage = .authenticating then
      if version ≠ 0 then some conn.finished
      else
        match (Vless.users env.sha256 env.config.users).lookup id with
        | some user => some { conn with stage := .relaying (some user) }
        | none => some conn.finished
    else none
  | .arrive =>
    match conn.stage with
    | .relaying _ =>
      if conn.isOpen closed then some { conn with unread := conn.unread + 1 } else none
    | _ => none
  | .read =>
    if 0 < conn.unread ∧ conn.hasRelay ∧
        (conn.transport = .hy2 ∧ closed → env.readsAfterClose) then
      some { conn with unread := conn.unread - 1, held := conn.held + 1 }
    else none
  | .write =>
    if 0 < conn.held ∧ conn.hasRelay then some { conn with held := conn.held - 1 } else none
  | .writeError =>
    if 0 < conn.held ∧ conn.transport = .hy2 then some { conn with held := conn.held - 1 } else none
  | .download =>
    match conn.stage with
    | .relaying _ => if conn.isOpen closed then some conn else none
    | _ => none
  | .finish => if conn.stage ≠ .ended then some conn.finished else none

/-! ### The loop -/

/-- A connection, by its position among all of them. -/
abbrev ConnId := Nat

/-- Where the loop is: in its `select!`; between an accept and the spawn; in `wait_idle` after a
shutdown; returned after a shutdown, or with an error. -/
inductive LoopPc where
  | select
  | accepting (c : ConnId)
  | closing
  | returned
  | failed
deriving DecidableEq

/-- The loop and the connections. -/
structure State where
  pc : LoopPc
  /-- `endpoint.close` was called. -/
  closed : Bool
  conns : List Conn
deriving DecidableEq

/-- What the loop waits for, and what connections do. -/
inductive Action where
  | acceptHy2
  | spawn
  | acceptTcp
  | acceptError
  | shutdown
  /-- `wait_idle` returns. -/
  | idle
  | conn (c : ConnId) (action : ConnAction)

namespace State

/-- The loop at its start. -/
def start : State := ⟨.select, false, []⟩

/-- The step an action makes, if it is enabled. -/
def step (env : Env) (s : State) : Action → Option State
  | .acceptHy2 =>
    if s.pc = .select then
      some { s with
        pc := .accepting s.conns.length
        conns := s.conns ++ [⟨.hy2, .handshaking, 0, 0⟩] }
    else none
  | .spawn =>
    match s.pc with
    | .accepting _ => some { s with pc := .select }
    | _ => none
  | .acceptTcp =>
    if s.pc = .select then some { s with conns := s.conns ++ [⟨.tcp, .handshaking, 0, 0⟩] }
    else none
  | .acceptError => if s.pc = .select then some { s with pc := .failed } else none
  | .shutdown => if s.pc = .select then some { s with pc := .closing, closed := true } else none
  | .idle => if s.pc = .closing then some { s with pc := .returned } else none
  | .conn c action =>
    if s.pc = .accepting c then none
    else s.conns[c]?.bind fun conn =>
      (conn.step env s.closed action).map fun conn => { s with conns := s.conns.set c conn }

/-- A step that relays data, or by which a connection becomes that of a user. -/
def GoesOn (s : State) (action : Action) (s' : State) : Prop :=
  ∃ c connAction, action = .conn c connAction ∧
    (connAction.relays = true ∨
      ∃ conn conn' user, s.conns[c]? = some conn ∧ s'.conns[c]? = some conn' ∧
        conn.stage = .authenticating ∧ conn'.stage = .relaying user)

/-- **The connections are revoked.**  None goes on to authenticate or to relay, whatever happens
next, and a user whom the new configuration does not have has no open connection. -/
structure Revoked (env : Env) (s : State) (new : Config) : Prop where
  quiet : ∀ t, Runs.Reaches (step env) (fun _ _ => True) s t → ∀ action t',
    step env t action = some t' → ¬ GoesOn t action t'
  removed : ∀ conn ∈ s.conns, ∀ user, conn.stage = .relaying (some user) →
    user ∉ new.users.map User.name → conn.isOpen s.closed = false

end State

/-! ### Nothing left -/

/-- Nothing is left of a connection of a closed endpoint: the task of a TCP connection has ended,
and no task has data of a HY2 connection or can get at any. -/
def Conn.Drained (env : Env) (conn : Conn) : Prop :=
  match conn.transport with
  | .tcp => conn.stage = .ended
  | .hy2 => conn.held = 0 ∧ (env.readsAfterClose = true → conn.unread = 0)

instance (env : Env) (conn : Conn) : Decidable (conn.Drained env) :=
  match h : conn.transport with
  | .tcp => decidable_of_iff (conn.stage = .ended) (by simp [Conn.Drained, h])
  | .hy2 => decidable_of_iff (conn.held = 0 ∧ (env.readsAfterClose = true → conn.unread = 0))
      (by simp [Conn.Drained, h])

/-- A TCP connection that has ended does nothing. -/
theorem Conn.step_ended {env : Env} {closed : Bool} {conn : Conn} (htcp : conn.transport = .tcp)
    (hended : conn.stage = .ended) (action : ConnAction) : conn.step env closed action = none := by
  cases action <;> simp [step, htcp, hended, hasRelay]

/-- **Once nothing is left, nothing comes back**, and nothing is relayed. -/
theorem Conn.Drained.step {env : Env} {conn conn' : Conn} {action : ConnAction}
    (h : conn.Drained env) (hstep : conn.step env true action = some conn') :
    conn'.Drained env ∧ action.relays = false ∧
      ∀ user, conn.stage = .authenticating → conn'.stage ≠ .relaying user := by
  obtain ⟨transport, stage, unread, held⟩ := conn
  cases transport with
  | tcp =>
      rw [step_ended rfl h action] at hstep
      cases hstep
  | hy2 =>
      obtain ⟨rfl, hunread⟩ := h
      cases action with
      | handshake ok =>
          obtain ⟨-, hstep⟩ := Option.ite_none_right_eq_some.mp hstep
          simp only [isOpen, Bool.not_true, Bool.and_false, Bool.false_eq_true, and_false, if_false]
            at hstep
          cases hstep
          exact ⟨⟨rfl, hunread⟩, rfl, fun _ _ => by simp [finished]⟩
      | request request =>
          obtain ⟨-, hstep⟩ := Option.ite_none_right_eq_some.mp hstep
          cases hstep
          exact ⟨⟨rfl, hunread⟩, rfl, fun _ _ => by simp [finished]⟩
      | read =>
          obtain ⟨⟨hpos, -, hreads⟩, -⟩ := Option.ite_none_right_eq_some.mp hstep
          have hzero : unread = 0 := hunread (hreads ⟨rfl, rfl⟩)
          exact absurd hpos (by simp [hzero])
      | finish =>
          obtain ⟨-, hstep⟩ := Option.ite_none_right_eq_some.mp hstep
          cases hstep
          exact ⟨⟨rfl, hunread⟩, rfl, fun _ _ => by simp [finished]⟩
      | arrive => cases stage <;> simp [Conn.step, isOpen] at hstep
      | download => cases stage <;> simp [Conn.step, isOpen] at hstep
      | _ => simp [Conn.step] at hstep

namespace State

variable {env : Env} {s s' : State}

variable {c : ConnId}

theorem step_conn {conn conn' : Conn} {action : ConnAction} (hpc : s.pc = .returned)
    (hc : s.conns[c]? = some conn) (h : conn.step env s.closed action = some conn') :
    step env s (.conn c action) = some { s with conns := s.conns.set c conn' } := by
  simp [step, hpc, hc, h]

/-- The endpoint is closed once the loop has seen the shutdown. -/
theorem closed_of_returned (h : Runs.Reaches (step env) (fun _ _ => True) start s)
    (hpc : s.pc = .returned) : s.closed = true := by
  refine h.invariant (I := fun u => u.pc = .closing ∨ u.pc = .returned → u.closed = true)
    (by simp [start]) ?_ (.inr hpc)
  intro u action u' hu _ hstep
  cases action with
  | conn c action =>
      simp only [step, Option.ite_none_left_eq_some] at hstep
      obtain ⟨conn, -, hstep⟩ := Option.bind_eq_some_iff.mp hstep.2
      obtain ⟨conn', -, rfl⟩ := Option.map_eq_some_iff.mp hstep
      exact hu
  | idle =>
      obtain ⟨hpc, hstep⟩ := Option.ite_none_right_eq_some.mp hstep
      cases hstep
      exact fun _ => hu (.inl hpc)
  | spawn =>
      simp only [step] at hstep
      split at hstep
      · cases hstep
        simp
      · cases hstep
  | shutdown =>
      obtain ⟨-, hstep⟩ := Option.ite_none_right_eq_some.mp hstep
      cases hstep
      exact fun _ => rfl
  | acceptTcp =>
      obtain ⟨hpc, hstep⟩ := Option.ite_none_right_eq_some.mp hstep
      cases hstep
      simp [hpc]
  | _ =>
      obtain ⟨-, hstep⟩ := Option.ite_none_right_eq_some.mp hstep
      cases hstep
      simp

/-- Returned, and nothing is left of any connection. -/
def Over (env : Env) (s : State) : Prop :=
  s.pc = .returned ∧ s.closed = true ∧ ∀ conn ∈ s.conns, conn.Drained env

/-- It stays so, and nobody goes on. -/
theorem Over.step (h : s.Over env) {action : Action} (hstep : State.step env s action = some s') :
    s'.Over env ∧ ¬ GoesOn s action s' := by
  obtain ⟨hpc, hclosed, hdrained⟩ := h
  cases action with
  | conn c action =>
      simp only [State.step, hpc, reduceCtorEq, if_false] at hstep
      obtain ⟨conn, hc, hstep⟩ := Option.bind_eq_some_iff.mp hstep
      obtain ⟨conn', hconn, rfl⟩ := Option.map_eq_some_iff.mp hstep
      rw [hclosed] at hconn
      obtain ⟨hdrained', hrelays, hauth⟩ := (hdrained conn (List.mem_of_getElem? hc)).step hconn
      refine ⟨⟨rfl, hclosed, fun conn'' hmem => ?_⟩, ?_⟩
      · rcases List.mem_or_eq_of_mem_set hmem with hmem | rfl
        · exact hdrained conn'' hmem
        · exact hdrained'
      · rintro ⟨c', action', heq, hgoes⟩
        cases heq
        rcases hgoes with hgoes | ⟨before, after, user, hbefore, hafter, hstage, hstage'⟩
        · rw [hrelays] at hgoes
          cases hgoes
        · cases hc.symm.trans hbefore
          rw [Tasks.getElem?_replace hc, if_pos rfl] at hafter
          cases hafter
          exact hauth user hstage hstage'
  | _ => simp [State.step, hpc] at hstep

/-- A step with which a connection goes on. -/
theorem Revoked.false_of_relays {new : Config} (h : s.Revoked env new) {t : State}
    {conn conn' : Conn} {action : ConnAction} (ht : Runs.Reaches (step env) (fun _ _ => True) s t)
    (hpc : t.pc = .returned) (hc : t.conns[c]? = some conn)
    (hstep : conn.step env t.closed action = some conn') (hrelays : action.relays = true) : False :=
  h.quiet t ht _ _ (step_conn hpc hc hstep) ⟨c, action, rfl, .inl hrelays⟩

/-- A TCP connection that is about to authenticate can do so with the id of a user. -/
theorem Revoked.false_of_authenticating {crates : Crates}
    (hvalid : env.config.validate crates = .ok ()) {new : Config} (h : s.Revoked env new)
    {t : State} {unread held : Nat} (ht : Runs.Reaches (step env) (fun _ _ => True) s t)
    (hpc : t.pc = .returned) (hc : t.conns[c]? = some ⟨.tcp, .authenticating, unread, held⟩) :
    False := by
  obtain ⟨user, huser⟩ := List.exists_mem_of_ne_nil _ (Config.users_of_validate hvalid).1
  obtain ⟨name, hname⟩ := HashMap.lookup_collect_of_mem
    (List.mem_map.mpr ⟨user, huser, rfl⟩ : (Vless.userId env.sha256 user.name user.password,
      user.name) ∈ env.config.users.map fun user =>
        (Vless.userId env.sha256 user.name user.password, user.name))
  have hstep : Conn.step env t.closed ⟨.tcp, .authenticating, unread, held⟩
      (.identify 0 (Vless.userId env.sha256 user.name user.password)) =
        some ⟨.tcp, .relaying (some name), unread, held⟩ := by
    simp [Conn.step, Vless.users, hname]
  exact h.quiet t ht _ _ (step_conn hpc hc hstep) ⟨c, _, rfl, .inr ⟨_, _, some name, hc,
    List.getElem?_set_self (Tasks.lt_length hc), rfl, rfl⟩⟩

/-- **Old connections are revoked exactly if nothing is left of them** when the shutdown returns:
no task of a TCP connection, and no data of a HY2 connection. -/
theorem revoked_iff {crates : Crates} (hvalid : env.config.validate crates = .ok ())
    (h : Runs.Reaches (step env) (fun _ _ => True) start s) (hpc : s.pc = .returned)
    (new : Config) : s.Revoked env new ↔ ∀ conn ∈ s.conns, conn.Drained env := by
  have hclosed := closed_of_returned h hpc
  constructor
  · intro hrevoked conn hmem
    obtain ⟨c, hc⟩ := List.mem_iff_getElem?.mp hmem
    obtain ⟨transport, stage, unread, held⟩ := conn
    cases transport with
    | tcp =>
        cases stage with
        | handshaking =>
            have hstep : Conn.step env s.closed ⟨.tcp, .handshaking, unread, held⟩
                (.handshake true) = some ⟨.tcp, .authenticating, unread, held⟩ := rfl
            exact (hrevoked.false_of_authenticating hvalid
              (.more .refl trivial (step_conn hpc hc hstep)) hpc
              (List.getElem?_set_self (Tasks.lt_length hc))).elim
        | authenticating => exact (hrevoked.false_of_authenticating hvalid .refl hpc hc).elim
        | relaying user =>
            have hstep : Conn.step env s.closed ⟨.tcp, .relaying user, unread, held⟩ .download =
                some ⟨.tcp, .relaying user, unread, held⟩ := rfl
            exact (hrevoked.false_of_relays .refl hpc hc hstep rfl).elim
        | ended => rfl
    | hy2 =>
        refine ⟨?_, fun hreads => ?_⟩
        · by_contra hheld
          have hstep : Conn.step env s.closed ⟨.hy2, stage, unread, held⟩ .write =
              some ⟨.hy2, stage, unread, held - 1⟩ :=
            if_pos ⟨Nat.pos_of_ne_zero hheld, rfl⟩
          exact hrevoked.false_of_relays .refl hpc hc hstep rfl
        · by_contra hunread
          have hread : Conn.step env s.closed ⟨.hy2, stage, unread, held⟩ .read =
              some ⟨.hy2, stage, unread - 1, held + 1⟩ :=
            if_pos ⟨Nat.pos_of_ne_zero hunread, rfl, fun _ => hreads⟩
          have hwrite : Conn.step env s.closed ⟨.hy2, stage, unread - 1, held + 1⟩ .write =
              some ⟨.hy2, stage, unread - 1, held⟩ := by
            simp [Conn.step, Conn.hasRelay]
          exact hrevoked.false_of_relays (.more .refl trivial (step_conn hpc hc hread)) hpc
            (List.getElem?_set_self (Tasks.lt_length hc)) hwrite rfl
  · intro hdrained
    refine ⟨fun t ht action t' hstep => ?_, fun conn hmem user hstage _ => ?_⟩
    · have hover : t.Over env := ht.invariant (I := Over env) ⟨hpc, hclosed, hdrained⟩
        fun _ _ _ hu _ hstep => (hu.step hstep).1
      exact (hover.step hstep).2
    · have hconn := hdrained conn hmem
      obtain ⟨transport, stage, unread, held⟩ := conn
      cases transport with
      | tcp => cases (show stage = .ended from hconn).symm.trans hstage
      | hy2 => simp [Conn.isOpen, hclosed]

/-! ### Two connections -/

/-- One user, and data that is read after a close. -/
def sampleEnv : Env := ⟨sampleHttp, Vless.sampleSha256, true, sampleConfig [⟨"alice", "secret"⟩]⟩

/-- A connection of each kind, relaying for the same user. -/
def relayingActions : List Action :=
  [.acceptHy2, .spawn, .acceptTcp, .conn 0 (.handshake true), .conn 1 (.handshake true),
    .conn 0 (.request (.login "secret" (by decide))),
    .conn 1 (.identify 0 (Vless.userId Vless.sampleSha256 "alice" "secret"))]

/-- The TCP connection ends before the shutdown, the HY2 connection does not. -/
theorem revoked_after_tcp_finished : ∃ s, Runs.run (step sampleEnv) start
    (relayingActions ++ [.conn 1 .finish, .shutdown, .idle]) = some s ∧ s.pc = .returned ∧
      s.Revoked sampleEnv (sampleConfig [⟨"bob", "secret"⟩]) := by
  have hrun : Runs.run (step sampleEnv) start
      (relayingActions ++ [.conn 1 .finish, .shutdown, .idle]) =
        some ⟨.returned, true, [⟨.hy2, .relaying (some "alice"), 0, 0⟩, ⟨.tcp, .ended, 0, 0⟩]⟩ := by
    rfl
  have hreach : Runs.Reaches (step sampleEnv) (fun _ _ => True) start _ :=
    Runs.reaches_of_run _ .refl (by simpa only [if_true] using hrun)
  have hvalid : sampleEnv.config.validate sampleCrates = .ok () :=
    Config.validate_minimal_iff.mpr (by decide)
  exact ⟨_, hrun, rfl, (revoked_iff hvalid hreach rfl _).mpr (by decide)⟩

/-- **A TCP connection goes on.**  The shutdown returns while it relays, and it still relays for a
user whom the new configuration does not have. -/
theorem tcp_connection_not_revoked : ∃ s s', Runs.run (step sampleEnv) start
    (relayingActions ++ [.shutdown, .idle]) = some s ∧ s.pc = .returned ∧
      Runs.run (step sampleEnv) s [.conn 1 .arrive, .conn 1 .read, .conn 1 .write] = some s' ∧
      s'.conns[1]? = some ⟨.tcp, .relaying (some "alice"), 0, 0⟩ ∧
      ¬ s.Revoked sampleEnv (sampleConfig [⟨"bob", "secret"⟩]) := by
  have hrun : Runs.run (step sampleEnv) start (relayingActions ++ [.shutdown, .idle]) =
      some ⟨.returned, true, [⟨.hy2, .relaying (some "alice"), 0, 0⟩,
        ⟨.tcp, .relaying (some "alice"), 0, 0⟩]⟩ := by
    rfl
  refine ⟨_, _, hrun, rfl, rfl, rfl, fun hrevoked => ?_⟩
  have hopen := hrevoked.removed ⟨.tcp, .relaying (some "alice"), 0, 0⟩ (by decide) "alice" rfl
    (by decide)
  cases hopen

end State

end SingBoxMini.Server.Reload
