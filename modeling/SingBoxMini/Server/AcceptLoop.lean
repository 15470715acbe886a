import SingBoxMini.Support.Notify
import SingBoxMini.Support.Runs
import SingBoxMini.Support.Tasks

/-!
# Server — Accept loop

The accept loop of `run_until_with_traffic` (`server.rs`) with the queue of rate cells of
`Hy2CongestionConfig` (`brutal.rs`) and the connections around it, as atomic steps.

* The loop is the only caller of `take_pending_rate`; `build` is called by quinn, once when an
  accepted attempt gets its connection object and once more when a connection moves to a new path,
  and its two effects, the push under the lock and `notify_one`, are two steps.
* A cell (`Arc<AtomicU64>`) is its index in `State.rates`.
* `did_of_step` says once what each step can do.

An attempt's outcome is fixed when it is accepted and the model does not look at it before the
source can see it.  When quinn calls `build` for an attempt is left open: at any time before
`connecting` resolves.  In quinn itself `into_future` calls it.
-/

namespace SingBoxMini.Server

/-! ### The queue of rate cells -/

/-- An `Arc<AtomicU64>`. -/
abbrev Cell := Nat

/-- `Hy2CongestionConfig`; the one task that waits on the `Notify` is the accept loop. -/
structure Hy2CongestionConfig where
  serverLimitBps : UInt64
  pendingRates : List Cell
  pendingRatesReady : Notify Unit
deriving DecidableEq

/-- `Hy2CongestionConfig::new` -/
def Hy2CongestionConfig.new (serverLimitBps : UInt64) : Hy2CongestionConfig :=
  ⟨serverLimitBps, [], Notify.new⟩

/-- `Hy2CongestionConfig::negotiated_rate` -/
def Hy2CongestionConfig.negotiatedRate (g : Hy2CongestionConfig) (clientReceiveBps : UInt64) :
    UInt64 :=
  if clientReceiveBps = 0 then 0
  else if g.serverLimitBps = 0 then clientReceiveBps
  else min g.serverLimitBps clientReceiveBps

/-- Where a call of `take_pending_rate` is: not polled yet; with a new `Notified`, about to look
into the queue; after it saw the queue empty, about to poll the `Notified`; suspended on it. -/
inductive TakePc where
  | unpolled
  | check
  | gap
  | waiting
deriving DecidableEq

/-- What one step of `take_pending_rate` leaves: a later place in it, or the cell it returns. -/
inductive Taking where
  | pending (take : TakePc)
  | ready (cell : Cell)
deriving DecidableEq

/-- One atomic step of `take_pending_rate`. -/
def Hy2CongestionConfig.takePendingRate (g : Hy2CongestionConfig) :
    TakePc → Option (Hy2CongestionConfig × Taking)
  | .unpolled => some (g, .pending .check)
  | .check =>
    match g.pendingRates with
    | [] => some (g, .pending .gap)
    | cell :: rest => some ({ g with pendingRates := rest }, .ready cell)
  | .gap =>
    -- a stored permit makes the `Notified` ready at once, and the loop goes round
    match g.pendingRatesReady.firstPoll () with
    | (true, n) => some ({ g with pendingRatesReady := n }, .pending .check)
    | (false, n) => some ({ g with pendingRatesReady := n }, .pending .waiting)
  | .waiting =>
    (g.pendingRatesReady.rePoll ()).map fun n =>
      ({ g with pendingRatesReady := n }, .pending .check)

/-- Only a call that is suspended and was not woken has no next step. -/
theorem exists_takePendingRate (g : Hy2CongestionConfig) {take : TakePc}
    (h : take = .waiting → () ∈ g.pendingRatesReady.woken) :
    ∃ out, g.takePendingRate take = some out := by
  cases take with
  | unpolled => exact ⟨_, rfl⟩
  | check =>
      simp only [Hy2CongestionConfig.takePendingRate]
      split <;> exact ⟨_, rfl⟩
  | gap =>
      simp only [Hy2CongestionConfig.takePendingRate]
      split <;> exact ⟨_, rfl⟩
  | waiting =>
      simp only [Hy2CongestionConfig.takePendingRate, Notify.rePoll, if_pos (h rfl),
        Option.map_some]
      exact ⟨_, rfl⟩

/-! ### Connections -/

/-- The position of an attempt in the order of acceptance. -/
abbrev ConnId := Nat

/-- How accepting ends: before a connection object exists, after it exists, or well. -/
inductive Outcome where
  | failsEarly
  | failsLate
  | succeeds
deriving DecidableEq

/-- The task spawned for an attempt, with the rate cell moved into it: waiting for `connecting`;
in `authenticate_connection`; after the negotiated rate was stored. -/
inductive Task where
  | notSpawned
  | spawned (cell : Cell)
  | authenticating (cell : Cell)
  | negotiated (cell : Cell)
deriving DecidableEq

/-- The cell was passed to `authenticate_connection`. -/
def Task.passed : Task → Option Cell
  | .authenticating cell | .negotiated cell => some cell
  | _ => none

/-- An accepted attempt: its outcome, whether its connection object was made, the cells of its
`Hy2Controller`s, that of its present path first, and its task. -/
structure Connection where
  outcome : Outcome
  built : Bool
  controllers : List Cell
  task : Task
deriving DecidableEq

/-- A call of `build` for the attempt is still to come. -/
def Connection.BuildToCome (conn : Connection) : Prop :=
  conn.outcome ≠ .failsEarly ∧ conn.built = false
deriving Decidable

/-! ### The loop -/

/-- Where the loop is: in its `select!`; with attempt `c`, in the inner `select!` (`resolved` is
`false`) or, after `connecting` resolved first, at the second `take_pending_rate().await`;
returned. -/
inductive LoopPc where
  | select
  | handling (c : ConnId) (resolved : Bool) (take : TakePc)
  | returned
deriving DecidableEq

/-- The loop, the queue, every attempt so far, the calls of `build` between their push and their
`notify_one`, and the values of the cells. -/
structure State where
  pc : LoopPc
  congestion : Hy2CongestionConfig
  conns : List Connection
  notifying : List ConnId
  rates : List UInt64
deriving DecidableEq

/-- The server before its first connection. -/
def State.init (serverLimitBps : UInt64) : State :=
  ⟨.select, .new serverLimitBps, [], [], []⟩

/-- What the loop waits for, and what connections do. -/
inductive Action where
  /-- `endpoint.accept()` gives an `Incoming`. -/
  | accept (outcome : Outcome)
  /-- `endpoint.accept()` gives `None`. -/
  | endpointClosed
  /-- `tcp_listener.accept()`, which may fail. -/
  | tcp (ok : Bool)
  | shutdown
  /-- The next step of the `take_pending_rate` the loop is in. -/
  | poll
  /-- `connecting` resolves in the inner `select!`. -/
  | connected
  /-- The push of the call of `build` for the new connection object. -/
  | push (c : ConnId)
  /-- The move of a connection to a new path; a rebinding uses `clone_box`. -/
  | migrate (c : ConnId) (rebinding : Bool)
  /-- The `notify_one` of a call of `build`. -/
  | notify (c : ConnId)
  /-- The task of an attempt calls `authenticate_connection`. -/
  | authenticate (c : ConnId)
  /-- `authenticate_connection` stores the rate negotiated with the client. -/
  | negotiate (c : ConnId) (clientReceiveBps : UInt64)
deriving DecidableEq

namespace State

/-- The first half of `build` for connection `c`: a new cell, at the end of the queue. -/
def build (s : State) (c : ConnId) (conn : Connection) : State :=
  { s with
    congestion := { s.congestion with
      pendingRates := s.congestion.pendingRates ++ [s.rates.length] }
    conns := s.conns.set c
      { conn with built := true, controllers := s.rates.length :: conn.controllers }
    notifying := c :: s.notifying
    rates := s.rates ++ [0] }

/-- The second half: `notify_one`. -/
def buildNotify (s : State) (c : ConnId) : State :=
  { s with
    congestion := { s.congestion with
      pendingRatesReady := s.congestion.pendingRatesReady.notifyOne }
    notifying := s.notifying.erase c }

/-- One step of the loop's `take_pending_rate`; with the cell the loop spawns the task. -/
def poll (s : State) : Option State :=
  match s.pc with
  | .handling c resolved take =>
    match s.conns[c]? with
    | some conn =>
      (s.congestion.takePendingRate take).map fun
        | (g, .pending take') => { s with congestion := g, pc := .handling c resolved take' }
        | (g, .ready cell) =>
          { s with
            congestion := g
            pc := .select
            conns := s.conns.set c { conn with task := .spawned cell } }
    | none => none
  | _ => none

/-- `connecting` is ready: at once when accepting failed early, and otherwise not before the
connection object was made. -/
def Ready (s : State) (c : ConnId) (conn : Connection) : Prop :=
  conn.outcome = .failsEarly ∨ conn.built = true ∧ c ∉ s.notifying
deriving Decidable

/-- `connecting` wins the inner `select!`, which drops the other branch: a `Notified` it was
suspended on leaves the `Notify`. -/
def connected (s : State) : Option State :=
  match s.pc with
  | .handling c false take =>
    match s.conns[c]? with
    | some conn =>
      if s.Ready c conn then
        match take with
        | .unpolled => some { s with pc := .handling c true .unpolled }
        | .waiting =>
          some { s with
            pc := .handling c true .unpolled
            congestion := { s.congestion with
              pendingRatesReady := s.congestion.pendingRatesReady.cancel () } }
        | _ => none
      else none
    | none => none
  | _ => none

/-- The step an action makes, if it is enabled. -/
def step (s : State) : Action → Option State
  | .accept outcome =>
    if s.pc = .select then
      some { s with
        pc := .handling s.conns.length false .unpolled
        conns := s.conns ++ [⟨outcome, false, [], .notSpawned⟩] }
    else none
  | .endpointClosed => if s.pc = .select then some { s with pc := .returned } else none
  | .tcp ok =>
    -- a failed accept leaves the loop through `?`
    if s.pc = .select then some (if ok then s else { s with pc := .returned }) else none
  | .shutdown => if s.pc = .select then some { s with pc := .returned } else none
  | .poll => s.poll
  | .connected => s.connected
  | .push c =>
    match s.conns[c]? with
    | some conn => if conn.BuildToCome then some (s.build c conn) else none
    | none => none
  | .migrate c rebinding =>
    match s.conns[c]? with
    | some conn =>
      if conn.outcome = .succeeds ∧ conn.built = true then
        some (if rebinding then s else s.build c conn)
      else none
    | none => none
  | .notify c => if c ∈ s.notifying then some (s.buildNotify c) else none
  | .authenticate c =>
    match s.conns[c]? with
    | some conn =>
      match conn.task with
      | .spawned cell =>
        if conn.outcome = .succeeds ∧ s.Ready c conn then
          some { s with conns := s.conns.set c { conn with task := .authenticating cell } }
        else none
      | _ => none
    | none => none
  | .negotiate c clientReceiveBps =>
    match s.conns[c]? with
    | some conn =>
      match conn.task with
      | .authenticating cell =>
        some { s with
          rates := s.rates.set cell (s.congestion.negotiatedRate clientReceiveBps)
          conns := s.conns.set c { conn with task := .negotiated cell } }
      | _ => none
    | none => none

/-! ### What a step can do -/

/-- **The steps, one by one**, with their guards. -/
inductive Did (s : State) : Action → State → Prop where
  | accept (outcome : Outcome) (h : s.pc = .select) : Did s (.accept outcome) { s with
      pc := .handling s.conns.length false .unpolled
      conns := s.conns ++ [⟨outcome, false, [], .notSpawned⟩] }
  | stay (h : s.pc = .select) : Did s (.tcp true) s
  | closed (h : s.pc = .select) : Did s .endpointClosed { s with pc := .returned }
  | tcpFailed (h : s.pc = .select) : Did s (.tcp false) { s with pc := .returned }
  | shutdown (h : s.pc = .select) : Did s .shutdown { s with pc := .returned }
  | start {c : ConnId} {resolved : Bool} (h : s.pc = .handling c resolved .unpolled) :
      Did s .poll { s with pc := .handling c resolved .check }
  | empty {c : ConnId} {resolved : Bool} (h : s.pc = .handling c resolved .check)
      (hq : s.congestion.pendingRates = []) :
      Did s .poll { s with pc := .handling c resolved .gap }
  | pop {c : ConnId} {resolved : Bool} {cell : Cell} {rest : List Cell} {conn : Connection}
      (h : s.pc = .handling c resolved .check) (hq : s.congestion.pendingRates = cell :: rest)
      (hc : s.conns[c]? = some conn) : Did s .poll { s with
        congestion := { s.congestion with pendingRates := rest }
        pc := .select
        conns := s.conns.set c { conn with task := .spawned cell } }
  | permit {c : ConnId} {resolved : Bool} (h : s.pc = .handling c resolved .gap)
      (hp : s.congestion.pendingRatesReady.permit = true) : Did s .poll { s with
        congestion := { s.congestion with
          pendingRatesReady := { s.congestion.pendingRatesReady with permit := false } }
        pc := .handling c resolved .check }
  | suspend {c : ConnId} {resolved : Bool} (h : s.pc = .handling c resolved .gap)
      (hp : s.congestion.pendingRatesReady.permit = false) : Did s .poll { s with
        congestion := { s.congestion with
          pendingRatesReady := { s.congestion.pendingRatesReady with
            waiting := s.congestion.pendingRatesReady.waiting ++ [()] } }
        pc := .handling c resolved .waiting }
  | wake {c : ConnId} {resolved : Bool} {n : Notify Unit}
      (h : s.pc = .handling c resolved .waiting)
      (hn : s.congestion.pendingRatesReady.rePoll () = some n) : Did s .poll { s with
        congestion := { s.congestion with pendingRatesReady := n }
        pc := .handling c resolved .check }
  | connectedFirst {c : ConnId} {conn : Connection} (h : s.pc = .handling c false .unpolled)
      (hc : s.conns[c]? = some conn) (hr : s.Ready c conn) :
      Did s .connected { s with pc := .handling c true .unpolled }
  | connectedLater {c : ConnId} {conn : Connection} (h : s.pc = .handling c false .waiting)
      (hc : s.conns[c]? = some conn) (hr : s.Ready c conn) : Did s .connected { s with
        pc := .handling c true .unpolled
        congestion := { s.congestion with
          pendingRatesReady := s.congestion.pendingRatesReady.cancel () } }
  | push {c : ConnId} {conn : Connection} (hc : s.conns[c]? = some conn)
      (hb : conn.BuildToCome) : Did s (.push c) (s.build c conn)
  | rebind {c : ConnId} : Did s (.migrate c true) s
  | migrate {c : ConnId} {conn : Connection} (hc : s.conns[c]? = some conn)
      (ho : conn.outcome = .succeeds) (hb : conn.built = true) :
      Did s (.migrate c false) (s.build c conn)
  | notify {c : ConnId} (h : c ∈ s.notifying) : Did s (.notify c) (s.buildNotify c)
  | authenticate {c : ConnId} {conn : Connection} {cell : Cell} (hc : s.conns[c]? = some conn)
      (ht : conn.task = .spawned cell) (ho : conn.outcome = .succeeds) (hr : s.Ready c conn) :
      Did s (.authenticate c)
        { s with conns := s.conns.set c { conn with task := .authenticating cell } }
  | negotiate {c : ConnId} {conn : Connection} {cell : Cell} (clientReceiveBps : UInt64)
      (hc : s.conns[c]? = some conn) (ht : conn.task = .authenticating cell) :
      Did s (.negotiate c clientReceiveBps) { s with
        rates := s.rates.set cell (s.congestion.negotiatedRate clientReceiveBps)
        conns := s.conns.set c { conn with task := .negotiated cell } }

variable {s s' : State}

theorem did_of_poll (h : s.poll = some s') : Did s .poll s' := by
  unfold poll at h
  split at h
  · rename_i c resolved take hpc
    split at h
    · rename_i conn hc
      obtain ⟨⟨g, taking⟩, hg, rfl⟩ := Option.map_eq_some_iff.mp h
      cases take with
      | unpolled =>
          cases hg
          exact .start hpc
      | check =>
          cases hq : s.congestion.pendingRates with
          | nil =>
              simp only [Hy2CongestionConfig.takePendingRate, hq] at hg
              cases hg
              exact .empty hpc hq
          | cons cell rest =>
              simp only [Hy2CongestionConfig.takePendingRate, hq] at hg
              cases hg
              exact .pop hpc hq hc
      | gap =>
          by_cases hp : s.congestion.pendingRatesReady.permit = true
          · simp only [Hy2CongestionConfig.takePendingRate, Notify.firstPoll, if_pos hp] at hg
            cases hg
            exact .permit hpc hp
          · simp only [Hy2CongestionConfig.takePendingRate, Notify.firstPoll, if_neg hp] at hg
            cases hg
            exact .suspend hpc (Bool.eq_false_iff.mpr hp)
      | waiting =>
          obtain ⟨n, hn, hg⟩ := Option.map_eq_some_iff.mp hg
          cases hg
          exact .wake hpc hn
    · cases h
  · cases h

theorem did_of_connected (h : s.connected = some s') : Did s .connected s' := by
  unfold connected at h
  split at h
  · rename_i c take hpc
    split at h
    · rename_i conn hc
      split_ifs at h with hr
      cases take with
      | unpolled =>
          cases h
          exact .connectedFirst hpc hc hr
      | waiting =>
          cases h
          exact .connectedLater hpc hc hr
      | check => cases h
      | gap => cases h
    · cases h
  · cases h

theorem did_of_step {a : Action} (h : s.step a = some s') : Did s a s' := by
  cases a with
  | accept outcome =>
      obtain ⟨hpc, h⟩ := Option.ite_none_right_eq_some.mp h
      cases h
      exact .accept outcome hpc
  | endpointClosed =>
      obtain ⟨hpc, h⟩ := Option.ite_none_right_eq_some.mp h
      cases h
      exact .closed hpc
  | tcp ok =>
      obtain ⟨hpc, h⟩ := Option.ite_none_right_eq_some.mp h
      cases ok with
      | true => cases h; exact .stay hpc
      | false => cases h; exact .tcpFailed hpc
  | shutdown =>
      obtain ⟨hpc, h⟩ := Option.ite_none_right_eq_some.mp h
      cases h
      exact .shutdown hpc
  | poll => exact did_of_poll h
  | connected => exact did_of_connected h
  | push c =>
      simp only [step] at h
      split at h
      · rename_i conn hc
        obtain ⟨hb, h⟩ := Option.ite_none_right_eq_some.mp h
        cases h
        exact .push hc hb
      · cases h
  | migrate c rebinding =>
      simp only [step] at h
      split at h
      · rename_i conn hc
        obtain ⟨⟨ho, hb⟩, h⟩ := Option.ite_none_right_eq_some.mp h
        cases rebinding with
        | true => cases h; exact .rebind
        | false => cases h; exact .migrate hc ho hb
      · cases h
  | notify c =>
      obtain ⟨hc, h⟩ := Option.ite_none_right_eq_some.mp h
      cases h
      exact .notify hc
  | authenticate c =>
      simp only [step] at h
      split at h
      · rename_i conn hc
        split at h
        · rename_i cell ht
          obtain ⟨⟨ho, hr⟩, h⟩ := Option.ite_none_right_eq_some.mp h
          cases h
          exact .authenticate hc ht ho hr
        · cases h
      · cases h
  | negotiate c clientReceiveBps =>
      simp only [step] at h
      split at h
      · rename_i conn hc
        split at h
        · rename_i cell ht
          cases h
          exact .negotiate clientReceiveBps hc ht
        · cases h
      · cases h

end State

end SingBoxMini.Server
