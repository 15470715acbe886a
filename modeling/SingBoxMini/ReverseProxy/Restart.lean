import SingBoxMini.NatTunnel.Exclusive
import SingBoxMini.NatTunnel.Handshake
import SingBoxMini.NatTunnel.Tracker

/-!
# Reverse proxy — Restart

`ReverseProxyController::restart` (`reverse_proxy.rs`) around the gateways it starts and aborts
(`run_gateway`, `nat_tunnel.rs`), as atomic steps.

* A run of `run_gateway` owns its listeners and shares its pool.  What it has spawned is not its
  own: the tasks that authenticate and register tunnels, the tunnels' tasks, the public connections.
  Aborting the run ends the listeners and nothing else.
* `recv` of a tunnel's task gives `None` once no `Sender` is left.  A sender lives in the
  `Arc<IdleTunnel>`, and `hasSender` lists who has one.
* The tracker is shared by all runs and cleared by `restart`.

`recv_never_none`: a tunnel's task has a sender itself, so its channel never closes.
`did_of_step` says once what each step can do.
-/

namespace SingBoxMini.ReverseProxy
open NatTunnel

/-! ### A run of the gateway -/

/-- The task spawned for a tunnel connection: in `gateway_authenticate`; before `tracker.connect`;
before `register`; in `register`, or returned from it with `true`; returned, the stream dropped. -/
inductive TunnelPc where
  | authenticating
  | authenticated (node : AuthenticatedNode)
  | connected (node : NodeId)
  | registered (t : TunnelId)
  | refused
deriving DecidableEq

/-- The tunnel the connection was registered as. -/
def TunnelPc.tunnel : TunnelPc → Option TunnelId
  | .registered t => some t
  | _ => none

/-- A run of `run_gateway` with what it spawned: the pool, the tunnels' tasks and the public
connections; whether its listeners are there; the tunnel connections it accepted; and the nodes the
registered tunnels count on. -/
structure GatewayRun where
  gateway : Gateway
  listening : Bool
  tunnels : List TunnelPc
  nodes : List NodeId
deriving DecidableEq

/-- A run of the gateway, by its position among all of them. -/
abbrev RunId := Nat

namespace GatewayRun

/-- The run at its start. -/
def new (capacity : Nat) : GatewayRun := ⟨.new capacity, true, [], []⟩

/-- The tunnel whose `Arc` a public connection has as its candidate. -/
def candidate (run : GatewayRun) (conn : PublicConnection) : Option TunnelId :=
  match conn.pc with
  | .sending t => some t
  | .acquiring | .awaiting =>
    match run.gateway.pool.acquires[conn.call]? with
    | some (.acquired t) => some t
    | _ => none
  | _ => none

/-- Somebody has the pool: the listeners, a task that may register a tunnel, a public
connection. -/
def holdsPool (run : GatewayRun) : Bool :=
  run.listening ||
  (run.tunnels.any fun pc =>
    match pc with
    | .refused => false
    | .registered t =>
      match run.gateway.pool.registers[t]? with
      | some (.returned _) => false
      | _ => true
    | _ => true) ||
  run.gateway.publics.any fun conn =>
    match conn.pc with
    | .failed _ => false
    | _ => true

/-- Somebody has the `Arc<IdleTunnel>` of the tunnel, and with it a `Sender` of its assignments: the
tunnel's own task; the call of `register`; the queue of a pool that somebody has; a public
connection. -/
def hasSender (run : GatewayRun) (t : TunnelId) : Bool :=
  (match run.gateway.managers[t]? with
    | some m => m.pc ≠ .unspawned ∧ m.pc ≠ .ended
    | none => false) ||
  (match run.gateway.pool.registers[t]? with
    | some (.returned _) | none => false
    | _ => true) ||
  (run.gateway.pool.pool.idle.contains t && run.holdsPool) ||
  run.gateway.publics.any fun conn => run.candidate conn = some t

/-- A step of the run's own gateway: new connections need the listeners, and what comes with the
end of a task or a call of `register` is made elsewhere. -/
def gatewayStep (run : GatewayRun) : GatewayAction → Option GatewayRun
  | .tunnel | .finish _ => none
  | .accept => if run.listening then some { run with gateway := run.gateway.accept } else none
  | action => (run.gateway.step action).map fun gateway => { run with gateway }

/-- A tunnel connection moves on. -/
def toTunnel (run : GatewayRun) (k : Nat) (pc : TunnelPc) : GatewayRun :=
  { run with tunnels := run.tunnels.set k pc }

/-- `register` is called for a tunnel connection that counts on `node`. -/
def register (run : GatewayRun) (k : Nat) (node : NodeId) : GatewayRun where
  gateway := run.gateway.tunnel
  listening := run.listening
  tunnels := run.tunnels.set k (.registered run.gateway.managers.length)
  nodes := run.nodes ++ [node]

/-- `recv` gives `None`, and the task leaves its loop. -/
def close (run : GatewayRun) (t : TunnelId) : Option GatewayRun :=
  if run.gateway.managers[t]? = some ⟨none, .select⟩ ∧ run.hasSender t = false then
    some { run with
      gateway := { run.gateway with managers := run.gateway.managers.set t ⟨none, .broken⟩ } }
  else none

/-- **The channel of a running task never closes**: its own handle has a sender. -/
theorem recv_never_none (run : GatewayRun) (t : TunnelId) : run.close t = none := by
  refine if_neg ?_
  rintro ⟨hm, hno⟩
  simp [hasSender, hm] at hno

end GatewayRun

/-! ### The controller -/

/-- Where `restart` is: not called; after the task was aborted and awaited; after the tracker was
cleared. -/
inductive RestartPc where
  | idle
  | aborted
  | cleared
deriving DecidableEq

/-- Every run so far, the one in the task slot, `restart`, and the tracker. -/
structure Proxy where
  runs : List GatewayRun
  current : Option RunId
  restart : RestartPc
  tracker : GatewayTracker

/-- What can happen in `restart` and in the runs. -/
inductive ProxyAction where
  /-- `task.abort()`, and the task is awaited. -/
  | abort
  /-- `tracker.clear()` -/
  | clear
  /-- The new task, if it is a gateway: the capacity of its pool. -/
  | spawn (capacity : Option Nat)
  /-- `run_gateway` returns an error. -/
  | stop (r : RunId)
  /-- `tunnel_listener.accept()` -/
  | accept (r : RunId)
  /-- `gateway_authenticate` returns. -/
  | authenticate (r : RunId) (k : Nat) (node : Option AuthenticatedNode)
  /-- `tracker.connect(..)` -/
  | connect (r : RunId) (k : Nat) (now : Nat)
  /-- A call of `register`. -/
  | register (r : RunId) (k : Nat)
  /-- `register` has returned `false`. -/
  | refuse (r : RunId) (k : Nat) (now : Nat)
  | gateway (r : RunId) (action : GatewayAction)
  /-- The last step of a tunnel's task. -/
  | finish (r : RunId) (t : TunnelId) (now : Nat)
  /-- `recv` of a tunnel's task gives `None`. -/
  | close (r : RunId) (t : TunnelId)
deriving DecidableEq

namespace Proxy

/-- No run yet. -/
def start : Proxy := ⟨[], none, .idle, .empty⟩

/-- A run moves on. -/
def toRun (s : Proxy) (r : RunId) (run : GatewayRun) : Proxy :=
  { s with runs := s.runs.set r run }

/-- The listeners of a run are gone. -/
def unlisten (runs : List GatewayRun) (r : RunId) : List GatewayRun :=
  runs.modify r fun run => { run with listening := false }

/-- The step an action makes, if it is enabled. -/
def step (s : Proxy) : ProxyAction → Option Proxy
  | .abort =>
    if s.restart = .idle then
      some { s with
        restart := .aborted
        current := none
        runs := match s.current with
          | some r => unlisten s.runs r
          | none => s.runs }
    else none
  | .clear =>
    if s.restart = .aborted then some { s with restart := .cleared, tracker := s.tracker.clear }
    else none
  | .spawn capacity =>
    if s.restart = .cleared then
      match capacity with
      | some capacity =>
        some { s with
          restart := .idle
          current := some s.runs.length
          runs := s.runs ++ [.new capacity] }
      | none => some { s with restart := .idle }
    else none
  | .stop r => if r < s.runs.length then some { s with runs := unlisten s.runs r } else none
  | .accept r =>
    match s.runs[r]? with
    | some run =>
      if run.listening then
        some (s.toRun r { run with tunnels := run.tunnels ++ [.authenticating] })
      else none
    | none => none
  | .authenticate r k node =>
    match s.runs[r]? with
    | some run =>
      if run.tunnels[k]? = some .authenticating then
        some (s.toRun r (run.toTunnel k (node.elim .refused .authenticated)))
      else none
    | none => none
  | .connect r k now =>
    match s.runs[r]? with
    | some run =>
      match run.tunnels[k]? with
      | some (.authenticated node) =>
        let connected := s.tracker.connect node.name node.subscriptionUrl now
        some { s.toRun r (run.toTunnel k (.connected connected.2)) with tracker := connected.1 }
      | _ => none
    | none => none
  | .register r k =>
    match s.runs[r]? with
    | some run =>
      match run.tunnels[k]? with
      | some (.connected node) => some (s.toRun r (run.register k node))
      | _ => none
    | none => none
  | .refuse r k now =>
    match s.runs[r]? with
    | some run =>
      match run.tunnels[k]? with
      | some (.registered t) =>
        if run.gateway.pool.registers[t]? = some (.returned false) then
          some { s.toRun r (run.toTunnel k .refused) with
            tracker := s.tracker.disconnect (run.nodes.getD t 0) now }
        else none
      | _ => none
    | none => none
  | .gateway r action =>
    match s.runs[r]? with
    | some run => (run.gatewayStep action).map fun run => s.toRun r run
    | none => none
  | .finish r t now =>
    match s.runs[r]? with
    | some run =>
      (run.gateway.step (.finish t)).map fun gateway =>
        { s.toRun r { run with gateway } with
          tracker := s.tracker.disconnect (run.nodes.getD t 0) now }
    | none => none
  | .close r t =>
    match s.runs[r]? with
    | some run => (run.close t).map fun run => s.toRun r run
    | none => none

/-! ### What a step can do -/

/-- **The steps, one by one**, with their guards. -/
inductive Did (s : Proxy) : ProxyAction → Proxy → Prop where
  | abort (h : s.restart = .idle) {r : RunId} (hr : s.current = some r) : Did s .abort
      { s with restart := .aborted, current := none, runs := unlisten s.runs r }
  | abortNone (h : s.restart = .idle) (hr : s.current = none) :
      Did s .abort { s with restart := .aborted, current := none }
  | clear (h : s.restart = .aborted) :
      Did s .clear { s with restart := .cleared, tracker := s.tracker.clear }
  | spawn (h : s.restart = .cleared) (capacity : Nat) : Did s (.spawn (some capacity)) { s with
      restart := .idle
      current := some s.runs.length
      runs := s.runs ++ [.new capacity] }
  | spawnNone (h : s.restart = .cleared) : Did s (.spawn none) { s with restart := .idle }
  | stop (r : RunId) : Did s (.stop r) { s with runs := unlisten s.runs r }
  | accept {r : RunId} {run : GatewayRun} (hr : s.runs[r]? = some run)
      (hl : run.listening = true) : Did s (.accept r)
        (s.toRun r { run with tunnels := run.tunnels ++ [.authenticating] })
  | authenticate {r : RunId} {run : GatewayRun} {k : Nat} (node : Option AuthenticatedNode)
      (hr : s.runs[r]? = some run) (hk : run.tunnels[k]? = some .authenticating) :
      Did s (.authenticate r k node)
        (s.toRun r (run.toTunnel k (node.elim .refused .authenticated)))
  | connect {r : RunId} {run : GatewayRun} {k : Nat} {node : AuthenticatedNode} (now : Nat)
      (hr : s.runs[r]? = some run) (hk : run.tunnels[k]? = some (.authenticated node)) :
      Did s (.connect r k now) { s.toRun r (run.toTunnel k
          (.connected (s.tracker.connect node.name node.subscriptionUrl now).2)) with
        tracker := (s.tracker.connect node.name node.subscriptionUrl now).1 }
  | register {r : RunId} {run : GatewayRun} {k : Nat} {node : NodeId}
      (hr : s.runs[r]? = some run) (hk : run.tunnels[k]? = some (.connected node)) :
      Did s (.register r k) (s.toRun r (run.register k node))
  | refuse {r : RunId} {run : GatewayRun} {k : Nat} {t : TunnelId} (now : Nat)
      (hr : s.runs[r]? = some run) (hk : run.tunnels[k]? = some (.registered t))
      (hfull : run.gateway.pool.registers[t]? = some (.returned false)) :
      Did s (.refuse r k now) { s.toRun r (run.toTunnel k .refused) with
        tracker := s.tracker.disconnect (run.nodes.getD t 0) now }
  | gateway {r : RunId} {run : GatewayRun} {action : GatewayAction} {gateway : Gateway}
      (hr : s.runs[r]? = some run) (ht : action ≠ .tunnel) (hf : ∀ t, action ≠ .finish t)
      (hstep : run.gateway.step action = some gateway) :
      Did s (.gateway r action) (s.toRun r { run with gateway })
  | finish {r : RunId} {run : GatewayRun} {t : TunnelId} {gateway : Gateway} (now : Nat)
      (hr : s.runs[r]? = some run) (hstep : run.gateway.step (.finish t) = some gateway) :
      Did s (.finish r t now) { s.toRun r { run with gateway } with
        tracker := s.tracker.disconnect (run.nodes.getD t 0) now }

theorem gatewayStep_eq_some {run run' : GatewayRun} {action : GatewayAction}
    (h : run.gatewayStep action = some run') : action ≠ .tunnel ∧ (∀ t, action ≠ .finish t) ∧
      ∃ gateway, run.gateway.step action = some gateway ∧ run' = { run with gateway } := by
  cases action with
  | tunnel | finish t => cases h
  | accept =>
      simp only [GatewayRun.gatewayStep] at h
      split_ifs at h
      cases h
      exact ⟨by simp, by simp, _, rfl, rfl⟩
  | pool action | manager t action | candidate p | send p | receive p | expire p =>
      obtain ⟨gateway, hgateway, rfl⟩ := Option.map_eq_some_iff.mp h
      exact ⟨by simp, by simp, gateway, hgateway, rfl⟩

theorem did_of_step {s s' : Proxy} {action : ProxyAction} (h : s.step action = some s') :
    Did s action s' := by
  cases action with
  | abort =>
      obtain ⟨hidle, h⟩ := Option.ite_none_right_eq_some.mp h
      cases h
      cases hr : s.current with
      | some r => exact .abort hidle hr
      | none => exact .abortNone hidle hr
  | clear =>
      obtain ⟨haborted, h⟩ := Option.ite_none_right_eq_some.mp h
      cases h
      exact .clear haborted
  | spawn capacity =>
      obtain ⟨hcleared, h⟩ := Option.ite_none_right_eq_some.mp h
      cases capacity with
      | some capacity =>
          cases h
          exact .spawn hcleared capacity
      | none =>
          cases h
          exact .spawnNone hcleared
  | stop r =>
      obtain ⟨-, h⟩ := Option.ite_none_right_eq_some.mp h
      cases h
      exact .stop r
  | accept r =>
      simp only [step] at h
      split at h
      · rename_i run hr
        obtain ⟨hl, h⟩ := Option.ite_none_right_eq_some.mp h
        cases h
        exact .accept hr hl
      · cases h
  | authenticate r k node =>
      simp only [step] at h
      split at h
      · rename_i run hr
        obtain ⟨hk, h⟩ := Option.ite_none_right_eq_some.mp h
        cases h
        exact .authenticate node hr hk
      · cases h
  | connect r k now =>
      simp only [step] at h
      split at h
      · rename_i run hr
        split at h
        · rename_i node hk
          cases h
          exact .connect now hr hk
        · cases h
      · cases h
  | register r k =>
      simp only [step] at h
      split at h
      · rename_i run hr
        split at h
        · rename_i node hk
          cases h
          exact .register hr hk
        · cases h
      · cases h
  | refuse r k now =>
      simp only [step] at h
      split at h
      · rename_i run hr
        split at h
        · rename_i t hk
          obtain ⟨hfull, h⟩ := Option.ite_none_right_eq_some.mp h
          cases h
          exact .refuse now hr hk hfull
        · cases h
      · cases h
  | gateway r action =>
      simp only [step] at h
      split at h
      · rename_i run hr
        obtain ⟨run', hrun, rfl⟩ := Option.map_eq_some_iff.mp h
        obtain ⟨ht, hf, gateway, hstep, rfl⟩ := gatewayStep_eq_some hrun
        exact .gateway hr ht hf hstep
      · cases h
  | finish r t now =>
      simp only [step] at h
      split at h
      · rename_i run hr
        obtain ⟨gateway, hstep, rfl⟩ := Option.map_eq_some_iff.mp h
        exact .finish now hr hstep
      · cases h
  | close r t =>
      simp only [step] at h
      split at h
      · rw [GatewayRun.recv_never_none] at h
        cases h
      · cases h

end Proxy

end SingBoxMini.ReverseProxy
