import SingBoxMini.NatTunnel.Leaving
import SingBoxMini.ReverseProxy.Restart

/-!
# Reverse proxy — Release

What becomes of the tunnels and the nodes of a gateway that `restart` has stopped.

A task that has left its loop comes to its end, whatever else happens.  A task in its loop does not:
its channel never closes (`recv_never_none`), and as long as the client answers the heartbeats it
stays there (`idle_never_released`).  A tunnel connection that is still being authenticated goes on
to count on a node, and the tracker shows it.  And a public connection that has the stream of a
tunnel, or waits for it, keeps the client's connection open.

* `Replaced`: a run that was stopped when no tunnel of it was idle, being set up or claimed by a
  public connection.  It stays so.
* `restart_releases_tunnels`: what `restart` achieves under that condition.
-/

namespace SingBoxMini.ReverseProxy
open NatTunnel Runs

/-! ### The runs within the controller -/

namespace GatewayRun

/-- The tunnel connection is over or comes to its end by itself: it was refused or will be, or its
task has left its loop and no public connection has its stream or waits for it. -/
def Leaving (run : GatewayRun) : TunnelPc → Prop
  | .refused => True
  | .registered t =>
    run.gateway.pool.registers[t]? = some (.returned false) ∨ run.gateway.Deserted t
  | _ => False

instance (run : GatewayRun) : (pc : TunnelPc) → Decidable (run.Leaving pc)
  | .refused => isTrue trivial
  | .registered _ => inferInstanceAs (Decidable (_ ∨ _))
  | .authenticating | .authenticated _ | .connected _ => isFalse id

/-- The run counts on the node. -/
def Counts (run : GatewayRun) (id : NodeId) : Prop :=
  id ∈ run.nodes ∨ TunnelPc.connected id ∈ run.tunnels

/-- What holds of every run: the invariants of its gateway, and each registered tunnel has a
task. -/
structure Sound (run : GatewayRun) : Prop where
  assigned : run.gateway.Assigned
  spawned : run.gateway.Spawned
  tasks : ∀ (k : Nat) (t : TunnelId), run.tunnels[k]? = some (.registered t) →
    t < run.gateway.managers.length

/-- What holds of a run that was stopped in time. -/
structure Retired (run : GatewayRun) : Prop where
  deaf : run.listening = false
  leaving : ∀ (k : Nat) (pc : TunnelPc), run.tunnels[k]? = some pc → run.Leaving pc

/-- **How a run can move**, seen from the run; the tracker is the one after the step. -/
inductive Moves (tracker : GatewayTracker) (run : GatewayRun) : GatewayRun → Prop where
  | stay : Moves tracker run run
  | unlisten : Moves tracker run { run with listening := false }
  | accept (hl : run.listening = true) :
      Moves tracker run { run with tunnels := run.tunnels ++ [.authenticating] }
  | authenticate {k : Nat} (node : Option AuthenticatedNode)
      (hk : run.tunnels[k]? = some .authenticating) :
      Moves tracker run (run.toTunnel k (node.elim .refused .authenticated))
  | connect {k : Nat} {node : AuthenticatedNode} {id : NodeId}
      (hk : run.tunnels[k]? = some (.authenticated node)) (hid : id < tracker.runtimes.length) :
      Moves tracker run (run.toTunnel k (.connected id))
  | register {k : Nat} {node : NodeId} (hk : run.tunnels[k]? = some (.connected node)) :
      Moves tracker run (run.register k node)
  | refuse {k : Nat} {t : TunnelId} (hk : run.tunnels[k]? = some (.registered t)) :
      Moves tracker run (run.toTunnel k .refused)
  | gateway {action : GatewayAction} {gateway : Gateway}
      (hstep : run.gateway.step action = some gateway) : Moves tracker run { run with gateway }

section Moves

variable {tracker : GatewayTracker} {run run' : GatewayRun}

theorem sound_new (capacity : Nat) : (new capacity).Sound :=
  ⟨Gateway.assigned_new capacity, Gateway.spawned_new capacity, by simp [new]⟩

/-- A tunnel connection moves to a place where it is not registered. -/
theorem Sound.toTunnel {k : Nat} {old pc : TunnelPc} (h : run.Sound)
    (hk : run.tunnels[k]? = some old) (hpc : ∀ t, pc ≠ .registered t) :
    (run.toTunnel k pc).Sound := by
  refine ⟨h.assigned, h.spawned, fun j t hj => ?_⟩
  rw [GatewayRun.toTunnel, Tasks.getElem?_replace hk] at hj
  split_ifs at hj
  · exact absurd (Option.some.inj hj) (hpc t)
  · exact h.tasks j t hj

theorem length_managers_step {s s' : Gateway} {action : GatewayAction}
    (hs : s.step action = some s') : s.managers.length ≤ s'.managers.length := by
  refine Nat.le_of_not_lt fun hlt => ?_
  obtain ⟨m, hm⟩ : ∃ m, s.managers[s'.managers.length]? = some m :=
    ⟨_, List.getElem?_eq_getElem hlt⟩
  obtain ⟨m', hm', -⟩ := Gateway.manager_of_step hs hm
  exact Nat.lt_irrefl _ (Tasks.lt_length hm')

theorem Sound.moves (h : run.Sound) (hm : Moves tracker run run') : run'.Sound := by
  cases hm with
  | stay => exact h
  | unlisten => exact ⟨h.assigned, h.spawned, h.tasks⟩
  | accept =>
      refine ⟨h.assigned, h.spawned, fun j t hj => ?_⟩
      rcases Tasks.of_spawn hj with hnew | hj
      · cases hnew
      · exact h.tasks j t hj
  | authenticate node hk => exact h.toTunnel hk (by cases node <;> simp)
  | connect hk => exact h.toTunnel hk (by simp)
  | refuse hk => exact h.toTunnel hk (by simp)
  | @register k node hk =>
      have hstep : run.gateway.step .tunnel = some run.gateway.tunnel := rfl
      refine ⟨h.assigned.step hstep, h.spawned.step hstep, fun j t hj => ?_⟩
      simp only [GatewayRun.register, Gateway.tunnel, List.length_append] at hj ⊢
      rcases Tasks.of_replace hk hj with ⟨-, hnew⟩ | ⟨-, hj⟩
      · cases hnew
        exact Nat.lt_succ_self _
      · exact Nat.lt_add_right _ (h.tasks j t hj)
  | gateway hstep =>
      exact ⟨h.assigned.step hstep, h.spawned.step hstep,
        fun j t hj => Nat.lt_of_lt_of_le (h.tasks j t hj) (length_managers_step hstep)⟩

/-- A tunnel connection on its way out stays on it. -/
theorem Leaving.step {pc : TunnelPc} {action : GatewayAction} {gateway : Gateway}
    (h : run.Leaving pc) (hs : run.Sound) (hstep : run.gateway.step action = some gateway) :
    Leaving { run with gateway } pc := by
  cases pc with
  | refused => exact trivial
  | authenticating | authenticated _ | connected _ => exact h.elim
  | registered t =>
      rcases h with hfull | hdeserted
      · exact .inl (Gateway.returned_step hfull hstep)
      · exact .inr (hdeserted.step hs.assigned hstep)

theorem Retired.moves (h : run.Retired) (hs : run.Sound) (hm : Moves tracker run run') :
    run'.Retired := by
  cases hm with
  | stay => exact h
  | unlisten => exact ⟨rfl, h.leaving⟩
  | accept hl => cases h.deaf.symm.trans hl
  | authenticate _ hk | connect hk | register hk => exact (h.leaving _ _ hk).elim
  | refuse hk =>
      refine ⟨h.deaf, fun j pc hj => ?_⟩
      rcases Tasks.of_replace hk hj with ⟨-, rfl⟩ | ⟨-, hj⟩
      · exact trivial
      · exact h.leaving j pc hj
  | gateway hstep => exact ⟨h.deaf, fun j pc hj => (h.leaving j pc hj).step hs hstep⟩

theorem counts_toTunnel {k : Nat} {pc : TunnelPc} {id : NodeId}
    (h : (run.toTunnel k pc).Counts id) : run.Counts id ∨ pc = .connected id := by
  rcases h with hmem | hmem
  · exact .inl (.inl hmem)
  · rcases List.mem_or_eq_of_mem_set hmem with hmem | heq
    · exact .inl (.inr hmem)
    · exact .inr heq.symm

/-- The nodes a run counts on are the old ones, and those `connect` gave. -/
theorem counts_of_moves {id : NodeId} (hm : Moves tracker run run') (h : run'.Counts id) :
    run.Counts id ∨ (id < tracker.runtimes.length ∧
      ∃ (k : Nat) (node : AuthenticatedNode), run.tunnels[k]? = some (.authenticated node)) := by
  cases hm with
  | stay | unlisten | gateway => exact .inl h
  | accept =>
      rcases h with hmem | hmem
      · exact .inl (.inl hmem)
      · rcases List.mem_append.mp hmem with hmem | hmem
        · exact .inl (.inr hmem)
        · simp at hmem
  | authenticate node =>
      rcases counts_toTunnel h with h | h
      · exact .inl h
      · cases node <;> cases h
  | @connect k node _ hk hid =>
      rcases counts_toTunnel h with h | h
      · exact .inl h
      · cases h
        exact .inr ⟨hid, k, node, hk⟩
  | register hk =>
      rcases h with hmem | hmem
      · rcases List.mem_append.mp hmem with hmem | hmem
        · exact .inl (.inl hmem)
        · cases List.mem_singleton.mp hmem
          exact .inl (.inr (List.mem_of_getElem? hk))
      · rcases List.mem_or_eq_of_mem_set hmem with hmem | heq
        · exact .inl (.inr hmem)
        · cases heq
  | refuse =>
      rcases counts_toTunnel h with h | h
      · exact .inl h
      · cases h

end Moves

end GatewayRun

namespace Proxy

section Runs

variable {s s' : Proxy} {action : ProxyAction} {r : RunId}

variable {run' : GatewayRun}

/-- A run that moves, among the others. -/
theorem moves_toRun {r' : RunId} {run new : GatewayRun} {tracker : GatewayTracker}
    (hr : s.runs[r']? = some run) (hnew : run.Moves tracker new)
    (h : (s.runs.set r' new)[r]? = some run') :
    ∃ old, s.runs[r]? = some old ∧ old.Moves tracker run' := by
  rw [Tasks.getElem?_replace hr] at h
  split_ifs at h with heq
  · cases h
    exact ⟨run, heq ▸ hr, hnew⟩
  · exact ⟨run', h, .stay⟩

theorem moves_unlisten {r' : RunId} {tracker : GatewayTracker}
    (h : (unlisten s.runs r')[r]? = some run') :
    ∃ old, s.runs[r]? = some old ∧ old.Moves tracker run' := by
  rw [unlisten, Tasks.getElem?_modified] at h
  split_ifs at h
  · obtain ⟨old, hold, rfl⟩ := Option.map_eq_some_iff.mp h
    exact ⟨old, hold, .unlisten⟩
  · exact ⟨run', h, .stay⟩

/-- **The runs after a step** were there before and moved, or one is new. -/
theorem runs_of_step (hs : s.step action = some s') (h : s'.runs[r]? = some run') :
    (s'.current = some r ∧ ∃ capacity, run' = .new capacity) ∨
      ∃ run, s.runs[r]? = some run ∧ run.Moves s'.tracker run' := by
  cases did_of_step hs with
  | abort | stop => exact .inr (moves_unlisten h)
  | abortNone | clear | spawnNone => exact .inr ⟨run', h, .stay⟩
  | spawn _ capacity =>
      rw [Tasks.getElem?_spawn] at h
      split_ifs at h with hnew
      · exact .inl ⟨congrArg some hnew.symm, capacity, (Option.some.inj h).symm⟩
      · exact .inr ⟨run', h, .stay⟩
  | accept hr hl => exact .inr (moves_toRun hr (.accept hl) h)
  | authenticate node hr hk => exact .inr (moves_toRun hr (.authenticate node hk) h)
  | connect now hr hk =>
      exact .inr (moves_toRun hr (.connect hk (GatewayTracker.connect_made _ _ _ _)) h)
  | register hr hk => exact .inr (moves_toRun hr (.register hk) h)
  | refuse _ hr hk => exact .inr (moves_toRun hr (.refuse hk) h)
  | gateway hr _ _ hstep | finish _ hr hstep => exact .inr (moves_toRun hr (.gateway hstep) h)

/-- Runs are never forgotten. -/
theorem length_runs_step (hs : s.step action = some s') : s.runs.length ≤ s'.runs.length := by
  cases did_of_step hs <;> simp [toRun, unlisten]

theorem length_tracker_step (hs : s.step action = some s') :
    s.tracker.runtimes.length ≤ s'.tracker.runtimes.length := by
  cases did_of_step hs with
  | connect => exact GatewayTracker.length_connect_le _ _ _ _
  | refuse | finish => exact Nat.le_of_eq (GatewayTracker.length_disconnect _ _ _).symm
  | abort | abortNone | clear | spawn | spawnNone | stop | accept | authenticate | register
  | gateway => exact Nat.le_refl _

/-- A node that a step puts into the table is new. -/
theorem listed_of_step {id : NodeId} (hs : s.step action = some s') (h : s'.tracker.Listed id) :
    s.tracker.Listed id ∨ s.tracker.runtimes.length ≤ id := by
  cases did_of_step hs with
  | connect => exact GatewayTracker.listed_connect h
  | clear => exact absurd h (GatewayTracker.not_listed_clear _ _)
  | refuse | finish => exact .inl (GatewayTracker.listed_disconnect.mp h)
  | abort | abortNone | spawn | spawnNone | stop | accept | authenticate | register | gateway =>
      exact .inl h

/-- A run that is not in the task slot never comes back to it. -/
theorem current_of_step (hs : s.step action = some s') (hr : r < s.runs.length)
    (h : s.current ≠ some r) : s'.current ≠ some r := by
  cases did_of_step hs with
  | abort | abortNone => simp
  | spawn =>
      intro heq
      cases heq
      exact Nat.lt_irrefl _ hr
  | clear | spawnNone | stop | accept | authenticate | connect | register | refuse | gateway
  | finish => exact h

end Runs

/-! ### A run that was stopped in time -/

/-- **The run is replaced**: it is stopped, all its tunnel connections are on their way out, and
the tracker has none of its nodes. -/
structure Replaced (s : Proxy) (r : RunId) : Prop where
  length : r < s.runs.length
  current : s.current ≠ some r
  sound : ∀ run, s.runs[r]? = some run → run.Sound
  retired : ∀ run, s.runs[r]? = some run → run.Retired
  nodes : ∀ run id, s.runs[r]? = some run → run.Counts id →
    id < s.tracker.runtimes.length ∧ ¬ s.tracker.Listed id

variable {s s' : Proxy} {action : ProxyAction} {r : RunId}

/-- **It stays so**, whatever happens. -/
theorem Replaced.step (h : s.Replaced r) (hs : s.step action = some s') : s'.Replaced r := by
  have hcurrent := current_of_step hs h.length h.current
  have hmoves : ∀ run', s'.runs[r]? = some run' →
      ∃ run, s.runs[r]? = some run ∧ run.Moves s'.tracker run' := fun run' hr =>
    (runs_of_step hs hr).resolve_left fun hnew => hcurrent hnew.1
  refine ⟨Nat.lt_of_lt_of_le h.length (length_runs_step hs), hcurrent, ?_, ?_, ?_⟩
  · intro run' hr
    obtain ⟨run, hrun, hm⟩ := hmoves run' hr
    exact (h.sound run hrun).moves hm
  · intro run' hr
    obtain ⟨run, hrun, hm⟩ := hmoves run' hr
    exact (h.retired run hrun).moves (h.sound run hrun) hm
  · intro run' id hr hcounts
    obtain ⟨run, hrun, hm⟩ := hmoves run' hr
    rcases GatewayRun.counts_of_moves hm hcounts with hold | ⟨-, k, node, hk⟩
    · obtain ⟨hmade, hunlisted⟩ := h.nodes run id hrun hold
      refine ⟨Nat.lt_of_lt_of_le hmade (length_tracker_step hs), fun hlisted => ?_⟩
      rcases listed_of_step hs hlisted with hlisted | hnew
      · exact hunlisted hlisted
      · exact Nat.not_le_of_lt hmade hnew
    · exact ((h.retired run hrun).leaving k _ hk).elim

theorem Replaced.reaches (h : s.Replaced r) (hs : Reaches Proxy.step (fun _ _ => True) s s') :
    s'.Replaced r :=
  hs.invariant (I := fun u => u.Replaced r) h fun _ _ _ hu _ hstep => hu.step hstep

/-! ### Runs in which every gateway is stopped in time -/

/-- **The condition**: a gateway is aborted only when none of its tunnel connections is being set
up or has a task in its loop, and no public connection has or awaits the stream of one. -/
def Calm (s : Proxy) : ProxyAction → Prop
  | .abort => ∀ run ∈ s.current.bind (s.runs[·]?), ∀ pc ∈ run.tunnels, run.Leaving pc
  | _ => True

instance (s : Proxy) : (action : ProxyAction) → Decidable (s.Calm action)
  | .abort => inferInstanceAs (Decidable (∀ run ∈ _, _))
  | .clear | .spawn _ | .stop _ | .accept _ | .authenticate _ _ _ | .connect _ _ _ | .register _ _
  | .refuse _ _ _ | .gateway _ _ | .finish _ _ _ | .close _ _ => isTrue trivial

/-- What holds in every state of such a run. -/
structure Orderly (s : Proxy) : Prop where
  slot : s.restart ≠ .idle → s.current = none
  sound : ∀ (r : RunId) (run : GatewayRun), s.runs[r]? = some run → run.Sound
  made : ∀ (r : RunId) (run : GatewayRun) (id : NodeId), s.runs[r]? = some run → run.Counts id →
    id < s.tracker.runtimes.length
  retired : ∀ (r : RunId) (run : GatewayRun), s.runs[r]? = some run → s.current ≠ some r →
    run.Retired
  unlisted : s.restart ≠ .aborted → ∀ (r : RunId) (run : GatewayRun) (id : NodeId),
    s.runs[r]? = some run → s.current ≠ some r → run.Counts id → ¬ s.tracker.Listed id

theorem orderly_start : start.Orderly := by
  constructor <;> simp [start]

theorem Orderly.replaced (h : s.Orderly) (hidle : s.restart ≠ .aborted) (hr : r < s.runs.length)
    (hold : s.current ≠ some r) : s.Replaced r :=
  ⟨hr, hold, h.sound r, fun run hrun => h.retired r run hrun hold, fun run id hrun hcounts =>
    ⟨h.made r run id hrun hcounts, h.unlisted hidle r run id hrun hold hcounts⟩⟩

/-- A run leaves the task slot when it is aborted. -/
theorem slot_of_step (h : s.Orderly) (hs : s.step action = some s') (hold : s.current = some r)
    (hnew : s'.current ≠ some r) :
    action = .abort ∧ s'.runs = unlisten s.runs r ∧ s'.restart = .aborted := by
  cases did_of_step hs with
  | @abort _ r' hr =>
      cases hr.symm.trans hold
      exact ⟨rfl, rfl, rfl⟩
  | abortNone _ hr => cases hr.symm.trans hold
  | spawn hcleared =>
      have hnone := h.slot (by simp [hcleared])
      cases hnone.symm.trans hold
  | clear | spawnNone | stop | accept | authenticate | connect | register | refuse | gateway
  | finish => exact absurd hold hnew

/-- `restart` goes on by clearing the table. -/
theorem cleared_of_step (hs : s.step action = some s') (hold : s.restart = .aborted)
    (hnew : s'.restart ≠ .aborted) :
    s'.tracker = s.tracker.clear := by
  cases did_of_step hs with
  | clear => rfl
  | abort h | abortNone h | spawn h | spawnNone h => cases h.symm.trans hold
  | stop | accept | authenticate | connect | register | refuse | gateway | finish =>
      exact absurd hold hnew

theorem Orderly.step (h : s.Orderly) (hcalm : s.Calm action) (hs : s.step action = some s') :
    s'.Orderly := by
  constructor
  · cases did_of_step hs with
    | abort | abortNone => exact fun _ => rfl
    | spawn | spawnNone => exact fun hne => absurd rfl hne
    | clear hrestart => exact fun _ => h.slot (by simp [hrestart])
    | stop | accept | authenticate | connect | register | refuse | gateway | finish =>
        exact h.slot
  · intro r run' hr
    rcases runs_of_step hs hr with ⟨-, capacity, rfl⟩ | ⟨run, hrun, hm⟩
    · exact GatewayRun.sound_new capacity
    · exact (h.sound r run hrun).moves hm
  · intro r run' id hr hcounts
    rcases runs_of_step hs hr with ⟨-, capacity, rfl⟩ | ⟨run, hrun, hm⟩
    · simp [GatewayRun.Counts, GatewayRun.new] at hcounts
    · rcases GatewayRun.counts_of_moves hm hcounts with hold | ⟨hnew, -⟩
      · exact Nat.lt_of_lt_of_le (h.made r run id hrun hold) (length_tracker_step hs)
      · exact hnew
  · intro r run' hr hcurrent
    by_cases hold : s.current = some r
    · -- the step is the abort of this run
      obtain ⟨rfl, hruns, -⟩ := slot_of_step h hs hold hcurrent
      rw [hruns, unlisten, Tasks.getElem?_modified, if_pos rfl] at hr
      obtain ⟨run, hrun, rfl⟩ := Option.map_eq_some_iff.mp hr
      have hrun' : run ∈ s.current.bind (s.runs[·]?) := by rw [hold]; exact hrun
      exact ⟨rfl, fun k pc hk => hcalm run hrun' pc (List.mem_of_getElem? hk)⟩
    · obtain ⟨run, hrun, hm⟩ := (runs_of_step hs hr).resolve_left fun hnew => hcurrent hnew.1
      exact (h.retired r run hrun hold).moves (h.sound r run hrun) hm
  · intro haborted r run' id hr hcurrent hcounts
    by_cases hrestart : s.restart = .aborted
    · rw [cleared_of_step hs hrestart haborted]
      exact GatewayTracker.not_listed_clear _ _
    · have hold : s.current ≠ some r := fun hold =>
        haborted (slot_of_step h hs hold hcurrent).2.2
      obtain ⟨run, hrun, -⟩ := (runs_of_step hs hr).resolve_left fun hnew => hcurrent hnew.1
      have hreplaced := (h.replaced hrestart (Tasks.lt_length hrun) hold).step hs
      exact (hreplaced.nodes run' id hr hcounts).2

/-! ### The release of a tunnel -/

/-- The task that set up the tunnel connection and the one it spawned are over. -/
def Vacated (r : RunId) (k : Nat) (s : Proxy) : Prop :=
  ∃ run, s.runs[r]? = some run ∧ (run.tunnels[k]? = some .refused ∨
    ∃ t, run.tunnels[k]? = some (.registered t) ∧ run.gateway.Ended t)

/-- The stream of the tunnel connection was delivered to a public connection. -/
def Delivered (r : RunId) (k : Nat) (s : Proxy) : Prop :=
  ∃ run t p, s.runs[r]? = some run ∧ run.tunnels[k]? = some (.registered t) ∧
    run.gateway.SentTo t p

/-- **The client sees the connection close**: the stream was dropped with its task. -/
def Closed (r : RunId) (k : Nat) (s : Proxy) : Prop := Vacated r k s ∧ ¬ Delivered r k s

/-- The steps of the task that sets up the tunnel connection, and of the task it spawns. -/
def OfTunnel (r : RunId) (k : Nat) (s : Proxy) : ProxyAction → Prop
  | .authenticate r' k' _ | .connect r' k' _ | .register r' k' | .refuse r' k' _ =>
    r' = r ∧ k' = k
  | .gateway r' (.pool (.push t _)) | .gateway r' (.pool (.notify t)) | .gateway r' (.manager t _)
  | .finish r' t _ | .close r' t =>
    r' = r ∧ ∃ run, s.runs[r]? = some run ∧ run.tunnels[k]? = some (.registered t)
  | _ => False

/-- Whatever else happens, `goal` is reached as long as the tunnel's own tasks go on. -/
abbrev Certain (r : RunId) (k : Nat) (goal : Proxy → Prop) (s : Proxy) : Prop :=
  Inevitable step (fun _ _ => True) (OfTunnel r k) goal s

/-- A node of the run appears in the snapshot. -/
def Shown (r : RunId) (s : Proxy) : Prop :=
  ∃ run status id, s.runs[r]? = some run ∧ status ∈ s.tracker.snapshot ∧
    s.tracker.nodes.lookup status.name = some id ∧ run.Counts id

/-- What a step means for a registered tunnel connection: its tasks are over, or closer to their
end, and it was a step of theirs; or it was a step of others. -/
inductive Went (r : RunId) (k : Nat) (t : TunnelId) (m : Manager) (s s' : Proxy)
    (action : ProxyAction) : Prop where
  | finished (hown : OfTunnel r k s action) (h : Vacated r k s')
  | closer {run' : GatewayRun} {m' : Manager} (hown : OfTunnel r k s action)
      (hr : s'.runs[r]? = some run') (hk : run'.tunnels[k]? = some (.registered t))
      (hm : run'.gateway.managers[t]? = some m') (h : m'.pc.left < m.pc.left)
  | other {run' : GatewayRun} {m' : Manager} (hown : ¬ OfTunnel r k s action)
      (hr : s'.runs[r]? = some run') (hk : run'.tunnels[k]? = some (.registered t))
      (hm : run'.gateway.managers[t]? = some m') (h : m'.pc = m.pc)

section Release

variable {s s' : Proxy} {action : ProxyAction} {r : RunId} {k : Nat} {t : TunnelId}
  {run : GatewayRun} {m : Manager}

/-- The `register` call of a registered tunnel connection of a replaced run has returned. -/
theorem Replaced.returned (h : s.Replaced r) (hr : s.runs[r]? = some run)
    (hk : run.tunnels[k]? = some (.registered t)) :
    ∃ ok, run.gateway.pool.registers[t]? = some (.returned ok) := by
  rcases (h.retired run hr).leaving k _ hk with hfull | ⟨⟨m, hm, hdeserted⟩, -⟩
  · exact ⟨false, hfull⟩
  · refine ⟨true, (h.sound run hr).spawned t m hm ?_⟩
    intro hunspawned
    have hpc := hdeserted.leaving
    rw [hunspawned] at hpc
    exact hpc

variable {gateway : Gateway}

/-- A step of a task of a replaced run brings it closer to its end. -/
theorem Replaced.closer {b : ManagerAction} {m' : Manager} (h : s.Replaced r)
    (hr : s.runs[r]? = some run) (hk : run.tunnels[k]? = some (.registered t))
    (hm : run.gateway.managers[t]? = some m)
    (hstep : run.gateway.step (.manager t b) = some gateway) (hdid : m.Did b m') :
    m'.pc.left < m.pc.left := by
  rcases (h.retired run hr).leaving k _ hk with hfull | ⟨⟨m₀, hm₀, hdeserted⟩, -⟩
  · -- the call of `register` returned `false`, and the task was never spawned
    have hunspawned : m.pc = .unspawned := by
      by_contra hne
      cases hfull.symm.trans ((h.sound run hr).spawned t m hm hne)
    cases hdid with
    | spawn =>
        cases Gateway.did_of_step hstep with
        | @manager _ _ _ _ pool _ _ hpool =>
            have hspawn : run.gateway.pool.step (.spawn t) = some pool := hpool
            cases PoolState.did_of_step hspawn with
            | spawn hreg => cases hfull.symm.trans hreg
    | recv hpc | tick hpc | pong hpc | noPong hpc | ready hpc | clear hpc | clearBroken hpc =>
        cases hunspawned.symm.trans hpc
  · cases hm.symm.trans hm₀
    exact hdid.left_lt hdeserted.leaving

/-- A step of the gateway that is not one of the task is not one of the tunnel connection: its
call of `register` has returned. -/
theorem not_ofTunnel {action : GatewayAction} {ok : Bool} (hr : s.runs[r]? = some run)
    (hk : run.tunnels[k]? = some (.registered t))
    (hreg : run.gateway.pool.registers[t]? = some (.returned ok))
    (hstep : run.gateway.step action = some gateway) (hnot : ∀ b, action ≠ .manager t b) :
    ¬ OfTunnel r k s (.gateway r action) := by
  intro hown
  have hsame : ∀ {u : TunnelId}, (r = r ∧ ∃ run, s.runs[r]? = some run ∧
      run.tunnels[k]? = some (.registered u)) → u = t := by
    rintro u ⟨-, run₁, hr₁, hk₁⟩
    cases hr.symm.trans hr₁
    cases hk.symm.trans hk₁
    rfl
  cases Gateway.did_of_step hstep with
  | tunnel | accept | finish | candidate | noCandidate | refused | send | receive | noStream
  | expire => exact hown
  | manager => exact hnot _ (by rw [hsame hown])
  | pool _ hpool =>
      cases PoolState.did_of_step hpool with
      | register | spawn | die | acquire | acquired | empty | permit | suspend | wake | leaveLock
      | leaveWait => exact hown
      | pushed h | full h | notify h =>
          rw [hsame hown] at h
          cases h.symm.trans hreg

theorem run_of_ofTunnel {r' : RunId} {action : GatewayAction}
    (h : OfTunnel r k s (.gateway r' action)) : r' = r := by
  unfold OfTunnel at h
  split at h <;> simp_all

theorem Replaced.went_gateway {action : GatewayAction} (h : s.Replaced r)
    (hr : s.runs[r]? = some run) (hk : run.tunnels[k]? = some (.registered t))
    (hm : run.gateway.managers[t]? = some m) (hf : ∀ u, action ≠ .finish u)
    (hstep : run.gateway.step action = some gateway) :
    Went r k t m s (s.toRun r { run with gateway }) (.gateway r action) := by
  have hrun : (s.toRun r { run with gateway }).runs[r]? = some { run with gateway } :=
    Tasks.replace_self hr _
  obtain ⟨m', hm', hmoved⟩ := Gateway.manager_of_step hstep hm
  cases hmoved with
  | step hdid =>
      exact .closer ⟨rfl, run, hr, hk⟩ hrun hk hm' (h.closer hr hk hm hstep hdid)
  | finish => exact absurd rfl (hf t)
  | other hnot _ hpc =>
      refine .other (fun hown => ?_) hrun hk hm' hpc
      obtain ⟨ok, hreg⟩ := h.returned hr hk
      exact not_ofTunnel hr hk hreg hstep hnot hown

/-- A step of others keeps the tunnel connection and its task where they are. -/
theorem Replaced.went (h : s.Replaced r) (hr : s.runs[r]? = some run)
    (hk : run.tunnels[k]? = some (.registered t)) (hm : run.gateway.managers[t]? = some m)
    (hs : s.step action = some s') : Went r k t m s s' action := by
  have hretired := h.retired run hr
  -- a step of another run
  have helse : ∀ {r' : RunId} {run₁ : GatewayRun}, r' ≠ r →
      (s.runs.set r' run₁)[r]? = some run := fun hne => (List.getElem?_set_ne hne).trans hr
  have hunlisten : ∀ r', ∃ run', (unlisten s.runs r')[r]? = some run' ∧
      run'.tunnels = run.tunnels ∧ run'.gateway = run.gateway := by
    intro r'
    rw [unlisten, Tasks.getElem?_modified, hr]
    split_ifs
    · exact ⟨_, rfl, rfl, rfl⟩
    · exact ⟨_, rfl, rfl, rfl⟩
  cases did_of_step hs with
  | @abort _ r' | stop r' =>
      obtain ⟨run', hrun', htunnels, hgateway⟩ := hunlisten r'
      exact .other id hrun' (htunnels ▸ hk) (hgateway ▸ hm) rfl
  | abortNone | clear | spawnNone => exact .other id hr hk hm rfl
  | spawn => exact .other id (Tasks.spawn_old hr _) hk hm rfl
  | @accept r' run₀ hr' hl =>
      refine .other id (helse ?_) hk hm rfl
      rintro rfl
      cases hr.symm.trans hr'
      cases hretired.deaf.symm.trans hl
  | @authenticate r' run₀ k' _ hr' hk' | @connect r' run₀ k' _ _ hr' hk'
  | @register r' run₀ k' _ hr' hk' =>
      have hne : r' ≠ r := by
        rintro rfl
        cases hr.symm.trans hr'
        exact hretired.leaving k' _ hk'
      exact .other (fun hown => hne hown.1) (helse hne) hk hm rfl
  | @refuse r' run₀ k' t' now hr' hk' hfull =>
      by_cases hrr : r' = r
      · subst hrr
        cases hr.symm.trans hr'
        have hrun : (s.toRun r' (run.toTunnel k' .refused)).runs[r']? =
            some (run.toTunnel k' .refused) := Tasks.replace_self hr _
        by_cases hkk : k' = k
        · subst hkk
          exact .finished ⟨rfl, rfl⟩ ⟨_, hrun, .inl (Tasks.replace_self hk _)⟩
        · exact .other (fun hown => hkk hown.2) hrun ((List.getElem?_set_ne hkk).trans hk) hm rfl
      · exact .other (fun hown => hrr hown.1) (helse hrr) hk hm rfl
  | @gateway r' run₀ action gateway hr' ht hf hstep =>
      by_cases hrr : r' = r
      · subst hrr
        cases hr.symm.trans hr'
        exact h.went_gateway hr hk hm hf hstep
      · refine .other (fun hown => hrr ?_) (helse hrr) hk hm rfl
        exact run_of_ofTunnel hown
  | @finish r' run₀ t' gateway now hr' hstep =>
      by_cases hrr : r' = r
      · subst hrr
        cases hr.symm.trans hr'
        have hrun : (s.toRun r' { run with gateway }).runs[r']? = some { run with gateway } :=
          Tasks.replace_self hr _
        obtain ⟨m', hm', hmoved⟩ := Gateway.manager_of_step hstep hm
        cases hmoved with
        | finish _ hend =>
            exact .finished ⟨rfl, run, hr, hk⟩ ⟨_, hrun, .inr ⟨t, hk, m', hm', hend⟩⟩
        | other _ hne hpc =>
            refine .other ?_ hrun hk hm' hpc
            rintro ⟨-, run₁, hr₁, hk₁⟩
            cases hr.symm.trans hr₁
            cases hk.symm.trans hk₁
            exact hne rfl
      · exact .other (fun hown => hrr hown.1) (helse hrr) hk hm rfl

/-- Until its tasks are over, one of them can make a step. -/
theorem Replaced.enabled (h : s.Replaced r) (hr : s.runs[r]? = some run)
    (hk : run.tunnels[k]? = some (.registered t)) (hopen : ¬ Vacated r k s) :
    ∃ a u, OfTunnel r k s a ∧ s.step a = some u := by
  have hown : r = r ∧ ∃ run, s.runs[r]? = some run ∧ run.tunnels[k]? = some (.registered t) :=
    ⟨rfl, run, hr, hk⟩
  rcases (h.retired run hr).leaving k _ hk with hfull | ⟨⟨m, hm, hdeserted⟩, -⟩
  · refine ⟨.refuse r k 0, { s.toRun r (run.toTunnel k .refused) with
      tracker := s.tracker.disconnect (run.nodes.getD t 0) 0 }, ⟨rfl, rfl⟩, ?_⟩
    simp only [Proxy.step, hr, hk, if_pos hfull]
  · have hend : m.pc ≠ .ended := fun hend => hopen ⟨run, hr, .inr ⟨t, hk, m, hm, hend⟩⟩
    rcases (h.sound run hr).spawned.enabled hm hdeserted.leaving hend with
      ⟨b, gateway, hstep⟩ | ⟨gateway, hstep⟩
    · refine ⟨.gateway r (.manager t b), s.toRun r { run with gateway }, hown, ?_⟩
      simp only [Proxy.step, hr, GatewayRun.gatewayStep, hstep, Option.map_some]
    · refine ⟨.finish r t 0, { s.toRun r { run with gateway } with
        tracker := s.tracker.disconnect (run.nodes.getD t 0) 0 }, hown, ?_⟩
      simp only [Proxy.step, hr, hstep, Option.map_some]

/-- The steps before the end of the tasks of a tunnel connection. -/
def rank (r : RunId) (k : Nat) (s : Proxy) : Nat :=
  (s.runs[r]?.bind fun run => (run.tunnels[k]?.bind TunnelPc.tunnel).bind
    fun t => run.gateway.managers[t]?).elim 0 fun m => m.pc.left

theorem rank_eq (hr : s.runs[r]? = some run) (hk : run.tunnels[k]? = some (.registered t))
    (hm : run.gateway.managers[t]? = some m) : rank r k s = m.pc.left := by
  simp [rank, hr, hk, hm, TunnelPc.tunnel]

/-- The tunnel connection of a replaced run is over, or it has a task. -/
theorem Replaced.registered {pc : TunnelPc} (h : s.Replaced r) (hr : s.runs[r]? = some run)
    (hk : run.tunnels[k]? = some pc) (hopen : ¬ Vacated r k s) :
    ∃ t m, run.tunnels[k]? = some (.registered t) ∧ run.gateway.managers[t]? = some m := by
  have hleaving := (h.retired run hr).leaving k pc hk
  cases pc with
  | authenticating | authenticated _ | connected _ => exact hleaving.elim
  | refused => exact absurd ⟨run, hr, .inl hk⟩ hopen
  | registered t =>
      exact ⟨t, _, hk, List.getElem?_eq_getElem ((h.sound run hr).tasks k t hk)⟩

/-- The stream of a tunnel connection of a replaced run goes to nobody. -/
theorem Replaced.not_delivered (h : s.Replaced r) : ¬ Delivered r k s := by
  rintro ⟨run, t, p, hr, hk, hsent⟩
  rcases (h.retired run hr).leaving k _ hk with hfull | hdeserted
  · -- a stream is delivered by a task that was spawned
    obtain ⟨m, hm, hend⟩ := (h.sound run hr).assigned.ended_of_sentTo hsent
    have hreg := (h.sound run hr).spawned t m hm (by simp [hend])
    cases hfull.symm.trans hreg
  · exact hdeserted.unsent p hsent

/-- **The tasks of a tunnel connection of a replaced run come to their end**, and the stream is
dropped. -/
theorem Replaced.certain (h : s.Replaced r) (hr : s.runs[r]? = some run)
    (hk : k < run.tunnels.length) : Certain r k (Closed r k) s := by
  refine inevitable_of_rank (I := fun s => s.Replaced r ∧
    ∃ run pc, s.runs[r]? = some run ∧ run.tunnels[k]? = some pc) (rank r k) ?_ ?_ ?_ ?_ s
    ⟨h, run, _, hr, List.getElem?_eq_getElem hk⟩
  · rintro s a s' ⟨h, run, pc, hr, hk⟩ hgoal - hs
    obtain ⟨t, m, hk, hm⟩ := h.registered hr hk fun hv => hgoal ⟨hv, h.not_delivered⟩
    refine ⟨h.step hs, ?_⟩
    cases h.went hr hk hm hs with
    | finished _ hv =>
        obtain ⟨run', hr', hk' | ⟨t', hk', -⟩⟩ := hv
        · exact ⟨run', _, hr', hk'⟩
        · exact ⟨run', _, hr', hk'⟩
    | closer _ hr' hk' | other _ hr' hk' => exact ⟨_, _, hr', hk'⟩
  · rintro s ⟨h, run, pc, hr, hk⟩ hgoal
    have hopen : ¬ Vacated r k s := fun hv => hgoal ⟨hv, h.not_delivered⟩
    obtain ⟨t, m, hk, -⟩ := h.registered hr hk hopen
    obtain ⟨a, u, hown, hs⟩ := h.enabled hr hk hopen
    exact ⟨a, u, hown, trivial, hs⟩
  · rintro s a s' ⟨h, run, pc, hr, hk⟩ hgoal hown - hs
    obtain ⟨t, m, hk, hm⟩ := h.registered hr hk fun hv => hgoal ⟨hv, h.not_delivered⟩
    cases h.went hr hk hm hs with
    | finished _ hv => exact .inl ⟨hv, (h.step hs).not_delivered⟩
    | closer _ hr' hk' hm' hlt =>
        right
        rw [rank_eq hr hk hm, rank_eq hr' hk' hm']
        exact hlt
    | other hnot => exact absurd hown hnot
  · rintro s a s' ⟨h, run, pc, hr, hk⟩ hgoal hnot - hs
    have hopen : ¬ Vacated r k s := fun hv => hgoal ⟨hv, h.not_delivered⟩
    obtain ⟨t, m, hk, hm⟩ := h.registered hr hk hopen
    cases h.went hr hk hm hs with
    | finished hown | closer hown => exact absurd hown hnot
    | other _ hr' hk' hm' hpc =>
        refine ⟨?_, ?_⟩
        · rintro ⟨⟨run₁, hr₁, hk₁ | ⟨t₁, hk₁, m₁, hm₁, hend⟩⟩, -⟩
          · cases hr'.symm.trans hr₁
            cases hk'.symm.trans hk₁
          · cases hr'.symm.trans hr₁
            cases hk'.symm.trans hk₁
            cases hm'.symm.trans hm₁
            exact hopen ⟨run, hr, .inr ⟨t, hk, m, hm, hpc.symm.trans hend⟩⟩
        · rw [rank_eq hr hk hm, rank_eq hr' hk' hm', hpc]

theorem Replaced.not_shown (h : s.Replaced r) : ¬ Shown r s := by
  rintro ⟨run, status, id, hr, -, hid, hcounts⟩
  exact (h.nodes run id hr hcounts).2 ⟨_, hid⟩

end Release

/-- **`restart` releases the tunnels of a gateway that was stopped in time.**  In every run that
aborts a gateway only when none of its tunnel connections is being set up or waits in its loop, and
no public connection has or awaits the stream of one, once `restart` has returned, whatever happens
then:
the tasks of each tunnel connection of an old gateway come to their end, and the client sees the
connection close;
and no node of the old gateway appears in a snapshot. -/
theorem restart_releases_tunnels {s : Proxy} {r : RunId} (h : Reaches step Calm start s)
    (hreturned : s.restart = .idle) (hr : r < s.runs.length) (hold : s.current ≠ some r) :
    (∀ run k, s.runs[r]? = some run → k < run.tunnels.length → Certain r k (Closed r k) s) ∧
    ∀ s', Reaches step (fun _ _ => True) s s' → ¬ Shown r s' := by
  have horderly : s.Orderly := h.invariant orderly_start fun _ _ _ hs hcalm hstep =>
    hs.step hcalm hstep
  have hreplaced : s.Replaced r := horderly.replaced (by simp [hreturned]) hr hold
  exact ⟨fun run k hrun hk => hreplaced.certain hrun hk,
    fun s' hs' => (hreplaced.reaches hs').not_shown⟩

/-- A gateway with a tunnel whose heartbeat has failed and one that was refused is stopped. -/
def brokenAndRefused : List ProxyAction :=
  [.abort, .clear, .spawn (some 4), .accept 0, .accept 0, .authenticate 0 0 (some ⟨"first", ""⟩),
    .authenticate 0 1 none, .connect 0 0 10, .register 0 0, .gateway 0 (.pool (.push 0 [])),
    .gateway 0 (.pool (.notify 0)), .gateway 0 (.manager 0 .spawn), .gateway 0 (.manager 0 .tick),
    .gateway 0 (.manager 0 (.pong .timedOut)), .abort, .clear, .spawn none]

theorem restart_releases_tunnels_broken : ∃ s, run step start brokenAndRefused = some s ∧
    s.restart = .idle ∧ 0 < s.runs.length ∧ s.current ≠ some 0 ∧
    Certain 0 0 (Closed 0 0) s ∧ Certain 0 1 (Closed 0 1) s ∧
    ∀ s', Reaches step (fun _ _ => True) s s' → ¬ Shown 0 s' := by
  have h : Reaches step Calm start _ := reaches_of_run brokenAndRefused .refl rfl
  have hreleased := restart_releases_tunnels (r := 0) h rfl (by decide) (by decide)
  exact ⟨_, rfl, rfl, by decide, by decide, hreleased.1 _ 0 rfl (by decide),
    hreleased.1 _ 1 rfl (by decide), hreleased.2⟩

/-! ### What happens otherwise -/

/-- **An idle tunnel is never released**: its task stays in its loop as long as the client answers
the heartbeats. -/
theorem idle_never_released {s : Proxy} {r : RunId} {k : Nat} {t : TunnelId} {run : GatewayRun}
    {m : Manager} (hr : s.runs[r]? = some run) (hk : run.tunnels[k]? = some (.registered t))
    (hm : run.gateway.managers[t]? = some m) (hidle : m.pc = .select ∨ m.pc = .pinging) :
    ¬ Certain r k (Vacated r k) s := by
  intro h
  induction h generalizing run m with
  | here hv =>
      obtain ⟨run₁, hr₁, hk₁ | ⟨t₁, hk₁, m₁, hm₁, hend⟩⟩ := hv
      · cases hr.symm.trans hr₁
        cases hk.symm.trans hk₁
      · cases hr.symm.trans hr₁
        cases hk.symm.trans hk₁
        cases hm.symm.trans hm₁
        rcases hidle with hidle | hidle
        · cases hidle.symm.trans hend
        · cases hidle.symm.trans hend
  | @next s _ _ ih =>
      -- the task's next step, and where it leads
      have hnext : ∀ b m', m.step b = some m' → b.onPool t = none →
          (m'.pc = .select ∨ m'.pc = .pinging) → False := by
        intro b m' hstep hpool hidle'
        have hgateway : run.gateway.step (.manager t b) =
            some { run.gateway with managers := run.gateway.managers.set t m' } := by
          simp only [Gateway.step, hm, hstep, hpool, PoolState.perform]
        have hs : s.step (.gateway r (.manager t b)) = some (s.toRun r { run with
            gateway := { run.gateway with managers := run.gateway.managers.set t m' } }) := by
          simp only [step, hr, GatewayRun.gatewayStep, hgateway, Option.map_some]
        have hown : OfTunnel r k s (.gateway r (.manager t b)) := ⟨rfl, run, hr, hk⟩
        exact ih s _ _ .refl hown trivial hs (Tasks.replace_self hr _) hk
          (Tasks.replace_self hm _) hidle'
      obtain ⟨slot, pc⟩ := m
      rcases hidle with rfl | rfl
      · exact hnext .tick ⟨slot, .pinging⟩ (by simp [Manager.step]) rfl (.inr rfl)
      · exact hnext (.pong (.byte pongCommand)) ⟨slot, .select⟩ rfl rfl (.inl rfl)

/-- A gateway with an idle tunnel of one node, and a second tunnel connection that is being
authenticated, is stopped. -/
def idleAndAuthenticating : List ProxyAction :=
  [.abort, .clear, .spawn (some 4), .accept 0, .accept 0, .authenticate 0 0 (some ⟨"first", ""⟩),
    .connect 0 0 10, .register 0 0, .gateway 0 (.pool (.push 0 [])), .gateway 0 (.pool (.notify 0)),
    .gateway 0 (.manager 0 .spawn), .abort, .clear, .spawn none]

/-- **`restart` does not release an idle tunnel**, and a node of the old gateway appears later. -/
theorem restart_keeps_idle_tunnel : ∃ s, run step start idleAndAuthenticating = some s ∧
    s.restart = .idle ∧ 0 < s.runs.length ∧ s.current ≠ some 0 ∧ ¬ Certain 0 0 (Vacated 0 0) s ∧
    ∃ s', run step s [.authenticate 0 1 (some ⟨"second", ""⟩), .connect 0 1 20] = some s' ∧
      Shown 0 s' := by
  refine ⟨_, rfl, rfl, by decide, by decide, ?_, _, rfl, ?_⟩
  · exact idle_never_released (t := 0) rfl rfl rfl (.inl rfl)
  · have hid : ∀ tracker : GatewayTracker, tracker.nodes.lookup "second" = some 1 →
        ((tracker.runtimes.getD 1 .default).status "second") ∈ tracker.snapshot := fun _ h =>
      GatewayTracker.mem_snapshot.mpr ⟨1, h, rfl⟩
    exact ⟨_, _, 1, rfl, hid _ rfl, rfl, .inr (by decide)⟩

end Proxy

end SingBoxMini.ReverseProxy
