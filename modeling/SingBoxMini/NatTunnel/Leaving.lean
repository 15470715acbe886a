import SingBoxMini.NatTunnel.Exclusive

/-!
# NAT tunnel — Assignment — Leaving

A tunnel's task after its loop: with an assignment that it activates and answers, or after a
heartbeat that failed.

* `Manager.Did.left_lt`: from there every step of the task brings it closer to its end.
* `Gateway.manager_of_step`: only the task's own steps move it.
* `Gateway.Spawned.enabled`: and until its end there is one.
* `Gateway.Deserted`: nobody waits for the stream of such a task, and so it goes to nobody.
-/

namespace SingBoxMini.NatTunnel

/-- The task has left its loop. -/
def ManagerPc.Leaving : ManagerPc → Prop
  | .unspawned | .select | .pinging => False
  | _ => True

/-- The steps before the end of a task that has left its loop. -/
def ManagerPc.left : ManagerPc → Nat
  | .activating _ => 3
  | .activated _ _ | .broken => 2
  | .answering _ _ | .stopped => 1
  | _ => 0

variable {m m' : Manager} {responses : List (Oneshot AssignmentResult)}

theorem Manager.Did.left_lt {action : ManagerAction} (h : m.Did action m') (hpc : m.pc.Leaving) :
    m'.pc.left < m.pc.left := by
  cases h with
  | spawn h | recv h | tick h | pong h | noPong h =>
      rw [h] at hpc
      exact hpc.elim
  | ready h | clear h | clearBroken h =>
      rw [h]
      simp [ManagerPc.left]

/-- The task has left its loop and nobody will have its stream: there is no assignment, the
activation failed, or the requester has given up. -/
def Manager.Deserted (responses : List (Oneshot AssignmentResult)) (m : Manager) : Prop :=
  match m.pc with
  | .activating call => responses[call]? = some .closed
  | .activated call result | .answering call result =>
    (∃ error, result = .error error) ∨ responses[call]? = some .closed
  | .broken | .stopped | .ended => True
  | _ => False

instance (responses : List (Oneshot AssignmentResult)) :
    (m : Manager) → Decidable (m.Deserted responses)
  | ⟨_, .activating _⟩ => inferInstanceAs (Decidable (_ = _))
  | ⟨_, .activated _ (.error error)⟩ | ⟨_, .answering _ (.error error)⟩ =>
    isTrue (.inl ⟨error, rfl⟩)
  | ⟨_, .activated call (.ok _)⟩ | ⟨_, .answering call (.ok _)⟩ =>
    decidable_of_iff (responses[call]? = some .closed) (by simp [Manager.Deserted])
  | ⟨_, .broken⟩ | ⟨_, .stopped⟩ | ⟨_, .ended⟩ => isTrue trivial
  | ⟨_, .unspawned⟩ | ⟨_, .select⟩ | ⟨_, .pinging⟩ => isFalse id

theorem Manager.Deserted.leaving (h : m.Deserted responses) : m.pc.Leaving := by
  unfold Manager.Deserted at h
  unfold ManagerPc.Leaving
  split at h <;> simp_all

theorem Manager.Deserted.mono {responses' : List (Oneshot AssignmentResult)}
    (h : m.Deserted responses) (hpc : m'.pc = m.pc)
    (hclosed : ∀ call : AcquireId, responses[call]? = some .closed →
      responses'[call]? = some .closed) : m'.Deserted responses' := by
  unfold Manager.Deserted at h ⊢
  rw [hpc]
  split at h
  · exact hclosed _ h
  · exact h.imp_right (hclosed _)
  · exact h.imp_right (hclosed _)
  all_goals exact h

theorem Manager.Deserted.step {action : ManagerAction} (h : m.Deserted responses)
    (hdid : m.Did action m') :
    m'.Deserted responses := by
  cases hdid with
  | spawn hpc | recv hpc | tick hpc | pong hpc | noPong hpc =>
      simp only [Manager.Deserted, hpc] at h
  | ready hpc =>
      simp only [Manager.Deserted, hpc] at h
      exact .inr h
  | clear hpc =>
      simp only [Manager.Deserted, hpc] at h
      exact h
  | clearBroken => exact trivial

/-- A `register` call that has returned stays so. -/
theorem PoolState.returned_step {s s' : PoolState} {action : PoolAction} {t : TunnelId} {ok : Bool}
    (h : s.registers[t]? = some (.returned ok)) (hs : s.step action = some s') :
    s'.registers[t]? = some (.returned ok) := by
  -- a call that moves on has not returned
  have hmove : ∀ {u : TunnelId} {pc : RegisterPc} (pc' : RegisterPc), s.registers[u]? = some pc →
      pc ≠ .returned ok → (s.registers.set u pc')[t]? = some (.returned ok) := by
    intro u pc pc' hu hpc
    have hut : u ≠ t := by
      rintro rfl
      exact hpc (Option.some.inj (hu.symm.trans h))
    exact (List.getElem?_set_ne hut).trans h
  cases did_of_step hs with
  | register => exact Tasks.spawn_old h _
  | pushed hpc | full hpc | notify hpc | spawn hpc => exact hmove _ hpc (by simp)
  | die | acquire | acquired | empty | permit | suspend | wake | leaveLock | leaveWait => exact h

namespace Gateway

section Leaving

variable {s s' : Gateway} {t : TunnelId} {action : GatewayAction}

theorem returned_step {ok : Bool} (h : s.pool.registers[t]? = some (.returned ok))
    (hs : s.step action = some s') : s'.pool.registers[t]? = some (.returned ok) := by
  rcases pool_of_step hs with heq | ⟨b, hb⟩
  · rw [heq, h]
  · exact PoolState.returned_step h hb

/-- What a step did to the task of a tunnel: a step of the task, its last one, or nothing but a
change of its slot. -/
inductive Moved (s s' : Gateway) (t : TunnelId) (m m' : Manager) : GatewayAction → Prop where
  | step {b : ManagerAction} (h : m.Did b m') : Moved s s' t m m' (.manager t b)
  | finish (h : answers s.responses t m = some s'.responses) (hend : m'.pc = .ended) :
      Moved s s' t m m' (.finish t)
  | other {action : GatewayAction} (hstep : ∀ b, action ≠ .manager t b)
      (hfinish : action ≠ .finish t) (hpc : m'.pc = m.pc) : Moved s s' t m m' action

variable {m : Manager}

theorem manager_of_step (hs : s.step action = some s') (hm : s.managers[t]? = some m) :
    ∃ m', s'.managers[t]? = some m' ∧ Moved s s' t m m' action := by
  cases did_of_step hs with
  | tunnel => exact ⟨m, Tasks.spawn_old hm _, .other (by simp) (by simp) rfl⟩
  | accept | pool | candidate | noCandidate | receive =>
      exact ⟨m, hm, .other (by simp) (by simp) rfl⟩
  | refused | noStream | expire =>
      exact ⟨m, (managers_retry s _ _).symm ▸ hm, .other (by simp) (by simp) rfl⟩
  | @manager u b m₀ m' _ hu hstep =>
      simp only [Tasks.getElem?_replace hu]
      split_ifs with hut
      · subst hut
        cases hu.symm.trans hm
        exact ⟨m', rfl, .step (Manager.did_of_step hstep)⟩
      · exact ⟨m, hm, .other (by simp [hut]) (by simp) rfl⟩
  | @finish u m₀ _ hu hanswers =>
      simp only [Tasks.getElem?_replace hu]
      split_ifs with hut
      · subst hut
        cases hu.symm.trans hm
        exact ⟨_, rfl, .finish hanswers rfl⟩
      · exact ⟨m, hm, .other (by simp) (by simp [hut]) rfl⟩
  | @send p conn u m₀ _ _ hu =>
      simp only [Tasks.getElem?_replace hu]
      split_ifs with hut
      · subst hut
        cases hu.symm.trans hm
        exact ⟨_, rfl, .other (by simp) (by simp) rfl⟩
      · exact ⟨m, hm, .other (by simp) (by simp) rfl⟩

/-- A task of a tunnel that was not there before is not spawned yet. -/
theorem manager_new (hs : s.step action = some s') (hnone : s.managers[t]? = none)
    (hm : s'.managers[t]? = some m) : m.pc = .unspawned := by
  have hset : ∀ (u : TunnelId) (m' : Manager), (s.managers.set u m')[t]? ≠ some m := by
    intro u m' h
    have hlt := Tasks.lt_length h
    rw [List.length_set] at hlt
    exact absurd (List.getElem?_eq_none_iff.mp hnone) (Nat.not_le_of_lt hlt)
  cases did_of_step hs with
  | tunnel =>
      rcases Tasks.of_spawn hm with rfl | hm
      · rfl
      · cases hnone.symm.trans hm
  | accept | pool | candidate | noCandidate | receive => cases hnone.symm.trans hm
  | refused | noStream | expire =>
      rw [managers_retry] at hm
      cases hnone.symm.trans hm
  | manager | finish | send => exact absurd hm (hset _ _)

/-- A task that was spawned belongs to a `register` call that returned `true`. -/
def Spawned (s : Gateway) : Prop :=
  ∀ (t : TunnelId) (m : Manager), s.managers[t]? = some m → m.pc ≠ .unspawned →
    s.pool.registers[t]? = some (.returned true)

theorem spawned_new (capacity : Nat) : (new capacity).Spawned := by
  intro t m hm
  simp [new] at hm

theorem Spawned.step (h : s.Spawned) (hs : s.step action = some s') : s'.Spawned := by
  intro t m' hm' hpc'
  cases hm : s.managers[t]? with
  | none => exact absurd (manager_new hs hm hm') hpc'
  | some m =>
      obtain ⟨m₁, hm₁, hmoved⟩ := manager_of_step hs hm
      cases hm₁.symm.trans hm'
      have hold : m.pc ≠ .unspawned → s'.pool.registers[t]? = some (.returned true) :=
        fun hpc => returned_step (h t m hm hpc) hs
      cases hmoved with
      | step hdid =>
          cases hdid with
          | spawn =>
              cases did_of_step hs with
              | @manager _ _ _ _ pool _ _ hpool =>
                  have hspawn : s.pool.step (.spawn t) = some pool := hpool
                  cases PoolState.did_of_step hspawn with
                  | spawn hreg => exact Tasks.replace_self hreg _
          | recv hpc | tick hpc | pong hpc | noPong hpc | ready hpc | clear hpc
          | clearBroken hpc => exact hold (by rw [hpc]; simp)
      | finish hanswers =>
          refine hold fun hpc => ?_
          simp [answers, hpc] at hanswers
      | other _ _ hpc => exact hold (hpc ▸ hpc')

/-- **Progress**: a task that has left its loop and has not ended can make a step. -/
theorem Spawned.enabled (h : s.Spawned) (hm : s.managers[t]? = some m) (hpc : m.pc.Leaving)
    (hopen : m.pc ≠ .ended) :
    (∃ b s', s.step (.manager t b) = some s') ∨ ∃ s', s.step (.finish t) = some s' := by
  have hreg : m.pc ≠ .unspawned → s.pool.registers[t]? = some (.returned true) := h t m hm
  obtain ⟨slot, pc⟩ := m
  cases pc with
  | unspawned | select | pinging => exact hpc.elim
  | ended => exact absurd rfl hopen
  | activating call =>
      left
      refine ⟨.ready .timedOut, ?_⟩
      simp [Gateway.step, hm, Manager.step, ManagerAction.onPool, PoolState.perform]
  | activated call result | broken =>
      left
      refine ⟨.clear, ?_⟩
      simp [Gateway.step, hm, Manager.step, ManagerAction.onPool, PoolState.perform, PoolState.step,
        hreg (by simp)]
  | answering call result | stopped =>
      right
      simp [Gateway.step, hm, answers]

/-! ### A stream that goes to nobody -/

/-- The task of the tunnel has left its loop, and nobody has its stream or will have it. -/
structure Deserted (s : Gateway) (t : TunnelId) : Prop where
  task : ∃ m, s.managers[t]? = some m ∧ m.Deserted s.responses
  unsent : ∀ p, ¬ s.SentTo t p

/-- Decided by a look at every public connection. -/
theorem deserted_iff {s : Gateway} {t : TunnelId} :
    (∃ m ∈ s.managers[t]?, m.Deserted s.responses) ∧
      (∀ conn ∈ s.publics, ¬ (conn.pc = .forwarding t ∨
        (conn.pc = .awaiting ∧ s.responses[conn.call]? = some (.sent (.ok t))))) ↔
    s.Deserted t := by
  refine ⟨fun h => ⟨h.1, ?_⟩, fun h => ⟨h.task, fun conn hconn hsent => ?_⟩⟩
  · rintro p ⟨conn, hconn, hsent⟩
    exact h.2 conn (List.mem_of_getElem? hconn) hsent
  · obtain ⟨p, hp⟩ := List.getElem?_of_mem hconn
    exact h.unsent p ⟨conn, hp, hsent⟩

instance (s : Gateway) (t : TunnelId) : Decidable (s.Deserted t) :=
  decidable_of_iff _ deserted_iff

theorem sent_of_dropSlot {responses : List (Oneshot AssignmentResult)} {c : AcquireId}
    {result : AssignmentResult} (h : (dropSlot responses m)[c]? = some (.sent result)) :
    responses[c]? = some (.sent result) := by
  unfold dropSlot at h
  split at h
  · rw [Tasks.getElem?_modified] at h
    split_ifs at h
    · obtain ⟨channel, hchannel, hsent⟩ := Option.map_eq_some_iff.mp h
      rw [hchannel, Oneshot.dropSender_eq_sent_iff.mp hsent]
    · exact h
  · exact h

/-- The last step of such a task sends its stream to nobody. -/
theorem sent_of_deserted {responses responses' : List (Oneshot AssignmentResult)} {c : AcquireId}
    (h : m.Deserted responses) (hanswers : answers responses t m = some responses')
    (hc : responses'[c]? = some (.sent (.ok t))) : responses[c]? = some (.sent (.ok t)) := by
  unfold answers at hanswers
  split at hanswers
  · rename_i call result hpc
    cases hanswers
    rw [Tasks.getElem?_modified] at hc
    split_ifs at hc with hcall
    · subst hcall
      obtain ⟨channel, hchannel, hsent⟩ := Option.map_eq_some_iff.mp hc
      rcases Oneshot.send_eq_sent_iff.mp hsent with rfl | ⟨rfl, hok⟩
      · exact sent_of_dropSlot hchannel
      · -- the channel was open, so the activation failed
        simp only [Manager.Deserted, hpc] at h
        rcases h with ⟨error, rfl⟩ | hclosed
        · cases hok
        · obtain ⟨f, hf, hget⟩ := dropSlot_get responses t m call
          rw [hget, hclosed, Option.map_some, hf.closed] at hchannel
          cases hchannel
    · exact sent_of_dropSlot hc
  · cases hanswers
    exact sent_of_dropSlot hc
  · cases hanswers

/-- **A deserted tunnel stays so**: its stream goes to nobody. -/
theorem Deserted.step (h : s.Deserted t) (ha : s.Assigned) (hs : s.step action = some s') :
    s'.Deserted t := by
  obtain ⟨⟨m, hm, hdeserted⟩, hunsent⟩ := h
  obtain ⟨m', hm', hmoved⟩ := manager_of_step hs hm
  have hclosed : ∀ call : AcquireId, s.responses[call]? = some .closed →
      s'.responses[call]? = some .closed := fun _ hc => closed_step hc hs
  refine ⟨⟨m', hm', ?_⟩, fun p hsent => ?_⟩
  · cases hmoved with
    | step hdid => exact (hdeserted.mono rfl hclosed).step hdid
    | finish _ hend => simp [Manager.Deserted, hend]
    | other _ _ hpc => exact hdeserted.mono hpc hclosed
  · refine hunsent p (ha.sentTo_of_unsent hs (fun call hr => ?_) hsent)
    rcases sent_of_step hs hr with hold | ⟨m₀, hm₀, hanswers⟩
    · exact hold
    · cases hm.symm.trans hm₀
      exact sent_of_deserted hdeserted hanswers hr

end Leaving

end Gateway

end SingBoxMini.NatTunnel
