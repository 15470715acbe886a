import SingBoxMini.NatTunnel.Pool

/-!
# NAT tunnel — Pool — Wake-ups

Whether an `acquire` call can sleep while a live tunnel is in the queue and nobody is about to wake
it.

A tunnel in the queue needs somebody who will look at the queue: a call about to lock it, a woken
call, a stored permit, or a `register` call before its `notify_one` (`tickets`).  A notification
that is lost takes a ticket away.

* `lost_wakeup`: two `acquire` calls in the gap and two `register` calls.  The second `notify_one`
  finds the permit stored, and one of the two calls sleeps.
* `no_lost_wakeup`: no call sleeps so in a run that loses no notification somebody needs.
-/

namespace SingBoxMini.NatTunnel
open Runs

/-- The steps of `register` and `acquire` calls under way.  New calls, deaths of tunnels and the
end of the 30 s are not among them. -/
def PoolAction.OfCall : PoolAction → Prop
  | .push _ _ | .notify _ | .spawn _ | .pop _ _ | .poll _ => True
  | _ => False

namespace PoolState

/-- No call has an enabled step. -/
def Quiet (s : PoolState) : Prop := ∀ action : PoolAction, action.OfCall → s.step action = none

/-- **A stalled pool**: nothing moves, a call is suspended on its `Notified`, and the queue holds a
live tunnel. -/
def Stalled (s : PoolState) : Prop :=
  s.Quiet ∧ (∃ a : AcquireId, s.acquires[a]? = some .waiting) ∧
    ∃ t ∈ s.pool.idle, s.isAlive t = true

/-- Somebody needs a notification: a call waits, or more calls are in the gap than the permit
serves. -/
def Needed (s : PoolState) : Prop := s.pool.available.Wanted (s.acquires.count .gap)

/-- The step loses a notification: `notify_one` or the drop of a woken `Notified` while the permit
is stored, or a call that gives up on the lock, which may have used one to get there. -/
def Loses (s : PoolState) : PoolAction → Prop
  | .notify _ => s.pool.available.Lossy
  | .timeout a => s.acquires[a]? = some .locking ∨
      (a ∈ s.pool.available.woken ∧ s.pool.available.Lossy)
  | _ => False

/-- The step loses no notification that somebody needs. -/
def KeepsWakeups (s : PoolState) (action : PoolAction) : Prop := ¬ (s.Loses action ∧ s.Needed)

instance (s : PoolState) : (action : PoolAction) → Decidable (s.Loses action)
  | .notify _ => inferInstanceAs (Decidable (Notify.Lossy _))
  | .timeout _ => inferInstanceAs (Decidable (_ ∨ (_ ∧ Notify.Lossy _)))
  | .register | .push _ _ | .spawn _ | .die _ | .acquire | .pop _ _ | .poll _ => isFalse id

instance (s : PoolState) : Decidable s.Needed := inferInstanceAs (Decidable (Notify.Wanted _ _))

instance (s : PoolState) (action : PoolAction) : Decidable (s.KeepsWakeups action) :=
  inferInstanceAs (Decidable (¬ (_ ∧ _)))

/-! ### A lost wake-up -/

/-- Every call has returned or is suspended, and none was woken. -/
def Settled (s : PoolState) : Prop :=
  (∀ pc ∈ s.registers, pc = .returned true ∨ pc = .returned false) ∧
    (∀ pc ∈ s.acquires, pc ≠ .locking ∧ pc ≠ .gap) ∧ s.pool.available.woken = []
deriving Decidable

theorem Settled.quiet {s : PoolState} (h : s.Settled) : s.Quiet := by
  obtain ⟨hreg, hacq, hwoken⟩ := h
  have hreg' : ∀ {t : TunnelId} {pc : RegisterPc}, s.registers[t]? = some pc →
      pc = .returned true ∨ pc = .returned false := fun ht => hreg _ (List.mem_of_getElem? ht)
  have hacq' : ∀ {a : AcquireId} {pc : AcquirePc}, s.acquires[a]? = some pc →
      pc ≠ .locking ∧ pc ≠ .gap := fun ha => hacq _ (List.mem_of_getElem? ha)
  intro action hcall
  cases hstep : s.step action with
  | none => rfl
  | some s' =>
      cases did_of_step hstep with
      | register | die | acquire | leaveLock | leaveWait => cases hcall
      | pushed hpc | full hpc | notify hpc | spawn hpc => rcases hreg' hpc with h | h <;> cases h
      | acquired hpc | empty hpc => exact absurd rfl (hacq' hpc).1
      | permit hpc | suspend hpc => exact absurd rfl (hacq' hpc).2
      | wake _ hw =>
          rw [hwoken] at hw
          cases hw

/-- Both calls see the queue empty; then both tunnels are pushed and both notifications sent. -/
def bothInTheGap : List PoolAction :=
  [.acquire, .acquire, .pop 0 [], .pop 1 [], .register, .register, .push 0 [], .push 1 [],
    .notify 0, .notify 1, .spawn 0, .spawn 1, .poll 0, .pop 0 [], .poll 1]

/-- **A lost wake-up**: call 0 gets a tunnel, call 1 sleeps, and the other tunnel is in the
queue. -/
theorem lost_wakeup : ∃ s, run step (new 4) bothInTheGap = some s ∧ s.Stalled := by
  refine ⟨_, rfl, Settled.quiet (by decide), ⟨1, rfl⟩, 1, by decide, rfl⟩

/-! ### The invariant -/

/-- Who will look at the queue again without a further notification. -/
def tickets (s : PoolState) : Nat :=
  s.pool.available.spare + s.acquires.count .locking + s.registers.count .pushed

/-- **The tickets**: one for each tunnel in the queue, or nobody needs any. -/
structure Ticketed (s : PoolState) : Prop where
  sound : s.pool.available.Sound
  tracks : s.pool.available.Tracks fun a => s.acquires[a]? = some .waiting
  enough : s.Needed → s.pool.idle.length ≤ s.tickets

theorem ticketed_new (capacity : Nat) : (new capacity).Ticketed := by
  refine ⟨fun _ => rfl, Notify.tracks_new.congr fun a => ?_, fun _ => Nat.zero_le _⟩
  simp [new]

theorem Ticketed.sound_step {s s' : PoolState} {action : PoolAction} (h : s.Ticketed)
    (hs : s.step action = some s') : s'.pool.available.Sound := by
  have hsound := h.sound
  cases did_of_step hs with
  | register | spawn | die | acquire | wake | leaveLock => exact hsound
  | pushed _ _ _ havail | full _ _ _ havail | acquired _ _ _ havail | empty _ _ _ havail =>
      exact havail ▸ hsound
  | notify => exact hsound.notifyOne
  | permit => exact fun hp => absurd hp Bool.false_ne_true
  | suspend _ hp => exact fun hp' => absurd (hp.symm.trans hp') Bool.false_ne_true
  | leaveWait => exact hsound.cancel _

section Tracks

variable {s : PoolState}

variable {a : AcquireId} {pc pc' : AcquirePc} {pool : TunnelPool}

theorem waiting_move_iff {b : AcquireId} (hpc : s.acquires[a]? = some pc) :
    (s.toAcquire a pc' pool).acquires[b]? = some .waiting ↔
      if a = b then pc' = .waiting else s.acquires[b]? = some .waiting := by
  rw [toAcquire, Tasks.getElem?_replace hpc]
  split_ifs <;> simp

/-- A call that moves on and is suspended neither before nor after. -/
theorem tracks_move (h : pool.available.Tracks fun b => s.acquires[b]? = some .waiting)
    (hpc : s.acquires[a]? = some pc) (hne : pc ≠ .waiting) (hne' : pc' ≠ .waiting) :
    pool.available.Tracks fun b => (s.toAcquire a pc' pool).acquires[b]? = some .waiting := by
  refine h.congr fun b => ?_
  rw [waiting_move_iff hpc]
  split_ifs with hab
  · subst hab
    simp [hpc, hne, hne']
  · rfl

/-- A call that suspends itself. -/
theorem tracks_suspend (h : pool.available.Tracks fun b => b = a ∨ s.acquires[b]? = some .waiting)
    (hpc : s.acquires[a]? = some pc) :
    pool.available.Tracks fun b => (s.toAcquire a .waiting pool).acquires[b]? = some .waiting := by
  refine h.congr fun b => ?_
  rw [waiting_move_iff hpc]
  split_ifs with hab
  · simp [hab]
  · simp [Ne.symm hab]

/-- A call that moves on from its `Notified`. -/
theorem tracks_leave (h : pool.available.Tracks fun b => b ≠ a ∧ s.acquires[b]? = some .waiting)
    (hpc : s.acquires[a]? = some .waiting) (hne' : pc' ≠ .waiting) :
    pool.available.Tracks fun b => (s.toAcquire a pc' pool).acquires[b]? = some .waiting := by
  refine h.congr fun b => ?_
  rw [waiting_move_iff hpc]
  split_ifs with hab
  · simp [hab, hne']
  · simp [Ne.symm hab]

theorem Ticketed.tracks_step {s' : PoolState} {action : PoolAction} (h : s.Ticketed)
    (hs : s.step action = some s') :
    s'.pool.available.Tracks fun a => s'.acquires[a]? = some .waiting := by
  have htracks := h.tracks
  cases did_of_step hs with
  | register | spawn | die => exact htracks
  | pushed _ _ _ havail | full _ _ _ havail => exact havail ▸ htracks
  | notify => exact htracks.notifyOne
  | acquire =>
      refine htracks.congr fun a => ?_
      rw [acquire, Tasks.getElem?_spawn]
      split_ifs with ha
      · simp [ha]
      · rfl
  | acquired hpc _ _ havail | empty hpc _ _ havail =>
      exact tracks_move (havail ▸ htracks) hpc (by simp) (by simp)
  | permit hpc => exact tracks_move ⟨htracks.nodup, htracks.mem_iff⟩ hpc (by simp) (by simp)
  | suspend hpc => exact tracks_suspend (htracks.join (by simp [hpc])) hpc
  | wake hpc hw =>
      exact tracks_leave (htracks.of_erase (Notify.perm_erase_woken hw)) hpc (by simp)
  | leaveLock hpc => exact tracks_move htracks hpc (by simp) (by simp)
  | leaveWait hpc => exact tracks_leave (htracks.cancel hpc) hpc (by simp)

end Tracks

section Enough

variable {s s' : PoolState}

/-- The tickets after a `register` call moved on. -/
theorem tickets_toRegister {t : TunnelId} {pc : RegisterPc} (hpc : s.registers[t]? = some pc)
    (pc' : RegisterPc) (pool : TunnelPool) :
    (s.toRegister t pc' pool).tickets + s.pool.available.spare + (if pc = .pushed then 1 else 0) =
      s.tickets + pool.available.spare + (if pc' = .pushed then 1 else 0) := by
  have hcount := Tasks.count_replace hpc pc' .pushed
  simp only [tickets, toRegister] at hcount ⊢
  omega

variable {a : AcquireId}

/-- The tickets after an `acquire` call moved on. -/
theorem tickets_toAcquire {pc : AcquirePc} (hpc : s.acquires[a]? = some pc) (pc' : AcquirePc)
    (pool : TunnelPool) :
    (s.toAcquire a pc' pool).tickets + s.pool.available.spare + (if pc = .locking then 1 else 0) =
      s.tickets + pool.available.spare + (if pc' = .locking then 1 else 0) := by
  have hcount := Tasks.count_replace hpc pc' .locking
  simp only [tickets, toAcquire] at hcount ⊢
  omega

/-- Who needs a notification after an `acquire` call moved on, if it is in the gap neither before
nor after. -/
theorem needed_toAcquire_iff {pc pc' : AcquirePc} {pool : TunnelPool}
    (hpc : s.acquires[a]? = some pc) (hne : pc ≠ .gap) (hne' : pc' ≠ .gap) :
    (s.toAcquire a pc' pool).Needed ↔ pool.available.Wanted (s.acquires.count .gap) := by
  have hcount := Tasks.count_replace hpc pc' .gap
  rw [if_neg hne, if_neg hne', Nat.add_zero, Nat.add_zero] at hcount
  rw [Needed, toAcquire, hcount]

/-- The rule for one step: the queue grows by no more than the tickets, and nobody is newly in
need. -/
theorem Ticketed.enough_of (h : s.Ticketed) (hneed : s'.Needed → s.Needed)
    (hle : s'.pool.idle.length + s.tickets ≤ s.pool.idle.length + s'.tickets) :
    s'.Needed → s'.pool.idle.length ≤ s'.tickets := by
  intro hn
  have henough := h.enough (hneed hn)
  omega

/-- A step that loses a notification nobody needs. -/
theorem enough_of_loses {action : PoolAction} (hk : s.KeepsWakeups action) (hl : s.Loses action)
    (hneed : s'.Needed → s.Needed) : s'.Needed → s'.pool.idle.length ≤ s'.tickets :=
  fun hn => absurd ⟨hl, hneed hn⟩ hk

theorem Ticketed.enough_notify {t : TunnelId} (h : s.Ticketed) (hk : s.KeepsWakeups (.notify t))
    (hpc : s.registers[t]? = some .pushed)
    (hs : s' = s.toRegister t .notified (s.withAvailable s.pool.available.notifyOne)) :
    s'.Needed → s'.pool.idle.length ≤ s'.tickets := by
  subst hs
  have hneed : (s.toRegister t .notified (s.withAvailable s.pool.available.notifyOne)).Needed →
      s.Needed := fun hn => by
    by_contra hnot
    exact Notify.not_wanted_notifyOne hnot hn
  by_cases hl : s.pool.available.Lossy
  · exact enough_of_loses hk hl hneed
  · refine h.enough_of hneed ?_
    have htickets := tickets_toRegister hpc .notified (s.withAvailable s.pool.available.notifyOne)
    simp only [withAvailable_available, Notify.spare_notifyOne, if_neg hl, if_true, reduceCtorEq,
      if_false] at htickets
    simp only [toRegister_pool, withAvailable_idle]
    omega

/-- A call in the gap takes the permit. -/
theorem Ticketed.enough_permit (h : s.Ticketed) (hpc : s.acquires[a]? = some .gap)
    (hp : s.pool.available.permit = true) (hs : s' = s.toAcquire a .locking
      (s.withAvailable { s.pool.available with permit := false })) :
    s'.Needed → s'.pool.idle.length ≤ s'.tickets := by
  subst hs
  refine h.enough_of ?_ ?_
  · have hcount := Tasks.count_replace hpc .locking .gap
    simp only [if_true, reduceCtorEq, if_false] at hcount
    simp only [Needed, Notify.Wanted, toAcquire, withAvailable_available, hp, Bool.toNat_true,
      Bool.toNat_false]
    rintro (hw | hgap)
    · exact .inl hw
    · exact .inr (by omega)
  · have htickets := tickets_toAcquire hpc .locking
      (s.withAvailable { s.pool.available with permit := false })
    simp only [withAvailable_available, Notify.spare, hp, Bool.toNat_true, Bool.toNat_false,
      if_true, reduceCtorEq, if_false] at htickets
    simp only [toAcquire_pool, withAvailable_idle]
    omega

/-- A call in the gap that finds no permit needs a notification itself. -/
theorem Ticketed.enough_suspend (h : s.Ticketed) (hpc : s.acquires[a]? = some .gap)
    (hp : s.pool.available.permit = false) (hs : s' = s.toAcquire a .waiting
      (s.withAvailable { s.pool.available with waiting := s.pool.available.waiting ++ [a] })) :
    s'.Needed → s'.pool.idle.length ≤ s'.tickets := by
  subst hs
  have hneeded : s.Needed := by
    refine .inr ?_
    rw [hp]
    exact List.count_pos_iff.mpr (List.mem_of_getElem? hpc)
  refine h.enough_of (fun _ => hneeded) ?_
  have htickets := tickets_toAcquire hpc .waiting
    (s.withAvailable { s.pool.available with waiting := s.pool.available.waiting ++ [a] })
  simp only [withAvailable_available, Notify.spare, reduceCtorEq, if_false] at htickets
  simp only [toAcquire_pool, withAvailable_idle]
  omega

/-- A woken call uses its notification to look at the queue. -/
theorem Ticketed.enough_wake (h : s.Ticketed) (hpc : s.acquires[a]? = some .waiting)
    (hw : a ∈ s.pool.available.woken) (hs : s' = s.toAcquire a .locking
      (s.withAvailable { s.pool.available with woken := s.pool.available.woken.erase a })) :
    s'.Needed → s'.pool.idle.length ≤ s'.tickets := by
  subst hs
  refine h.enough_of ?_ ?_
  · rw [needed_toAcquire_iff hpc (by simp) (by simp)]
    exact id
  · have htickets := tickets_toAcquire hpc .locking
      (s.withAvailable { s.pool.available with woken := s.pool.available.woken.erase a })
    have hspare := Notify.spare_erase_woken hw
    simp only [withAvailable_available, if_true, reduceCtorEq, if_false] at htickets
    simp only [toAcquire_pool, withAvailable_idle]
    omega

/-- A call that gives up waiting passes on the notification it was given, if it was given one. -/
theorem Ticketed.enough_leaveWait (h : s.Ticketed) (hk : s.KeepsWakeups (.timeout a))
    (hpc : s.acquires[a]? = some .waiting)
    (hs : s' = s.toAcquire a .timedOut (s.withAvailable (s.pool.available.cancel a))) :
    s'.Needed → s'.pool.idle.length ≤ s'.tickets := by
  subst hs
  have htickets := tickets_toAcquire hpc .timedOut (s.withAvailable (s.pool.available.cancel a))
  simp only [withAvailable_available, reduceCtorEq, if_false] at htickets
  by_cases hw : a ∈ s.pool.available.woken
  · have hneed : (s.toAcquire a .timedOut (s.withAvailable (s.pool.available.cancel a))).Needed →
        s.Needed := fun hn => by
      rw [needed_toAcquire_iff hpc (by simp) (by simp)] at hn
      by_contra hnot
      exact Notify.not_wanted_cancel hw hnot hn
    by_cases hl : s.pool.available.Lossy
    · exact enough_of_loses hk (.inr ⟨hw, hl⟩) hneed
    · refine h.enough_of hneed ?_
      rw [Notify.spare_cancel hw hl] at htickets
      simp only [toAcquire_pool, withAvailable_idle]
      omega
  · -- the call was not woken, so it waits, and that needs a notification
    have hmem := (List.mem_append.mp ((h.tracks.mem_iff a).mpr hpc)).resolve_right hw
    refine h.enough_of (fun _ => .inl (List.ne_nil_of_mem hmem)) ?_
    rw [Notify.cancel, if_neg hw] at htickets ⊢
    simp only [Notify.spare] at htickets
    simp only [toAcquire_pool, withAvailable_idle]
    omega

theorem Ticketed.enough_step {action : PoolAction} (h : s.Ticketed)
    (hk : s.KeepsWakeups action) (hs : s.step action = some s') :
    s'.Needed → s'.pool.idle.length ≤ s'.tickets := by
  cases did_of_step hs with
  | register =>
      refine h.enough_of id ?_
      simp [register, tickets]
  | @pushed t stale pool hpc _ hidle havail =>
      refine h.enough_of (by simp [Needed, toRegister, havail]) ?_
      have htickets := tickets_toRegister hpc .pushed pool
      have hfilter := List.length_filter_le (s.reads stale) s.pool.idle
      simp only [havail, if_true, reduceCtorEq, if_false] at htickets
      simp only [toRegister_pool, hidle, List.length_append, List.length_singleton]
      omega
  | @full t stale pool hpc _ hidle havail =>
      refine h.enough_of (by simp [Needed, toRegister, havail]) ?_
      have htickets := tickets_toRegister hpc (.returned false) pool
      have hfilter := List.length_filter_le (s.reads stale) s.pool.idle
      simp only [havail, reduceCtorEq, if_false] at htickets
      simp only [toRegister_pool, hidle]
      omega
  | notify hpc => exact h.enough_notify hk hpc rfl
  | spawn hpc =>
      refine h.enough_of id ?_
      have htickets := tickets_toRegister hpc (.returned true) s.pool
      simp only [reduceCtorEq, if_false] at htickets
      simp only [toRegister_pool]
      omega
  | die => exact h.enough
  | acquire =>
      refine h.enough_of (by simp [Needed, acquire]) ?_
      simp only [acquire, tickets, Tasks.count_spawn]
      omega
  | @acquired a stale t pool hpc _ hidle havail =>
      refine h.enough_of (by rw [needed_toAcquire_iff hpc (by simp) (by simp), havail]; exact id) ?_
      have htickets := tickets_toAcquire hpc (.acquired t) pool
      have hfilter := List.length_filter_le (s.reads stale) s.pool.idle
      simp only [havail, if_true, reduceCtorEq, if_false] at htickets
      rw [hidle, List.length_cons] at hfilter
      simp only [toAcquire_pool]
      omega
  | empty _ _ hidle _ =>
      intro _
      simp [hidle]
  | permit hpc hp => exact h.enough_permit hpc hp rfl
  | suspend hpc hp => exact h.enough_suspend hpc hp rfl
  | wake hpc hw => exact h.enough_wake hpc hw rfl
  | leaveLock hpc =>
      refine enough_of_loses hk (.inl hpc) ?_
      rw [needed_toAcquire_iff hpc (by simp) (by simp)]
      exact id
  | leaveWait hpc => exact h.enough_leaveWait hk hpc rfl

end Enough

theorem Ticketed.step {s s' : PoolState} {action : PoolAction} (h : s.Ticketed)
    (hk : s.KeepsWakeups action) (hs : s.step action = some s') : s'.Ticketed :=
  ⟨h.sound_step hs, h.tracks_step hs, h.enough_step hk hs⟩

/-! ### No call sleeps beside a live tunnel -/

section Quiet

variable {s : PoolState}

theorem Quiet.not_pushed (hq : s.Quiet) (t : TunnelId) : s.registers[t]? ≠ some .pushed := by
  intro ht
  have hnotify := hq (.notify t) trivial
  simp only [step, ht, if_true] at hnotify
  cases hnotify

theorem Quiet.not_locking (hq : s.Quiet) (a : AcquireId) : s.acquires[a]? ≠ some .locking := by
  intro ha
  have hpop := hq (.pop a []) trivial
  simp only [step, ha, if_true] at hpop
  split at hpop <;> cases hpop

theorem Quiet.not_woken (hq : s.Quiet) {a : AcquireId} (ha : s.acquires[a]? = some .waiting) :
    a ∉ s.pool.available.woken := by
  intro hw
  have hpoll := hq (.poll a) trivial
  simp only [step, ha, Notify.rePoll, if_pos hw, Option.map_some] at hpoll
  cases hpoll

/-- A quiet pool in which a call waits has no tickets left. -/
theorem Ticketed.tickets_eq_zero (h : s.Ticketed) (hq : s.Quiet)
    (hw : s.pool.available.waiting ≠ []) : s.tickets = 0 := by
  have hpermit : s.pool.available.permit = false :=
    Bool.eq_false_iff.mpr fun hp => hw (h.sound hp)
  have hwoken : s.pool.available.woken = [] := by
    refine List.eq_nil_iff_forall_not_mem.mpr fun a ha => ?_
    exact hq.not_woken ((h.tracks.mem_iff a).mp (List.mem_append_right _ ha)) ha
  rw [tickets, Notify.spare, hpermit, hwoken, Tasks.count_eq_zero hq.not_locking,
    Tasks.count_eq_zero hq.not_pushed]
  rfl

end Quiet

/-- **No lost wake-up**: in a run that loses no notification somebody needs, no call sleeps while a
live tunnel is in the queue and nobody is about to move. -/
theorem no_lost_wakeup {capacity : Nat} {s : PoolState}
    (h : Reaches step KeepsWakeups (new capacity) s) : ¬ s.Stalled := by
  have hinv : s.Ticketed := h.invariant (ticketed_new capacity)
    fun _ _ _ hs hk hstep => hs.step hk hstep
  rintro ⟨hq, ⟨a, ha⟩, t, ht, -⟩
  have hwaiting : a ∈ s.pool.available.waiting :=
    (List.mem_append.mp ((hinv.tracks.mem_iff a).mpr ha)).resolve_right (hq.not_woken ha)
  have hne := List.ne_nil_of_mem hwaiting
  have henough := hinv.enough (.inl hne)
  rw [hinv.tickets_eq_zero hq hne] at henough
  exact Nat.not_lt.mpr henough (List.length_pos_of_mem ht)

/-- Both calls are suspended before the tunnels are pushed, and both are woken. -/
def bothSuspended : List PoolAction :=
  [.acquire, .acquire, .pop 0 [], .poll 0, .pop 1 [], .poll 1, .register, .register, .push 0 [],
    .push 1 [], .notify 0, .notify 1, .spawn 0, .spawn 1, .poll 0, .pop 0 []]

theorem no_lost_wakeup_both_suspended :
    ∃ s, run step (new 4) bothSuspended = some s ∧ ¬ s.Stalled := by
  have h : Reaches step KeepsWakeups (new 4) _ := reaches_of_run bothSuspended .refl rfl
  exact ⟨_, rfl, no_lost_wakeup h⟩

end PoolState

end SingBoxMini.NatTunnel
