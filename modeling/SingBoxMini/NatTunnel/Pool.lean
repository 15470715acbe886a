import Mathlib.Data.List.Nodup
import SingBoxMini.Support.Notify
import SingBoxMini.Support.Runs
import SingBoxMini.Support.Tasks

/-!
# NAT tunnel — Pool

`TunnelPool` (`nat_tunnel.rs`) with any number of `register` and `acquire` calls, as atomic steps.

* What a call does between locking and unlocking `idle` is one step: nothing is awaited there.  The
  `alive` flags are read one after the other meanwhile and may be cleared meanwhile, so a step comes
  with the tunnels whose flag it read just before that (`stale`).
* The `Notified` of an `acquire` call joins the waiters at its first poll, after the lock was
  released: between them lies the gap.
* The 30 s of an `acquire` call can end wherever it is suspended: on the lock or on the `Notified`.

Main results: `did_of_step` says once what each step can do, and in every run a tunnel is handed to
at most one `acquire` call (`handed_of_reaches`).
-/

namespace SingBoxMini.NatTunnel

/-- A `register` call, and the tunnel it is about. -/
abbrev TunnelId := Nat

/-- An `acquire` call. -/
abbrev AcquireId := Nat

/-- `TunnelPool`; the queue never holds more than `capacity` tunnels. -/
structure TunnelPool where
  capacity : Nat
  idle : List TunnelId
  available : Notify AcquireId
  length_idle : idle.length ≤ capacity
deriving DecidableEq

namespace TunnelPool

/-- `TunnelPool::new` -/
def new (capacity : Nat) : TunnelPool := ⟨capacity, [], .new, Nat.zero_le _⟩

/-- `register` under the lock, with the flags it reads; `false` if the pool is full. -/
def offer (pool : TunnelPool) (alive : TunnelId → Bool) (t : TunnelId) : Bool × TunnelPool :=
  if h : (pool.idle.filter alive).length ≥ pool.capacity then
    (false, { pool with
      idle := pool.idle.filter alive
      length_idle := Nat.le_trans (List.length_filter_le _ _) pool.length_idle })
  else
    (true, { pool with
      idle := pool.idle.filter alive ++ [t]
      length_idle := by rw [List.length_append]; exact Nat.lt_of_not_le h })

/-- `acquire` under the lock, with the flags it reads. -/
def take (pool : TunnelPool) (alive : TunnelId → Bool) : Option TunnelId × TunnelPool :=
  ((pool.idle.filter alive).head?, { pool with
    idle := (pool.idle.filter alive).tail
    length_idle := by
      have hfilter := List.length_filter_le alive pool.idle
      rw [List.length_tail]
      exact Nat.le_trans (Nat.sub_le _ _) (Nat.le_trans hfilter pool.length_idle) })

end TunnelPool

/-- Where a `register` call is: about to lock the queue; after its push, before `notify_one`; before
it spawns `manage_idle_tunnel`; returned. -/
inductive RegisterPc where
  | locking
  | pushed
  | notified
  | returned (ok : Bool)
deriving DecidableEq

/-- Where an `acquire` call is: with a new `Notified`, about to lock the queue; after it saw the
queue empty, about to poll the `Notified`; suspended on it; returned. -/
inductive AcquirePc where
  | locking
  | gap
  | waiting
  | acquired (t : TunnelId)
  | timedOut
deriving DecidableEq

/-- The pool, the `alive` flags of the tunnels, and the calls. -/
structure PoolState where
  pool : TunnelPool
  alive : List Bool
  registers : List RegisterPc
  acquires : List AcquirePc
deriving DecidableEq

/-- The steps of the calls. -/
inductive PoolAction where
  /-- A new call of `register`. -/
  | register
  /-- `register` under the lock. -/
  | push (t : TunnelId) (stale : List TunnelId)
  | notify (t : TunnelId)
  /-- `tokio::spawn(manage_idle_tunnel(..))` -/
  | spawn (t : TunnelId)
  /-- `manage_idle_tunnel` clears the `alive` flag. -/
  | die (t : TunnelId)
  /-- A new call of `acquire`. -/
  | acquire
  /-- `acquire` under the lock. -/
  | pop (a : AcquireId) (stale : List TunnelId)
  /-- A poll of the `Notified`. -/
  | poll (a : AcquireId)
  /-- The end of the 30 s. -/
  | timeout (a : AcquireId)
deriving DecidableEq

namespace PoolState

/-- A pool before any call. -/
def new (capacity : Nat) : PoolState := ⟨.new capacity, [], [], []⟩

/-- The `alive` flag of a tunnel. -/
def isAlive (s : PoolState) (t : TunnelId) : Bool := s.alive[t]?.getD false

/-- The flags a call reads under the lock. -/
def reads (s : PoolState) (stale : List TunnelId) (t : TunnelId) : Bool :=
  s.isAlive t || stale.contains t

/-- A new call of `register`, with a live handle. -/
def register (s : PoolState) : PoolState :=
  { s with alive := s.alive ++ [true], registers := s.registers ++ [.locking] }

/-- A new call of `acquire`. -/
def acquire (s : PoolState) : PoolState := { s with acquires := s.acquires ++ [.locking] }

/-- A `register` call moves on. -/
def toRegister (s : PoolState) (t : TunnelId) (pc : RegisterPc) (pool : TunnelPool) : PoolState :=
  { s with pool, registers := s.registers.set t pc }

/-- An `acquire` call moves on. -/
def toAcquire (s : PoolState) (a : AcquireId) (pc : AcquirePc) (pool : TunnelPool) : PoolState :=
  { s with pool, acquires := s.acquires.set a pc }

@[simp] theorem toRegister_pool (s : PoolState) (t : TunnelId) (pc : RegisterPc)
    (pool : TunnelPool) :
    (s.toRegister t pc pool).pool = pool := rfl

@[simp] theorem toAcquire_pool (s : PoolState) (a : AcquireId) (pc : AcquirePc)
    (pool : TunnelPool) :
    (s.toAcquire a pc pool).pool = pool := rfl

/-- The pool with another state of its `Notify`. -/
def withAvailable (s : PoolState) (n : Notify AcquireId) : TunnelPool :=
  { s.pool with available := n }

@[simp] theorem withAvailable_idle (s : PoolState) (n : Notify AcquireId) :
    (s.withAvailable n).idle = s.pool.idle := rfl

@[simp] theorem withAvailable_available (s : PoolState) (n : Notify AcquireId) :
    (s.withAvailable n).available = n := rfl

/-- The step an action makes, if it is enabled. -/
def step (s : PoolState) : PoolAction → Option PoolState
  | .register => some s.register
  | .push t stale =>
    if s.registers[t]? = some .locking then
      match s.pool.offer (s.reads stale) t with
      | (true, pool) => some (s.toRegister t .pushed pool)
      | (false, pool) => some (s.toRegister t (.returned false) pool)
    else none
  | .notify t =>
    if s.registers[t]? = some .pushed then
      some (s.toRegister t .notified (s.withAvailable s.pool.available.notifyOne))
    else none
  | .spawn t =>
    if s.registers[t]? = some .notified then some (s.toRegister t (.returned true) s.pool) else none
  | .die t =>
    if s.registers[t]? = some (.returned true) then some { s with alive := s.alive.set t false }
    else none
  | .acquire => some s.acquire
  | .pop a stale =>
    if s.acquires[a]? = some .locking then
      match s.pool.take (s.reads stale) with
      | (some t, pool) => some (s.toAcquire a (.acquired t) pool)
      | (none, pool) => some (s.toAcquire a .gap pool)
    else none
  | .poll a =>
    match s.acquires[a]? with
    | some .gap =>
      -- a stored permit makes the `Notified` ready at once, and the loop goes round
      match s.pool.available.firstPoll a with
      | (true, n) => some (s.toAcquire a .locking (s.withAvailable n))
      | (false, n) => some (s.toAcquire a .waiting (s.withAvailable n))
    | some .waiting =>
      (s.pool.available.rePoll a).map fun n => s.toAcquire a .locking (s.withAvailable n)
    | _ => none
  | .timeout a =>
    match s.acquires[a]? with
    -- a `Notified` that was never polled leaves without a trace
    | some .locking => some (s.toAcquire a .timedOut s.pool)
    | some .waiting =>
      some (s.toAcquire a .timedOut (s.withAvailable (s.pool.available.cancel a)))
    | _ => none

/-! ### What a step can do -/

/-- **The steps, one by one**, with their guards. -/
inductive Did (s : PoolState) : PoolAction → PoolState → Prop where
  | register : Did s .register s.register
  | pushed {t : TunnelId} {stale : List TunnelId} {pool : TunnelPool}
      (h : s.registers[t]? = some .locking) (hcap : pool.capacity = s.pool.capacity)
      (hidle : pool.idle = s.pool.idle.filter (s.reads stale) ++ [t])
      (havail : pool.available = s.pool.available) :
      Did s (.push t stale) (s.toRegister t .pushed pool)
  | full {t : TunnelId} {stale : List TunnelId} {pool : TunnelPool}
      (h : s.registers[t]? = some .locking) (hcap : pool.capacity = s.pool.capacity)
      (hidle : pool.idle = s.pool.idle.filter (s.reads stale))
      (havail : pool.available = s.pool.available) :
      Did s (.push t stale) (s.toRegister t (.returned false) pool)
  | notify {t : TunnelId} (h : s.registers[t]? = some .pushed) : Did s (.notify t)
      (s.toRegister t .notified (s.withAvailable s.pool.available.notifyOne))
  | spawn {t : TunnelId} (h : s.registers[t]? = some .notified) :
      Did s (.spawn t) (s.toRegister t (.returned true) s.pool)
  | die {t : TunnelId} (h : s.registers[t]? = some (.returned true)) :
      Did s (.die t) { s with alive := s.alive.set t false }
  | acquire : Did s .acquire s.acquire
  | acquired {a : AcquireId} {stale : List TunnelId} {t : TunnelId} {pool : TunnelPool}
      (h : s.acquires[a]? = some .locking) (hcap : pool.capacity = s.pool.capacity)
      (hidle : s.pool.idle.filter (s.reads stale) = t :: pool.idle)
      (havail : pool.available = s.pool.available) :
      Did s (.pop a stale) (s.toAcquire a (.acquired t) pool)
  | empty {a : AcquireId} {stale : List TunnelId} {pool : TunnelPool}
      (h : s.acquires[a]? = some .locking) (hcap : pool.capacity = s.pool.capacity)
      (hidle : pool.idle = []) (havail : pool.available = s.pool.available) :
      Did s (.pop a stale) (s.toAcquire a .gap pool)
  | permit {a : AcquireId} (h : s.acquires[a]? = some .gap)
      (hp : s.pool.available.permit = true) : Did s (.poll a) (s.toAcquire a .locking
        (s.withAvailable { s.pool.available with permit := false }))
  | suspend {a : AcquireId} (h : s.acquires[a]? = some .gap)
      (hp : s.pool.available.permit = false) : Did s (.poll a) (s.toAcquire a .waiting
        (s.withAvailable { s.pool.available with waiting := s.pool.available.waiting ++ [a] }))
  | wake {a : AcquireId} (h : s.acquires[a]? = some .waiting)
      (hw : a ∈ s.pool.available.woken) : Did s (.poll a) (s.toAcquire a .locking
        (s.withAvailable { s.pool.available with woken := s.pool.available.woken.erase a }))
  | leaveLock {a : AcquireId} (h : s.acquires[a]? = some .locking) :
      Did s (.timeout a) (s.toAcquire a .timedOut s.pool)
  | leaveWait {a : AcquireId} (h : s.acquires[a]? = some .waiting) : Did s (.timeout a)
      (s.toAcquire a .timedOut (s.withAvailable (s.pool.available.cancel a)))

variable {s s' : PoolState} {a : AcquireId} {action : PoolAction}

theorem did_of_push {t : TunnelId} {stale : List TunnelId} (h : s.step (.push t stale) = some s') :
    Did s (.push t stale) s' := by
  simp only [step, TunnelPool.offer] at h
  split_ifs at h with hpc hfull
  · cases h
    exact .full hpc rfl rfl rfl
  · cases h
    exact .pushed hpc rfl rfl rfl

theorem did_of_pop {stale : List TunnelId} (h : s.step (.pop a stale) = some s') :
    Did s (.pop a stale) s' := by
  simp only [step, TunnelPool.take] at h
  split_ifs at h with hpc
  cases hidle : s.pool.idle.filter (s.reads stale) with
  | nil =>
      simp only [hidle, List.head?_nil, List.tail_nil] at h
      cases h
      exact .empty hpc rfl rfl rfl
  | cons t rest =>
      simp only [hidle, List.head?_cons, List.tail_cons] at h
      cases h
      exact .acquired hpc rfl hidle rfl

theorem did_of_poll (h : s.step (.poll a) = some s') :
    Did s (.poll a) s' := by
  simp only [step] at h
  split at h
  · rename_i hpc
    by_cases hp : s.pool.available.permit = true
    · simp only [Notify.firstPoll, if_pos hp] at h
      cases h
      exact .permit hpc hp
    · simp only [Notify.firstPoll, if_neg hp] at h
      cases h
      exact .suspend hpc (Bool.eq_false_iff.mpr hp)
  · rename_i hpc
    obtain ⟨n, hn, rfl⟩ := Option.map_eq_some_iff.mp h
    unfold Notify.rePoll at hn
    split_ifs at hn with hw
    cases hn
    exact .wake hpc hw
  · cases h

theorem did_of_timeout (h : s.step (.timeout a) = some s') :
    Did s (.timeout a) s' := by
  simp only [step] at h
  split at h
  · rename_i hpc
    cases h
    exact .leaveLock hpc
  · rename_i hpc
    cases h
    exact .leaveWait hpc
  · cases h

theorem did_of_step (h : s.step action = some s') :
    Did s action s' := by
  cases action with
  | register =>
      cases h
      exact .register
  | push t stale => exact did_of_push h
  | notify t =>
      simp only [step] at h
      split_ifs at h with hpc
      cases h
      exact .notify hpc
  | spawn t =>
      simp only [step] at h
      split_ifs at h with hpc
      cases h
      exact .spawn hpc
  | die t =>
      simp only [step] at h
      split_ifs at h with hpc
      cases h
      exact .die hpc
  | acquire =>
      cases h
      exact .acquire
  | pop a stale => exact did_of_pop h
  | poll a => exact did_of_poll h
  | timeout a => exact did_of_timeout h

/-! ### A tunnel is handed out once -/

/-- The `acquire` call `a` returned the tunnel `t`. -/
def Acquired (s : PoolState) (a : AcquireId) (t : TunnelId) : Prop :=
  s.acquires[a]? = some (.acquired t)

/-- The `register` call is past its push. -/
def Registered (s : PoolState) (t : TunnelId) : Prop :=
  ∃ pc, s.registers[t]? = some pc ∧ pc ≠ .locking

/-- **Who has a tunnel**: the queue, once, or one `acquire` call. -/
structure Handed (s : PoolState) : Prop where
  nodup : s.pool.idle.Nodup
  queued : ∀ t ∈ s.pool.idle, s.Registered t ∧ ∀ a, ¬ s.Acquired a t
  registered : ∀ (a : AcquireId) (t : TunnelId), s.Acquired a t → s.Registered t
  once : ∀ (a b : AcquireId) (t : TunnelId), s.Acquired a t → s.Acquired b t → a = b

theorem handed_new (capacity : Nat) : (new capacity).Handed := by
  constructor <;> simp [new, TunnelPool.new, Acquired]

section Frame

variable {s : PoolState}

variable {t : TunnelId} {pool : TunnelPool} {a : AcquireId}

theorem Registered.spawn (h : s.Registered t) : s.register.Registered t := by
  obtain ⟨pc, hpc, hne⟩ := h
  exact ⟨pc, Tasks.spawn_old hpc _, hne⟩

theorem Registered.move {t' : TunnelId} {pc pc' : RegisterPc} (h : s.Registered t)
    (hpc : s.registers[t']? = some pc) (hne : pc' ≠ .locking) :
    (s.toRegister t' pc' pool).Registered t := by
  by_cases heq : t' = t
  · subst heq
    exact ⟨pc', Tasks.replace_self hpc _, hne⟩
  · obtain ⟨pc₀, hpc₀, hne₀⟩ := h
    exact ⟨pc₀, (List.getElem?_set_ne heq).trans hpc₀, hne₀⟩

theorem acquired_move_iff {b : AcquireId} {pc pc' : AcquirePc} (hpc : s.acquires[a]? = some pc) :
    (s.toAcquire a pc' pool).Acquired b t ↔
      if a = b then pc' = .acquired t else s.Acquired b t := by
  rw [Acquired, toAcquire, Tasks.getElem?_replace hpc]
  split_ifs <;> simp [Acquired]

/-- An `acquire` call that moves on without a tunnel takes none. -/
theorem Acquired.of_move {b : AcquireId} {pc pc' : AcquirePc} (hpc : s.acquires[a]? = some pc)
    (hne : ∀ t, pc' ≠ .acquired t) (h : (s.toAcquire a pc' pool).Acquired b t) :
    s.Acquired b t := by
  rw [acquired_move_iff hpc] at h
  split_ifs at h
  · exact absurd h (hne t)
  · exact h

theorem acquired_spawn_iff :
    s.acquire.Acquired a t ↔ s.Acquired a t := by
  rw [Acquired, acquire, Tasks.getElem?_spawn]
  split_ifs with ha
  · simp [Acquired, ha]
  · rfl

/-- Steps that hand out nothing. -/
theorem Handed.frame {s' : PoolState} (h : s.Handed) (hidle : s'.pool.idle.Sublist s.pool.idle)
    (hreg : ∀ t, s.Registered t → s'.Registered t)
    (hacq : ∀ (a : AcquireId) (t : TunnelId), s'.Acquired a t → s.Acquired a t) : s'.Handed := by
  constructor
  · exact h.nodup.sublist hidle
  · intro t ht
    obtain ⟨hpushed, hfree⟩ := h.queued t (hidle.subset ht)
    exact ⟨hreg t hpushed, fun a ha => hfree a (hacq a t ha)⟩
  · intro a t ha
    exact hreg t (h.registered a t (hacq a t ha))
  · intro a b t ha hb
    exact h.once a b t (hacq a t ha) (hacq b t hb)

/-- The push of a new tunnel. -/
theorem Handed.push {alive : TunnelId → Bool} (h : s.Handed) (hpc : s.registers[t]? = some .locking)
    (hidle : pool.idle = s.pool.idle.filter alive ++ [t]) :
    (s.toRegister t .pushed pool).Handed := by
  have hnew : ¬ s.Registered t := by
    rintro ⟨pc, hpc', hne⟩
    cases hpc.symm.trans hpc'
    exact hne rfl
  have hold : ∀ u, s.Registered u → (s.toRegister t .pushed pool).Registered u :=
    fun u hu => hu.move hpc (by decide)
  have ht : (s.toRegister t .pushed pool).Registered t :=
    ⟨.pushed, Tasks.replace_self hpc _, by decide⟩
  have hmem : ∀ u ∈ s.pool.idle.filter alive, u ∈ s.pool.idle := fun u hu =>
    (List.mem_filter.mp hu).1
  constructor
  · rw [toRegister, hidle, List.nodup_append]
    refine ⟨h.nodup.sublist List.filter_sublist, List.nodup_singleton t, ?_⟩
    intro u hu v hv heq
    rw [List.mem_singleton] at hv
    subst hv heq
    exact hnew (h.queued u (hmem u hu)).1
  · intro u hu
    rw [toRegister, hidle, List.mem_append, List.mem_singleton] at hu
    rcases hu with hu | rfl
    · obtain ⟨hreg, hfree⟩ := h.queued u (hmem u hu)
      exact ⟨hold u hreg, hfree⟩
    · exact ⟨ht, fun a ha => hnew (h.registered a u ha)⟩
  · intro a u ha
    exact hold u (h.registered a u ha)
  · exact h.once

/-- The hand-out of the first tunnel in the queue. -/
theorem Handed.pop {alive : TunnelId → Bool} (h : s.Handed) (hpc : s.acquires[a]? = some .locking)
    (hidle : s.pool.idle.filter alive = t :: pool.idle) :
    (s.toAcquire a (.acquired t) pool).Handed := by
  have hsub : (t :: pool.idle).Sublist s.pool.idle := hidle ▸ List.filter_sublist
  obtain ⟨htidle, hnodup⟩ := List.nodup_cons.mp (h.nodup.sublist hsub)
  obtain ⟨htreg, htfree⟩ := h.queued t (hsub.subset List.mem_cons_self)
  -- who has a tunnel now: the caller has `t`, every other call what it had
  have hacq : ∀ (b : AcquireId) (u : TunnelId), (s.toAcquire a (.acquired t) pool).Acquired b u →
      (b = a ∧ u = t) ∨ (u ≠ t ∧ s.Acquired b u) := by
    intro b u hb
    rw [acquired_move_iff hpc] at hb
    split_ifs at hb with hab
    · cases hb
      exact .inl ⟨hab.symm, rfl⟩
    · exact .inr ⟨fun hut => htfree b (hut ▸ hb), hb⟩
  constructor
  · exact hnodup
  · intro u hu
    obtain ⟨hreg, hfree⟩ := h.queued u (hsub.subset (List.mem_cons_of_mem t hu))
    refine ⟨hreg, fun b hb => ?_⟩
    rcases hacq b u hb with ⟨-, rfl⟩ | ⟨-, hb⟩
    · exact htidle hu
    · exact hfree b hb
  · intro b u hb
    rcases hacq b u hb with ⟨-, rfl⟩ | ⟨-, hb⟩
    · exact htreg
    · exact h.registered b u hb
  · intro b c u hb hc
    rcases hacq b u hb with ⟨rfl, rfl⟩ | ⟨hne, hb⟩
    · rcases hacq c u hc with ⟨rfl, -⟩ | ⟨hne, -⟩
      · rfl
      · exact absurd rfl hne
    · rcases hacq c u hc with ⟨-, rfl⟩ | ⟨-, hc⟩
      · exact absurd rfl hne
      · exact h.once b c u hb hc

end Frame

/-- A call that returned a tunnel stays where it is. -/
theorem Acquired.step {t : TunnelId} (h : s.Acquired a t) (hs : s.step action = some s') :
    s'.Acquired a t := by
  have hmove : ∀ {b : AcquireId} {pc pc' : AcquirePc} {pool : TunnelPool},
      s.acquires[b]? = some pc → pc ≠ .acquired t → (s.toAcquire b pc' pool).Acquired a t := by
    intro b pc pc' pool hpc hne
    have hab : b ≠ a := by
      rintro rfl
      exact hne (Option.some.inj (hpc.symm.trans h))
    rw [acquired_move_iff hpc, if_neg hab]
    exact h
  cases did_of_step hs with
  | register | pushed | full | notify | spawn | die => exact h
  | acquire => exact acquired_spawn_iff.mpr h
  | acquired hpc | empty hpc | permit hpc | suspend hpc | wake hpc | leaveLock hpc
  | leaveWait hpc =>
      exact hmove hpc (by simp)

/-- Only a new call adds to the `acquire` calls. -/
theorem length_acquires_step (hne : action ≠ .acquire) (hs : s.step action = some s') :
    s'.acquires.length = s.acquires.length := by
  cases did_of_step hs with
  | acquire => exact absurd rfl hne
  | register | pushed | full | notify | spawn | die => rfl
  | acquired | empty | permit | suspend | wake | leaveLock | leaveWait => exact List.length_set

theorem capacity_step (hs : s.step action = some s') :
    s'.pool.capacity = s.pool.capacity := by
  cases did_of_step hs with
  | pushed _ hcap | full _ hcap | acquired _ hcap | empty _ hcap => exact hcap
  | register | notify | spawn | die | acquire | permit | suspend | wake | leaveLock
  | leaveWait => rfl

theorem Handed.step (h : s.Handed) (hs : s.step action = some s') : s'.Handed := by
  cases did_of_step hs with
  | register => exact h.frame (.refl _) (fun t ht => ht.spawn) fun a t ha => ha
  | pushed hpc _ hidle _ => exact h.push hpc hidle
  | full hpc _ hidle _ =>
      refine h.frame ?_ (fun t ht => ht.move hpc (by decide)) fun a t ha => ha
      rw [toRegister, hidle]
      exact List.filter_sublist
  | notify hpc => exact h.frame (.refl _) (fun t ht => ht.move hpc (by decide)) fun a t ha => ha
  | spawn hpc => exact h.frame (.refl _) (fun t ht => ht.move hpc (by decide)) fun a t ha => ha
  | die => exact h.frame (.refl _) (fun t ht => ht) fun a t ha => ha
  | acquire => exact h.frame (.refl _) (fun t ht => ht) fun a t ha => acquired_spawn_iff.mp ha
  | acquired hpc _ hidle _ => exact h.pop hpc hidle
  | empty hpc _ hidle _ =>
      refine h.frame ?_ (fun t ht => ht) fun a t ha => ha.of_move hpc (by simp)
      rw [toAcquire, hidle]
      exact List.nil_sublist _
  | permit hpc => exact h.frame (.refl _) (fun t ht => ht) fun a t ha => ha.of_move hpc (by simp)
  | suspend hpc => exact h.frame (.refl _) (fun t ht => ht) fun a t ha => ha.of_move hpc (by simp)
  | wake hpc => exact h.frame (.refl _) (fun t ht => ht) fun a t ha => ha.of_move hpc (by simp)
  | leaveLock hpc => exact h.frame (.refl _) (fun t ht => ht) fun a t ha => ha.of_move hpc (by simp)
  | leaveWait hpc => exact h.frame (.refl _) (fun t ht => ht) fun a t ha => ha.of_move hpc (by simp)

/-- **The queue is bounded**, in every run. -/
theorem length_idle_of_reaches {capacity : Nat} {ok : PoolState → PoolAction → Prop}
    (h : Runs.Reaches step ok (new capacity) s) : s.pool.idle.length ≤ capacity := by
  have hcap : s.pool.capacity = capacity :=
    h.invariant (I := fun s => s.pool.capacity = capacity) rfl
      fun _ _ _ hs _ hstep => (capacity_step hstep).trans hs
  exact hcap ▸ s.pool.length_idle

end PoolState

end SingBoxMini.NatTunnel
