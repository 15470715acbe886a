import Mathlib.Order.Nat
import SingBoxMini.Server.AcceptLoop

/-!
# Server — Accept loop — Progress

When the accept loop gets back to its `select!`.

* `stuck_of_early_failure`: an attempt that fails before its connection object exists, accepted
  while the queue of rate cells is empty, can take the loop to a `take_pending_rate` that no call
  of `build` will end; `early_failure_blocks` is such a run, after which no step is left at all.
* `accept_loop_returns_to_select`: if every such attempt finds a cell in the queue, no run gets
  stuck, and from every state reached the loop inevitably gets back to its `select!`.

The invariant (`Live`) is that the attempt being handled has its `build` still to come or a cell in
the queue, and that a suspended loop whose attempt was built is woken or about to be.
-/

namespace SingBoxMini.Server
open Runs

namespace State

/-- The loop is at its second `take_pending_rate().await`, the queue is empty and no call of
`build` is to come for the attempt. -/
def Stuck (s : State) : Prop :=
  ∃ c take conn, s.pc = .handling c true take ∧ s.conns[c]? = some conn ∧
    s.congestion.pendingRates = [] ∧ ¬ conn.BuildToCome

/-- An attempt that fails before its connection object exists is accepted only while the queue
holds a cell. -/
def EarlyFailureFindsCell (s : State) (a : Action) : Prop :=
  a = .accept .failsEarly → s.congestion.pendingRates ≠ []

instance (s : State) (a : Action) : Decidable (s.EarlyFailureFindsCell a) :=
  inferInstanceAs (Decidable (_ → _))

/-- The steps that are bound to come while the loop is handling an attempt: its own; the push of
the attempt's `build` and, while the loop is suspended, the `notify_one`; and `connecting`
resolving after an early failure.  When any other attempt's `connecting` resolves is up to its
peer. -/
inductive Bound (s : State) : Action → Prop where
  | poll {c : ConnId} {resolved : Bool} {take : TakePc} (h : s.pc = .handling c resolved take) :
      Bound s .poll
  | push {c : ConnId} {resolved : Bool} {take : TakePc} (h : s.pc = .handling c resolved take) :
      Bound s (.push c)
  | notify {c : ConnId} {resolved : Bool} (h : s.pc = .handling c resolved .waiting)
      (hw : () ∉ s.congestion.pendingRatesReady.woken) : Bound s (.notify c)
  | refused {c : ConnId} {resolved : Bool} {take : TakePc} {conn : Connection}
      (h : s.pc = .handling c resolved take) (hc : s.conns[c]? = some conn)
      (he : conn.outcome = .failsEarly) : Bound s .connected

/-! ### An early failure on an empty queue -/

/-- The first packet a new server sees belongs to an attempt that fails early: the loop is
suspended at the second `take_pending_rate`, and no action is enabled any more, `tcp` and `shutdown`
included. -/
theorem early_failure_blocks : ∃ s, run step (init 0)
    [.accept .failsEarly, .connected, .poll, .poll, .poll] = some s ∧ s.Stuck ∧
      ∀ a, s.step a = none := by
  refine ⟨⟨.handling 0 true .waiting, ⟨0, [], ⟨false, [()], []⟩⟩,
    [⟨.failsEarly, false, [], .notSpawned⟩], [], []⟩, by decide, ?_, ?_⟩
  · exact ⟨0, .waiting, _, rfl, rfl, rfl, by decide⟩
  · intro a
    cases a with
    | push c => cases c <;> rfl
    | migrate c rebinding => cases c <;> rfl
    | authenticate c => cases c <;> rfl
    | negotiate c rate => cases c <;> rfl
    | notify c => simp [step]
    | _ => rfl

/-! ### The invariant -/

/-- What holds of the attempt the loop is handling. -/
structure Served (s : State) (c : ConnId) (resolved : Bool) (take : TakePc) (conn : Connection) :
    Prop where
  queued : conn.BuildToCome ∨ s.congestion.pendingRates ≠ []
  made : resolved = true → ¬ conn.BuildToCome
  asleep : take = .gap ∨ take = .waiting → resolved = false ∧ conn.outcome ≠ .failsEarly
  gap : take = .gap → conn.built = true →
    s.congestion.pendingRatesReady.permit = true ∨ c ∈ s.notifying
  waiting : take = .waiting → conn.built = true →
    () ∈ s.congestion.pendingRatesReady.woken ∨ c ∈ s.notifying

/-- **The invariant of the loop.** -/
structure Live (s : State) : Prop where
  tracks : s.congestion.pendingRatesReady.Tracks fun _ => ∃ c resolved,
    s.pc = .handling c resolved .waiting
  served : ∀ {c resolved take}, s.pc = .handling c resolved take →
    ∃ conn, s.conns[c]? = some conn ∧ Served s c resolved take conn

theorem live_init (serverLimitBps : UInt64) : (init serverLimitBps).Live := by
  constructor
  · exact Notify.tracks_new.congr fun _ => by simp [init]
  · intro c resolved take h
    cases h

variable {s s' : State} {c : ConnId} {resolved : Bool} {take : TakePc} {conn : Connection}
  {a : Action}

/-- The places before the queue was seen empty ask only about the queue. -/
theorem Served.of_awake (queued : conn.BuildToCome ∨ s.congestion.pendingRates ≠ [])
    (made : resolved = true → ¬ conn.BuildToCome) (ht : take = .unpolled ∨ take = .check) :
    Served s c resolved take conn := by
  refine ⟨queued, made, ?_, ?_, ?_⟩ <;> rcases ht with rfl | rfl <;> simp

/-- Steps of others keep what holds of the attempt being handled, if they take nothing from the
queue and no notification from the loop. -/
theorem Served.frame {conn' : Connection} (h : Served s c resolved take conn)
    (ho : conn'.outcome = conn.outcome) (hb : conn'.built = conn.built)
    (hq : s.congestion.pendingRates ≠ [] → s'.congestion.pendingRates ≠ [])
    (hp : s.congestion.pendingRatesReady.permit = true ∨ c ∈ s.notifying → take = .gap →
      s'.congestion.pendingRatesReady.permit = true ∨ c ∈ s'.notifying)
    (hw : () ∈ s.congestion.pendingRatesReady.woken ∨ c ∈ s.notifying → take = .waiting →
      () ∈ s'.congestion.pendingRatesReady.woken ∨ c ∈ s'.notifying) :
    Served s' c resolved take conn' := by
  have hbuild : conn'.BuildToCome ↔ conn.BuildToCome := by
    unfold Connection.BuildToCome
    rw [ho, hb]
  refine ⟨h.queued.imp hbuild.mpr hq, fun e => hbuild.not.mpr (h.made e), ?_, ?_, ?_⟩
  · intro ht
    exact ⟨(h.asleep ht).1, ho ▸ (h.asleep ht).2⟩
  · intro ht hbuilt
    exact hp (h.gap ht (hb ▸ hbuilt)) ht
  · intro ht hbuilt
    exact hw (h.waiting ht (hb ▸ hbuilt)) ht

theorem Live.build (h : s.Live) (hc : s.conns[c]? = some conn) (he : conn.outcome ≠ .failsEarly) :
    (s.build c conn).Live := by
  refine ⟨h.tracks, ?_⟩
  intro d resolved take hpc
  obtain ⟨conn₀, hd, hserved⟩ := h.served hpc
  have hq : (s.build c conn).congestion.pendingRates ≠ [] := by simp [State.build]
  by_cases e : c = d
  · subst e
    refine ⟨_, (Tasks.getElem?_replace hc _ c).trans (if_pos rfl), .inr hq, ?_, ?_, ?_, ?_⟩
    · simp [Connection.BuildToCome]
    · intro ht
      exact ⟨(hserved.asleep ht).1, he⟩
    · exact fun _ _ => .inr List.mem_cons_self
    · exact fun _ _ => .inr List.mem_cons_self
  · refine ⟨conn₀, ((Tasks.getElem?_replace hc _ d).trans (if_neg e)).trans hd, ?_⟩
    exact hserved.frame rfl rfl (fun _ => hq) (fun hp _ => hp.imp_right (List.mem_cons_of_mem c))
      (fun hw _ => hw.imp_right (List.mem_cons_of_mem c))

theorem Live.setTask {s : State} (h : s.Live) {c : ConnId} {conn : Connection}
    (hc : s.conns[c]? = some conn) (task : Task) (rates : List UInt64) :
    Live { s with rates := rates, conns := s.conns.set c { conn with task := task } } := by
  refine ⟨h.tracks, ?_⟩
  intro d resolved take hpc
  obtain ⟨conn₀, hd, hserved⟩ := h.served hpc
  by_cases e : c = d
  · subst e
    obtain rfl : conn = conn₀ := Option.some.inj (hc.symm.trans hd)
    refine ⟨_, (Tasks.getElem?_replace hc _ c).trans (if_pos rfl), ?_⟩
    exact hserved.frame rfl rfl id (fun hp _ => hp) (fun hw _ => hw)
  · refine ⟨conn₀, ((Tasks.getElem?_replace hc _ d).trans (if_neg e)).trans hd, ?_⟩
    exact hserved.frame rfl rfl id (fun hp _ => hp) (fun hw _ => hw)

/-- While the loop is suspended, a `notify_one` leaves it woken. -/
theorem Live.woken_buildNotify (h : s.Live) {d : ConnId}
    (hpc : s.pc = .handling d resolved .waiting) (c : ConnId) :
    () ∈ (s.buildNotify c).congestion.pendingRatesReady.woken := by
  have hmem := (h.tracks.mem_iff ()).mpr ⟨d, resolved, hpc⟩
  simp only [buildNotify, Notify.notifyOne]
  cases hwait : s.congestion.pendingRatesReady.waiting with
  | nil => simpa [hwait] using hmem
  | cons w rest => exact List.mem_cons_self

/-- In the gap nobody is registered, so a `notify_one` stores the permit. -/
theorem Live.permit_buildNotify (h : s.Live) {d : ConnId} (hpc : s.pc = .handling d resolved .gap)
    (c : ConnId) :
    (s.buildNotify c).congestion.pendingRatesReady.permit = true := by
  have hnone : s.congestion.pendingRatesReady.waiting = [] := by
    refine List.eq_nil_iff_forall_not_mem.mpr fun w hw => ?_
    obtain ⟨c', r', hpc'⟩ := (h.tracks.mem_iff w).mp (List.mem_append_left _ hw)
    rw [hpc] at hpc'
    cases hpc'
  simp [buildNotify, Notify.notifyOne, hnone]

theorem Live.notify (h : s.Live) (c : ConnId) : (s.buildNotify c).Live := by
  refine ⟨h.tracks.notifyOne, ?_⟩
  intro d resolved take hpc
  obtain ⟨conn, hd, hserved⟩ := h.served hpc
  refine ⟨conn, hd, hserved.frame rfl rfl id ?_ ?_⟩
  · rintro - rfl
    exact .inl (h.permit_buildNotify hpc c)
  · rintro - rfl
    exact .inl (h.woken_buildNotify hpc c)

theorem tracks_of_awake (h : s.Live)
    (hn : s'.congestion.pendingRatesReady.waiting ++ s'.congestion.pendingRatesReady.woken =
      s.congestion.pendingRatesReady.waiting ++ s.congestion.pendingRatesReady.woken)
    (hs : ∀ c resolved, s.pc ≠ .handling c resolved .waiting)
    (hs' : ∀ c resolved, s'.pc ≠ .handling c resolved .waiting) :
    s'.congestion.pendingRatesReady.Tracks fun _ => ∃ c resolved,
      s'.pc = .handling c resolved .waiting := by
  refine ⟨hn ▸ h.tracks.nodup, fun w => ?_⟩
  rw [hn, h.tracks.mem_iff]
  constructor
  · rintro ⟨c, resolved, e⟩
    exact absurd e (hs c resolved)
  · rintro ⟨c, resolved, e⟩
    exact absurd e (hs' c resolved)

theorem Ready.not_buildToCome (hr : s.Ready c conn) : ¬ conn.BuildToCome := by
  rintro ⟨he, hb⟩
  rcases hr with hr | ⟨hr, -⟩
  · exact he hr
  · rw [hb] at hr
    cases hr

/-- **Every step keeps the invariant**, if early failures find a cell. -/
theorem live_step (h : s.Live) (hok : s.EarlyFailureFindsCell a) (hs : s.step a = some s') :
    s'.Live := by
  cases did_of_step hs with
  | accept outcome hpc =>
      refine ⟨tracks_of_awake h rfl (by simp [hpc]) (by simp), ?_⟩
      rintro c resolved take ⟨⟩
      refine ⟨⟨outcome, false, [], .notSpawned⟩, by simp, .of_awake ?_ nofun (.inl rfl)⟩
      by_cases e : outcome = .failsEarly
      · exact .inr (hok (e ▸ rfl))
      · exact .inl ⟨e, rfl⟩
  | stay => exact h
  | closed hpc | tcpFailed hpc | shutdown hpc | pop hpc =>
      exact ⟨tracks_of_awake h rfl (by simp [hpc]) (by simp), nofun⟩
  | start hpc | permit hpc =>
      refine ⟨tracks_of_awake h rfl (by simp [hpc]) (by simp), ?_⟩
      rintro c resolved take ⟨⟩
      obtain ⟨conn, hc, hserved⟩ := h.served hpc
      exact ⟨conn, hc, .of_awake hserved.queued hserved.made (.inr rfl)⟩
  | empty hpc hq =>
      refine ⟨tracks_of_awake h rfl (by simp [hpc]) (by simp), ?_⟩
      rintro c resolved take ⟨⟩
      obtain ⟨conn, hc, hserved⟩ := h.served hpc
      -- the queue is empty, so the attempt's `build` is to come and `connecting` is not ready
      have hb : conn.BuildToCome := hserved.queued.resolve_right (not_not_intro hq)
      have hres := Bool.eq_false_iff.mpr fun e => hserved.made e hb
      refine ⟨conn, hc, .inl hb, hserved.made, fun _ => ⟨hres, hb.1⟩, ?_, nofun⟩
      intro _ hbuilt
      rw [hb.2] at hbuilt
      cases hbuilt
  | suspend hpc hp =>
      constructor
      · exact (h.tracks.join (by simp [hpc])).congr fun _ => by simp
      · rintro c resolved take ⟨⟩
        obtain ⟨conn, hc, hserved⟩ := h.served hpc
        refine ⟨conn, hc, hserved.queued, hserved.made, fun _ => hserved.asleep (.inl rfl), nofun,
          ?_⟩
        intro _ hbuilt
        right
        exact (hserved.gap rfl hbuilt).resolve_left (by simp [hp])
  | wake hpc hn =>
      constructor
      · exact (h.tracks.rePoll hn).congr fun _ => by simp
      · rintro c resolved take ⟨⟩
        obtain ⟨conn, hc, hserved⟩ := h.served hpc
        exact ⟨conn, hc, .of_awake hserved.queued hserved.made (.inr rfl)⟩
  | connectedFirst hpc hc hr =>
      refine ⟨tracks_of_awake h rfl (by simp [hpc]) (by simp), ?_⟩
      rintro c resolved take ⟨⟩
      obtain ⟨conn, hc', hserved⟩ := h.served hpc
      cases hc.symm.trans hc'
      exact ⟨_, hc, .of_awake hserved.queued (fun _ => hr.not_buildToCome) (.inl rfl)⟩
  | connectedLater hpc hc hr =>
      constructor
      · exact (h.tracks.cancel ⟨_, _, hpc⟩).congr fun _ => by simp
      · rintro c resolved take ⟨⟩
        obtain ⟨conn, hc', hserved⟩ := h.served hpc
        cases hc.symm.trans hc'
        exact ⟨_, hc, .of_awake hserved.queued (fun _ => hr.not_buildToCome) (.inl rfl)⟩
  | push hc hb => exact h.build hc hb.1
  | rebind => exact h
  | migrate hc ho hb => exact h.build hc (by simp [ho])
  | notify hc => exact h.notify _
  | authenticate hc ht ho hr => exact h.setTask hc _ _
  | negotiate rate hc ht => exact h.setTask hc _ _

theorem live_of_reaches {serverLimitBps : UInt64}
    (h : Reaches step EarlyFailureFindsCell (init serverLimitBps) s) : s.Live :=
  h.invariant (live_init serverLimitBps) fun _ _ _ hlive hok hs => live_step hlive hok hs

theorem Live.not_stuck (h : s.Live) : ¬ s.Stuck := by
  rintro ⟨c, take, conn, hpc, hc, hq, hb⟩
  obtain ⟨conn', hc', hserved⟩ := h.served hpc
  cases hc.symm.trans hc'
  exact hserved.queued.elim hb fun hne => hne hq

/-! ### The rank -/

/-- Notifications that can still send the loop round while the queue is empty. -/
def tokens (s : State) : Nat :=
  6 * s.notifying.length + 5 * (s.congestion.pendingRatesReady.permit.toNat +
    s.congestion.pendingRatesReady.woken.length)

/-- The connection object of the attempt was made. -/
def made (s : State) (c : ConnId) : Bool :=
  s.conns[c]?.any fun conn => conn.outcome ≠ .failsEarly ∧ conn.built = true

/-- How far `take_pending_rate` is from its next look into the queue. -/
def emptyRank : TakePc → Nat
  | .unpolled => 4
  | .check => 3
  | .gap => 2
  | .waiting => 1

/-- How far it is from taking a cell that is in the queue. -/
def queuedRank (woken : List Unit) : TakePc → Nat
  | .unpolled => 2
  | .check => 1
  | .gap => 4
  | .waiting => if () ∈ woken then 2 else 3

/-- How far the loop is from its `select!`. -/
def rank (s : State) : Nat :=
  match s.pc with
  | .handling c resolved take =>
    if s.congestion.pendingRates = [] then 10 + s.tokens + emptyRank take
    else (if resolved = true ∨ s.made c = true then 0 else 1) +
      queuedRank s.congestion.pendingRatesReady.woken take
  | _ => 0

theorem queuedRank_le (woken : List Unit) (take : TakePc) : queuedRank woken take ≤ 4 := by
  cases take with
  | waiting => simp only [queuedRank]; split_ifs <;> omega
  | _ => simp [queuedRank]

theorem queuedRank_waiting_lt (woken : List Unit) :
    queuedRank woken .waiting < queuedRank woken .gap := by
  simp only [queuedRank]
  split_ifs <;> omega

theorem rank_of_queued {s : State} {c : ConnId} {resolved : Bool} {take : TakePc}
    (h : s.pc = .handling c resolved take) (hq : s.congestion.pendingRates ≠ []) :
    s.rank = (if resolved = true ∨ s.made c = true then 0 else 1) +
      queuedRank s.congestion.pendingRatesReady.woken take := by
  simp [rank, h, hq]

theorem rank_of_empty (h : s.pc = .handling c resolved take) (hq : s.congestion.pendingRates = []) :
    s.rank = 10 + s.tokens + emptyRank take := by
  simp [rank, h, hq]

theorem rank_le_of_queued (hq : s.congestion.pendingRates ≠ []) : s.rank ≤ 5 := by
  unfold rank
  split
  · rename_i take _
    have hle := queuedRank_le s.congestion.pendingRatesReady.woken take
    rw [if_neg hq]
    split_ifs <;> omega
  · omega

/-- A push into the empty queue ends the loop's rounds. -/
theorem rank_lt_of_push (h : s.pc = .handling c resolved take) (hq : s.congestion.pendingRates = [])
    (hq' : s'.congestion.pendingRates ≠ []) : s'.rank < s.rank := by
  have hle := rank_le_of_queued hq'
  rw [rank_of_empty h hq]
  omega

theorem tokens_notify_lt (hc : c ∈ s.notifying) :
    (s.buildNotify c).tokens < s.tokens := by
  have hlen := List.length_erase_of_mem hc
  have hpos := List.length_pos_of_mem hc
  have hnotify : s.congestion.pendingRatesReady.notifyOne.permit.toNat +
      s.congestion.pendingRatesReady.notifyOne.woken.length ≤
        s.congestion.pendingRatesReady.permit.toNat +
          s.congestion.pendingRatesReady.woken.length + 1 := by
    unfold Notify.notifyOne
    split
    · simp only [Bool.toNat_true]
      omega
    · simp only [List.length_cons]
      omega
  simp only [tokens, buildNotify, hlen]
  omega

theorem rePoll_eq_some {n n' : Notify Unit} (h : n.rePoll () = some n') :
    () ∈ n.woken ∧ n' = { n with woken := n.woken.erase () } := by
  obtain ⟨hw, h⟩ := Option.ite_none_right_eq_some.mp h
  exact ⟨hw, (Option.some.inj h).symm⟩

/-- A step of `take_pending_rate` uses up a notification or gets nearer to the queue. -/
theorem rank_lt_of_poll (hs : s.step .poll = some s') :
    s'.pc = .select ∨ s'.rank < s.rank := by
  by_cases hq : s.congestion.pendingRates = []
  · cases did_of_step hs with
    | start hpc => right; simp [rank, tokens, emptyRank, hpc, hq]
    | empty hpc => right; simp [rank, tokens, emptyRank, hpc, hq]
    | pop => left; rfl
    | permit hpc hp =>
        right
        simp only [rank, tokens, emptyRank, hpc, hq, hp, if_true, Bool.toNat_true, Bool.toNat_false]
        omega
    | suspend hpc => right; simp [rank, tokens, emptyRank, hpc, hq]
    | wake hpc hn =>
        right
        obtain ⟨hw, rfl⟩ := rePoll_eq_some hn
        have hlen := List.length_erase_of_mem hw
        have hpos := List.length_pos_of_mem hw
        simp only [rank, tokens, emptyRank, hpc, hq, if_true, hlen]
        omega
  · cases did_of_step hs with
    | start hpc => right; simp [rank, made, queuedRank, hpc, hq]
    | empty hpc hq' => exact absurd hq' hq
    | pop => left; rfl
    | permit hpc hp => right; simp [rank, made, queuedRank, hpc, hq]
    | suspend hpc =>
        right
        simp only [rank, hpc, if_neg hq]
        exact Nat.add_lt_add_left (queuedRank_waiting_lt _) _
    | wake hpc hn =>
        right
        obtain ⟨hw, rfl⟩ := rePoll_eq_some hn
        simp [rank, made, queuedRank, hpc, hq, hw]

theorem made_build (hc : s.conns[c]? = some conn) (he : conn.outcome ≠ .failsEarly) (d : ConnId) :
    (s.build c conn).made d = (decide (c = d) || s.made d) := by
  by_cases e : c = d
  · subst e
    simp [made, build, Tasks.getElem?_replace hc, he]
  · simp [made, build, Tasks.getElem?_replace hc, e]

/-- **The steps bound to come bring the loop nearer to its `select!`.** -/
theorem rank_lt_of_bound (h : s.Live) (hbound : s.Bound a) (hs : s.step a = some s') :
    s'.pc = .select ∨ s'.rank < s.rank := by
  cases hbound with
  | poll => exact rank_lt_of_poll hs
  | @push c resolved take hpc =>
      right
      cases did_of_step hs with
      | @push _ conn hc hb =>
          have hq' : (s.build c conn).congestion.pendingRates ≠ [] := by simp [build]
          by_cases hq : s.congestion.pendingRates = []
          · exact rank_lt_of_push hpc hq hq'
          · obtain ⟨conn', hc', hserved⟩ := h.served hpc
            cases hc.symm.trans hc'
            have hres := Bool.eq_false_iff.mpr fun e => hserved.made e hb
            have hmade : s.made c = false := by simp [made, hc, hb.2]
            rw [rank_of_queued hpc hq, rank_of_queued (s := s.build c conn) hpc hq',
              made_build hc hb.1]
            simp [hres, hmade, build]
  | @notify c resolved hpc hw =>
      right
      cases did_of_step hs with
      | notify hc =>
          by_cases hq : s.congestion.pendingRates = []
          · have hlt := tokens_notify_lt hc
            rw [rank_of_empty hpc hq, rank_of_empty (s := s.buildNotify c) hpc hq]
            omega
          · have hw' := h.woken_buildNotify hpc c
            rw [rank_of_queued hpc hq, rank_of_queued (s := s.buildNotify c) hpc hq]
            simp only [queuedRank, if_neg hw, if_pos hw']
            exact Nat.add_lt_add_left (by omega) _
  | @refused c resolved take conn hpc hc he =>
      right
      obtain ⟨conn', hc', hserved⟩ := h.served hpc
      cases hc.symm.trans hc'
      have hq : s.congestion.pendingRates ≠ [] :=
        hserved.queued.resolve_left fun hb => hb.1 he
      have hmade : s.made c = false := by simp [made, hc, he]
      cases did_of_step hs with
      | connectedFirst hpc' =>
          rw [hpc] at hpc'
          cases hpc'
          simp [rank, hpc, hq, hmade, queuedRank]
      | connectedLater hpc' =>
          rw [hpc] at hpc'
          cases hpc'
          exact absurd he (hserved.asleep (.inr rfl)).2

theorem queuedRank_mono {woken woken' : List Unit} (h : () ∈ woken → () ∈ woken') (take : TakePc) :
    queuedRank woken' take ≤ queuedRank woken take := by
  cases take with
  | waiting =>
      simp only [queuedRank]
      split_ifs with h₁ h₂ h₂
      · omega
      · omega
      · exact absurd (h h₂) h₁
      · omega
  | _ => exact le_rfl

/-- A step that leaves the loop where it is, and takes nothing from it. -/
theorem rank_le_of_frame (hpc : s.pc = .handling c resolved take)
    (hpc' : s'.pc = .handling c resolved take) (hempty : s'.congestion.pendingRates = [] →
      s.congestion.pendingRates = [] ∧ s'.tokens ≤ s.tokens)
    (hmade : s.made c = true → s'.made c = true)
    (hwoken : () ∈ s.congestion.pendingRatesReady.woken →
      () ∈ s'.congestion.pendingRatesReady.woken) : s'.rank ≤ s.rank := by
  by_cases hq' : s'.congestion.pendingRates = []
  · obtain ⟨hq, htokens⟩ := hempty hq'
    rw [rank_of_empty hpc hq, rank_of_empty hpc' hq']
    omega
  by_cases hq : s.congestion.pendingRates = []
  · exact (rank_lt_of_push hpc hq hq').le
  rw [rank_of_queued hpc hq, rank_of_queued hpc' hq']
  refine Nat.add_le_add ?_ (queuedRank_mono hwoken take)
  split_ifs with h₁ h₂ h₂
  · omega
  · omega
  · exact absurd (h₂.imp_right hmade) h₁
  · omega

theorem made_setTask {s : State} {c : ConnId} {conn : Connection} (hc : s.conns[c]? = some conn)
    (task : Task) (rates : List UInt64) (d : ConnId) :
    made { s with rates := rates, conns := s.conns.set c { conn with task := task } } d =
      s.made d := by
  by_cases e : c = d
  · subst e
    simp [made, Tasks.getElem?_replace hc, hc]
  · simp [made, Tasks.getElem?_replace hc, e]

/-- **The other steps neither take the loop away from it nor bring it there.** -/
theorem rank_le_of_not_bound (h : s.Live) (hpc : s.pc = .handling c resolved take)
    (hbound : ¬ s.Bound a) (hs : s.step a = some s') :
    (∃ resolved' take', s'.pc = .handling c resolved' take') ∧ s'.rank ≤ s.rank := by
  have notSelect : s.pc ≠ .select := by simp [hpc]
  obtain ⟨conn₀, hc₀, hserved⟩ := h.served hpc
  cases did_of_step hs with
  | accept _ e => exact absurd e notSelect
  | stay e => exact absurd e notSelect
  | closed e => exact absurd e notSelect
  | tcpFailed e => exact absurd e notSelect
  | shutdown e => exact absurd e notSelect
  | start e => exact absurd (.poll e) hbound
  | empty e => exact absurd (.poll e) hbound
  | pop e => exact absurd (.poll e) hbound
  | permit e => exact absurd (.poll e) hbound
  | suspend e => exact absurd (.poll e) hbound
  | wake e => exact absurd (.poll e) hbound
  | connectedFirst e hc hr =>
      cases hpc.symm.trans e
      cases hc.symm.trans hc₀
      have hq : s.congestion.pendingRates ≠ [] := hserved.queued.resolve_left hr.not_buildToCome
      refine ⟨⟨_, _, rfl⟩, ?_⟩
      simp [rank, hpc, hq, queuedRank]
  | connectedLater e hc hr =>
      cases hpc.symm.trans e
      cases hc.symm.trans hc₀
      have hq : s.congestion.pendingRates ≠ [] := hserved.queued.resolve_left hr.not_buildToCome
      -- its own `notify_one` has been made, so the loop was woken
      have hlater := hr.resolve_left (hserved.asleep (.inr rfl)).2
      have hw := (hserved.waiting rfl hlater.1).resolve_right hlater.2
      refine ⟨⟨_, _, rfl⟩, ?_⟩
      simp [rank, hpc, hq, queuedRank, hw]
  | @push d conn hc hb =>
      refine ⟨⟨_, _, hpc⟩, rank_le_of_frame hpc hpc (by simp [build]) ?_ id⟩
      rw [made_build hc hb.1]
      exact fun hmade => by simp [hmade]
  | rebind => exact ⟨⟨_, _, hpc⟩, le_rfl⟩
  | @migrate d conn hc ho hb =>
      refine ⟨⟨_, _, hpc⟩, rank_le_of_frame hpc hpc (by simp [build]) ?_ id⟩
      rw [made_build hc (by simp [ho])]
      exact fun hmade => by simp [hmade]
  | @notify d hd =>
      have htokens := (tokens_notify_lt hd).le
      have hle : (s.buildNotify d).rank ≤ s.rank :=
        rank_le_of_frame hpc hpc (fun hq => ⟨hq, htokens⟩) id Notify.mem_woken_notifyOne
      exact ⟨⟨_, _, hpc⟩, hle⟩
  | authenticate hc =>
      refine ⟨⟨_, _, hpc⟩, rank_le_of_frame hpc hpc (fun hq => ⟨hq, le_rfl⟩) ?_ id⟩
      rw [made_setTask hc]
      exact id
  | negotiate rate hc =>
      refine ⟨⟨_, _, hpc⟩, rank_le_of_frame hpc hpc (fun hq => ⟨hq, le_rfl⟩) ?_ id⟩
      rw [made_setTask hc]
      exact id

theorem Bound.findsCell (h : s.Bound a) : s.EarlyFailureFindsCell a := by
  rintro rfl
  cases h

/-- **A step bound to come is enabled** while the loop is handling an attempt. -/
theorem Live.enabled (h : s.Live) (hpc : s.pc = .handling c resolved take) :
    ∃ a s', s.Bound a ∧ s.step a = some s' := by
  obtain ⟨conn, hc, hserved⟩ := h.served hpc
  by_cases hw : take = .waiting → () ∈ s.congestion.pendingRatesReady.woken
  · obtain ⟨out, hout⟩ := exists_takePendingRate s.congestion hw
    obtain ⟨s', hs⟩ : ∃ s', s.step .poll = some s' := by
      simp only [step, State.poll, hpc, hc, hout, Option.map_some]
      exact ⟨_, rfl⟩
    exact ⟨.poll, s', .poll hpc, hs⟩
  -- suspended: the push or the `notify_one` of the attempt's `build` is next
  obtain ⟨rfl, hasleep⟩ := Classical.not_imp.mp hw
  by_cases hb : conn.built = true
  · have hn := (hserved.waiting rfl hb).resolve_left hasleep
    exact ⟨.notify c, _, .notify hpc hasleep, if_pos hn⟩
  · have hbuild : conn.BuildToCome :=
      ⟨(hserved.asleep (.inr rfl)).2, Bool.eq_false_iff.mpr hb⟩
    refine ⟨.push c, s.build c conn, .push hpc, ?_⟩
    simp only [step, hc, if_pos hbuild]

/-- The loop has taken an attempt from its `select!` and not gone back. -/
def Handling (s : State) : Prop := ∃ c resolved take, s.pc = .handling c resolved take

theorem handling_of_ne (hsel : s.pc ≠ .select) (hret : s.pc ≠ .returned) :
    s.Handling := by
  cases hpc : s.pc with
  | select => exact absurd hpc hsel
  | returned => exact absurd hpc hret
  | handling c resolved take => exact ⟨c, resolved, take, hpc⟩

/-- While it handles an attempt the loop does not return. -/
theorem Handling.step (h : s.Handling) (hs : s.step a = some s') :
    s'.pc ≠ .returned := by
  obtain ⟨c, resolved, take, hpc⟩ := h
  cases did_of_step hs <;> simp_all [build, buildNotify]

/-- **The accept loop is not blocked by the attempts it handles**, if every attempt that fails
before its connection object exists finds a cell in the queue: no state reached is stuck, and from
each one the loop inevitably gets back to its `select!`, unless it has returned from there. -/
theorem accept_loop_returns_to_select {serverLimitBps : UInt64} {s : State}
    (h : Reaches step EarlyFailureFindsCell (init serverLimitBps) s) :
    ¬ s.Stuck ∧ (s.pc ≠ .returned →
      Inevitable step EarlyFailureFindsCell Bound (fun t => t.pc = .select) s) := by
  have hlive := live_of_reaches h
  refine ⟨hlive.not_stuck, fun hret => ?_⟩
  refine inevitable_of_rank (I := fun t => t.Live ∧ t.pc ≠ .returned) rank ?_ ?_ ?_ ?_ s
    ⟨hlive, hret⟩
  · rintro t a t' ⟨ht, hret⟩ hsel hok hs
    exact ⟨live_step ht hok hs, (handling_of_ne hsel hret).step hs⟩
  · rintro t ⟨ht, hret⟩ hsel
    obtain ⟨c, resolved, take, hpc⟩ := handling_of_ne hsel hret
    obtain ⟨a, t', hbound, hs⟩ := ht.enabled hpc
    exact ⟨a, t', hbound, hbound.findsCell, hs⟩
  · rintro t a t' ⟨ht, -⟩ - hbound - hs
    exact rank_lt_of_bound ht hbound hs
  · rintro t a t' ⟨ht, hret⟩ hsel hbound - hs
    obtain ⟨c, resolved, take, hpc⟩ := handling_of_ne hsel hret
    obtain ⟨⟨resolved', take', hpc'⟩, hle⟩ := rank_le_of_not_bound ht hpc hbound hs
    exact ⟨by simp [hpc'], hle⟩

/-- A migration left a cell behind when an attempt fails early: the loop is at its second
`take_pending_rate` and gets back. -/
def servedEarlyFailure : List Action :=
  [.accept .succeeds, .push 0, .notify 0, .poll, .poll, .migrate 0 false, .notify 0,
    .accept .failsEarly, .connected]

theorem accept_loop_returns_after_migration :
    ∃ s, Reaches step EarlyFailureFindsCell (init 0) s ∧ s.pc = .handling 1 true .unpolled ∧
      Inevitable step EarlyFailureFindsCell Bound (fun t => t.pc = .select) s := by
  obtain ⟨s, hs⟩ : ∃ s, run (fun s a => if s.EarlyFailureFindsCell a then s.step a else none)
    (init 0) servedEarlyFailure = some s := ⟨_, rfl⟩
  have hreach := reaches_of_run servedEarlyFailure .refl hs
  have hpc : s.pc = .handling 1 true .unpolled := by
    cases hs
    rfl
  exact ⟨s, hreach, hpc, (accept_loop_returns_to_select hreach).2 (by simp [hpc])⟩

end State

end SingBoxMini.Server
