import SingBoxMini.NatTunnel.Assignment

/-!
# NAT tunnel — Assignment — Ownership

Who asks for whose stream.

A tunnel is handed to one `acquire` call, so one attempt of one public connection asks for its
stream, and the task answers that attempt's channel only.  `Assigned` ties the tasks, the channels
and the connections to the calls of the pool.

A step is put together from parts: the pool moves, a connection moves on, a channel is closed, an
attempt begins, a task moves on or ends.  Each part keeps `Assigned`.

* `assigned_of_reaches`: so it is in every run.
-/

namespace SingBoxMini.NatTunnel
open Runs

/-- The connection has not sent the assignment of its attempt. -/
def PublicConnection.Unsent (conn : PublicConnection) : Prop :=
  conn.pc = .acquiring ∨ ∃ t, conn.pc = .sending t

namespace Gateway

/-- The `manage_idle_tunnel` task of the tunnel has ended. -/
def Ended (s : Gateway) (t : TunnelId) : Prop := ∃ m, s.managers[t]? = some m ∧ m.pc = .ended

/-! ### The invariant -/

/-- No task has the assignment of the call. -/
def Unheld (s : Gateway) (call : AcquireId) : Prop :=
  ∀ (t : TunnelId) (m : Manager), s.managers[t]? = some m → ¬ m.Holds call

/-- What holds of a public connection. -/
structure ConnOk (s : Gateway) (conn : PublicConnection) : Prop where
  call : conn.call < s.pool.acquires.length
  unsent : conn.Unsent → s.responses[conn.call]? = some .empty ∧ s.Unheld conn.call
  has : ∀ t, conn.pc = .sending t ∨ conn.pc = .forwarding t → s.pool.Acquired conn.call t
  served : ∀ t, conn.pc = .forwarding t → s.Ended t

/-- What holds of a tunnel's task: its assignments are those of the call that acquired the
tunnel. -/
structure ManagerOk (s : Gateway) (t : TunnelId) (m : Manager) : Prop where
  holds : ∀ call, m.Holds call → s.pool.Acquired call t
  slot : m.pc = .ended → m.slot = none

/-- **Who asks for whose stream.** -/
structure Assigned (s : Gateway) : Prop where
  handed : s.pool.Handed
  length : s.responses.length = s.pool.acquires.length
  conns : ∀ (p : PublicId) (conn : PublicConnection), s.publics[p]? = some conn → s.ConnOk conn
  calls : ∀ (p q : PublicId) (conn conn' : PublicConnection), s.publics[p]? = some conn →
    s.publics[q]? = some conn' → conn.call = conn'.call → p = q
  managers : ∀ (t : TunnelId) (m : Manager), s.managers[t]? = some m → s.ManagerOk t m
  responses : ∀ (call : AcquireId) (t : TunnelId), s.responses[call]? = some (.sent (.ok t)) →
    s.pool.Acquired call t ∧ s.Ended t

theorem assigned_new (capacity : Nat) : (new capacity).Assigned := by
  refine ⟨PoolState.handed_new capacity, rfl, ?_, ?_, ?_, ?_⟩ <;> simp [new]

/-! ### What stays -/

/-- Calls keep their tunnels, and ended tasks stay ended. -/
structure Grows (s s' : Gateway) : Prop where
  acquired : ∀ (a : AcquireId) (t : TunnelId), s.pool.Acquired a t → s'.pool.Acquired a t
  ended : ∀ t, s.Ended t → s'.Ended t
  length : s.pool.acquires.length ≤ s'.pool.acquires.length

section Grows

variable {s s' : Gateway}

theorem ConnOk.mono {conn : PublicConnection} (h : s.ConnOk conn) (hg : s.Grows s')
    (hunsent : conn.Unsent → s'.responses[conn.call]? = some .empty ∧ s'.Unheld conn.call) :
    s'.ConnOk conn :=
  ⟨Nat.lt_of_lt_of_le h.call hg.length, hunsent, fun t ht => hg.acquired _ _ (h.has t ht),
    fun t ht => hg.ended t (h.served t ht)⟩

theorem ManagerOk.mono {t : TunnelId} {m : Manager} (h : s.ManagerOk t m) (hg : s.Grows s') :
    s'.ManagerOk t m :=
  ⟨fun call hc => hg.acquired _ _ (h.holds call hc), h.slot⟩

end Grows

variable {s : Gateway} {t : TunnelId} {m : Manager} {c : AcquireId}
  {responses responses' : List (Oneshot AssignmentResult)}

/-- A task that has ended is not the one that moves. -/
theorem Ended.replace {s' : Gateway} {u : TunnelId} {m' : Manager} (h : s.Ended u)
    (hm : s.managers[t]? = some m) (hopen : m.pc ≠ .ended) (hs : s'.managers = s.managers.set t m')
    : s'.Ended u := by
  obtain ⟨m₀, hm₀, he⟩ := h
  have htu : t ≠ u := by
    rintro rfl
    cases hm.symm.trans hm₀
    exact hopen he
  exact ⟨m₀, hs ▸ (List.getElem?_set_ne htu).trans hm₀, he⟩

theorem Ended.tunnel (h : s.Ended t) : s.tunnel.Ended t := by
  obtain ⟨m, hm, he⟩ := h
  exact ⟨m, Tasks.spawn_old hm _, he⟩

/-! ### The channels -/

/-- A value in a channel after another was closed was there before. -/
theorem sent_of_close {call : AcquireId} {result : AssignmentResult}
    (h : (s.close call).responses[c]? = some (.sent result)) :
    s.responses[c]? = some (.sent result) := by
  rw [close, Tasks.getElem?_modified] at h
  split_ifs at h
  · obtain ⟨channel, -, hchannel⟩ := Option.map_eq_some_iff.mp h
    cases hchannel
  · exact h

/-- What the end of a task does to one channel: nothing, unless the task has its assignment. -/
structure Answer (t : TunnelId) (m : Manager) (c : AcquireId)
    (f : Oneshot AssignmentResult → Oneshot AssignmentResult) : Prop where
  closed : f .closed = .closed
  other : ¬ m.Holds c → f = id
  sent : ∀ (channel : Oneshot AssignmentResult) (u : TunnelId), f channel = .sent (.ok u) →
    channel = .sent (.ok u) ∨ (u = t ∧ m.Holds c)

theorem answer_id (t : TunnelId) (m : Manager) (c : AcquireId) : Answer t m c id :=
  ⟨rfl, fun _ => rfl, fun _ _ h => .inl h⟩

theorem answer_drop (hc : m.Holds c) :
    Answer t m c .dropSender :=
  ⟨rfl, fun h => absurd hc h, fun _ _ h => .inl (Oneshot.dropSender_eq_sent_iff.mp h)⟩

theorem answer_send (hc : m.Holds c) (result : Except String Unit) :
    Answer t m c (.send (result.map fun _ => t)) := by
  refine ⟨rfl, fun h => absurd hc h, fun channel u h => ?_⟩
  rcases Oneshot.send_eq_sent_iff.mp h with h | ⟨-, h⟩
  · exact .inl h
  · cases result with
    | error e => cases h
    | ok _ => exact .inr ⟨(Except.ok.inj h).symm, hc⟩

theorem Answer.comp {f g : Oneshot AssignmentResult → Oneshot AssignmentResult}
    (hf : Answer t m c f) (hg : Answer t m c g) : Answer t m c (g ∘ f) := by
  refine ⟨?_, fun h => ?_, fun channel u h => ?_⟩
  · rw [Function.comp_apply, hf.closed, hg.closed]
  · rw [hf.other h, hg.other h]
    rfl
  · rcases hg.sent _ u h with h | h
    · exact hf.sent channel u h
    · exact .inr h

theorem dropSlot_get (responses : List (Oneshot AssignmentResult)) (t : TunnelId) (m : Manager)
    (c : AcquireId) : ∃ f, Answer t m c f ∧ (dropSlot responses m)[c]? = responses[c]?.map f := by
  cases hslot : m.slot with
  | none => exact ⟨id, answer_id t m c, by simp [dropSlot, hslot]⟩
  | some call =>
      by_cases hc : call = c
      · subst hc
        refine ⟨.dropSender, answer_drop (.inl hslot), ?_⟩
        simp only [dropSlot, hslot, Tasks.getElem?_modified, if_true]
      · refine ⟨id, answer_id t m c, ?_⟩
        simp only [dropSlot, hslot, Tasks.getElem?_modified, if_neg hc, Option.map_id_fun, id]

/-- One channel after a task's last step. -/
theorem answers_get (h : answers responses t m = some responses') (c : AcquireId) :
    ∃ f, Answer t m c f ∧ responses'[c]? = responses[c]?.map f := by
  obtain ⟨f, hf, hget⟩ := dropSlot_get responses t m c
  unfold answers at h
  split at h
  · rename_i call result hpc
    cases h
    by_cases hc : call = c
    · subst hc
      refine ⟨_, hf.comp (answer_send (.inr (.inr (.inr ⟨result, hpc⟩))) result), ?_⟩
      rw [Tasks.getElem?_modified, if_pos rfl, hget, Option.map_map]
    · refine ⟨f, hf, ?_⟩
      rw [Tasks.getElem?_modified, if_neg hc, hget]
  · cases h
    exact ⟨f, hf, hget⟩
  · cases h

theorem answers_length (h : answers responses t m = some responses') :
    responses'.length = responses.length := by
  have hdrop : (dropSlot responses m).length = responses.length := by
    unfold dropSlot
    split
    · rw [List.length_modify]
    · rfl
  unfold answers at h
  split at h
  · cases h
    rw [List.length_modify, hdrop]
  · cases h
    exact hdrop
  · cases h

theorem not_ended_of_answers (h : answers responses t m = some responses') : m.pc ≠ .ended := by
  intro he
  simp only [answers, he] at h
  cases h

/-! ### The parts of a step -/

section Parts

variable {s : Gateway}

/-- The rule for steps that leave the connections as they are. -/
theorem Assigned.frame {s' : Gateway} (h : s.Assigned) (hg : s.Grows s')
    (hpublics : s'.publics = s.publics) (hhanded : s'.pool.Handed)
    (hlength : s'.responses.length = s'.pool.acquires.length)
    (hunsent : ∀ (q : PublicId) (conn : PublicConnection), s.publics[q]? = some conn →
      conn.Unsent → s'.responses[conn.call]? = some .empty ∧ s'.Unheld conn.call)
    (hmanagers : ∀ (t : TunnelId) (m : Manager), s'.managers[t]? = some m → s'.ManagerOk t m)
    (hresponses : ∀ (call : AcquireId) (t : TunnelId), s'.responses[call]? = some (.sent (.ok t)) →
      s'.pool.Acquired call t ∧ s'.Ended t) : s'.Assigned := by
  refine ⟨hhanded, hlength, fun q conn hq => ?_, ?_, hmanagers, hresponses⟩
  · rw [hpublics] at hq
    exact (h.conns q conn hq).mono hg (hunsent q conn hq)
  · rw [hpublics]
    exact h.calls

/-- A step of a call under way. -/
theorem Assigned.withPool {pool : PoolState} (h : s.Assigned) (hhanded : pool.Handed)
    (hacq : ∀ (a : AcquireId) (t : TunnelId), s.pool.Acquired a t → pool.Acquired a t)
    (hlen : pool.acquires.length = s.pool.acquires.length) : Assigned { s with pool } := by
  have hg : s.Grows { s with pool } := ⟨hacq, fun _ ht => ht, Nat.le_of_eq hlen.symm⟩
  refine h.frame hg rfl hhanded (h.length.trans hlen.symm) ?_ ?_ ?_
  · exact fun p conn hp => (h.conns p conn hp).unsent
  · exact fun t m hm => (h.managers t m hm).mono hg
  · exact fun call t hr => ⟨hacq _ _ (h.responses call t hr).1, (h.responses call t hr).2⟩

/-- A connection moves on within its attempt. -/
theorem Assigned.toPublic {p : PublicId} {conn : PublicConnection} {pc : PublicPc} (h : s.Assigned)
    (hp : s.publics[p]? = some conn) (hok : s.ConnOk { conn with pc }) :
    (s.toPublic p conn pc).Assigned := by
  have hg : s.Grows (s.toPublic p conn pc) := ⟨fun _ _ ha => ha, fun _ ht => ht, Nat.le_refl _⟩
  -- the connections have the calls they had
  have hcall : ∀ (q : PublicId) (conn' : PublicConnection),
      (s.toPublic p conn pc).publics[q]? = some conn' →
      ∃ old, s.publics[q]? = some old ∧ old.call = conn'.call := by
    intro q conn' hq
    rw [getElem?_toPublic hp] at hq
    split_ifs at hq with hpq
    · cases hq
      exact ⟨conn, hpq ▸ hp, rfl⟩
    · exact ⟨conn', hq, rfl⟩
  constructor
  · exact h.handed
  · exact h.length
  · intro q conn' hq
    rw [getElem?_toPublic hp] at hq
    split_ifs at hq with hpq
    · cases hq
      exact hok.mono hg hok.unsent
    · exact (h.conns q conn' hq).mono hg (h.conns q conn' hq).unsent
  · intro q r conn₁ conn₂ hq hr heq
    obtain ⟨old₁, hold₁, hcall₁⟩ := hcall q conn₁ hq
    obtain ⟨old₂, hold₂, hcall₂⟩ := hcall r conn₂ hr
    exact h.calls q r old₁ old₂ hold₁ hold₂ (hcall₁.trans (heq.trans hcall₂.symm))
  · exact fun t m hm => (h.managers t m hm).mono hg
  · exact h.responses

/-- The receiver of an attempt that was sent, or is over, is dropped. -/
theorem Assigned.close {call : AcquireId} (h : s.Assigned)
    (hunsent : ∀ (q : PublicId) (conn : PublicConnection), s.publics[q]? = some conn →
      conn.Unsent → conn.call ≠ call) : (s.close call).Assigned := by
  have hg : s.Grows (s.close call) := ⟨fun _ _ ha => ha, fun _ ht => ht, Nat.le_refl _⟩
  refine h.frame hg rfl h.handed ?_ ?_ ?_ ?_
  · rw [Gateway.close, List.length_modify]
    exact h.length
  · intro q conn hq hun
    obtain ⟨hempty, hunheld⟩ := (h.conns q conn hq).unsent hun
    refine ⟨?_, hunheld⟩
    rw [Gateway.close, Tasks.getElem?_modified, if_neg (hunsent q conn hq hun).symm, hempty]
  · exact fun t m hm => (h.managers t m hm).mono hg
  · intro c t hr
    exact h.responses c t (sent_of_close hr)

/-- A new attempt, with a new call. -/
theorem Assigned.attempt {publics : List PublicConnection} {p : PublicId} {n : Nat} (h : s.Assigned)
    (hpublics : ∀ (q : PublicId) (conn : PublicConnection), publics[q]? = some conn →
      (q = p ∧ conn = ⟨n, s.pool.acquires.length, .acquiring⟩) ∨
        (q ≠ p ∧ s.publics[q]? = some conn)) : Assigned { s.attempt with publics } := by
  have hg : s.Grows { s.attempt with publics } := by
    refine ⟨fun a t ha => PoolState.acquired_spawn_iff.mpr ha, fun _ ht => ht, ?_⟩
    simp [Gateway.attempt, PoolState.acquire]
  have hlt : ∀ (a : AcquireId) (t : TunnelId), s.pool.Acquired a t → a < s.pool.acquires.length :=
    fun a t ha => Tasks.lt_length ha
  constructor
  · have hacquire : s.pool.step .acquire = some s.pool.acquire := rfl
    exact h.handed.step hacquire
  · simp [Gateway.attempt, PoolState.acquire, h.length]
  · intro q conn hq
    rcases hpublics q conn hq with ⟨-, rfl⟩ | ⟨-, hq⟩
    · refine ⟨?_, fun _ => ⟨?_, fun t m hm hc => ?_⟩, by simp, by simp⟩
      · simp [Gateway.attempt, PoolState.acquire]
      · rw [Gateway.attempt, Tasks.getElem?_spawn, if_pos h.length.symm]
      · exact Nat.lt_irrefl _ (hlt _ _ ((h.managers t m hm).holds _ hc))
    · refine (h.conns q conn hq).mono hg fun hun => ?_
      obtain ⟨hempty, hunheld⟩ := (h.conns q conn hq).unsent hun
      exact ⟨Tasks.spawn_old hempty _, hunheld⟩
  · intro q r conn₁ conn₂ hq hr heq
    rcases hpublics q conn₁ hq with ⟨rfl, rfl⟩ | ⟨-, hq⟩
    · rcases hpublics r conn₂ hr with ⟨rfl, -⟩ | ⟨-, hr⟩
      · rfl
      · exact absurd heq.symm (Nat.ne_of_lt (h.conns r conn₂ hr).call)
    · rcases hpublics r conn₂ hr with ⟨-, rfl⟩ | ⟨-, hr⟩
      · exact absurd heq (Nat.ne_of_lt (h.conns q conn₁ hq).call)
      · exact h.calls q r conn₁ conn₂ hq hr heq
  · exact fun t m hm => (h.managers t m hm).mono hg
  · intro c t hr
    rcases Tasks.of_spawn hr with hnew | hr
    · cases hnew
    · exact ⟨hg.acquired _ _ (h.responses c t hr).1, (h.responses c t hr).2⟩

/-- A task moves on, or is given the assignment of the call that acquired its tunnel. -/
theorem Assigned.withManager {t : TunnelId} {m m' : Manager} (h : s.Assigned)
    (hm : s.managers[t]? = some m) (hopen : m.pc ≠ .ended) (hopen' : m'.pc ≠ .ended)
    (hholds : ∀ call, m'.Holds call → m.Holds call ∨ (s.pool.Acquired call t ∧
      ∀ (q : PublicId) (conn : PublicConnection), s.publics[q]? = some conn → conn.Unsent →
        conn.call ≠ call)) : Assigned { s with managers := s.managers.set t m' } := by
  have hended : ∀ u, s.Ended u → Ended { s with managers := s.managers.set t m' } u :=
    fun u hu => hu.replace hm hopen rfl
  have hg : s.Grows { s with managers := s.managers.set t m' } :=
    ⟨fun _ _ ha => ha, hended, Nat.le_refl _⟩
  refine h.frame hg rfl h.handed h.length ?_ ?_ ?_
  · intro q conn hq hun
    obtain ⟨hempty, hunheld⟩ := (h.conns q conn hq).unsent hun
    refine ⟨hempty, fun u m₀ hm₀ hc => ?_⟩
    rw [Tasks.getElem?_replace hm] at hm₀
    split_ifs at hm₀ with htu
    · cases hm₀
      rcases hholds _ hc with hc | ⟨-, hne⟩
      · exact hunheld t m hm hc
      · exact hne q conn hq hun rfl
    · exact hunheld u m₀ hm₀ hc
  · intro u m₀ hm₀
    rw [Tasks.getElem?_replace hm] at hm₀
    split_ifs at hm₀ with htu
    · cases hm₀
      subst htu
      refine ⟨fun call hc => ?_, fun he => absurd he hopen'⟩
      rcases hholds call hc with hc | ⟨hacq, -⟩
      · exact (h.managers t m hm).holds call hc
      · exact hacq
    · exact (h.managers u m₀ hm₀).mono hg
  · exact fun call u hr => ⟨(h.responses call u hr).1, hended u (h.responses call u hr).2⟩

/-- A task's last step. -/
theorem Assigned.finish {t : TunnelId} {m : Manager}
    {responses : List (Oneshot AssignmentResult)} (h : s.Assigned)
    (hm : s.managers[t]? = some m) (hanswers : answers s.responses t m = some responses) :
    Assigned { s with responses, managers := s.managers.set t ⟨none, .ended⟩ } := by
  have hended : ∀ u, u = t ∨ s.Ended u →
      Ended { s with responses, managers := s.managers.set t ⟨none, .ended⟩ } u := by
    rintro u (rfl | hu)
    · exact ⟨⟨none, .ended⟩, Tasks.replace_self hm _, rfl⟩
    · exact hu.replace hm (not_ended_of_answers hanswers) rfl
  have hg : s.Grows { s with responses, managers := s.managers.set t ⟨none, .ended⟩ } :=
    ⟨fun _ _ ha => ha, fun u hu => hended u (.inr hu), Nat.le_refl _⟩
  have hfree : ∀ call, ¬ Manager.Holds ⟨none, .ended⟩ call := by
    intro call hc
    simp [Manager.Holds] at hc
  refine h.frame hg rfl h.handed ((answers_length hanswers).trans h.length) ?_ ?_ ?_
  · intro q conn hq hun
    obtain ⟨hempty, hunheld⟩ := (h.conns q conn hq).unsent hun
    obtain ⟨f, hf, hget⟩ := answers_get hanswers conn.call
    refine ⟨?_, fun u m₀ hm₀ hc => ?_⟩
    · rw [hget, hempty, hf.other (hunheld t m hm)]
      rfl
    · rcases Tasks.of_replace hm hm₀ with ⟨-, rfl⟩ | ⟨-, hm₀⟩
      · exact hfree _ hc
      · exact hunheld u m₀ hm₀ hc
  · intro u m₀ hm₀
    rcases Tasks.of_replace hm hm₀ with ⟨-, rfl⟩ | ⟨-, hm₀⟩
    · exact ⟨fun call hc => absurd hc (hfree call), fun _ => rfl⟩
    · exact (h.managers u m₀ hm₀).mono hg
  · intro call u hr
    obtain ⟨f, hf, hget⟩ := answers_get hanswers call
    rw [hget] at hr
    obtain ⟨channel, hchannel, hsent⟩ := Option.map_eq_some_iff.mp hr
    rcases hf.sent channel u hsent with rfl | ⟨rfl, hc⟩
    · obtain ⟨hacq, he⟩ := h.responses call u hchannel
      exact ⟨hacq, hended u (.inr he)⟩
    · exact ⟨(h.managers u m hm).holds call hc, hended u (.inl rfl)⟩

/-- A new tunnel. -/
theorem Assigned.tunnel (h : s.Assigned) : s.tunnel.Assigned := by
  have hmanager : ∀ (t : TunnelId) (m : Manager), s.tunnel.managers[t]? = some m →
      m = ⟨none, .unspawned⟩ ∨ s.managers[t]? = some m := fun _ _ hm => Tasks.of_spawn hm
  have hfree : ∀ call, ¬ Manager.Holds ⟨none, .unspawned⟩ call := by
    intro call hc
    simp [Manager.Holds] at hc
  have hg : s.Grows s.tunnel := ⟨fun _ _ ha => ha, fun _ ht => ht.tunnel, Nat.le_refl _⟩
  have hregister : s.pool.step .register = some s.pool.register := rfl
  refine h.frame hg rfl (h.handed.step hregister) h.length ?_ ?_ ?_
  · intro q conn hq hun
    obtain ⟨hempty, hunheld⟩ := (h.conns q conn hq).unsent hun
    refine ⟨hempty, fun t m hm hc => ?_⟩
    rcases hmanager t m hm with rfl | hm
    · exact hfree _ hc
    · exact hunheld t m hm hc
  · intro t m hm
    rcases hmanager t m hm with rfl | hm
    · exact ⟨fun call hc => absurd hc (hfree call), fun _ => rfl⟩
    · exact (h.managers t m hm).mono hg
  · exact fun call t hr => ⟨(h.responses call t hr).1, (h.responses call t hr).2.tunnel⟩

end Parts

/-! ### Steps -/

section Steps

variable {s s' : Gateway}

variable {conn : PublicConnection}

theorem ConnOk.leave (h : s.ConnOk conn) {pc : PublicPc}
    (hpc : pc = .awaiting ∨ ∃ error, pc = .failed error) : s.ConnOk { conn with pc } := by
  rcases hpc with rfl | ⟨error, rfl⟩
  · exact ⟨h.call, by simp [PublicConnection.Unsent], by simp, by simp⟩
  · exact ⟨h.call, by simp [PublicConnection.Unsent], by simp, by simp⟩

/-- The call of a connection that has sent its assignment is no other's. -/
theorem Assigned.call_ne {p : PublicId} {pc : PublicPc} (h : s.Assigned)
    (hp : s.publics[p]? = some conn) (hpc : ¬ PublicConnection.Unsent { conn with pc })
    (q : PublicId) (conn' : PublicConnection) (hq : (s.toPublic p conn pc).publics[q]? = some conn')
    (hun : conn'.Unsent) : conn'.call ≠ conn.call := by
  rw [getElem?_toPublic hp] at hq
  split_ifs at hq with hpq
  · cases hq
    exact absurd hun hpc
  · exact fun heq => hpq (h.calls p q conn conn' hp hq heq.symm)

theorem Assigned.retry {p : PublicId} (h : s.Assigned) (hp : s.publics[p]? = some conn) :
    (s.retry p conn).Assigned := by
  -- the attempt fails first; then a new one may take its place
  have hfailed : ((s.toPublic p conn (.failed ["no usable NAT tunnel was available"])).close
      conn.call).Assigned := by
    refine (h.toPublic hp ((h.conns p conn hp).leave (.inr ⟨_, rfl⟩))).close ?_
    exact h.call_ne hp (by simp [PublicConnection.Unsent])
  unfold Gateway.retry
  split_ifs
  · exact hfailed
  · have hnew : ∀ (q : PublicId) (conn' : PublicConnection),
        (s.publics.set p ⟨conn.attempts + 1, s.pool.acquires.length, .acquiring⟩)[q]? = some conn' →
        (q = p ∧ conn' = ⟨conn.attempts + 1, s.pool.acquires.length, .acquiring⟩) ∨ (q ≠ p ∧
          (s.publics.set p { conn with pc := .failed ["no usable NAT tunnel was available"] })[q]? =
            some conn') := by
      intro q conn' hq
      rw [Tasks.getElem?_replace hp] at hq
      split_ifs at hq with hpq
      · exact .inl ⟨hpq.symm, (Option.some.inj hq).symm⟩
      · exact .inr ⟨Ne.symm hpq, (List.getElem?_set_ne hpq).trans hq⟩
    exact hfailed.attempt hnew

/-- A task keeps its assignments until it answers them. -/
theorem holds_of_step {m m' : Manager} {action : ManagerAction} (h : m.step action = some m') :
    (∀ call, m'.Holds call → m.Holds call) ∧ m.pc ≠ .ended ∧ m'.pc ≠ .ended := by
  cases Manager.did_of_step h with
  | spawn hpc | recv hpc hslot | tick hpc | pong hpc | noPong hpc | ready hpc | clear hpc
  | clearBroken hpc => simp_all [Manager.Holds]

/-- The pool's part in a task's step leaves the `acquire` calls alone. -/
theorem Assigned.perform {t : TunnelId} {action : ManagerAction} {pool : PoolState}
    (h : s.Assigned) (hpool : s.pool.perform (action.onPool t) = some pool) :
    Assigned { s with pool } := by
  have hstep : ∀ b : PoolAction, b ≠ .acquire → s.pool.step b = some pool →
      Assigned { s with pool } := fun b hne hb =>
    h.withPool (h.handed.step hb) (fun a u ha => ha.step hb) (PoolState.length_acquires_step hne hb)
  cases action with
  | spawn => exact hstep (.spawn t) (by simp) hpool
  | clear => exact hstep (.die t) (by simp) hpool
  | recv | tick | pong reply | ready reply =>
      cases hpool
      exact h

theorem Assigned.step {action : GatewayAction} (h : s.Assigned) (hs : s.step action = some s') :
    s'.Assigned := by
  cases did_of_step hs with
  | tunnel => exact h.tunnel
  | accept =>
      refine h.attempt (p := s.publics.length) (n := 1) fun q conn hq => ?_
      rw [Tasks.getElem?_spawn] at hq
      split_ifs at hq with hlen
      · exact .inl ⟨hlen, (Option.some.inj hq).symm⟩
      · exact .inr ⟨hlen, hq⟩
  | pool hw hpool =>
      refine h.withPool (h.handed.step hpool) (fun a t ha => ha.step hpool) ?_
      refine PoolState.length_acquires_step ?_ hpool
      rintro rfl
      exact hw
  | manager hm hstep hpool =>
      obtain ⟨hholds, hopen, hopen'⟩ := holds_of_step hstep
      exact (h.perform hpool).withManager hm hopen hopen' fun call hc => .inl (hholds call hc)
  | finish hm hanswers => exact h.finish hm hanswers
  | candidate hp hpc ht =>
      have hconn := h.conns _ _ hp
      refine h.toPublic hp ⟨hconn.call, fun _ => hconn.unsent (.inl hpc), ?_, by simp⟩
      rintro u (hu | hu) <;> cases hu
      exact ht
  | noCandidate hp => exact h.toPublic hp ((h.conns _ _ hp).leave (.inr ⟨_, rfl⟩))
  | refused hp | noStream hp | expire hp => exact h.retry hp
  | @send p conn t m hp hpc hm hopen hslot =>
      have hconn := h.conns p conn hp
      refine (h.toPublic hp (hconn.leave (.inl rfl))).withManager hm hopen hopen fun call hc => ?_
      rcases hc with hc | hc
      · cases hc
        exact .inr ⟨hconn.has t (.inl hpc), h.call_ne hp (by simp [PublicConnection.Unsent])⟩
      · exact .inl (.inr hc)
  | @receive p conn t hp hpc hr =>
      obtain ⟨hacq, hended⟩ := h.responses _ _ hr
      have hsent : ¬ PublicConnection.Unsent { conn with pc := .forwarding t } := by
        simp [PublicConnection.Unsent]
      have hok : s.ConnOk { conn with pc := .forwarding t } := by
        refine ⟨(h.conns p conn hp).call, fun hun => absurd hun hsent, ?_, ?_⟩
        · rintro u (hu | hu) <;> cases hu
          exact hacq
        · intro u hu
          cases hu
          exact hended
      exact (h.toPublic hp hok).close (h.call_ne hp hsent)

theorem assigned_of_reaches {capacity : Nat} {ok : Gateway → GatewayAction → Prop}
    (h : Reaches step ok (new capacity) s) : s.Assigned :=
  h.invariant (assigned_new capacity) fun _ _ _ hs _ hstep => hs.step hstep

end Steps

end Gateway

end SingBoxMini.NatTunnel
