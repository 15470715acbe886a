import SingBoxMini.NatTunnel.Ownership

/-!
# NAT tunnel — Assignment — Exclusive

To whom a tunnel's stream goes.

* `Assigned.sentTo_unique`: the stream of a tunnel goes to one public connection.
* `Assigned.sentTo_of_step`: a task that has ended sends its stream to nobody.
* `exclusive_assignment`: so it is in every run; a stream whose requester has given up is dropped,
  and the queue keeps its capacity.
-/

namespace SingBoxMini.NatTunnel
open Runs

/-- The connection neither has a stream nor waits for one. -/
def PublicConnection.Bare (conn : PublicConnection) : Prop :=
  conn.pc ≠ .awaiting ∧ ∀ t, conn.pc ≠ .forwarding t

namespace Gateway

/-- **The stream of `t` was delivered to `p`**: the connection has it, or it is in the channel the
connection awaits. -/
def SentTo (s : Gateway) (t : TunnelId) (p : PublicId) : Prop :=
  ∃ conn, s.publics[p]? = some conn ∧ (conn.pc = .forwarding t ∨
    (conn.pc = .awaiting ∧ s.responses[conn.call]? = some (.sent (.ok t))))

/-- The requester of `t` has given up: the task has an assignment whose receiver is gone. -/
def GaveUp (s : Gateway) (t : TunnelId) : Prop :=
  ∃ m call, s.managers[t]? = some m ∧ m.Holds call ∧ s.responses[call]? = some .closed

/-! ### To whom a stream goes -/

section Delivery

variable {s s' : Gateway} {t : TunnelId}

variable {p q : PublicId} {conn : PublicConnection} {action : GatewayAction} {call : AcquireId}

/-- The stream goes to the connection whose call acquired the tunnel. -/
theorem Assigned.acquired_of_sentTo (h : s.Assigned) (hsent : s.SentTo t p) :
    ∃ conn, s.publics[p]? = some conn ∧ s.pool.Acquired conn.call t := by
  obtain ⟨conn, hp, hpc | ⟨-, hr⟩⟩ := hsent
  · exact ⟨conn, hp, (h.conns p conn hp).has t (.inr hpc)⟩
  · exact ⟨conn, hp, (h.responses _ _ hr).1⟩

/-- A stream is delivered at the end of its task. -/
theorem Assigned.ended_of_sentTo (h : s.Assigned) (hsent : s.SentTo t p) :
    s.Ended t := by
  obtain ⟨conn, hp, hpc | ⟨-, hr⟩⟩ := hsent
  · exact (h.conns p conn hp).served t hpc
  · exact (h.responses _ _ hr).2

/-- **One connection**: the stream of a tunnel goes to one public connection. -/
theorem Assigned.sentTo_unique (h : s.Assigned) (hp : s.SentTo t p) (hq : s.SentTo t q) :
    p = q := by
  obtain ⟨conn, hconn, hacq⟩ := h.acquired_of_sentTo hp
  obtain ⟨conn', hconn', hacq'⟩ := h.acquired_of_sentTo hq
  exact h.calls p q conn conn' hconn hconn' (h.handed.once _ _ t hacq hacq')

theorem bare_or_old {new conn' : PublicConnection} (hp : s.publics[p]? = some conn)
    (hnew : new.Bare) (hq : (s.publics.set p new)[q]? = some conn') :
    conn'.Bare ∨ s.publics[q]? = some conn' := by
  rcases Tasks.of_replace hp hq with ⟨-, rfl⟩ | ⟨-, hq⟩
  · exact .inl hnew
  · exact .inr hq

theorem publics_retry {conn' : PublicConnection} (hp : s.publics[p]? = some conn)
    (hq : (s.retry p conn).publics[q]? = some conn') :
    conn'.Bare ∨ s.publics[q]? = some conn' := by
  unfold retry at hq
  split_ifs at hq
  · exact bare_or_old hp (by simp [PublicConnection.Bare]) hq
  · exact bare_or_old hp (by simp [PublicConnection.Bare]) hq

/-- **How a connection comes to a stream**: it sends an assignment, then takes the stream out of
its channel. -/
inductive CameTo (s : Gateway) (p : PublicId) : PublicConnection → Prop where
  | bare {conn : PublicConnection} (h : conn.Bare) : CameTo s p conn
  | old {conn : PublicConnection} (h : s.publics[p]? = some conn) : CameTo s p conn
  | sent {conn : PublicConnection} (hp : s.publics[p]? = some conn) (h : conn.Unsent) :
      CameTo s p { conn with pc := .awaiting }
  | received {conn : PublicConnection} {t : TunnelId} (hp : s.publics[p]? = some conn)
      (hpc : conn.pc = .awaiting) (hr : s.responses[conn.call]? = some (.sent (.ok t))) :
      CameTo s p { conn with pc := .forwarding t }

theorem cameTo_of_step (hs : s.step action = some s') (hp : s'.publics[p]? = some conn) :
    s.CameTo p conn := by
  have hbare : conn.Bare ∨ s.publics[p]? = some conn → s.CameTo p conn := by
    rintro (h | h)
    · exact .bare h
    · exact .old h
  cases did_of_step hs with
  | tunnel | pool | manager | finish => exact .old hp
  | accept =>
      rcases Tasks.of_spawn hp with rfl | hp
      · exact .bare (by simp [PublicConnection.Bare])
      · exact .old hp
  | candidate hq | noCandidate hq =>
      exact hbare (bare_or_old hq (by simp [PublicConnection.Bare]) hp)
  | refused hq | noStream hq | expire hq => exact hbare (publics_retry hq hp)
  | @send q old t _ hq hpc =>
      replace hp := (getElem?_toPublic hq .awaiting p).symm.trans hp
      split_ifs at hp with hqp
      · cases hp
        exact .sent (hqp ▸ hq) (.inr ⟨t, hpc⟩)
      · exact .old hp
  | @receive q old t hq hpc hr =>
      replace hp := (getElem?_toPublic hq (.forwarding t) p).symm.trans hp
      split_ifs at hp with hqp
      · cases hp
        exact .received (hqp ▸ hq) hpc hr
      · exact .old hp

theorem sent_of_attempt {result : AssignmentResult}
    (h : s.attempt.responses[call]? = some (.sent result)) :
    s.responses[call]? = some (.sent result) :=
  (Tasks.of_spawn h).resolve_left (by simp)

theorem sent_of_retry {result : AssignmentResult}
    (h : (s.retry p conn).responses[call]? = some (.sent result)) :
    s.responses[call]? = some (.sent result) := by
  unfold retry at h
  split_ifs at h
  · exact sent_of_close h
  · exact sent_of_close (sent_of_attempt h)

/-- **How a stream comes into a channel**: only its task sends it, as its last step. -/
theorem sent_of_step (hs : s.step action = some s')
    (hr : s'.responses[call]? = some (.sent (.ok t))) :
    s.responses[call]? = some (.sent (.ok t)) ∨
      ∃ m, s.managers[t]? = some m ∧ answers s.responses t m = some s'.responses := by
  cases did_of_step hs with
  | tunnel | pool | manager | candidate | noCandidate | send => exact .inl hr
  | accept => exact .inl (sent_of_attempt hr)
  | refused | noStream | expire => exact .inl (sent_of_retry hr)
  | receive => exact .inl (sent_of_close hr)
  | finish hm hanswers =>
      obtain ⟨f, hf, hget⟩ := answers_get hanswers call
      rw [hget] at hr
      obtain ⟨channel, hchannel, hsent⟩ := Option.map_eq_some_iff.mp hr
      rcases hf.sent channel t hsent with rfl | ⟨rfl, -⟩
      · exact .inl hchannel
      · exact .inr ⟨_, hm, hanswers⟩

/-- A stream that came into no channel in a step goes to nobody new. -/
theorem Assigned.sentTo_of_unsent (h : s.Assigned) (hs : s.step action = some s')
    (hold : ∀ call : AcquireId, s'.responses[call]? = some (.sent (.ok t)) →
      s.responses[call]? = some (.sent (.ok t))) (hsent : s'.SentTo t p) : s.SentTo t p := by
  obtain ⟨conn, hp, hpc⟩ := hsent
  cases cameTo_of_step hs hp with
  | bare hbare =>
      rcases hpc with hpc | ⟨hpc, -⟩
      · exact absurd hpc (hbare.2 t)
      · exact absurd hpc hbare.1
  | old hconn =>
      refine ⟨conn, hconn, ?_⟩
      rcases hpc with hpc | ⟨hpc, hr⟩
      · exact .inl hpc
      · exact .inr ⟨hpc, hold _ hr⟩
  | sent hconn hun =>
      -- what is sent now has no answer yet
      obtain ⟨hempty, -⟩ := (h.conns p _ hconn).unsent hun
      rcases hpc with hpc | ⟨-, hr⟩
      · cases hpc
      · cases hempty.symm.trans (hold _ hr)
  | received hconn hawaits hr =>
      rcases hpc with hpc | ⟨hpc, -⟩
      · cases hpc
        exact ⟨_, hconn, .inr ⟨hawaits, hr⟩⟩
      · cases hpc

/-- **Nothing after the end**: a task that has ended sends its stream to nobody. -/
theorem Assigned.sentTo_of_step (h : s.Assigned) (hended : s.Ended t) (hs : s.step action = some s')
    (hsent : s'.SentTo t p) : s.SentTo t p := by
  refine h.sentTo_of_unsent hs (fun call hr => ?_) hsent
  refine (sent_of_step hs hr).resolve_right ?_
  rintro ⟨m, hm, hanswers⟩
  obtain ⟨m', hm', he⟩ := hended
  cases hm.symm.trans hm'
  exact not_ended_of_answers hanswers he

theorem managers_retry (s : Gateway) (p : PublicId) (conn : PublicConnection) :
    (s.retry p conn).managers = s.managers := by
  unfold retry
  split_ifs <;> rfl

theorem Ended.step (h : s.Ended t) (hs : s.step action = some s') :
    s'.Ended t := by
  cases did_of_step hs with
  | tunnel => exact h.tunnel
  | accept | pool | candidate | noCandidate | receive => exact h
  | manager hm hstep => exact h.replace hm (holds_of_step hstep).2.1 rfl
  | finish hm hanswers => exact h.replace hm (not_ended_of_answers hanswers) rfl
  | send _ _ hm hopen => exact h.replace hm hopen rfl
  | refused | noStream | expire =>
      rw [Ended, managers_retry]
      exact h

/-! ### A requester that has given up -/

theorem closed_attempt (h : s.responses[call]? = some .closed) :
    s.attempt.responses[call]? = some .closed := Tasks.spawn_old h _

theorem closed_close {c : AcquireId} (h : s.responses[call]? = some .closed) :
    (s.close c).responses[call]? = some .closed := by
  rw [close, Tasks.getElem?_modified, h]
  split_ifs <;> rfl

theorem closed_retry (h : s.responses[call]? = some .closed) (p : PublicId)
    (conn : PublicConnection) : (s.retry p conn).responses[call]? = some .closed := by
  unfold retry
  split_ifs
  · exact closed_close h
  · exact closed_attempt (closed_close h)

/-- A receiver that is gone does not come back. -/
theorem closed_step (h : s.responses[call]? = some .closed) (hs : s.step action = some s') :
    s'.responses[call]? = some .closed := by
  cases did_of_step hs with
  | tunnel | pool | manager | candidate | noCandidate | send => exact h
  | accept => exact closed_attempt h
  | finish _ hanswers =>
      obtain ⟨f, hf, hget⟩ := answers_get hanswers call
      rw [hget, h, Option.map_some, hf.closed]
  | refused | noStream | expire => exact closed_retry h _ _
  | receive => exact closed_close h

/-- The requester of `t` is gone, and no connection has the stream. -/
structure Forsaken (s : Gateway) (t : TunnelId) (call : AcquireId) : Prop where
  acquired : s.pool.Acquired call t
  closed : s.responses[call]? = some .closed
  unserved : ∀ (p : PublicId) (conn : PublicConnection), s.publics[p]? = some conn →
    conn.pc ≠ .forwarding t

/-- No channel holds the stream of a tunnel whose requester is gone. -/
theorem Forsaken.not_sent {c : AcquireId} (h : s.Forsaken t call) (ha : s.Assigned) :
    s.responses[c]? ≠ some (.sent (.ok t)) := by
  intro hr
  have hcall := ha.handed.once _ _ t (ha.responses c t hr).1 h.acquired
  rw [hcall, h.closed] at hr
  cases hr

theorem Forsaken.not_sentTo (h : s.Forsaken t call) (ha : s.Assigned) (p : PublicId) :
    ¬ s.SentTo t p := by
  rintro ⟨conn, hp, hpc | ⟨-, hr⟩⟩
  · exact h.unserved p conn hp hpc
  · exact h.not_sent ha hr

theorem Forsaken.step (h : s.Forsaken t call) (ha : s.Assigned) (hs : s.step action = some s') :
    s'.Forsaken t call := by
  refine ⟨?_, closed_step h.closed hs, fun p conn hp hpc => ?_⟩
  · rcases pool_of_step hs with heq | ⟨b, hb⟩
    · exact heq ▸ h.acquired
    · exact h.acquired.step hb
  · cases cameTo_of_step hs hp with
    | bare hbare => exact hbare.2 t hpc
    | old hconn => exact h.unserved p conn hconn hpc
    | sent => cases hpc
    | received _ _ hr =>
        cases hpc
        exact h.not_sent ha hr

/-- A task with an assignment whose receiver is gone. -/
theorem Assigned.forsaken (h : s.Assigned) (hgave : s.GaveUp t) : ∃ call, s.Forsaken t call := by
  obtain ⟨m, call, hm, hholds, hclosed⟩ := hgave
  refine ⟨call, (h.managers t m hm).holds call hholds, hclosed, fun p conn hp hpc => ?_⟩
  -- a connection has the stream of an ended task only, and that holds nothing
  obtain ⟨m', hm', he⟩ := (h.conns p conn hp).served t hpc
  cases hm.symm.trans hm'
  have hslot := (h.managers t m hm).slot he
  simp [Manager.Holds, hslot, he] at hholds

end Delivery

/-- **Exclusive assignment.**  In every state of every run:
the stream of a tunnel was delivered to at most one public connection;
a tunnel whose task has ended is delivered to nobody from then on;
the stream of a tunnel whose requester has given up is delivered to nobody, then or later;
and the queue holds at most `capacity` tunnels. -/
theorem exclusive_assignment {capacity : Nat} {s : Gateway}
    (h : Reaches step (fun _ _ => True) (new capacity) s) :
    (∀ t p q, s.SentTo t p → s.SentTo t q → p = q) ∧
      (∀ t s' p, s.Ended t → Reaches step (fun _ _ => True) s s' → s'.SentTo t p → s.SentTo t p) ∧
      (∀ t s' p, s.GaveUp t → Reaches step (fun _ _ => True) s s' → ¬ s'.SentTo t p) ∧
      s.pool.pool.idle.length ≤ capacity := by
  have ha := assigned_of_reaches h
  refine ⟨fun t p q => ha.sentTo_unique, fun t s' p hended hr => ?_, fun t s' p hgave hr => ?_, ?_⟩
  · have hinv : s'.Assigned ∧ s'.Ended t ∧ (s'.SentTo t p → s.SentTo t p) := by
      refine hr.invariant (I := fun u => u.Assigned ∧ u.Ended t ∧ (u.SentTo t p → s.SentTo t p))
        ⟨ha, hended, id⟩ ?_
      rintro u action u' ⟨hu, hue, hback⟩ - hstep
      exact ⟨hu.step hstep, hue.step hstep, fun hsent => hback (hu.sentTo_of_step hue hstep hsent)⟩
    exact hinv.2.2
  · obtain ⟨call, hforsaken⟩ := ha.forsaken hgave
    have hinv : s'.Assigned ∧ s'.Forsaken t call := by
      refine hr.invariant (I := fun u => u.Assigned ∧ u.Forsaken t call) ⟨ha, hforsaken⟩ ?_
      rintro u action u' ⟨hu, huf⟩ - hstep
      exact ⟨hu.step hstep, huf.step hu hstep⟩
    exact hinv.2.not_sentTo hinv.1 p
  · exact PoolState.length_idle_of_reaches (pool_reaches h)

/-- Two tunnels and two connections.  Connection 0 gets the stream of tunnel 0; connection 1 gives
up while tunnel 1 is activated. -/
def deliveredAndGivenUp : List GatewayAction :=
  [.tunnel, .tunnel, .accept, .accept, .pool (.push 0 []), .pool (.push 1 []), .pool (.notify 0),
    .pool (.notify 1), .manager 0 .spawn, .manager 1 .spawn, .pool (.pop 0 []), .pool (.pop 1 []),
    .candidate 0, .candidate 1, .send 0, .send 1, .manager 0 .recv, .manager 1 .recv,
    .manager 0 (.ready (.byte readyCommand)), .manager 0 .clear, .finish 0, .receive 0, .expire 1]

theorem exclusive_assignment_two_tunnels : ∃ s, run step (new 4) deliveredAndGivenUp = some s ∧
    s.SentTo 0 0 ∧ s.Ended 0 ∧ s.GaveUp 1 ∧ (∀ q, s.SentTo 0 q → 0 = q) ∧
    (∀ s' p, Reaches step (fun _ _ => True) s s' → ¬ s'.SentTo 1 p) := by
  have h : Reaches step (fun _ _ => True) (new 4) _ := reaches_of_run deliveredAndGivenUp .refl rfl
  refine ⟨_, rfl, ⟨_, rfl, .inl rfl⟩, ⟨_, rfl, rfl⟩, ⟨_, 1, rfl, .inr (.inl rfl), rfl⟩, ?_, ?_⟩
  · intro q hq
    exact (exclusive_assignment h).1 0 0 q ⟨_, rfl, .inl rfl⟩ hq
  · intro s' p hr
    exact (exclusive_assignment h).2.2.1 1 s' p ⟨_, 1, rfl, .inr (.inl rfl), rfl⟩ hr

end Gateway

end SingBoxMini.NatTunnel
