import Mathlib.Data.List.Basic
import Mathlib.Tactic.SplitIfs
import SingBoxMini.Server.AcceptLoop

/-!
# Server — Accept loop — Rate cells

Which connection's congestion controller a rate cell belongs to when the accept loop hands it out.

The loop pairs cells with connections by their order in the queue only, and a connection that moves
to a new path pushes a cell nobody takes.

* `migration_shifts_cells`: after such a move the next client is given the cell of the first
  client's controller, and its rate is stored there.
* `rate_cells_paired`: the cell passed to `authenticate_connection` is that of the connection's own
  controller, and no rate is stored into another connection's controller, in every run in which a
  connection that will be established is built while the queue is empty and the loop waits for it,
  and no connection moves to a new path before its cell was passed.
* `keepsPairing_of_no_build_on_migration`: so it is in every run without such moves.

Cells are owned: a connection's controllers have the cells its own calls of `build` made, and no
two connections share one (`Paired`).
-/

namespace SingBoxMini.Server
open Runs

/-- The attempt the loop is handling. -/
def LoopPc.current : LoopPc → Option ConnId
  | .handling c _ _ => some c
  | _ => none

namespace State

/-- The cell of the `Hy2Controller` of the connection's present path. -/
def controller (s : State) (c : ConnId) : Option Cell :=
  s.conns[c]?.bind fun conn => conn.controllers.head?

/-- The task of `c` is about to pass `cell` to `authenticate_connection`. -/
def Passes (s : State) (c : ConnId) (cell : Cell) : Prop :=
  ∃ conn, s.conns[c]? = some conn ∧ conn.task = .spawned cell ∧ conn.outcome = .succeeds ∧
    s.Ready c conn

/-- `authenticate_connection` is about to store the rate of client `c` into `cell`. -/
def Stores (s : State) (c : ConnId) (cell : Cell) : Prop :=
  ∃ conn, s.conns[c]? = some conn ∧ conn.task = .authenticating cell

/-- A connection that will be established is built while the queue is empty and the loop waits for
its cell, and a connection moves to a new path only after its cell was passed on. -/
def KeepsPairing (s : State) : Action → Prop
  | .push c => ∀ conn ∈ s.conns[c]?, conn.outcome = .succeeds →
      s.congestion.pendingRates = [] ∧ s.pc.current = some c
  | .migrate c false => ∀ conn ∈ s.conns[c]?, conn.task.passed ≠ none
  | _ => True

instance (s : State) (a : Action) : Decidable (s.KeepsPairing a) := by
  unfold KeepsPairing
  split <;> infer_instance

/-! ### A migration shifts the pairing -/

/-- Client 0 is served and moves to a new path; then client 1 connects. -/
def afterMigration : List Action :=
  [.accept .succeeds, .push 0, .notify 0, .poll, .poll, .authenticate 0, .negotiate 0 1000000,
    .migrate 0 false, .notify 0, .accept .succeeds, .push 1, .notify 1, .poll, .poll]

/-- The cell passed for client 1 is that of client 0's controller, and the rate negotiated with
client 1 is stored there while its own controller keeps 0. -/
theorem migration_shifts_cells : ∃ s t, run step (init 0) afterMigration = some s ∧
    s.Passes 1 1 ∧ s.controller 0 = some 1 ∧ s.controller 1 = some 2 ∧
    run step s [.authenticate 1, .negotiate 1 9000000] = some t ∧
    t.rates[1]? = some 9000000 ∧ t.rates[2]? = some 0 := by
  refine ⟨_, _, rfl, ?_, rfl, rfl, rfl, rfl, rfl⟩
  exact ⟨_, rfl, rfl, rfl, by decide⟩

/-! ### The invariant -/

/-- What holds of the cells of one connection. -/
structure Owns (s : State) (c : ConnId) (conn : Connection) : Prop where
  made : ∀ cell ∈ conn.controllers, cell < s.rates.length
  own : conn.outcome = .succeeds → conn.built = true →
    (∃ cell rest, s.pc.current = some c ∧ s.congestion.pendingRates = cell :: rest ∧
      conn.controllers.head? = some cell) ∨
    (∃ cell, conn.task = .spawned cell ∧ conn.controllers.head? = some cell) ∨
    conn.task.passed ≠ none
  passed : ∀ cell, conn.task.passed = some cell → cell ∈ conn.controllers

/-- **Who owns which cell.** -/
structure Paired (s : State) : Prop where
  owns : ∀ (c : ConnId) (conn : Connection), s.conns[c]? = some conn → s.Owns c conn
  disjoint : ∀ (c d : ConnId) (conn conn' : Connection), s.conns[c]? = some conn →
    s.conns[d]? = some conn' → c ≠ d → List.Disjoint conn.controllers conn'.controllers
  handled : ∀ c, s.pc.current = some c → ∃ conn, s.conns[c]? = some conn ∧
    conn.task = .notSpawned

theorem paired_init (serverLimitBps : UInt64) : (init serverLimitBps).Paired := by
  constructor <;> simp [init, LoopPc.current]

variable {s s' : State} {c : ConnId} {conn : Connection}

/-- Steps that leave the connections, the queue and the attempt being handled as they are. -/
theorem Paired.frame (h : s.Paired) (hconns : s'.conns = s.conns) (hrates : s'.rates = s.rates)
    (hcurrent : s'.pc.current = s.pc.current)
    (hq : s'.congestion.pendingRates = s.congestion.pendingRates) : s'.Paired := by
  constructor
  · intro c conn hc
    obtain ⟨made, own, passed⟩ := h.owns c conn (hconns ▸ hc)
    exact ⟨hrates ▸ made, hcurrent ▸ hq ▸ own, passed⟩
  · rw [hconns]; exact h.disjoint
  · rw [hconns, hcurrent]; exact h.handled

theorem Paired.leave (h : s.Paired) (hpc : s.pc = .select) :
    Paired { s with pc := .returned } :=
  h.frame rfl rfl (by simp [hpc, LoopPc.current]) rfl

/-- The connection being handled has no task. -/
theorem Paired.current_ne (h : s.Paired) (hc : s.conns[c]? = some conn)
    (ht : conn.task ≠ .notSpawned) : s.pc.current ≠ some c := by
  intro hcurrent
  obtain ⟨conn', hc', ht'⟩ := h.handled c hcurrent
  cases hc.symm.trans hc'
  exact ht ht'

/-- Replacing a connection keeps the cells of any two apart, if the new one's are. -/
theorem Paired.disjoint_set (h : s.Paired) {new : Connection} (hc : s.conns[c]? = some conn)
    (hnew : ∀ (d : ConnId) (conn' : Connection), s.conns[d]? = some conn' → c ≠ d →
      List.Disjoint new.controllers conn'.controllers) :
    ∀ (d d' : ConnId) (conn₁ conn₂ : Connection), (s.conns.set c new)[d]? = some conn₁ →
      (s.conns.set c new)[d']? = some conn₂ → d ≠ d' →
      List.Disjoint conn₁.controllers conn₂.controllers := by
  intro d d' conn₁ conn₂ hd hd' hne
  rw [Tasks.getElem?_replace hc] at hd hd'
  split_ifs at hd hd' with e e' e'
  · exact absurd (e.symm.trans e') hne
  · cases hd
    exact hnew d' conn₂ hd' (e ▸ hne)
  · cases hd'
    exact List.disjoint_comm.mp (hnew d conn₁ hd e)
  · exact h.disjoint d d' conn₁ conn₂ hd hd' hne

theorem Paired.build (h : s.Paired) (hc : s.conns[c]? = some conn)
    (hown : conn.outcome = .succeeds →
      (s.congestion.pendingRates = [] ∧ s.pc.current = some c) ∨ conn.task.passed ≠ none) :
    (s.build c conn).Paired := by
  have get := Tasks.getElem?_replace hc
    { conn with built := true, controllers := s.rates.length :: conn.controllers }
  have fresh : ∀ (d : ConnId) (conn' : Connection), s.conns[d]? = some conn' →
      s.rates.length ∉ conn'.controllers :=
    fun d conn' hd hmem => absurd ((h.owns d conn' hd).made _ hmem) (Nat.lt_irrefl _)
  constructor
  · intro d conn' hd
    simp only [State.build, get] at hd
    split_ifs at hd with e
    · subst e
      cases hd
      obtain ⟨made, -, passed⟩ := h.owns c conn hc
      refine ⟨?_, ?_, fun cell ht => List.mem_cons_of_mem _ (passed cell ht)⟩
      · intro cell hcell
        simp only [State.build, List.length_append, List.length_singleton]
        rcases List.mem_cons.mp hcell with rfl | hcell
        · exact Nat.lt_succ_self _
        · exact Nat.lt_succ_of_lt (made cell hcell)
      · intro ho _
        rcases hown ho with ⟨hq, hcurrent⟩ | hpassed
        · exact .inl ⟨s.rates.length, [], hcurrent, by simp [State.build, hq], rfl⟩
        · exact .inr (.inr hpassed)
    · obtain ⟨made, own, passed⟩ := h.owns d conn' hd
      refine ⟨?_, ?_, passed⟩
      · intro cell hcell
        simp only [State.build, List.length_append, List.length_singleton]
        exact Nat.lt_succ_of_lt (made cell hcell)
      · intro ho hb
        refine (own ho hb).imp_left ?_
        rintro ⟨cell, rest, hcurrent, hq, hhead⟩
        exact ⟨cell, rest ++ [s.rates.length], hcurrent, by simp [State.build, hq], hhead⟩
  · refine h.disjoint_set hc fun d conn' hd hne => ?_
    exact List.disjoint_cons_left.mpr ⟨fresh d conn' hd, h.disjoint c d conn conn' hc hd hne⟩
  · intro d hcurrent
    obtain ⟨conn', hd, ht⟩ := h.handled d hcurrent
    simp only [State.build, get]
    split_ifs with e
    · subst e
      cases hc.symm.trans hd
      exact ⟨_, rfl, ht⟩
    · exact ⟨conn', hd, ht⟩

theorem Paired.accept (h : s.Paired) (outcome : Outcome) (hpc : s.pc = .select) :
    Paired { s with
      pc := .handling s.conns.length false .unpolled
      conns := s.conns ++ [⟨outcome, false, [], .notSpawned⟩] } := by
  have get := Tasks.getElem?_spawn s.conns ⟨outcome, false, [], .notSpawned⟩
  constructor
  · intro c conn hc
    simp only [get] at hc
    split_ifs at hc with e
    · cases hc
      exact ⟨nofun, nofun, nofun⟩
    · obtain ⟨made, own, passed⟩ := h.owns c conn hc
      refine ⟨made, fun ho hb => (own ho hb).imp_left ?_, passed⟩
      rintro ⟨cell, rest, hcurrent, -⟩
      simp [hpc, LoopPc.current] at hcurrent
  · intro c d conn conn' hc hd hne
    simp only [get] at hc hd
    split_ifs at hc hd with e e' e'
    · exact absurd (e.trans e'.symm) hne
    · cases hc
      exact List.disjoint_nil_left _
    · cases hd
      exact List.disjoint_nil_right _
    · exact h.disjoint c d conn conn' hc hd hne
  · rintro c ⟨⟩
    exact ⟨_, (get _).trans (if_pos rfl), rfl⟩

/-- A task moves on: the loop has spawned it, or it has its cell and goes on with it. -/
theorem Paired.setTask (h : s.Paired) {task : Task} (hc : s.conns[c]? = some conn)
    (hconns : s'.conns = s.conns.set c { conn with task := task })
    (hrates : s'.rates.length = s.rates.length) (hcurrent : s'.pc.current ≠ some c)
    (hothers : ∀ d, d ≠ c → s'.pc.current = some d → s.pc.current = some d)
    (hown : s'.Owns c { conn with task := task })
    (hrest : ∀ d cell rest, d ≠ c → s.pc.current = some d →
      s.congestion.pendingRates = cell :: rest →
      s'.pc.current = some d ∧ s'.congestion.pendingRates = cell :: rest) : s'.Paired := by
  have get := Tasks.getElem?_replace hc { conn with task := task }
  constructor
  · intro d conn' hd
    rw [hconns, get] at hd
    split_ifs at hd with e
    · subst e
      cases hd
      exact hown
    · obtain ⟨made, own, passed⟩ := h.owns d conn' hd
      refine ⟨hrates ▸ made, fun ho hb => (own ho hb).imp_left ?_, passed⟩
      rintro ⟨cell, rest, hcur, hq, hhead⟩
      obtain ⟨hcur', hq'⟩ := hrest d cell rest (Ne.symm e) hcur hq
      exact ⟨cell, rest, hcur', hq', hhead⟩
  · rw [hconns]
    exact h.disjoint_set hc fun d conn' hd hne => h.disjoint c d conn conn' hc hd hne
  · intro d hcur
    have hne : d ≠ c := fun e => hcurrent (e ▸ hcur)
    obtain ⟨conn', hd, ht⟩ := h.handled d (hothers d hne hcur)
    refine ⟨conn', ?_, ht⟩
    rw [hconns, get, if_neg (Ne.symm hne), hd]

theorem paired_step {a : Action} (h : s.Paired) (hok : s.KeepsPairing a) (hs : s.step a = some s') :
    s'.Paired := by
  cases did_of_step hs with
  | accept outcome hpc => exact h.accept outcome hpc
  | stay => exact h
  | closed hpc => exact h.leave hpc
  | tcpFailed hpc => exact h.leave hpc
  | shutdown hpc => exact h.leave hpc
  | start hpc => exact h.frame rfl rfl (by simp [hpc, LoopPc.current]) rfl
  | empty hpc => exact h.frame rfl rfl (by simp [hpc, LoopPc.current]) rfl
  | @pop c resolved cell rest conn hpc hq hc =>
      have hcurrent : s.pc.current = some c := by simp [hpc, LoopPc.current]
      refine h.setTask hc rfl rfl nofun nofun ?_ ?_
      · -- the first cell of the queue was this connection's own
        obtain ⟨made, own, -⟩ := h.owns c conn hc
        refine ⟨made, fun ho hb => .inr (.inl ⟨cell, rfl, ?_⟩), nofun⟩
        rcases own ho hb with ⟨cell', rest', -, hq', hhead⟩ | ⟨cell', ht, -⟩ | ht
        · cases hq.symm.trans hq'
          exact hhead
        · exact absurd hcurrent (h.current_ne hc (by simp [ht]))
        · exact absurd hcurrent (h.current_ne hc fun e => ht (by simp [e, Task.passed]))
      · intro d _ _ hne hd
        exact absurd (Option.some.inj (hcurrent.symm.trans hd)).symm hne
  | permit hpc => exact h.frame rfl rfl (by simp [hpc, LoopPc.current]) rfl
  | suspend hpc => exact h.frame rfl rfl (by simp [hpc, LoopPc.current]) rfl
  | wake hpc => exact h.frame rfl rfl (by simp [hpc, LoopPc.current]) rfl
  | connectedFirst hpc => exact h.frame rfl rfl (by simp [hpc, LoopPc.current]) rfl
  | connectedLater hpc => exact h.frame rfl rfl (by simp [hpc, LoopPc.current]) rfl
  | push hc hb => exact h.build hc fun ho => .inl (hok _ hc ho)
  | rebind => exact h
  | migrate hc ho hb => exact h.build hc fun _ => .inr (hok _ hc)
  | notify => exact h.frame rfl rfl rfl rfl
  | @authenticate c conn cell hc ht ho hr =>
      have hne := h.current_ne hc (by simp [ht])
      refine h.setTask hc rfl rfl hne (fun _ _ => id) ?_ fun _ _ _ _ hcur hq => ⟨hcur, hq⟩
      obtain ⟨made, own, -⟩ := h.owns c conn hc
      refine ⟨made, fun _ _ => .inr (.inr nofun), ?_⟩
      rintro cell' ⟨⟩
      have hb := (hr.resolve_left (by simp [ho])).1
      rcases own ho hb with ⟨-, -, hcur, -⟩ | ⟨cell', ht', hhead⟩ | hpassed
      · exact absurd hcur hne
      · cases ht.symm.trans ht'
        exact List.mem_of_head? hhead
      · exact absurd (by rw [ht]; rfl) hpassed
  | @negotiate c conn cell rate hc ht =>
      have hne := h.current_ne hc (by simp [ht])
      refine h.setTask hc rfl (by simp) hne (fun _ _ => id) ?_ fun _ _ _ _ hcur hq => ⟨hcur, hq⟩
      obtain ⟨made, -, passed⟩ := h.owns c conn hc
      refine ⟨by simpa using made, fun _ _ => .inr (.inr nofun), ?_⟩
      rintro cell' ⟨⟩
      exact passed cell (by rw [ht]; rfl)

/-- **Every connection gets its own rate cell**, in a run whose steps keep the pairing: the cell
about to be passed for a connection is that of its own controller, and the cell a client's rate is
about to be stored into is not that of a controller another connection has or had. -/
theorem rate_cells_paired {serverLimitBps : UInt64} {s : State}
    (h : Reaches step KeepsPairing (init serverLimitBps) s) :
    (∀ c cell, s.Passes c cell → s.controller c = some cell) ∧
      ∀ c cell, s.Stores c cell → ∀ d conn, s.conns[d]? = some conn → d ≠ c →
        cell ∉ conn.controllers := by
  have hpaired : s.Paired :=
    h.invariant (paired_init serverLimitBps) fun _ _ _ hp hok hs => paired_step hp hok hs
  constructor
  · rintro c cell ⟨conn, hc, ht, ho, hr⟩
    have hb := (hr.resolve_left (by simp [ho])).1
    rcases (hpaired.owns c conn hc).own ho hb with ⟨-, -, hcur, -⟩ | ⟨cell', ht', hhead⟩ | hpassed
    · exact absurd hcur (hpaired.current_ne hc (by simp [ht]))
    · cases ht.symm.trans ht'
      simp [controller, hc, hhead]
    · exact absurd (by rw [ht]; rfl) hpassed
  · rintro c cell ⟨conn, hc, ht⟩ d conn' hd hne hmem
    have hown := (hpaired.owns c conn hc).passed cell (by rw [ht]; rfl)
    exact hpaired.disjoint c d conn conn' hc hd (Ne.symm hne) hown hmem

/-- Two clients connect, and the first moves to a new path after both have their cells. -/
def pairedClients : List Action :=
  [.accept .succeeds, .push 0, .notify 0, .poll, .poll, .accept .succeeds, .push 1, .poll,
    .poll, .notify 1, .authenticate 0, .migrate 0 false]

theorem rate_cells_paired_two_clients : ∃ s, Reaches step KeepsPairing (init 0) s ∧
    s.Passes 1 1 ∧ s.controller 1 = some 1 ∧ s.Stores 0 0 ∧
    ∀ conn, s.conns[1]? = some conn → 0 ∉ conn.controllers := by
  obtain ⟨s, hs⟩ : ∃ s, run (fun s a => if s.KeepsPairing a then s.step a else none) (init 0)
    pairedClients = some s := ⟨_, rfl⟩
  have hreach := reaches_of_run pairedClients .refl hs
  obtain ⟨hpasses, hstores⟩ : s.Passes 1 1 ∧ s.Stores 0 0 := by
    cases hs
    exact ⟨⟨_, rfl, rfl, rfl, by decide⟩, _, rfl, rfl⟩
  obtain ⟨hown, hothers⟩ := rate_cells_paired hreach
  exact ⟨s, hreach, hpasses, hown 1 1 hpasses, hstores,
    fun conn hc => hothers 0 0 hstores 1 conn hc (by decide)⟩

end State

end SingBoxMini.Server
