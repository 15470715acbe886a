import SingBoxMini.Brutal.Controller
import SingBoxMini.Support.Runs

/-!
# Brutal — Cache

The values `refresh_cache` keeps, under every interleaving of calls on a controller and its clones
with stores into the cell of the rate they share.

The cache is keyed by the rate alone.  A call loads the cell once, and everything else it reads is
its controller's own, so a call is three steps: it is entered, it loads the cell and does its work,
and it returns.  Between them the authenticating task may store.

* `Cached.call`: every call leaves the cache in agreement with the rest of the controller, because a
  call that changes an input of the formulas also computes them again.
* `results_fresh`: what `window` and `metrics` return is what the formulas give for a rate the cell
  held during the call.
-/

namespace SingBoxMini.Brutal
open Runs

/-! ### Calls -/

/-- `ControllerMetrics` -/
structure ControllerMetrics where
  congestionWindow : UInt64
  ssthresh : Option UInt64
  pacingRate : Option UInt64
deriving DecidableEq

/-- The calls of `Controller` that load the cell; `rtt` is `RttEstimator::get`. -/
inductive Call where
  | onAck (now : Instant) (bytes : UInt64) (rtt : Duration)
  | onCongestionEvent (now : Instant) (lostBytes : UInt64)
  | onMtuUpdate (newMtu : UInt16)
  | window
  | initialWindow
  | metrics

/-- What a call returns. -/
inductive Returned where
  | unit
  | window (window : UInt64)
  | metrics (metrics : ControllerMetrics)

namespace BrutalController

/-- `on_ack` -/
def onAck (controller : BrutalController) (rate : UInt64) (now : Instant) (bytes : UInt64)
    (rtt : Duration) : BrutalController :=
  record { controller with rtt } rate now bytes 0

/-- `on_congestion_event` -/
def onCongestionEvent (controller : BrutalController) (rate : UInt64) (now : Instant)
    (lostBytes : UInt64) : BrutalController :=
  controller.record rate now 0 lostBytes

/-- `on_mtu_update` -/
def onMtuUpdate (controller : BrutalController) (rate : UInt64) (newMtu : UInt16) :
    BrutalController :=
  refreshCache { controller with mtu := newMtu } true rate

/-- `target_window`, which is `window` and `initial_window` -/
def targetWindow (controller : BrutalController) (rate : UInt64) : BrutalController × UInt64 :=
  let controller := controller.refreshCache false rate
  (controller, controller.cachedWindow)

/-- `metrics` -/
def metrics (controller : BrutalController) (rate : UInt64) :
    BrutalController × ControllerMetrics :=
  let controller := controller.refreshCache false rate
  (controller,
    { congestionWindow := controller.cachedWindow
      ssthresh := none
      pacingRate := some controller.cachedPacingRate })

/-- A call that has loaded `rate`. -/
def call (controller : BrutalController) (rate : UInt64) : Call → BrutalController × Returned
  | .onAck now bytes rtt => (controller.onAck rate now bytes rtt, .unit)
  | .onCongestionEvent now lostBytes => (controller.onCongestionEvent rate now lostBytes, .unit)
  | .onMtuUpdate newMtu => (controller.onMtuUpdate rate newMtu, .unit)
  | .window | .initialWindow =>
    ((controller.targetWindow rate).1, .window (controller.targetWindow rate).2)
  | .metrics => ((controller.metrics rate).1, .metrics (controller.metrics rate).2)

/-! ### What the cache holds -/

/-- **The cache agrees with the controller**: it is what the formulas give for the rate it is
keyed by. -/
structure Cached (controller : BrutalController) : Prop where
  window : controller.cachedWindow =
    windowFor controller.cachedRate controller.rtt controller.ackRate controller.mtu
  pacingRate : controller.cachedPacingRate = pacingRateFor controller.cachedRate controller.ackRate

/-- The formulas are computed again, whatever was in the cache. -/
theorem cached_refreshCache_force (controller : BrutalController) (rate : UInt64) :
    (controller.refreshCache true rate).Cached := ⟨rfl, rfl⟩

/-- If they are not, the cache was for the same rate. -/
theorem Cached.refreshCache {controller : BrutalController} (h : controller.Cached)
    (rate : UInt64) :
    (controller.refreshCache false rate).Cached ∧
      (controller.refreshCache false rate).cachedRate = rate := by
  unfold BrutalController.refreshCache
  split_ifs with hsame
  · rw [Bool.not_false, Bool.true_and, beq_iff_eq] at hsame
    exact ⟨h, hsame.symm⟩
  · exact ⟨⟨rfl, rfl⟩, rfl⟩

/-- What a call returns is what the formulas give for the rate. -/
def Gives (controller : BrutalController) (rate : UInt64) : Returned → Prop
  | .unit => True
  | .window window => window = windowFor rate controller.rtt controller.ackRate controller.mtu
  | .metrics metrics =>
    metrics.congestionWindow = windowFor rate controller.rtt controller.ackRate controller.mtu ∧
      metrics.pacingRate = some (pacingRateFor rate controller.ackRate)

/-- **A call** keeps the agreement and returns what the formulas give. -/
theorem Cached.call {controller : BrutalController} (h : controller.Cached) (rate : UInt64)
    (c : Call) :
    (controller.call rate c).1.Cached ∧
      (controller.call rate c).1.Gives rate (controller.call rate c).2 := by
  obtain ⟨hcached, hrate⟩ := h.refreshCache rate
  cases c with
  | onAck now bytes rtt => exact ⟨cached_refreshCache_force _ _, trivial⟩
  | onCongestionEvent now lostBytes => exact ⟨cached_refreshCache_force _ _, trivial⟩
  | onMtuUpdate newMtu => exact ⟨cached_refreshCache_force _ _, trivial⟩
  | window | initialWindow =>
      refine ⟨hcached, ?_⟩
      have hwindow := hcached.window
      rwa [hrate] at hwindow
  | metrics =>
      have hwindow := hcached.window
      have hpacing := hcached.pacingRate
      rw [hrate] at hwindow hpacing
      exact ⟨hcached, hwindow, congrArg some hpacing⟩

end BrutalController

theorem toNat_max (a b : UInt64) : (max a b).toNat = max a.toNat b.toNat := by
  rw [show max a b = if a ≤ b then b else a from rfl]
  split_ifs with h
  · exact (max_eq_right (UInt64.le_iff_toNat_le.mp h)).symm
  · exact (max_eq_left (Nat.le_of_not_le (mt UInt64.le_iff_toNat_le.mpr h))).symm

/-- The window is never below the least one and two packets. -/
theorem le_windowFor (rate : UInt64) (rtt : Duration) (ackRate : Float) (mtu : UInt16) :
    max 10240 (2 * mtu.toNat) ≤ (windowFor rate rtt ackRate mtu).toNat := by
  have htwo : (mtu.toUInt64 * 2).toNat = 2 * mtu.toNat := by
    have hlt := mtu.toNat_lt
    have hfits : mtu.toNat * 2 < UInt64.size :=
      Nat.lt_trans (show mtu.toNat * 2 < 131072 by omega) (by decide)
    rw [UInt64.toNat_mul, UInt16.toNat_toUInt64]
    exact (Nat.mod_eq_of_lt hfits).trans (Nat.mul_comm _ _)
  rw [windowFor, toNat_max, toNat_max, htwo]
  exact max_le_max (le_max_right _ _) (le_refl _)

/-! ### Interleavings -/

/-- Where a controller is: in no call, in one that has not loaded the cell yet, or in one that has
and will return; with the rates the cell has held since the call was entered. -/
inductive Phase where
  | idle
  | entered (call : Call) (held : List UInt64)
  | returning (returned : Returned) (held : List UInt64)

/-- A store into the cell is seen by a call that is going on. -/
def Phase.stored (rate : UInt64) : Phase → Phase
  | .idle => .idle
  | .entered call held => .entered call (rate :: held)
  | .returning returned held => .returning returned (rate :: held)

/-- A controller with the call on it, if there is one. -/
structure Holder where
  controller : BrutalController
  phase : Phase

/-- The cell and the controllers that share it: the first one and its clones. -/
structure State where
  bytesPerSecond : UInt64
  holders : List Holder

/-- The cell is stored to, or a controller goes on. -/
inductive Action where
  | store (rate : UInt64)
  | enter (i : Nat) (call : Call)
  | load (i : Nat)
  | leave (i : Nat)
  | cloneBox (i : Nat)

namespace State

/-- A controller is built while the cell holds `rate`. -/
def init (rate : UInt64) (mtu : UInt16) (now : Instant) : State :=
  ⟨rate, [⟨.new rate mtu now, .idle⟩]⟩

/-- The phase and the controller after a step of the controller's own. -/
def moved (s : State) (i : Nat) (holder : Holder) : State :=
  { s with holders := s.holders.set i holder }

/-- **One step** of the authenticating task or of a call. -/
def step (s : State) : Action → Option State
  | .store rate =>
    some ⟨rate, s.holders.map fun holder => { holder with phase := holder.phase.stored rate }⟩
  | .enter i call =>
    s.holders[i]?.bind fun holder =>
      match holder.phase with
      | .idle => some (s.moved i ⟨holder.controller, .entered call [s.bytesPerSecond]⟩)
      | _ => none
  | .load i =>
    s.holders[i]?.bind fun holder =>
      match holder.phase with
      | .entered call held =>
        let result := holder.controller.call s.bytesPerSecond call
        some (s.moved i ⟨result.1, .returning result.2 held⟩)
      | _ => none
  | .leave i =>
    s.holders[i]?.bind fun holder =>
      match holder.phase with
      | .returning _ _ => some (s.moved i ⟨holder.controller, .idle⟩)
      | _ => none
  | .cloneBox i =>
    s.holders[i]?.bind fun holder =>
      match holder.phase with
      | .idle => some { s with holders := s.holders ++ [⟨holder.controller, .idle⟩] }
      | _ => none

end State

/-- What holds of a controller and the call on it while the cell holds `rate`. -/
structure Holder.Fresh (rate : UInt64) (holder : Holder) : Prop where
  cached : holder.controller.Cached
  entered : ∀ call held, holder.phase = .entered call held → rate ∈ held
  returning : ∀ returned held, holder.phase = .returning returned held →
    ∃ rate ∈ held, holder.controller.Gives rate returned

/-- **Every controller is fresh.** -/
def State.Fresh (s : State) : Prop := ∀ holder ∈ s.holders, holder.Fresh s.bytesPerSecond

theorem Holder.Fresh.store {old : UInt64} {holder : Holder} (h : holder.Fresh old) (rate : UInt64) :
    Holder.Fresh rate { holder with phase := holder.phase.stored rate } := by
  obtain ⟨controller, phase⟩ := holder
  cases phase with
  | idle => exact ⟨h.cached, fun _ _ h' => (by cases h'), fun _ _ h' => (by cases h')⟩
  | entered call held =>
      refine ⟨h.cached, fun _ _ h' => ?_, fun _ _ h' => (by cases h')⟩
      cases h'
      exact List.mem_cons_self
  | returning returned held =>
      refine ⟨h.cached, fun _ _ h' => (by cases h'), fun _ _ h' => ?_⟩
      cases h'
      obtain ⟨rate', hmem, hgives⟩ := h.returning returned held rfl
      exact ⟨rate', List.mem_cons_of_mem _ hmem, hgives⟩

theorem State.Fresh.moved {s : State} (h : s.Fresh) {i : Nat} {holder : Holder}
    (hnew : holder.Fresh s.bytesPerSecond) : (s.moved i holder).Fresh := by
  intro other hmem
  rcases List.mem_or_eq_of_mem_set hmem with hmem | rfl
  · exact h other hmem
  · exact hnew

theorem Holder.fresh_idle {rate : UInt64} {controller : BrutalController}
    (h : controller.Cached) : Holder.Fresh rate ⟨controller, .idle⟩ :=
  ⟨h, fun _ _ h' => (by cases h'), fun _ _ h' => (by cases h')⟩

namespace State

/-- **One step** keeps every controller fresh. -/
theorem fresh_step {s s' : State} {a : Action} (h : s.Fresh) (hs : s.step a = some s') :
    s'.Fresh := by
  cases a with
  | store rate =>
      cases hs
      intro holder hmem
      obtain ⟨old, hold, rfl⟩ := List.mem_map.mp hmem
      exact (h old hold).store rate
  | enter i call =>
      obtain ⟨⟨controller, phase⟩, hi, hs⟩ := Option.bind_eq_some_iff.mp hs
      have hfresh := h _ (List.mem_of_getElem? hi)
      cases phase with
      | idle =>
          cases hs
          refine h.moved ⟨hfresh.cached, fun _ _ h' => ?_, fun _ _ h' => (by cases h')⟩
          cases h'
          exact List.mem_singleton_self _
      | entered | returning => cases hs
  | load i =>
      obtain ⟨⟨controller, phase⟩, hi, hs⟩ := Option.bind_eq_some_iff.mp hs
      have hfresh := h _ (List.mem_of_getElem? hi)
      cases phase with
      | entered call held =>
          cases hs
          obtain ⟨hcached, hgives⟩ := hfresh.cached.call s.bytesPerSecond call
          refine h.moved ⟨hcached, fun _ _ h' => (by cases h'), fun _ _ h' => ?_⟩
          cases h'
          exact ⟨s.bytesPerSecond, hfresh.entered call held rfl, hgives⟩
      | idle | returning => cases hs
  | leave i =>
      obtain ⟨⟨controller, phase⟩, hi, hs⟩ := Option.bind_eq_some_iff.mp hs
      have hfresh := h _ (List.mem_of_getElem? hi)
      cases phase with
      | returning returned held =>
          cases hs
          exact h.moved (Holder.fresh_idle hfresh.cached)
      | idle | entered => cases hs
  | cloneBox i =>
      obtain ⟨⟨controller, phase⟩, hi, hs⟩ := Option.bind_eq_some_iff.mp hs
      have hfresh := h _ (List.mem_of_getElem? hi)
      cases phase with
      | idle =>
          cases hs
          intro holder hmem
          rcases List.mem_append.mp hmem with hmem | hmem
          · exact h holder hmem
          · rw [List.mem_singleton.mp hmem]
            exact Holder.fresh_idle hfresh.cached
      | entered | returning => cases hs

theorem fresh_init (rate : UInt64) (mtu : UInt16) (now : Instant) : (init rate mtu now).Fresh := by
  intro holder hmem
  rw [List.mem_singleton.mp hmem]
  exact Holder.fresh_idle (BrutalController.cached_refreshCache_force _ _)

/-- **Cached values are never stale.**  In every run of calls on a controller and its clones with
stores into the cell they share, what `window`, `initial_window` or `metrics` returns is what the
formulas give for the round-trip time, the rate of acknowledged bytes and the packet size the
controller has, and for a rate the cell has held since the call was entered; the window is at least
the least one and two packets. -/
theorem results_fresh {rate : UInt64} {mtu : UInt16} {now : Instant} {s : State}
    (h : Reaches step (fun _ _ => True) (init rate mtu now) s) {i : Nat}
    {controller : BrutalController} {returned : Returned} {held : List UInt64}
    (hi : s.holders[i]? = some ⟨controller, .returning returned held⟩) :
    (∀ window, returned = .window window →
      (∃ rate ∈ held,
        window = windowFor rate controller.rtt controller.ackRate controller.mtu) ∧
      max 10240 (2 * controller.mtu.toNat) ≤ window.toNat) ∧
    ∀ metrics, returned = .metrics metrics →
      (∃ rate ∈ held,
        metrics.congestionWindow =
            windowFor rate controller.rtt controller.ackRate controller.mtu ∧
          metrics.pacingRate = some (pacingRateFor rate controller.ackRate)) ∧
      max 10240 (2 * controller.mtu.toNat) ≤ metrics.congestionWindow.toNat := by
  have hfresh : s.Fresh :=
    h.invariant (fresh_init rate mtu now) fun _ _ _ hf _ hs => fresh_step hf hs
  obtain ⟨used, hmem, hgives⟩ :=
    (hfresh _ (List.mem_of_getElem? hi)).returning returned held rfl
  constructor
  · rintro window rfl
    refine ⟨⟨used, hmem, hgives⟩, ?_⟩
    rw [show window = _ from hgives]
    exact le_windowFor _ _ _ _
  · rintro metrics rfl
    refine ⟨⟨used, hmem, hgives⟩, ?_⟩
    rw [hgives.1]
    exact le_windowFor _ _ _ _

/-- Two calls of `window` on a clone, with a store within the second one. -/
def windowsOfClone : List Action :=
  [.cloneBox 0, .enter 1 .window, .load 1, .leave 1, .enter 1 .window, .store 5000000, .load 1]

theorem results_fresh_clone :
    ∃ s controller window,
      Reaches step (fun _ _ => True) (init 0 1200 ⟨0, by decide⟩) s ∧
      s.holders[1]? = some ⟨controller, .returning (.window window) [5000000, 0]⟩ ∧
      10240 ≤ window.toNat := by
  obtain ⟨s, hs⟩ : ∃ s, run (fun s a => if True then s.step a else none)
    (init 0 1200 ⟨0, by decide⟩) windowsOfClone = some s := ⟨_, rfl⟩
  have hreach := reaches_of_run windowsOfClone .refl hs
  obtain ⟨controller, window, hi⟩ : ∃ controller window,
      s.holders[1]? = some ⟨controller, .returning (.window window) [5000000, 0]⟩ := by
    cases hs
    exact ⟨_, _, rfl⟩
  refine ⟨s, controller, window, hreach, hi, ?_⟩
  obtain ⟨-, hle⟩ := (results_fresh hreach hi).1 window rfl
  exact le_trans (le_max_left _ _) hle

end State

end SingBoxMini.Brutal
