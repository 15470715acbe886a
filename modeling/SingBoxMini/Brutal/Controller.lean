import SingBoxMini.Support.SlidingWindow

/-!
# Brutal — Controller

The congestion controller of `brutal.rs`: the samples of the last seconds, and the values that are
computed from them and cached.

The rate is in a cell that the controller shares with the authenticating task; every function here
that loads the cell takes the rate it has loaded.

* `record_totals`: however the calls of `record` are spread over time, what the ring of five slots
  gives is the sums over the last five seconds.
-/

namespace SingBoxMini.Brutal
open SlidingWindow

/-! ### Times -/

/-- `Duration`, in nanoseconds. -/
abbrev Duration := Nat

/-- `Instant`, in nanoseconds since the first one of the clock; the seconds between two of them have
64 bits. -/
abbrev Instant := Fin (UInt64.size * 1000000000)

/-- `Instant::saturating_duration_since` -/
def saturatingDurationSince (now earlier : Instant) : Duration := now.val - earlier.val

/-- `Duration::as_secs` -/
def asSecs (duration : Duration) : UInt64 := UInt64.ofNat (duration / 1000000000)

/-- `Duration::as_secs_f64` -/
def asSecsF64 (duration : Duration) : Float :=
  (asSecs duration).toFloat + (UInt64.ofNat (duration % 1000000000)).toFloat / 1000000000.0

/-! ### The controller -/

/-- `SLOT_COUNT` -/
abbrev slotCount : Nat := 5

/-- `MIN_SAMPLE_BYTES` -/
def minSampleBytes : UInt64 := 50 * 1200

/-- `MIN_ACK_RATE` -/
def minAckRate : Float := 0.8

/-- `MIN_WINDOW` -/
def minWindow : UInt64 := 10240

/-- `QUINN_PACING_WINDOW_FACTOR` -/
def quinnPacingWindowFactor : Float := 0.8

/-- `SampleSlot` -/
structure SampleSlot where
  second : UInt64
  ackedBytes : Saturating
  lostBytes : Saturating
deriving DecidableEq

/-- `BrutalController`, without the cell of the rate. -/
structure BrutalController where
  mtu : UInt16
  started : Instant
  rtt : Duration
  ackRate : Float
  slots : Vector SampleSlot slotCount
  cachedRate : UInt64
  cachedWindow : UInt64
  cachedPacingRate : UInt64

/-- The window `refresh_cache` computes. -/
def windowFor (rate : UInt64) (rtt : Duration) (ackRate : Float) (mtu : UInt16) : UInt64 :=
  let target := rate.toFloat * asSecsF64 rtt * quinnPacingWindowFactor / ackRate
  max (max target.toUInt64 minWindow) (mtu.toUInt64 * 2)

/-- The pacing rate `refresh_cache` computes. -/
def pacingRateFor (rate : UInt64) (ackRate : Float) : UInt64 :=
  (rate.toFloat / ackRate * 8.0).toUInt64

/-- The slot of a second. -/
def slotIndex (second : UInt64) : Fin slotCount :=
  ⟨second.toNat % slotCount, Nat.mod_lt _ (by decide)⟩

/-- The slot a sample of the second goes into: one of another second starts again. -/
def SampleSlot.startedFor (slot : SampleSlot) (second : UInt64) : SampleSlot :=
  if slot.second ≠ second then ⟨second, 0, 0⟩ else slot

/-- The slots after a sample. -/
def addSample (slots : Vector SampleSlot slotCount) (second : UInt64)
    (ackedBytes lostBytes : UInt64) : Vector SampleSlot slotCount :=
  let slot := slots[slotIndex second].startedFor second
  slots.set (slotIndex second)
    { slot with
      ackedBytes := slot.ackedBytes + ⟨ackedBytes⟩
      lostBytes := slot.lostBytes + ⟨lostBytes⟩ }

/-- The acked and lost bytes from which `record` derives the rate of acknowledged bytes. -/
def totals (slots : Vector SampleSlot slotCount) (second : UInt64) : Saturating × Saturating :=
  let oldest : UInt64 := if second < 5 then 0 else second - 5
  let samples := slots.toList.filter fun sample => oldest ≤ sample.second ∧ sample.second ≤ second
  samples.foldl (fun sums sample => (sums.1 + sample.ackedBytes, sums.2 + sample.lostBytes)) (0, 0)

/-- The rate of acknowledged bytes. -/
def ackRateFor (acked lost : Saturating) : Float :=
  let total := acked + lost
  if total.value < minSampleBytes then 1.0
  else max (acked.value.toFloat / total.value.toFloat) minAckRate

namespace BrutalController

/-- `refresh_cache`, with the rate it has loaded. -/
def refreshCache (controller : BrutalController) (force : Bool) (rate : UInt64) :
    BrutalController :=
  if !force && rate == controller.cachedRate then controller
  else
    { controller with
      cachedRate := rate
      cachedWindow := windowFor rate controller.rtt controller.ackRate controller.mtu
      cachedPacingRate := pacingRateFor rate controller.ackRate }

/-- `BrutalController::new` -/
def new (rate : UInt64) (mtu : UInt16) (now : Instant) : BrutalController :=
  let controller :=
    { mtu
      started := now
      rtt := 100000000
      ackRate := 1.0
      slots := Vector.replicate slotCount ⟨UInt64.ofNat (UInt64.size - 1), 0, 0⟩
      cachedRate := UInt64.ofNat (UInt64.size - 1)
      cachedWindow := minWindow
      cachedPacingRate := 0 }
  refreshCache controller true rate

/-- `record` -/
def record (controller : BrutalController) (rate : UInt64) (now : Instant)
    (ackedBytes lostBytes : UInt64) : BrutalController :=
  let second := asSecs (saturatingDurationSince now controller.started)
  let slots := addSample controller.slots second ackedBytes lostBytes
  let sums := totals slots second
  refreshCache { controller with slots, ackRate := ackRateFor sums.1 sums.2 } true rate

@[simp] theorem slots_refreshCache (controller : BrutalController) (force : Bool) (rate : UInt64) :
    (controller.refreshCache force rate).slots = controller.slots := by
  unfold refreshCache
  split_ifs <;> rfl

@[simp] theorem ackRate_refreshCache (controller : BrutalController) (force : Bool)
    (rate : UInt64) : (controller.refreshCache force rate).ackRate = controller.ackRate := by
  unfold refreshCache
  split_ifs <;> rfl

@[simp] theorem started_refreshCache (controller : BrutalController) (force : Bool)
    (rate : UInt64) : (controller.refreshCache force rate).started = controller.started := by
  unfold refreshCache
  split_ifs <;> rfl

end BrutalController

/-! ### The ring of samples -/

/-- A call of `record`, with the rate that is in the cell. -/
structure Sample where
  now : Instant
  ackedBytes : UInt64
  lostBytes : UInt64
  rate : UInt64

/-- The second of a call. -/
def Sample.second (sample : Sample) (started : Instant) : UInt64 :=
  asSecs (saturatingDurationSince sample.now started)

/-- The calls of `record`, in order. -/
def BrutalController.recordAll (controller : BrutalController) (samples : List Sample) :
    BrutalController :=
  samples.foldl
    (fun controller sample =>
      controller.record sample.rate sample.now sample.ackedBytes sample.lostBytes)
    controller

/-- The bytes of a call. -/
def Sample.bytes (sample : Sample) : Saturating × Saturating :=
  (⟨sample.ackedBytes⟩, ⟨sample.lostBytes⟩)

/-- The calls as the ring sees them. -/
def calls (started : Instant) (samples : List Sample) : List (Nat × Saturating × Saturating) :=
  samples.map fun sample => ((sample.second started).toNat, sample.bytes)

/-- **The slots hold the samples.** -/
def HoldsSamples (started : Instant) (samples : List Sample)
    (slots : Vector SampleSlot slotCount) : Prop :=
  Holds (calls started samples) (fun i => slots[i].second.toNat)
    fun i => (slots[i].ackedBytes, slots[i].lostBytes)

/-- Later calls are of later seconds. -/
theorem Sample.second_mono (started : Instant) {a b : Sample} (h : a.now ≤ b.now) :
    (a.second started).toNat ≤ (b.second started).toNat := by
  have hfits : ∀ sample : Sample, (sample.second started).toNat =
      (sample.now.val - started.val) / 1000000000 := by
    intro sample
    refine UInt64.toNat_ofNat_of_lt' ?_
    have hlt := sample.now.isLt
    rw [saturatingDurationSince]
    omega
  rw [hfits, hfits]
  exact Nat.div_le_div_right (Nat.sub_le_sub_right h _)

/-- A slot of the second goes on, and any other one is empty. -/
theorem SampleSlot.startedFor_eq (slot : SampleSlot) (second : UInt64) :
    slot.startedFor second =
      if slot.second.toNat = second.toNat then slot else ⟨second, 0, 0⟩ := by
  by_cases h : slot.second = second
  · rw [startedFor, if_neg (not_not.mpr h), if_pos (congrArg UInt64.toNat h)]
  · rw [startedFor, if_pos h, if_neg (mt UInt64.toNat_inj.mp h)]

theorem SampleSlot.second_startedFor (slot : SampleSlot) (second : UInt64) :
    (slot.startedFor second).second = second := by
  unfold startedFor
  split_ifs with h
  · rfl
  · exact not_not.mp h

theorem getElem_addSample (slots : Vector SampleSlot slotCount)
    (second ackedBytes lostBytes : UInt64) (j : Fin slotCount) :
    (addSample slots second ackedBytes lostBytes)[j] =
      if j = slotIndex second then
        ⟨second, (slots[slotIndex second].startedFor second).ackedBytes + ⟨ackedBytes⟩,
          (slots[slotIndex second].startedFor second).lostBytes + ⟨lostBytes⟩⟩
      else slots[j] := by
  by_cases hj : j = slotIndex second
  · subst hj
    rw [if_pos rfl]
    refine (Vector.getElem_set_self (slotIndex second).isLt).trans ?_
    rw [SampleSlot.second_startedFor]
  · rw [if_neg hj]
    exact Vector.getElem_set_ne (slotIndex second).isLt j.isLt fun h => hj (Fin.ext h.symm)

/-- The seconds of the slots after a sample. -/
theorem second_addSample (slots : Vector SampleSlot slotCount)
    (second ackedBytes lostBytes : UInt64) :
    (fun i : Fin slotCount => (addSample slots second ackedBytes lostBytes)[i].second.toNat) =
      Function.update (fun i => slots[i].second.toNat) (slotIndex second) second.toNat := by
  funext j
  rw [getElem_addSample, Function.update_apply]
  split_ifs with hj <;> rfl

/-- The bytes in the slots after a sample. -/
theorem bytes_addSample (slots : Vector SampleSlot slotCount)
    (second ackedBytes lostBytes : UInt64) :
    (fun i : Fin slotCount => ((addSample slots second ackedBytes lostBytes)[i].ackedBytes,
        (addSample slots second ackedBytes lostBytes)[i].lostBytes)) =
      Function.update (fun i => (slots[i].ackedBytes, slots[i].lostBytes)) (slotIndex second)
        ((if slots[slotIndex second].second.toNat = second.toNat then
            (slots[slotIndex second].ackedBytes, slots[slotIndex second].lostBytes) else 0) +
          (⟨ackedBytes⟩, ⟨lostBytes⟩)) := by
  funext j
  rw [getElem_addSample, Function.update_apply, SampleSlot.startedFor_eq]
  split_ifs with hj hsecond <;> rfl

/-- **A sample** goes into the slot of its second. -/
theorem HoldsSamples.addSample {started : Instant} {samples : List Sample}
    {slots : Vector SampleSlot slotCount} (h : HoldsSamples started samples slots) (sample : Sample)
    (hlast : ∀ earlier ∈ samples, earlier.now ≤ sample.now) :
    HoldsSamples started (samples ++ [sample])
      (addSample slots (sample.second started) sample.ackedBytes sample.lostBytes) := by
  have hcalls : ∀ call ∈ calls started samples, call.1 ≤ (sample.second started).toNat := by
    intro call hcall
    obtain ⟨earlier, hmem, rfl⟩ := List.mem_map.mp hcall
    exact Sample.second_mono started (hlast earlier hmem)
  rw [HoldsSamples, second_addSample, bytes_addSample, calls, List.map_append]
  exact Holds.record h hcalls rfl sample.bytes

/-- Before the first sample the slots hold nothing, although their second is one. -/
theorem holdsSamples_new (rate : UInt64) (mtu : UInt16) (started : Instant) :
    HoldsSamples started [] (BrutalController.new rate mtu started).slots := by
  have hslots : (BrutalController.new rate mtu started).slots =
      Vector.replicate slotCount ⟨UInt64.ofNat (UInt64.size - 1), 0, 0⟩ :=
    BrutalController.slots_refreshCache _ _ _
  rw [HoldsSamples, hslots]
  have hget : ∀ i : Fin slotCount, (Vector.replicate slotCount
      (⟨UInt64.ofNat (UInt64.size - 1), 0, 0⟩ : SampleSlot))[i] = ⟨_, 0, 0⟩ :=
    fun i => Vector.getElem_replicate _
  simp only [hget]
  exact holds_nil _

namespace BrutalController

@[simp] theorem slots_record (controller : BrutalController) (sample : Sample) :
    (controller.record sample.rate sample.now sample.ackedBytes sample.lostBytes).slots =
      addSample controller.slots (sample.second controller.started) sample.ackedBytes
        sample.lostBytes :=
  slots_refreshCache _ _ _

@[simp] theorem started_record (controller : BrutalController) (sample : Sample) :
    (controller.record sample.rate sample.now sample.ackedBytes sample.lostBytes).started =
      controller.started :=
  started_refreshCache _ _ _

/-- The rate of acknowledged bytes after a call comes from the slots after it. -/
theorem ackRate_record (controller : BrutalController) (sample : Sample) {started : Instant}
    (hstarted : controller.started = started) :
    let after := controller.record sample.rate sample.now sample.ackedBytes sample.lostBytes
    after.ackRate = ackRateFor (totals after.slots (sample.second started)).1
      (totals after.slots (sample.second started)).2 := by
  intro after
  rw [slots_record, hstarted]
  subst hstarted
  exact ackRate_refreshCache _ _ _

theorem recordAll_concat (controller : BrutalController) (samples : List Sample)
    (sample : Sample) :
    controller.recordAll (samples ++ [sample]) =
      (controller.recordAll samples).record sample.rate sample.now sample.ackedBytes
        sample.lostBytes := by
  rw [recordAll, List.foldl_append]
  rfl

/-- **The slots along the calls**, in any rhythm that does not go back in time. -/
theorem holdsSamples_recordAll (rate : UInt64) (mtu : UInt16) (started : Instant)
    {samples : List Sample} (h : samples.Pairwise fun a b => a.now ≤ b.now) :
    ((new rate mtu started).recordAll samples).started = started ∧
      HoldsSamples started samples ((new rate mtu started).recordAll samples).slots := by
  induction samples using List.reverseRecOn with
  | nil =>
      refine ⟨?_, holdsSamples_new rate mtu started⟩
      rw [recordAll, List.foldl_nil, new, started_refreshCache]
  | append_singleton samples sample ih =>
      rw [List.pairwise_append] at h
      obtain ⟨hearlier, -, hlast⟩ := h
      obtain ⟨hstarted, hholds⟩ := ih hearlier
      rw [recordAll_concat, started_record, slots_record, hstarted]
      refine ⟨rfl, hholds.addSample sample fun earlier hmem => ?_⟩
      exact hlast earlier hmem sample (List.mem_singleton_self _)

end BrutalController

/-! ### The totals -/

/-- The bytes in a list of slots. -/
theorem foldl_slots (slots : List SampleSlot) (acked lost : Saturating) :
    slots.foldl (fun sums sample => (sums.1 + sample.ackedBytes, sums.2 + sample.lostBytes))
        (acked, lost) =
      (acked, lost) + (slots.map fun slot => (slot.ackedBytes, slot.lostBytes)).sum := by
  induction slots generalizing acked lost with
  | nil => rw [List.foldl_nil, List.map_nil, List.sum_nil, add_zero]
  | cons slot slots ih =>
      rw [List.foldl_cons, ih, List.map_cons, List.sum_cons, ← add_assoc]
      rfl

/-- The bound of the filter. -/
theorem toNat_oldest (second : UInt64) :
    (if second < 5 then 0 else second - 5 : UInt64).toNat = second.toNat - 5 := by
  split_ifs with h
  · have hlt : second.toNat < 5 := UInt64.lt_iff_toNat_lt.mp h
    rw [UInt64.toNat_zero]
    omega
  · have hle : (5 : UInt64) ≤ second := UInt64.not_lt.mp h
    exact UInt64.toNat_sub_of_le _ _ hle

/-- **The totals** are the sum over the slots of the seconds from `second - 5` on. -/
theorem totals_eq (slots : Vector SampleSlot slotCount) (second : UInt64) :
    totals slots second = ∑ i : Fin slotCount,
      if second.toNat - slotCount ≤ slots[i].second.toNat ∧ slots[i].second.toNat ≤ second.toNat
      then (slots[i].ackedBytes, slots[i].lostBytes) else 0 := by
  have hslots : slots.toList = List.ofFn fun i : Fin slotCount => slots[i] := by
    refine List.ext_getElem (by rw [Vector.length_toList, List.length_ofFn]) fun i _ _ => ?_
    rw [Vector.getElem_toList, List.getElem_ofFn]
    rfl
  have hsum := List.sum_map_ite (fun sample : SampleSlot =>
      second.toNat - slotCount ≤ sample.second.toNat ∧ sample.second.toNat ≤ second.toNat)
    (fun slot => (slot.ackedBytes, slot.lostBytes)) (fun _ => 0) slots.toList
  rw [List.map_const', List.sum_replicate, nsmul_zero, add_zero, hslots, List.map_ofFn,
    List.sum_ofFn] at hsum
  rw [totals, foldl_slots, ← Prod.zero_eq_mk, zero_add, hslots]
  simp only [UInt64.le_iff_toNat_le, toNat_oldest]
  exact hsum.symm

/-- The bytes of the calls of the seconds from `s - 4` to `s`. -/
def bytesInWindow (bytes : Sample → UInt64) (started : Instant) (s : UInt64)
    (samples : List Sample) : Nat :=
  let inWindow := samples.filter fun sample =>
    s.toNat - 4 ≤ (sample.second started).toNat ∧ (sample.second started).toNat ≤ s.toNat
  (inWindow.map fun sample => (bytes sample).toNat).sum

/-- The totals of the ring are those of the window, component by component. -/
theorem toNat_total (f : Saturating × Saturating →+ Saturating) (bytes : Sample → UInt64)
    (hbytes : ∀ sample : Sample, (f sample.bytes).value = bytes sample) (started : Instant)
    {s : UInt64} {samples : List Sample}
    (hlast : ∀ sample ∈ samples, (sample.second started).toNat ≤ s.toNat) :
    (f (total (fun t => s.toNat < t + slotCount) (calls started samples))).value.toNat =
      min (bytesInWindow bytes started s samples) Saturating.limit := by
  have hfilter : (samples.filter fun sample =>
        decide (s.toNat < (sample.second started).toNat + slotCount)) =
      samples.filter fun sample => s.toNat - 4 ≤ (sample.second started).toNat ∧
        (sample.second started).toNat ≤ s.toNat := by
    refine List.filter_congr fun sample hmem => decide_eq_decide.mpr ?_
    have := hlast sample hmem
    rw [slotCount]
    omega
  rw [total, calls, List.filter_map, List.map_map, map_list_sum, List.map_map,
    Saturating.toNat_sum, List.map_map, bytesInWindow, ← hfilter]
  refine congrArg (min · _) (congrArg List.sum (List.map_congr_left fun sample _ => ?_))
  exact congrArg UInt64.toNat (hbytes sample)

/-- **The last five seconds.**  After calls of `record` at times that do not go back, the last one
in second `s`, the rate of acknowledged bytes is derived from the saturating sums of the bytes of
the calls in the seconds from `s - 4` to `s`: not of those in second `s - 5`, though the filter
admits it, and not of slots that were never used. -/
theorem record_totals (rate : UInt64) (mtu : UInt16) (started : Instant) (samples : List Sample)
    (last : Sample) (h : (samples ++ [last]).Pairwise fun a b => a.now ≤ b.now) :
    let controller := (BrutalController.new rate mtu started).recordAll (samples ++ [last])
    let s := last.second started
    let sums := totals controller.slots s
    controller.ackRate = ackRateFor sums.1 sums.2 ∧
      sums.1.value.toNat =
        min (bytesInWindow Sample.ackedBytes started s (samples ++ [last])) Saturating.limit ∧
      sums.2.value.toNat =
        min (bytesInWindow Sample.lostBytes started s (samples ++ [last])) Saturating.limit := by
  intro controller s sums
  have hlast : ∀ sample ∈ samples ++ [last], (sample.second started).toNat ≤ s.toNat := by
    intro sample hmem
    refine Sample.second_mono started ?_
    rcases List.mem_append.mp hmem with hmem | hmem
    · exact (List.pairwise_append.mp h).2.2 sample hmem last (List.mem_singleton_self _)
    · rw [List.mem_singleton.mp hmem]
  have hsums : sums =
      total (fun t => s.toNat < t + slotCount) (calls started (samples ++ [last])) := by
    have hholds := (BrutalController.holdsSamples_recordAll rate mtu started h).2
    refine (totals_eq _ _).trans (Holds.sum_window (by decide) hholds ?_ ?_)
    · exact ⟨_, List.mem_map_of_mem (List.mem_append_right _ (List.mem_singleton_self last)), rfl⟩
    · intro call hcall
      obtain ⟨sample, hmem, rfl⟩ := List.mem_map.mp hcall
      exact hlast sample hmem
  refine ⟨?_, ?_, ?_⟩
  · have hearlier := (List.pairwise_append.mp h).1
    have hstarted := (BrutalController.holdsSamples_recordAll rate mtu started hearlier).1
    simp only [sums, controller, s, BrutalController.recordAll_concat]
    exact BrutalController.ackRate_record _ last hstarted
  · rw [hsums]
    exact toNat_total (AddMonoidHom.fst _ _) _ (fun _ => rfl) started hlast
  · rw [hsums]
    exact toNat_total (AddMonoidHom.snd _ _) _ (fun _ => rfl) started hlast

/-- Two calls five seconds apart: the first one's bytes are not counted any more. -/
theorem record_totals_gap :
    let first : Sample := ⟨⟨1500000000, by decide⟩, 70000, 1000, 0⟩
    let last : Sample := ⟨⟨6000000000, by decide⟩, 100, 30, 0⟩
    let started : Instant := ⟨0, by decide⟩
    let controller := (BrutalController.new 0 1200 started).recordAll [first, last]
    (totals controller.slots 6).1.value.toNat = 100 ∧
      (totals controller.slots 6).2.value.toNat = 30 := by
  intro first last started controller
  have h : ([first] ++ [last]).Pairwise fun a b => a.now ≤ b.now := by decide
  obtain ⟨-, hacked, hlost⟩ := record_totals 0 1200 started [first] last h
  have hsecond : last.second started = 6 := by decide
  rw [hsecond] at hacked hlost
  exact ⟨hacked.trans (by decide), hlost.trans (by decide)⟩

end SingBoxMini.Brutal
