import Mathlib.Data.List.Nodup
import Mathlib.Data.List.Perm.Subperm

/-!
# Support — Notify

`tokio::sync::Notify`, as far as `notify_one` uses it: at most one stored permit, the futures that
wait in the order of their first poll, and those that were woken and have not been polled since.

* `notifyOne` wakes the oldest waiting future, and stores the permit if none waits.
* `firstPoll` takes the permit or joins the waiting futures, `rePoll` sees whether the future was
  woken, `cancel` drops a future that has been polled: a notification it was given and did not use
  goes to the next one.
* `Tracks` ties the registered futures to the callers' own states.
* `spare_notifyOne`: a notification is lost if the permit is stored and nobody waits.
-/

/-- The state of a `Notify`. -/
structure Notify (W : Type) where
  permit : Bool
  waiting : List W
  woken : List W
deriving DecidableEq, Repr

namespace Notify

variable {W : Type}

/-- `Notify::new` -/
def new : Notify W := ⟨false, [], []⟩

/-- `Notify::notify_one` -/
def notifyOne (n : Notify W) : Notify W :=
  match n.waiting with
  | [] => { n with permit := true }
  | w :: rest => { n with waiting := rest, woken := w :: n.woken }

/-- The first poll of the future `w`; `true` is `Ready`. -/
def firstPoll (w : W) (n : Notify W) : Bool × Notify W :=
  if n.permit then (true, { n with permit := false })
  else (false, { n with waiting := n.waiting ++ [w] })

/-- A later poll of the future `w`: `none` while it has to wait. -/
def rePoll [DecidableEq W] (w : W) (n : Notify W) : Option (Notify W) :=
  if w ∈ n.woken then some { n with woken := n.woken.erase w } else none

/-- Dropping the future `w` after its first poll was `Pending`. -/
def cancel [DecidableEq W] (w : W) (n : Notify W) : Notify W :=
  if w ∈ n.woken then notifyOne { n with woken := n.woken.erase w }
  else { n with waiting := n.waiting.erase w }

/-- The registered futures are exactly those `P` tells, each once. -/
structure Tracks (n : Notify W) (P : W → Prop) : Prop where
  nodup : (n.waiting ++ n.woken).Nodup
  mem_iff : ∀ w, w ∈ n.waiting ++ n.woken ↔ P w

theorem tracks_new : (new : Notify W).Tracks fun _ => False :=
  ⟨List.nodup_nil, by simp [new]⟩

variable {n : Notify W} {P : W → Prop} {w : W} {k : Nat}

theorem Tracks.congr {Q : W → Prop} (h : n.Tracks P) (iff : ∀ w, P w ↔ Q w) :
    n.Tracks Q :=
  ⟨h.nodup, fun w => (h.mem_iff w).trans (iff w)⟩

theorem perm_notifyOne (n : Notify W) :
    (n.notifyOne.waiting ++ n.notifyOne.woken).Perm (n.waiting ++ n.woken) := by
  unfold notifyOne
  cases n.waiting with
  | nil => exact .refl _
  | cons w rest => exact List.perm_middle

theorem mem_woken_notifyOne (h : w ∈ n.woken) : w ∈ n.notifyOne.woken := by
  unfold notifyOne
  split
  · exact h
  · exact List.mem_cons_of_mem _ h

theorem Tracks.notifyOne (h : n.Tracks P) :
    n.notifyOne.Tracks P :=
  ⟨(perm_notifyOne n).nodup_iff.mpr h.nodup,
    fun w => (perm_notifyOne n).mem_iff.trans (h.mem_iff w)⟩

/-- A future joins at its first poll, if it is pending. -/
theorem Tracks.join (h : n.Tracks P) (hw : ¬ P w) :
    ({ n with waiting := n.waiting ++ [w] } : Notify W).Tracks fun v => v = w ∨ P v := by
  have hperm : ((n.waiting ++ [w]) ++ n.woken).Perm (w :: (n.waiting ++ n.woken)) := by
    rw [List.append_assoc]
    exact List.perm_middle
  constructor
  · refine hperm.nodup_iff.mpr (List.nodup_cons.mpr ⟨?_, h.nodup⟩)
    exact fun hmem => hw ((h.mem_iff w).mp hmem)
  · intro v
    rw [hperm.mem_iff, List.mem_cons, h.mem_iff]

theorem Tracks.of_erase {n' : Notify W} (h : n.Tracks P)
    (hperm : (n.waiting ++ n.woken).Perm (w :: (n'.waiting ++ n'.woken))) :
    n'.Tracks fun v => v ≠ w ∧ P v := by
  obtain ⟨hw, hnodup⟩ := List.nodup_cons.mp (hperm.nodup_iff.mp h.nodup)
  refine ⟨hnodup, fun v => ?_⟩
  rw [← h.mem_iff v, hperm.mem_iff, List.mem_cons]
  constructor
  · intro hv
    exact ⟨fun e => hw (e ▸ hv), .inr hv⟩
  · rintro ⟨hne, rfl | hv⟩
    · exact absurd rfl hne
    · exact hv

theorem perm_erase_woken [DecidableEq W] (hw : w ∈ n.woken) :
    (n.waiting ++ n.woken).Perm (w :: (n.waiting ++ n.woken.erase w)) :=
  ((List.perm_cons_erase hw).append_left n.waiting).trans List.perm_middle

theorem Tracks.rePoll [DecidableEq W] {n' : Notify W} (h : n.Tracks P) (hp : rePoll w n = some n') :
    n'.Tracks fun v => v ≠ w ∧ P v := by
  unfold Notify.rePoll at hp
  split_ifs at hp with hw
  cases hp
  exact h.of_erase (perm_erase_woken hw)

theorem Tracks.cancel [DecidableEq W] (h : n.Tracks P) (hw : P w) :
    (cancel w n).Tracks fun v => v ≠ w ∧ P v := by
  unfold Notify.cancel
  split_ifs with hwoken
  · have herase : ({ n with woken := n.woken.erase w } : Notify W).Tracks fun v => v ≠ w ∧ P v :=
      h.of_erase (perm_erase_woken hwoken)
    exact herase.notifyOne
  · have hwait : w ∈ n.waiting :=
      (List.mem_append.mp ((h.mem_iff w).mpr hw)).resolve_right hwoken
    exact h.of_erase ((List.perm_cons_erase hwait).append_right n.woken)

/-- A permit is stored only while nobody waits. -/
def Sound (n : Notify W) : Prop := n.permit = true → n.waiting = []

theorem Sound.notifyOne (h : n.Sound) : n.notifyOne.Sound := by
  unfold Notify.notifyOne
  split
  · rename_i hwaiting
    exact fun _ => hwaiting
  · rename_i w rest hwaiting
    intro hp
    rw [h hp] at hwaiting
    cases hwaiting

theorem Sound.cancel [DecidableEq W] (h : n.Sound) (w : W) : (cancel w n).Sound := by
  unfold Notify.cancel
  split_ifs
  · have herase : ({ n with woken := n.woken.erase w } : Notify W).Sound := h
    exact herase.notifyOne
  · intro hp
    simp only [h hp, List.erase_nil]

/-! ### Counting notifications -/

/-- The notifications under way: the stored permit, and those that woken futures have not seen. -/
def spare (n : Notify W) : Nat := n.permit.toNat + n.woken.length

/-- `notify_one` has nobody to wake and no room for the permit. -/
def Lossy (n : Notify W) : Prop := n.waiting = [] ∧ n.permit = true

/-- Some future waits, or of `k` futures before their first poll one will find no permit. -/
def Wanted (n : Notify W) (k : Nat) : Prop := n.waiting ≠ [] ∨ n.permit.toNat < k

instance (n : Notify W) : Decidable n.Lossy :=
  inferInstanceAs (Decidable (_ ∧ _))

instance (n : Notify W) (k : Nat) : Decidable (n.Wanted k) :=
  inferInstanceAs (Decidable (_ ∨ _))

theorem not_wanted_iff :
    ¬ n.Wanted k ↔ n.waiting = [] ∧ k ≤ n.permit.toNat := by
  rw [Wanted, not_or, not_not, Nat.not_lt]

/-- **A notification is lost** exactly if nobody can take it. -/
theorem spare_notifyOne (n : Notify W) :
    n.notifyOne.spare = if n.Lossy then n.spare else n.spare + 1 := by
  obtain ⟨permit, waiting, woken⟩ := n
  cases waiting with
  | nil => cases permit <;> simp [notifyOne, spare, Lossy, Nat.add_comm]
  | cons w rest => simp [notifyOne, spare, Lossy, Nat.add_assoc]

theorem not_wanted_notifyOne (h : ¬ n.Wanted k) :
    ¬ n.notifyOne.Wanted k := by
  obtain ⟨hwaiting, hk⟩ := not_wanted_iff.mp h
  refine not_wanted_iff.mpr ?_
  simp only [notifyOne, hwaiting, Bool.toNat_true, true_and]
  exact Nat.le_trans hk (Bool.toNat_le _)

theorem spare_erase_woken [DecidableEq W] (hw : w ∈ n.woken) :
    ({ n with woken := n.woken.erase w } : Notify W).spare + 1 = n.spare := by
  have hpos := List.length_pos_of_mem hw
  simp only [spare, List.length_erase_of_mem hw]
  omega

/-- A woken future that is dropped passes its notification on. -/
theorem spare_cancel [DecidableEq W] (hw : w ∈ n.woken) (hl : ¬ n.Lossy) :
    (cancel w n).spare = n.spare := by
  have herase := spare_erase_woken hw
  have hl' : ¬ ({ n with woken := n.woken.erase w } : Notify W).Lossy := hl
  rw [cancel, if_pos hw, spare_notifyOne, if_neg hl', herase]

theorem not_wanted_cancel [DecidableEq W] (hw : w ∈ n.woken) (h : ¬ n.Wanted k) :
    ¬ (cancel w n).Wanted k := by
  have herase : ¬ ({ n with woken := n.woken.erase w } : Notify W).Wanted k := h
  rw [cancel, if_pos hw]
  exact not_wanted_notifyOne herase

end Notify
