import Mathlib.Algebra.BigOperators.Fin

/-!
# Support — SlidingWindow

Sums over the last `n` units of time, kept in a ring of `n` slots.

A call adds a value at a time.  The slot with the number `time mod n` has the time it was last used
for and the sum of the values of that time; a call at another time starts it again.  The values are
of any commutative monoid.

* `Holds.record`: what the slots hold after one more call.
* `Holds.sum_window`: the slots whose time is within `n` of the last call's are the calls of the
  last `n` units of time.  A slot whose time is exactly `n` before does not exist: it would be the
  one of the last call.

The monoid `Saturating` is that of the 64-bit integers whose sums stop at the largest one
(`Saturating.toNat_sum`).
-/

namespace SlidingWindow

variable {M : Type*} [AddCommMonoid M] {n : Nat}

/-! ### Sums over calls -/

/-- The values of the calls whose time meets `p`, added up. -/
def total (p : Nat → Prop) [DecidablePred p] (calls : List (Nat × M)) : M :=
  ((calls.filter fun call => p call.1).map Prod.snd).sum

section Total

variable {p q : Nat → Prop} [DecidablePred p] [DecidablePred q] {calls : List (Nat × M)}

theorem total_cons (call : Nat × M) (calls : List (Nat × M)) :
    total p (call :: calls) = (if p call.1 then call.2 else 0) + total p calls := by
  simp only [total, List.filter_cons, decide_eq_true_eq]
  split_ifs with h
  · rw [List.map_cons, List.sum_cons]
  · rw [zero_add]

theorem total_append (calls more : List (Nat × M)) :
    total p (calls ++ more) = total p calls + total p more := by
  rw [total, List.filter_append, List.map_append, List.sum_append, total, total]

theorem total_singleton (call : Nat × M) : total p [call] = if p call.1 then call.2 else 0 := by
  rw [total_cons, total, List.filter_nil, List.map_nil, List.sum_nil, add_zero]

theorem total_congr (h : ∀ call ∈ calls, p call.1 ↔ q call.1) : total p calls = total q calls := by
  have hfilter : (calls.filter fun call => p call.1) = calls.filter fun call => q call.1 :=
    List.filter_congr fun call hcall => decide_eq_decide.mpr (h call hcall)
  rw [total, hfilter, total]

theorem total_eq_zero (h : ∀ call ∈ calls, ¬p call.1) : total p calls = 0 := by
  have hfilter : (calls.filter fun call => p call.1) = [] :=
    List.filter_eq_nil_iff.mpr fun call hcall => by simpa using h call hcall
  rw [total, hfilter, List.map_nil, List.sum_nil]

/-- Sums over the calls are sums over the calls of each slot. -/
theorem sum_total (hn : 0 < n) (calls : List (Nat × M)) :
    ∑ i : Fin n, total (fun time => p time ∧ time % n = i) calls = total p calls := by
  induction calls with
  | nil => exact Finset.sum_const_zero
  | cons call calls ih =>
      have hslot : ∑ i : Fin n, (if p call.1 ∧ call.1 % n = i then call.2 else 0) =
          if p call.1 then call.2 else 0 := by
        -- of the slots only the call's own has it
        rw [Finset.sum_eq_single (⟨call.1 % n, Nat.mod_lt _ hn⟩ : Fin n)]
        · exact if_congr (and_iff_left rfl) rfl rfl
        · intro i _ hne
          exact if_neg fun h => hne (Fin.ext h.2.symm)
        · intro h
          exact absurd (Finset.mem_univ _) h
      simp only [total_cons, Finset.sum_add_distrib, hslot, ih]

end Total

/-! ### The ring -/

/-- **What the slots hold** after the calls: the sum of the values of the slot's time, which is that
of the slot's last call if there was one. -/
structure Holds (calls : List (Nat × M)) (time : Fin n → Nat) (value : Fin n → M) : Prop where
  value_eq : ∀ i, value i = total (fun t => t = time i ∧ t % n = i) calls
  latest : ∀ call ∈ calls, ∀ i : Fin n, call.1 % n = i → call.1 ≤ time i
  used : ∀ call ∈ calls, ∀ i : Fin n, call.1 % n = i →
    time i % n = i ∧ ∃ last ∈ calls, last.1 = time i

/-- Slots that were never used hold nothing, whatever their time is. -/
theorem holds_nil (time : Fin n → Nat) : Holds ([] : List (Nat × M)) time fun _ => 0 where
  value_eq _ := (total_eq_zero (List.forall_mem_nil _)).symm
  latest := List.forall_mem_nil _
  used := List.forall_mem_nil _

variable {calls : List (Nat × M)} {time : Fin n → Nat} {value : Fin n → M} {s : Nat} {i : Fin n}

/-- Before a call at `s`, a slot of another time has no call of `s`. -/
theorem Holds.not_called (h : Holds calls time value) (hlast : ∀ call ∈ calls, call.1 ≤ s)
    (hi : s % n = i) (hne : time i ≠ s) : ∀ call ∈ calls, ¬(call.1 = s ∧ call.1 % n = i) := by
  rintro call hcall ⟨rfl, -⟩
  obtain ⟨-, last, hmem, hlastTime⟩ := h.used call hcall i hi
  have hle : time i ≤ call.1 := hlastTime ▸ hlast last hmem
  exact hne (Nat.le_antisymm hle (h.latest call hcall i hi))

/-- **One more call**, not before the others. -/
theorem Holds.record (h : Holds calls time value) (hlast : ∀ call ∈ calls, call.1 ≤ s)
    (hi : s % n = i) (m : M) :
    Holds (calls ++ [(s, m)]) (Function.update time i s)
      (Function.update value i ((if time i = s then value i else 0) + m)) := by
  constructor
  · intro j
    rw [total_append, total_singleton]
    by_cases hj : j = i
    · subst hj
      rw [Function.update_self, Function.update_self]
      refine congrArg₂ (· + ·) ?_ (if_pos ⟨rfl, hi⟩).symm
      split_ifs with htime
      · rw [h.value_eq, htime]
      · exact (total_eq_zero (h.not_called hlast hi htime)).symm
    · have hother : ¬(s = time j ∧ s % n = j) := fun hs => hj (Fin.ext (hs.2.symm.trans hi))
      rw [Function.update_of_ne hj, Function.update_of_ne hj, if_neg hother, add_zero, h.value_eq]
  · intro call hcall j hj
    rw [Function.update_apply]
    split_ifs with heq
    · rcases List.mem_append.mp hcall with hcall | hcall
      · exact hlast call hcall
      · rw [List.mem_singleton.mp hcall]
    · rcases List.mem_append.mp hcall with hcall | hcall
      · exact h.latest call hcall j hj
      · rw [List.mem_singleton.mp hcall] at hj
        exact absurd (Fin.ext (hj.symm.trans hi)) heq
  · intro call hcall j hj
    rw [Function.update_apply]
    split_ifs with heq
    · exact ⟨heq ▸ hi, (s, m), List.mem_append_right _ (List.mem_singleton_self _), rfl⟩
    · rcases List.mem_append.mp hcall with hcall | hcall
      · obtain ⟨hmod, last, hmem, htime⟩ := h.used call hcall j hj
        exact ⟨hmod, last, List.mem_append_left _ hmem, htime⟩
      · rw [List.mem_singleton.mp hcall] at hj
        exact absurd (Fin.ext (hj.symm.trans hi)) heq

/-- Within `n` of each other, times with one slot are equal. -/
theorem eq_of_mod_eq {a b : Nat} (hab : a ≤ b) (hlt : b < a + n) (hmod : a % n = b % n) :
    a = b := by
  have hsub : (b - a) % n = 0 := Nat.sub_mod_eq_zero_of_mod_eq hmod.symm
  rw [Nat.mod_eq_of_lt (by omega)] at hsub
  omega

/-- What a slot contributes to the window that ends with the last call. -/
theorem Holds.slot_window (h : Holds calls time value) (hs : ∃ call ∈ calls, call.1 = s)
    (hlast : ∀ call ∈ calls, call.1 ≤ s) (i : Fin n) :
    (if s - n ≤ time i ∧ time i ≤ s then value i else 0) =
      total (fun t => s < t + n ∧ t % n = i) calls := by
  by_cases hused : ∃ call ∈ calls, call.1 % n = i
  · obtain ⟨call, hcall, hmod⟩ := hused
    obtain ⟨htime, last, hmem, hlastTime⟩ := h.used call hcall i hmod
    have hle : time i ≤ s := hlastTime ▸ hlast last hmem
    by_cases hnear : s < time i + n
    · rw [if_pos ⟨by omega, hle⟩, h.value_eq]
      refine total_congr fun c hc => ⟨?_, ?_⟩
      · rintro ⟨heq, hc'⟩
        exact ⟨heq ▸ hnear, hc'⟩
      · rintro ⟨hwindow, hc'⟩
        have hlatest := h.latest c hc i hc'
        exact ⟨eq_of_mod_eq hlatest (by omega) (hc'.trans htime.symm), hc'⟩
    · -- a slot of the time `s - n` would be that of the call at `s`
      have hold : time i ≠ s - n := by
        intro heq
        obtain ⟨c, hc, rfl⟩ := hs
        have hmods : c.1 % n = i := by
          rw [← htime, heq, ← Nat.add_mod_right (c.1 - n) n, Nat.sub_add_cancel (by omega)]
        have := h.latest c hc i hmods
        have hpos : 0 < n := Nat.lt_of_le_of_lt (Nat.zero_le _) i.isLt
        omega
      have hout : ¬(s - n ≤ time i ∧ time i ≤ s) := by omega
      rw [if_neg hout]
      refine (total_eq_zero ?_).symm
      rintro c hc ⟨hwindow, hc'⟩
      have := h.latest c hc i hc'
      omega
  · -- a slot that was never used holds nothing
    rw [not_exists] at hused
    have hnone : ∀ (p : Nat → Prop) [DecidablePred p],
        total (fun t => p t ∧ t % n = i) calls = 0 := fun p _ =>
      total_eq_zero fun call hcall h' => hused call ⟨hcall, h'.2⟩
    rw [h.value_eq, hnone, hnone, ite_self]

/-- **The window.**  After a call at `s`, the slots with a time from `s - n` to `s` are the calls of
the times after `s - n`. -/
theorem Holds.sum_window (hn : 0 < n) (h : Holds calls time value)
    (hs : ∃ call ∈ calls, call.1 = s) (hlast : ∀ call ∈ calls, call.1 ≤ s) :
    ∑ i, (if s - n ≤ time i ∧ time i ≤ s then value i else 0) =
      total (fun t => s < t + n) calls := by
  rw [← sum_total hn calls]
  exact Finset.sum_congr rfl fun i _ => h.slot_window hs hlast i

end SlidingWindow

/-! ### Saturating sums -/

/-- A 64-bit integer that is added to with `saturating_add`. -/
@[ext] structure Saturating where
  value : UInt64
deriving DecidableEq

namespace Saturating

/-- The largest one. -/
def limit : Nat := UInt64.size - 1

instance : Zero Saturating := ⟨⟨0⟩⟩

/-- `saturating_add` -/
instance : Add Saturating where
  add a b := ⟨UInt64.ofNat (min (a.value.toNat + b.value.toNat) limit)⟩

theorem toNat_injective {a b : Saturating} (h : a.value.toNat = b.value.toNat) : a = b :=
  Saturating.ext (UInt64.toNat_inj.mp h)

theorem toNat_le (a : Saturating) : a.value.toNat ≤ limit := Nat.le_pred_of_lt a.value.toNat_lt

@[simp] theorem toNat_zero : (0 : Saturating).value.toNat = 0 := rfl

theorem toNat_add (a b : Saturating) :
    (a + b).value.toNat = min (a.value.toNat + b.value.toNat) limit :=
  UInt64.toNat_ofNat_of_lt' (Nat.lt_of_le_of_lt (Nat.min_le_right _ _) (by decide))

instance : AddCommMonoid Saturating where
  nsmul := nsmulRec
  add_assoc a b c := by
    have ha := a.toNat_le
    have hc := c.toNat_le
    refine toNat_injective ?_
    simp only [toNat_add]
    omega
  zero_add a := by
    refine toNat_injective ?_
    rw [toNat_add, toNat_zero, Nat.zero_add, Nat.min_eq_left a.toNat_le]
  add_zero a := by
    refine toNat_injective ?_
    rw [toNat_add, toNat_zero, Nat.add_zero, Nat.min_eq_left a.toNat_le]
  add_comm a b := by
    refine toNat_injective ?_
    rw [toNat_add, toNat_add, Nat.add_comm]

/-- **A saturating sum** is the sum, or the limit if that is less. -/
theorem toNat_sum (l : List Saturating) :
    l.sum.value.toNat = min (l.map fun a => a.value.toNat).sum limit := by
  induction l with
  | nil => rfl
  | cons a l ih =>
      rw [List.sum_cons, toNat_add, ih, List.map_cons, List.sum_cons]
      omega

end Saturating
