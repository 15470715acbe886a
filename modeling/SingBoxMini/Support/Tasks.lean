import Mathlib.Algebra.Order.Ring.Nat
import Mathlib.Data.List.Count
import Mathlib.Tactic.SplitIfs

/-!
# Support — Tasks

Tasks that are never removed are a list, and a task is its position in it: it is spawned at the end
and its record is replaced when it moves on.

* `getElem?_replace`, `getElem?_modified`, `getElem?_spawn`: the other tasks stay as they are.
* `exists_replace`, `exists_spawn`: so there is still a task with a property.
* `count_replace`, `count_spawn`: how many tasks are at one place.
* `sum_replace`: what the tasks of one kind have together.
* `filterMap_replace_perm`: what the tasks have brought so far.
-/

namespace Tasks

variable {α : Type*}

variable {l : List α} {i : Nat} {x y : α}

theorem lt_length (h : l[i]? = some x) : i < l.length :=
  (List.getElem?_eq_some_iff.mp h).1

theorem getElem?_replace (h : l[i]? = some x) (y : α) (j : Nat) :
    (l.set i y)[j]? = if i = j then some y else l[j]? := by
  rw [List.getElem?_set, if_pos (lt_length h)]

theorem getElem?_spawn (l : List α) (x : α) (j : Nat) :
    (l ++ [x])[j]? = if j = l.length then some x else l[j]? := by
  grind

/-- A task among those after one has moved on. -/
theorem of_replace {z : α} {j : Nat} (h : l[i]? = some x) (hj : (l.set i y)[j]? = some z) :
    (i = j ∧ z = y) ∨ (i ≠ j ∧ l[j]? = some z) := by
  rw [getElem?_replace h] at hj
  split_ifs at hj with hij
  · exact .inl ⟨hij, (Option.some.inj hj).symm⟩
  · exact .inr ⟨hij, hj⟩

theorem of_spawn (h : (l ++ [y])[i]? = some x) : x = y ∨ l[i]? = some x := by
  rw [getElem?_spawn] at h
  split_ifs at h
  · exact .inl (Option.some.inj h).symm
  · exact .inr h

theorem replace_self (h : l[i]? = some x) (y : α) : (l.set i y)[i]? = some y :=
  (getElem?_replace h y i).trans (if_pos rfl)

theorem spawn_old (h : l[i]? = some x) (y : α) : (l ++ [y])[i]? = some x :=
  (List.getElem?_append_left (lt_length h)).trans h

/-- There is still a task with a property that the one that moves on keeps. -/
theorem exists_replace {P : α → Prop} (h : l[i]? = some x) (hP : P x → P y)
    (hsome : ∃ (j : Nat) (z : α), l[j]? = some z ∧ P z) :
    ∃ (j : Nat) (z : α), (l.set i y)[j]? = some z ∧ P z := by
  obtain ⟨j, z, hj, hz⟩ := hsome
  by_cases hij : i = j
  · subst hij
    cases h.symm.trans hj
    exact ⟨i, y, replace_self h y, hP hz⟩
  · exact ⟨j, z, (List.getElem?_set_ne hij).trans hj, hz⟩

theorem exists_spawn {P : α → Prop} (y : α)
    (hsome : ∃ (j : Nat) (z : α), l[j]? = some z ∧ P z) :
    ∃ (j : Nat) (z : α), (l ++ [y])[j]? = some z ∧ P z := by
  obtain ⟨j, z, hj, hz⟩ := hsome
  exact ⟨j, z, spawn_old hj y, hz⟩

theorem getElem?_modified (l : List α) (i : Nat) (f : α → α) (j : Nat) :
    (l.modify i f)[j]? = if i = j then l[j]?.map f else l[j]? := by
  rw [List.getElem?_modify]
  split_ifs <;> simp

theorem countP_replace (h : l[i]? = some x) (p : α → Bool) (y : α) :
    (l.set i y).countP p + (if p x then 1 else 0) = l.countP p + (if p y then 1 else 0) := by
  obtain ⟨hlt, hx⟩ := List.getElem?_eq_some_iff.mp h
  rw [List.countP_set hlt, hx]
  by_cases hpx : p x
  · have hpos : 0 < l.countP p := List.countP_pos_iff.mpr ⟨x, List.mem_of_getElem? h, hpx⟩
    rw [if_pos hpx]
    omega
  · rw [if_neg hpx, Nat.sub_zero, Nat.add_zero]

theorem count_replace [DecidableEq α] (h : l[i]? = some x) (y z : α) :
    (l.set i y).count z + (if x = z then 1 else 0) = l.count z + (if y = z then 1 else 0) := by
  have hcount := countP_replace h (· == z) y
  simpa only [List.count, beq_iff_eq] using hcount

theorem count_spawn [DecidableEq α] (l : List α) (x z : α) :
    (l ++ [x]).count z = l.count z + (if x = z then 1 else 0) := by
  rw [List.count_append, List.count_singleton]
  simp only [beq_iff_eq]

/-- A sum over the tasks of one kind. -/
theorem sum_replace (h : l[i]? = some x) (p : α → Bool) (f : α → Nat) (y : α) :
    (((l.set i y).filter p).map f).sum + (if p x then f x else 0) =
      ((l.filter p).map f).sum + (if p y then f y else 0) := by
  induction l generalizing i with
  | nil => cases h
  | cons z l ih =>
      cases i with
      | zero =>
          cases h
          rw [List.set_cons_zero, List.filter_cons, List.filter_cons]
          split_ifs <;> simp <;> omega
      | succ i =>
          have hrest := ih h
          rw [List.set_cons_succ, List.filter_cons, List.filter_cons]
          by_cases hz : p z
          · rw [if_pos hz, if_pos hz, List.map_cons, List.sum_cons, List.map_cons, List.sum_cons]
            omega
          · rw [if_neg hz, if_neg hz]
            exact hrest

/-- A task that brings nothing, before and after it moves. -/
theorem filterMap_replace {β : Type*} {f : α → Option β} (h : l[i]? = some x) (hx : f x = none)
    (hy : f y = none) :
    (l.set i y).filterMap f = l.filterMap f := by
  induction l generalizing i with
  | nil => cases h
  | cons z l ih =>
      cases i with
      | zero =>
          cases h
          rw [List.set_cons_zero, List.filterMap_cons_none hx, List.filterMap_cons_none hy]
      | succ i => rw [List.set_cons_succ, List.filterMap_cons, List.filterMap_cons, ih h]

/-- A task that brings something as it moves. -/
theorem filterMap_replace_perm {β : Type*} {f : α → Option β} {b : β} (h : l[i]? = some x)
    (hx : f x = none) (hy : f y = some b) :
    ((l.set i y).filterMap f).Perm (b :: l.filterMap f) := by
  induction l generalizing i with
  | nil => cases h
  | cons z l ih =>
      cases i with
      | zero =>
          cases h
          rw [List.set_cons_zero, List.filterMap_cons_none hx, List.filterMap_cons_some hy]
      | succ i =>
          rw [List.set_cons_succ]
          cases hz : f z with
          | none =>
              rw [List.filterMap_cons_none hz, List.filterMap_cons_none hz]
              exact ih h
          | some c =>
              rw [List.filterMap_cons_some hz, List.filterMap_cons_some hz]
              exact ((ih h).cons c).trans (.swap b c _)

/-- Two tasks of one kind are the same if there is no more than one. -/
theorem index_unique {p : α → Bool} (hcount : l.countP p ≤ 1) {j : Nat} (hi : l[i]? = some x)
    (hj : l[j]? = some y) (hx : p x = true) (hy : p y = true) : i = j := by
  induction l generalizing i j with
  | nil => cases hi
  | cons z l ih =>
      have hpos : ∀ {k : Nat} {w : α}, l[k]? = some w → p w = true → 0 < l.countP p :=
        fun hk hw => List.countP_pos_iff.mpr ⟨_, List.mem_of_getElem? hk, hw⟩
      cases i with
      | zero =>
          cases j with
          | zero => rfl
          | succ j =>
              cases hi
              have h := hpos hj hy
              rw [List.countP_cons_of_pos hx] at hcount
              omega
      | succ i =>
          cases j with
          | zero =>
              cases hj
              have h := hpos hi hx
              rw [List.countP_cons_of_pos hy] at hcount
              omega
          | succ j =>
              rw [List.countP_cons] at hcount
              exact congrArg Nat.succ (ih (by omega) hi hj)

theorem count_eq_zero [DecidableEq α] {z : α} (h : ∀ i : Nat, l[i]? ≠ some z) :
    l.count z = 0 := by
  refine List.count_eq_zero.mpr fun hmem => ?_
  obtain ⟨i, hi⟩ := List.mem_iff_getElem?.mp hmem
  exact h i hi

end Tasks
