import Mathlib.Data.List.MinMax

/-!
# Support — Evict

Lists of bounded length: elements are removed until there is room for one more.

* `popBack`: from the back.
* `evictLeast`: an element with the least key, of those that have one; elements without a key are
  neither counted nor removed.  `evictLeast_spec` says what stays and what goes.
* `findMut`: a change to the first element that satisfies a condition, if there is one.
-/

namespace Evict

variable {α : Type}

/-! ### The first element -/

/-- The list with its first element that satisfies `p` changed (`iter_mut().find(p)`). -/
def findMut (p : α → Bool) (f : α → α) : List α → Option (List α)
  | [] => none
  | x :: l => if p x then some (f x :: l) else (findMut p f l).map (x :: ·)

theorem findMut_eq_none_iff {p : α → Bool} {f : α → α} {l : List α} :
    findMut p f l = none ↔ ∀ x ∈ l, p x = false := by
  induction l with
  | nil => simp [findMut]
  | cons x l ih =>
      rw [findMut]
      cases hx : p x with
      | true => simp [hx]
      | false => simp [hx, ih]

/-- **Where the change is.** -/
theorem findMut_eq_some_iff {p : α → Bool} {f : α → α} {l l' : List α} :
    findMut p f l = some l' ↔ ∃ l₁ x l₂, l = l₁ ++ x :: l₂ ∧ l' = l₁ ++ f x :: l₂ ∧
      p x = true ∧ ∀ y ∈ l₁, p y = false := by
  induction l generalizing l' with
  | nil => simp [findMut]
  | cons y l ih =>
      rw [findMut]
      constructor
      · intro h
        cases hy : p y with
        | true =>
            rw [hy, if_pos rfl, Option.some.injEq] at h
            exact ⟨[], y, l, rfl, h.symm, hy, by simp⟩
        | false =>
            rw [hy, if_neg (by simp), Option.map_eq_some_iff] at h
            obtain ⟨l'', hl'', rfl⟩ := h
            obtain ⟨l₁, x, l₂, rfl, rfl, hx, hl₁⟩ := ih.mp hl''
            refine ⟨y :: l₁, x, l₂, rfl, rfl, hx, ?_⟩
            simpa [hy] using hl₁
      · rintro ⟨l₁, x, l₂, hl, rfl, hx, hl₁⟩
        cases l₁ with
        | nil =>
            obtain ⟨rfl, rfl⟩ := List.cons.inj hl
            rw [hx, if_pos rfl, List.nil_append]
        | cons z l₁ =>
            obtain ⟨rfl, rfl⟩ := List.cons.inj hl
            have hy := hl₁ y List.mem_cons_self
            rw [hy, if_neg (by simp), ih.mpr ⟨l₁, x, l₂, rfl, rfl, hx,
              fun z hz => hl₁ z (List.mem_cons_of_mem y hz)⟩]
            rfl

/-! ### From the back -/

/-- At most `n` rounds of `while len >= limit { pop_back() }`. -/
def popLoop (limit : Nat) : Nat → List α → List α
  | 0, l => l
  | n + 1, l => if limit ≤ l.length then popLoop limit n l.dropLast else l

/-- The whole loop, which removes an element in each round. -/
def popBack (limit : Nat) (l : List α) : List α := popLoop limit l.length l

/-- **What stays is in front**, with room for one more. -/
theorem popBack_eq_take {limit : Nat} (hlimit : 0 < limit) (l : List α) :
    popBack limit l = l.take (limit - 1) := by
  suffices hloop : ∀ n (l : List α), l.length ≤ n → popLoop limit n l = l.take (limit - 1) from
    hloop l.length l le_rfl
  intro n
  induction n with
  | zero =>
      intro l hl
      rw [List.length_eq_zero_iff.mp (Nat.le_zero.mp hl), popLoop, List.take_nil]
  | succ n ih =>
      intro l hl
      rw [popLoop]
      split_ifs with hle
      · rw [ih _ (by rw [List.length_dropLast]; omega), List.dropLast_eq_take, List.take_take,
          Nat.min_eq_left (by omega)]
      · rw [List.take_of_length_le (by omega)]

/-- What stays and what goes are the list. -/
theorem popBack_append_drop {limit : Nat} (hlimit : 0 < limit) (l : List α) :
    popBack limit l ++ l.drop (popBack limit l).length = l := by
  rw [popBack_eq_take hlimit]
  rcases Nat.le_total (limit - 1) l.length with hle | hge
  · rw [List.length_take_of_le hle, List.take_append_drop]
  · rw [List.take_of_length_le hge, List.drop_length, List.append_nil]

/-! ### The least key -/

variable (key : α → Option Nat)

/-- The elements that have a key. -/
def keyed (l : List α) : List α := l.filter fun x => (key x).isSome

/-- The index of the first element with the least key, of those that have one. -/
def leastIdx (l : List α) : Option Nat :=
  ((l.zipIdx.filterMap fun (x, i) => (key x).map fun k => (i, k)).argmin Prod.snd).map Prod.fst

variable {key} {l : List α} {i : Nat}

/-- **An element with the least key** is there, and no other key is less. -/
theorem leastIdx_eq_some (h : leastIdx key l = some i) :
    ∃ x k, l[i]? = some x ∧ key x = some k ∧ ∀ y ∈ l, ∀ k' ∈ key y, k ≤ k' := by
  obtain ⟨⟨j, k⟩, hmin, rfl⟩ := Option.map_eq_some_iff.mp h
  have hmem := List.argmin_mem hmin
  obtain ⟨⟨x, j'⟩, hzip, hkey⟩ := List.mem_filterMap.mp hmem
  obtain ⟨k', hk', heq⟩ := Option.map_eq_some_iff.mp hkey
  cases heq
  refine ⟨x, k, List.mem_zipIdx_iff_getElem?.mp hzip, hk', ?_⟩
  intro y hy k' hk'
  obtain ⟨j, hj⟩ := List.mem_iff_getElem?.mp hy
  have hle := List.le_of_mem_argmin (f := Prod.snd) (a := (j, k'))
    (List.mem_filterMap.mpr ⟨(y, j), List.mem_zipIdx_iff_getElem?.mpr hj, by simpa using hk'⟩) hmin
  exact hle

theorem leastIdx_eq_none_iff : leastIdx key l = none ↔ keyed key l = [] := by
  rw [leastIdx, Option.map_eq_none_iff, List.argmin_eq_none, List.filterMap_eq_nil_iff, keyed,
    List.filter_eq_nil_iff]
  constructor
  · intro h x hx
    obtain ⟨j, hj⟩ := List.mem_iff_getElem?.mp hx
    have := h (x, j) (List.mem_zipIdx_iff_getElem?.mpr hj)
    simpa using this
  · rintro h ⟨x, j⟩ hzip
    have := h x (List.mem_of_getElem? (List.mem_zipIdx_iff_getElem?.mp hzip))
    simpa using this

variable (key)

/-- At most `n` rounds of the loop: while as many elements as `limit` have a key, the one with the
least goes. -/
def evictLoop (limit : Nat) : Nat → List α → List α
  | 0, l => l
  | n + 1, l =>
    if limit ≤ (keyed key l).length then
      match leastIdx key l with
      | none => l
      | some i => evictLoop limit n (l.eraseIdx i)
    else l

/-- The whole loop, which removes an element in each round. -/
def evictLeast (limit : Nat) (l : List α) : List α := evictLoop key limit l.length l

variable {key}

theorem mem_eraseIdx_or {x : α} (hx : x ∈ l) (i : Nat) :
    x ∈ l.eraseIdx i ∨ l[i]? = some x := by
  obtain ⟨j, hj⟩ := List.mem_iff_getElem?.mp hx
  by_cases heq : j = i
  · exact .inr (heq ▸ hj)
  · refine .inl (List.mem_eraseIdx_iff_getElem?.mpr ⟨j, heq, hj⟩)

/-- **What stays and what goes**: what stays is in order and has room for one more; what goes has a
key, and no key that stays is less. -/
theorem evictLeast_spec {limit : Nat} (hlimit : 0 < limit) (l : List α) :
    (evictLeast key limit l).Sublist l ∧ (keyed key (evictLeast key limit l)).length < limit ∧
      ∀ x ∈ l, x ∉ evictLeast key limit l →
        ∃ k, key x = some k ∧ ∀ y ∈ evictLeast key limit l, ∀ k' ∈ key y, k ≤ k' := by
  suffices hloop : ∀ n (l : List α), l.length ≤ n → (evictLoop key limit n l).Sublist l ∧
      (keyed key (evictLoop key limit n l)).length < limit ∧
      ∀ x ∈ l, x ∉ evictLoop key limit n l →
        ∃ k, key x = some k ∧ ∀ y ∈ evictLoop key limit n l, ∀ k' ∈ key y, k ≤ k' from
    hloop l.length l le_rfl
  intro n
  induction n with
  | zero =>
      intro l hl
      rw [List.length_eq_zero_iff.mp (Nat.le_zero.mp hl), evictLoop]
      exact ⟨.refl _, hlimit, fun x hx hnot => absurd hx hnot⟩
  | succ n ih =>
      intro l hl
      rw [evictLoop]
      split_ifs with hle
      · cases hleast : leastIdx key l with
        | none =>
            rw [leastIdx_eq_none_iff] at hleast
            rw [hleast, List.length_nil] at hle
            omega
        | some i =>
            obtain ⟨x', k, hx', hkey, hmin⟩ := leastIdx_eq_some hleast
            have hlt := (List.getElem?_eq_some_iff.mp hx').1
            obtain ⟨hsub, hroom, hgone⟩ := ih (l.eraseIdx i)
              (by rw [List.length_eraseIdx_of_lt hlt]; omega)
            have hsub' := hsub.trans (List.eraseIdx_sublist l i)
            refine ⟨hsub', hroom, fun x hx hnot => ?_⟩
            rcases mem_eraseIdx_or hx i with hrest | hhere
            · exact hgone x hrest hnot
            · cases hhere.symm.trans hx'
              exact ⟨k, hkey, fun y hy => hmin y (hsub'.subset hy)⟩
      · exact ⟨.refl l, by omega, fun x hx hnot => absurd hx hnot⟩

end Evict
