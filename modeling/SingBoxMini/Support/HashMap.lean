import Mathlib.Data.List.AList
import Mathlib.Data.List.Induction
import Mathlib.Data.List.MinMax

/-!
# Support — HashMap

A hash map is Mathlib's `AList`: a list of entries with distinct keys, the list standing for one
iteration order.  This file adds what `AList` lacks of `std::collections::HashMap`: the number of
entries, `retain`, and the iteration order, which `std` leaves unspecified and which may differ
from call to call.  `Iter` is an arbitrary enumeration of a map's entries; an operation that
iterates takes one as an argument.
-/

/-- A hash map from `K` to `V`. -/
abbrev HashMap (K V : Type) := AList (fun _ : K => V)

namespace HashMap

variable {K V : Type}

/-- The number of entries. -/
def len (m : HashMap K V) : Nat := m.entries.length

/-- The entries that satisfy `p`. -/
def retain (p : K → V → Bool) (m : HashMap K V) : HashMap K V where
  entries := m.entries.filter fun e => p e.1 e.2
  nodupKeys := m.nodupKeys.sublist List.filter_sublist

theorem len_eq_length_keys (m : HashMap K V) : len m = m.keys.length := by
  rw [len, AList.keys, List.keys, List.length_map]

theorem len_retain_le (p : K → V → Bool) (m : HashMap K V) : len (retain p m) ≤ len m :=
  List.length_filter_le _ _

variable {k : K} {m : HashMap K V} {pairs : List (K × V)} {v : V}

theorem len_pos_of_mem (h : k ∈ m) : 0 < len m := by
  rw [len_eq_length_keys]
  exact List.length_pos_of_mem (AList.mem_keys.mp h)

/-- An enumeration of the entries of every map, in some order. -/
structure Iter (K V : Type) where
  entries : HashMap K V → List (K × V)
  perm : ∀ m, (entries m).Perm (m.entries.map fun e => (e.1, e.2))

/-- The enumeration in the order of the list. -/
def Iter.inOrder (K V : Type) : Iter K V :=
  ⟨fun m => m.entries.map fun e => (e.1, e.2), fun _ => .refl _⟩

/-- The key of the first entry, in the order of `it`, at which `f` is least
(`iter().min_by_key(f)`). -/
def minByKey (it : Iter K V) (f : V → Nat) (m : HashMap K V) : Option K :=
  ((it.entries m).argmin fun e => f e.2).map Prod.fst

variable {it : Iter K V}

/-- `minByKey` finds an entry in a map that has one. -/
theorem len_eq_zero_of_minByKey {f : V → Nat} (h : minByKey it f m = none) : len m = 0 := by
  rw [minByKey, Option.map_eq_none_iff, List.argmin_eq_none] at h
  have := (it.perm m).length_eq
  rwa [h, List.length_nil, List.length_map, eq_comm] at this

variable [DecidableEq K]

@[simp] theorem lookup_retain (p : K → V → Bool) (m : HashMap K V) (k : K) :
    (retain p m).lookup k = (m.lookup k).filter (p k) := by
  ext v
  rw [Option.filter_eq_some_iff, ← Option.mem_def, ← Option.mem_def, AList.mem_lookup_iff,
    AList.mem_lookup_iff]
  simp [retain]

theorem len_insert_of_mem (v : V) (h : k ∈ m) :
    len (m.insert k v) = len m := by
  have hpos : 0 < m.keys.length := List.length_pos_of_mem (AList.mem_keys.mp h)
  rw [len_eq_length_keys, len_eq_length_keys, AList.keys_insert, List.length_cons,
    List.length_erase_of_mem (AList.mem_keys.mp h)]
  omega

theorem len_insert_of_not_mem (v : V) (h : k ∉ m) :
    len (m.insert k v) = len m + 1 := by
  rw [len_eq_length_keys, len_eq_length_keys, AList.keys_insert, List.length_cons,
    List.erase_of_not_mem (fun hk => h (AList.mem_keys.mpr hk))]

theorem len_erase_of_mem (h : k ∈ m) : len (m.erase k) = len m - 1 := by
  rw [len_eq_length_keys, len_eq_length_keys, AList.keys_erase,
    List.length_erase_of_mem (AList.mem_keys.mp h)]

theorem len_erase_le (k : K) (m : HashMap K V) : len (m.erase k) ≤ len m := by
  rw [len_eq_length_keys, len_eq_length_keys, AList.keys_erase]
  exact List.length_erase_le

/-- A lookup after a removal. -/
theorem lookup_erase_eq (k k' : K) (m : HashMap K V) :
    (m.erase k).lookup k' = if k' = k then none else m.lookup k' := by
  by_cases h : k' = k
  · subst h; simp
  · rw [if_neg h, AList.lookup_erase_ne h]

/-- `collect`: the pairs are inserted one after the other, so the last one with a key stays. -/
def collect (pairs : List (K × V)) : HashMap K V := pairs.foldl (fun m p => m.insert p.1 p.2) ∅

theorem lookup_collect_append (pairs : List (K × V)) (p : K × V) (k : K) :
    (collect (pairs ++ [p])).lookup k = if k = p.1 then some p.2 else (collect pairs).lookup k := by
  rw [collect, List.foldl_append, List.foldl_cons, List.foldl_nil]
  by_cases h : k = p.1
  · rw [if_pos h, h, AList.lookup_insert]
  · rw [if_neg h, AList.lookup_insert_ne h, collect]

/-- What is found in a collected map was one of the pairs, and every key is found. -/
theorem mem_of_lookup_collect (h : (collect pairs).lookup k = some v) : (k, v) ∈ pairs := by
  induction pairs using List.reverseRecOn with
  | nil => simp [collect] at h
  | append_singleton pairs p ih =>
      rw [lookup_collect_append] at h
      split_ifs at h with hk
      · cases h
        simp [hk]
      · exact List.mem_append_left _ (ih h)

theorem lookup_collect_of_mem (h : (k, v) ∈ pairs) :
    ∃ v', (collect pairs).lookup k = some v' := by
  induction pairs using List.reverseRecOn with
  | nil => cases h
  | append_singleton pairs p ih =>
      rw [lookup_collect_append]
      split_ifs with hk
      · exact ⟨p.2, rfl⟩
      · rcases List.mem_append.mp h with h | h
        · exact ih h
        · cases List.mem_singleton.mp h
          exact absurd rfl hk

/-- A pair that no other one contradicts is found. -/
theorem lookup_collect_eq (h : (k, v) ∈ pairs) (hunique : ∀ v', (k, v') ∈ pairs → v' = v) :
    (collect pairs).lookup k = some v := by
  obtain ⟨v', hv'⟩ := lookup_collect_of_mem h
  rw [hv', hunique v' (mem_of_lookup_collect hv')]

/-- A map whose entries are all filed under one key has at most one. -/
theorem len_le_one (h : ∀ k', k' ≠ k → m.lookup k' = none) :
    len m ≤ 1 := by
  have hsub : m.keys ⊆ [k] := fun k' hk' => by
    by_contra hne
    exact AList.lookup_eq_none.mp (h k' (fun e => hne (by simp [e]))) (AList.mem_keys.mpr hk')
  rw [len_eq_length_keys]
  exact (List.subperm_of_subset m.keys_nodup hsub).length_le

theorem Iter.mem_entries :
    (k, v) ∈ it.entries m ↔ m.lookup k = some v := by
  rw [(it.perm m).mem_iff, ← Option.mem_def, AList.mem_lookup_iff]
  simp

/-- The key `minByKey` returns is one of the map's. -/
theorem mem_of_minByKey {f : V → Nat} (h : minByKey it f m = some k) : k ∈ m := by
  simp only [minByKey, Option.map_eq_some_iff] at h
  obtain ⟨⟨k', v⟩, he, rfl⟩ := h
  have hl : m.lookup k' = some v := Iter.mem_entries.mp (List.argmin_mem he)
  exact AList.lookup_isSome.mp (by rw [hl]; rfl)

end HashMap
