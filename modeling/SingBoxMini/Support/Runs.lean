import Mathlib.Logic.Relation

/-!
# Support — Runs

Transition systems given by a function `step : S → A → Option S`, which is `none` where the action
is not enabled.

* `Reaches`: the states reached by a run whose steps all meet a condition, with the invariant rule
  `Reaches.invariant` and the refinement rule `Reaches.project`.
* `Inevitable`: a goal is reached however other steps come between, as long as a step of `own` is
  taken once one is enabled.  The rule is a rank (`inevitable_of_rank`).
-/

namespace Runs

variable {S A : Type*}

section Reaches

variable (step : S → A → Option S)

/-- The state after the actions, in order. -/
def run (s : S) : List A → Option S
  | [] => some s
  | a :: as => (step s a).bind fun t => run t as

/-- The states reached from `s₀` by runs all of whose steps meet `ok`. -/
inductive Reaches (ok : S → A → Prop) (s₀ : S) : S → Prop where
  | refl : Reaches ok s₀ s₀
  | more {s s' : S} {a : A} (h : Reaches ok s₀ s) (hok : ok s a) (hs : step s a = some s') :
      Reaches ok s₀ s'

variable {step}

variable {ok : S → A → Prop}

/-- **Invariants.**  What holds at the start and is kept by every step that meets the condition
holds in every state reached. -/
theorem Reaches.invariant {s₀ s : S} {I : S → Prop} (start : I s₀)
    (keep : ∀ s a s', I s → ok s a → step s a = some s' → I s') (h : Reaches step ok s₀ s) :
    I s := by
  induction h with
  | refl => exact start
  | more _ hok hs ih => exact keep _ _ _ ih hok hs

/-- **Refinement.**  Where every step is seen through `f` as a step of another system or as none, so
is every run. -/
theorem Reaches.project {S' A' : Type*} {step' : S' → A' → Option S'} {ok' : S' → A' → Prop}
    {s₀ s : S} (h : Reaches step ok s₀ s) (f : S → S')
    (sim : ∀ s a s', ok s a → step s a = some s' →
      f s' = f s ∨ ∃ b, ok' (f s) b ∧ step' (f s) b = some (f s')) :
    Reaches step' ok' (f s₀) (f s) := by
  induction h with
  | refl => exact .refl
  | more _ hok hs ih =>
      rcases sim _ _ _ hok hs with heq | ⟨b, hb, hstep⟩
      · rw [heq]
        exact ih
      · exact .more ih hb hstep

/-- A run whose steps were checked against the condition. -/
theorem reaches_of_run [∀ s a, Decidable (ok s a)] (as : List A) :
    ∀ {s₀ s t : S}, Reaches step ok s₀ s →
      run (fun s a => if ok s a then step s a else none) s as = some t →
      Reaches step ok s₀ t := by
  induction as with
  | nil =>
      intro s₀ s t h ht
      cases ht
      exact h
  | cons a as ih =>
      intro s₀ s t h ht
      obtain ⟨u, hu, ht⟩ := Option.bind_eq_some_iff.mp ht
      obtain ⟨hok, hu⟩ := Option.ite_none_right_eq_some.mp hu
      exact ih (.more h hok hu) ht

end Reaches

section Inevitable

variable (step : S → A → Option S) (ok own : S → A → Prop) (goal : S → Prop)

/-- A step of the others. -/
def OtherStep (s t : S) : Prop := ∃ a, ¬ own s a ∧ ok s a ∧ step s a = some t

/-- **The goal is inevitable.**  It holds already; or after any number of steps of the others a
step of `own` is enabled, and each one leads to where the goal is inevitable. -/
inductive Inevitable : S → Prop where
  | here {s : S} (h : goal s) : Inevitable s
  | next {s : S}
      (enabled : ∀ t, Relation.ReflTransGen (OtherStep step ok own) s t →
        ∃ a u, own t a ∧ ok t a ∧ step t a = some u)
      (leads : ∀ t a u, Relation.ReflTransGen (OtherStep step ok own) s t → own t a → ok t a →
        step t a = some u → Inevitable u) : Inevitable s

variable {step ok own goal}

theorem Inevitable.mono {goal' : S → Prop} {s : S} (h : Inevitable step ok own goal s)
    (imp : ∀ t, goal t → goal' t) : Inevitable step ok own goal' s := by
  induction h with
  | here h => exact .here (imp _ h)
  | next enabled _ ih => exact .next enabled ih

/-- **The rank rule.**  Before the goal some step of `own` is enabled, steps of `own` lower the
rank or reach the goal, and the steps of the others neither raise it nor reach the goal. -/
theorem inevitable_of_rank {I : S → Prop} (rank : S → Nat)
    (keep : ∀ s a s', I s → ¬ goal s → ok s a → step s a = some s' → I s')
    (enabled : ∀ s, I s → ¬ goal s → ∃ a u, own s a ∧ ok s a ∧ step s a = some u)
    (lower : ∀ s a s', I s → ¬ goal s → own s a → ok s a → step s a = some s' →
      goal s' ∨ rank s' < rank s)
    (others : ∀ s a s', I s → ¬ goal s → ¬ own s a → ok s a → step s a = some s' →
      ¬ goal s' ∧ rank s' ≤ rank s) :
    ∀ s, I s → Inevitable step ok own goal s := by
  intro s
  -- strong induction on the rank; the others' steps only move to states of the same or lower rank
  induction hr : rank s using Nat.strongRecOn generalizing s with
  | ind r ih =>
      intro hI
      by_cases hg : goal s
      · exact .here hg
      have after : ∀ t, Relation.ReflTransGen (OtherStep step ok own) s t →
          I t ∧ ¬ goal t ∧ rank t ≤ r := by
        intro t ht
        induction ht with
        | refl => exact ⟨hI, hg, Nat.le_of_eq hr⟩
        | tail _ hstep ih' =>
            obtain ⟨hI', hg', hr'⟩ := ih'
            obtain ⟨a, hown, hok, hs⟩ := hstep
            obtain ⟨hg'', hle⟩ := others _ a _ hI' hg' hown hok hs
            exact ⟨keep _ a _ hI' hg' hok hs, hg'', Nat.le_trans hle hr'⟩
      refine .next ?_ ?_
      · intro t ht
        obtain ⟨hI', hg', -⟩ := after t ht
        exact enabled t hI' hg'
      · intro t a u ht hown hok hs
        obtain ⟨hI', hg', hr'⟩ := after t ht
        rcases lower t a u hI' hg' hown hok hs with hgoal | hlt
        · exact .here hgoal
        · exact ih (rank u) (Nat.lt_of_lt_of_le hlt hr') u rfl (keep t a u hI' hg' hok hs)

end Inevitable

end Runs
