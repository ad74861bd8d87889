import Mathlib.Data.List.Induction

/-! Latches: what some steps of a run set, from the steps before them, and others clear. -/

namespace PolyBot.General.Latch

variable {α ρ : Type*} {latch : List α → Option ρ} {sets : List α → α → Option ρ} {clears : α → Bool}

/-- What a latch holds after a run: nothing at first, and after a step that does not clear it what the step sets, if it
sets anything. -/
structure Latches (latch : List α → Option ρ) (sets : List α → α → Option ρ) (clears : α → Bool) : Prop where
  start : latch [] = none
  step : ∀ l a, latch (l ++ [a]) = if clears a then none else (sets l a).or (latch l)

/-- A step of the run sets `r`, and no step after it sets anything or clears. -/
def SetLast (sets : List α → α → Option ρ) (clears : α → Bool) (l : List α) (r : ρ) : Prop :=
  ∃ before a after, l = before ++ a :: after ∧ clears a = false ∧ sets before a = some r ∧
    ∀ p b, p ++ [b] <+: after → clears b = false ∧ sets (before ++ a :: p) b = none

theorem setLast_concat_iff {l : List α} {a : α} {r : ρ} : SetLast sets clears (l ++ [a]) r ↔
    clears a = false ∧ (sets l a = some r ∨ sets l a = none ∧ SetLast sets clears l r) := by
  constructor
  · rintro ⟨before, x, after, heq, hclears, hsets, hafter⟩
    rcases List.eq_nil_or_concat after with rfl | ⟨after, b, rfl⟩
    · obtain ⟨rfl, rfl⟩ := List.append_singleton_inj.mp heq
      exact ⟨hclears, .inl hsets⟩
    · rw [List.concat_eq_append, ← List.cons_append, ← List.append_assoc] at heq
      obtain ⟨rfl, rfl⟩ := List.append_singleton_inj.mp heq
      obtain ⟨hkept, hnone⟩ := hafter after a (by simp)
      refine ⟨hkept, .inr ⟨hnone, before, x, after, rfl, hclears, hsets, fun p b hp => hafter p b ?_⟩⟩
      rw [List.concat_eq_append]
      exact hp.trans (List.prefix_append _ _)
  · rintro ⟨hkept, hsets | ⟨hnone, before, x, after, rfl, hclears, hsets, hafter⟩⟩
    · exact ⟨l, a, [], rfl, hkept, hsets, fun p b hp => by simp at hp⟩
    · refine ⟨before, x, after ++ [a], by simp, hclears, hsets, fun p b hp => ?_⟩
      rcases List.prefix_concat_iff.mp hp with heq | hp
      · obtain ⟨rfl, rfl⟩ := List.append_singleton_inj.mp heq
        exact ⟨hkept, hnone⟩
      · exact hafter p b hp

/-- A latch holds what was set last since it was last cleared. -/
theorem Latches.eq_some_iff (h : Latches latch sets clears) {l : List α} {r : ρ} :
    latch l = some r ↔ SetLast sets clears l r := by
  induction l using List.reverseRecOn with
  | nil =>
    rw [h.start]
    exact iff_of_false (by simp) fun ⟨_, _, _, heq, _⟩ => by simp at heq
  | append_singleton l a ih =>
    rw [h.step, setLast_concat_iff, ← ih]
    cases clears a with
    | true => simp
    | false => cases sets l a <;> simp

end PolyBot.General.Latch
