import Mathlib.Data.List.Destutter

/-! How often a flag comes up in a record of its values. -/

namespace PolyBot.General.Episodes

def episodes (values : List Bool) : ℕ := (values.destutter (· ≠ ·)).count true

theorem destutter'_concat (a b : Bool) (values : List Bool) :
    (values ++ [b]).destutter' (· ≠ ·) a =
      values.destutter' (· ≠ ·) a ++ if values.getLastD a ≠ b then [b] else [] := by
  induction values generalizing a with
  | nil =>
    rw [List.nil_append, List.destutter'_singleton, List.getLastD_nil, List.destutter'_nil]
    split <;> rfl
  | cons c values ih =>
    rw [List.cons_append, List.destutter'_cons, List.destutter'_cons, ih, ih, List.getLastD_cons]
    by_cases hac : a = c
    · rw [if_neg (not_not.mpr hac), if_neg (not_not.mpr hac), hac]
    · rw [if_pos hac, if_pos hac, List.cons_append]

/-- A new value begins a block if it is `true` and the value before it was not. -/
theorem episodes_concat (values : List Bool) (b : Bool) :
    episodes (values ++ [b]) = episodes values + (b && !values.getLastD false).toNat := by
  cases values with
  | nil => cases b <;> rfl
  | cons a values =>
    rw [List.getLastD_cons, episodes, episodes, List.cons_append, List.destutter_cons', List.destutter_cons',
      destutter'_concat, List.count_append]
    congr 1
    cases b <;> cases values.getLastD a <;> rfl

end PolyBot.General.Episodes
