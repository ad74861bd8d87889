import Mathlib.Algebra.Order.Group.Nat
import Mathlib.Tactic.SplitIfs

/-! Deadlines a period apart: how many of them have come. -/

namespace PolyBot.General.Deadlines

variable {first period now now' n : ℕ}

/-- How many deadlines have come by `now`, if they come every `period` from `first` on. -/
def dueBy (first period now : ℕ) : ℕ := if now < first then 0 else (now - first) / period + 1

theorem lt_dueBy_iff (hperiod : 0 < period) : n < dueBy first period now ↔ first + n * period ≤ now := by
  unfold dueBy
  split_ifs with hnow
  · exact iff_of_false (Nat.not_lt_zero n) (by omega)
  · rw [Nat.lt_succ_iff, Nat.le_div_iff_mul_le hperiod]
    omega

theorem dueBy_mono (hperiod : 0 < period) (h : now ≤ now') : dueBy first period now ≤ dueBy first period now' :=
  le_of_forall_lt fun _ hn => (lt_dueBy_iff hperiod).mpr (((lt_dueBy_iff hperiod).mp hn).trans h)

/-- Who has met `n` deadlines in time, and has the next one before him, has met all that have come. -/
theorem eq_dueBy (hperiod : 0 < period) (hmet : n ≤ dueBy first period now) (hnext : now < first + n * period) :
    n = dueBy first period now :=
  hmet.antisymm (not_lt.mp fun hlt => absurd ((lt_dueBy_iff hperiod).mp hlt) (not_le.mpr hnext))

end PolyBot.General.Deadlines
