import Mathlib.Algebra.Order.BigOperators.Group.List
import Mathlib.Algebra.Order.Field.Basic
import Mathlib.Tactic.Linarith

/-! The total of the increases and the total of the decreases in a list of changes, and the share of the increases in
both. -/

namespace PolyBot.General.GainsAndLosses

variable {K : Type*} [Field K] [LinearOrder K]

def gains (changes : List K) : K := (changes.map fun c => max c 0).sum
def losses (changes : List K) : K := (changes.map fun c => max (-c) 0).sum

/-- The share of the gains in all that changed; all of it if nothing was lost. -/
def share (gain loss : K) : K := if loss = 0 then 1 else gain / (gain + loss)

theorem gains_cons (c : K) (changes : List K) : gains (c :: changes) = max c 0 + gains changes := List.sum_cons

theorem losses_cons (c : K) (changes : List K) : losses (c :: changes) = max (-c) 0 + losses changes := List.sum_cons

/-- What is gained is what the opposite changes would lose. -/
theorem gains_eq_losses_neg (changes : List K) : gains changes = losses (changes.map fun c => -c) := by
  simp [gains, losses, Function.comp_def]

variable [IsStrictOrderedRing K]

theorem losses_nonneg (changes : List K) : 0 ≤ losses changes := by
  refine List.sum_nonneg fun x hx => ?_
  obtain ⟨c, -, rfl⟩ := List.mem_map.mp hx
  exact le_max_right _ _

theorem gains_nonneg (changes : List K) : 0 ≤ gains changes := by
  rw [gains_eq_losses_neg]
  exact losses_nonneg _

theorem losses_eq_zero_iff {changes : List K} : losses changes = 0 ↔ ∀ c ∈ changes, 0 ≤ c := by
  induction changes with
  | nil => simp [losses]
  | cons c changes ih =>
    rw [losses_cons, add_eq_zero_iff_of_nonneg (le_max_right _ _) (losses_nonneg changes), ih, List.forall_mem_cons,
      max_eq_right_iff, neg_nonpos]

theorem gains_eq_zero_iff {changes : List K} : gains changes = 0 ↔ ∀ c ∈ changes, c ≤ 0 := by
  rw [gains_eq_losses_neg, losses_eq_zero_iff, List.forall_mem_map]
  exact forall₂_congr fun c _ => neg_nonneg

theorem gains_map_mul {k : K} (hk : 0 ≤ k) (changes : List K) : gains (changes.map (k * ·)) = k * gains changes := by
  induction changes with
  | nil => simp [gains]
  | cons c changes ih => rw [List.map_cons, gains_cons, gains_cons, ih, mul_add, mul_max_of_nonneg _ _ hk, mul_zero]

theorem losses_map_mul {k : K} (hk : 0 ≤ k) (changes : List K) :
    losses (changes.map (k * ·)) = k * losses changes := by
  induction changes with
  | nil => simp [losses]
  | cons c changes ih =>
    rw [List.map_cons, losses_cons, losses_cons, ih, mul_add, mul_max_of_nonneg _ _ hk, mul_zero, mul_neg]

section Share
variable {gain gain' loss loss' : K}

theorem share_mul {k : K} (hk : k ≠ 0) : share (k * gain) (k * loss) = share gain loss := by
  by_cases hzero : loss = 0
  · rw [share, share, if_pos hzero, if_pos (by rw [hzero, mul_zero])]
  · rw [share, share, if_neg hzero, if_neg (mul_ne_zero hk hzero), ← mul_add, mul_div_mul_left _ _ hk]

theorem share_nonneg (hgain : 0 ≤ gain) (hloss : 0 ≤ loss) : 0 ≤ share gain loss := by
  unfold share
  split
  · exact zero_le_one
  · exact div_nonneg hgain (add_nonneg hgain hloss)

theorem share_le_one (hgain : 0 ≤ gain) (hloss : 0 ≤ loss) : share gain loss ≤ 1 := by
  unfold share
  split
  · exact le_rfl
  · exact div_le_one_of_le₀ (le_add_of_nonneg_right hloss) (add_nonneg hgain hloss)

theorem share_eq_one_iff (hgain : 0 ≤ gain) (hloss : 0 ≤ loss) : share gain loss = 1 ↔ loss = 0 := by
  unfold share
  split
  · rename_i hzero
    exact iff_of_true rfl hzero
  · rename_i hsome
    have hsum : 0 < gain + loss := add_pos_of_nonneg_of_pos hgain (hloss.lt_of_ne' hsome)
    rw [div_eq_one_iff_eq hsum.ne', left_eq_add]

theorem share_eq_zero_iff (hgain : 0 ≤ gain) (hloss : 0 ≤ loss) : share gain loss = 0 ↔ loss ≠ 0 ∧ gain = 0 := by
  unfold share
  split
  · rename_i hzero
    exact iff_of_false one_ne_zero fun h => h.1 hzero
  · rename_i hsome
    have hsum : 0 < gain + loss := add_pos_of_nonneg_of_pos hgain (hloss.lt_of_ne' hsome)
    rw [div_eq_zero_iff, or_iff_left hsum.ne', and_iff_right hsome]

/-- More gains and fewer losses make no smaller share. -/
theorem share_le_share (hgain : 0 ≤ gain) (hloss' : 0 ≤ loss') (hle : gain ≤ gain') (hle' : loss' ≤ loss) :
    share gain loss ≤ share gain' loss' := by
  by_cases hzero : loss' = 0
  · rw [(share_eq_one_iff (hgain.trans hle) hloss').mpr hzero]
    exact share_le_one hgain (hloss'.trans hle')
  · have hpos' : 0 < loss' := hloss'.lt_of_ne' hzero
    have hpos : 0 < loss := hpos'.trans_le hle'
    rw [share, share, if_neg hpos.ne', if_neg hzero, div_le_div_iff₀ (by linarith) (by linarith)]
    have hcross : gain * loss' ≤ gain' * loss := mul_le_mul hle hle' hloss' (hgain.trans hle)
    linarith [mul_comm gain gain']

end Share

def strength (changes : List K) : K := share (gains changes) (losses changes)

theorem strength_nonneg (changes : List K) : 0 ≤ strength changes :=
  share_nonneg (gains_nonneg changes) (losses_nonneg changes)

theorem strength_le_one (changes : List K) : strength changes ≤ 1 :=
  share_le_one (gains_nonneg changes) (losses_nonneg changes)

theorem strength_eq_one_iff {changes : List K} : strength changes = 1 ↔ ∀ c ∈ changes, 0 ≤ c := by
  rw [strength, share_eq_one_iff (gains_nonneg changes) (losses_nonneg changes), losses_eq_zero_iff]

theorem strength_eq_zero_iff {changes : List K} :
    strength changes = 0 ↔ (∃ c ∈ changes, c < 0) ∧ ∀ c ∈ changes, c ≤ 0 := by
  rw [strength, share_eq_zero_iff (gains_nonneg changes) (losses_nonneg changes), gains_eq_zero_iff, Ne,
    losses_eq_zero_iff]
  simp

theorem strength_map_mul {k : K} (hk : 0 < k) (changes : List K) :
    strength (changes.map (k * ·)) = strength changes := by
  rw [strength, gains_map_mul hk.le, losses_map_mul hk.le, share_mul hk.ne', strength]

theorem strength_cons_le {c c' : K} (h : c ≤ c') (changes : List K) :
    strength (c :: changes) ≤ strength (c' :: changes) := by
  refine share_le_share (gains_nonneg _) (losses_nonneg _) ?_ ?_
  · rw [gains_cons, gains_cons]
    exact add_le_add_left (max_le_max_right 0 h) _
  · rw [losses_cons, losses_cons]
    exact add_le_add_left (max_le_max_right 0 (neg_le_neg h)) _

end PolyBot.General.GainsAndLosses
