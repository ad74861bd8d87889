import Mathlib.Algebra.Order.Sub.Basic
import Mathlib.Algebra.Order.Group.Nat
import Mathlib.Data.List.Induction

/-! Event times in chronological order, and how many of them fall into windows of a given length. -/

namespace PolyBot.General.TimeWindows

section Monotone
variable {τ : Type*} {p : τ → Bool} {l : List τ}

/-- When the test is passed once and for all, dropping from the front is dropping everywhere. -/
theorem dropWhile_not_eq_filter (h : l.Pairwise fun a b => p a = true → p b = true) :
    (l.dropWhile fun a => !p a) = l.filter p := by
  induction l with
  | nil => rfl
  | cons a l ih =>
    obtain ⟨ha, hl⟩ := List.pairwise_cons.mp h
    cases hpa : p a with
    | false => rw [List.dropWhile_cons_of_pos (by simp [hpa]), List.filter_cons_of_neg (by simp [hpa]), ih hl]
    | true =>
      rw [List.dropWhile_cons_of_neg (by simp [hpa]), List.filter_cons_of_pos hpa]
      congr 1
      exact (List.filter_eq_self.mpr fun b hb => ha b hb hpa).symm

/-- When the test is failed once and for all, taking from the front is taking everywhere. -/
theorem takeWhile_eq_filter (h : l.Pairwise fun a b => p b = true → p a = true) : l.takeWhile p = l.filter p := by
  induction l with
  | nil => rfl
  | cons a l ih =>
    obtain ⟨ha, hl⟩ := List.pairwise_cons.mp h
    cases hpa : p a with
    | true => rw [List.takeWhile_cons_of_pos hpa, List.filter_cons_of_pos hpa, ih hl]
    | false =>
      rw [List.takeWhile_cons_of_neg (by simp [hpa]), List.filter_cons_of_neg (by simp [hpa])]
      exact (List.filter_eq_nil_iff.mpr fun b hb hpb => by simp [ha b hb hpb] at hpa).symm

/-- How many of the latest pass, counted from the back. -/
theorem length_takeWhile_reverse (h : l.Pairwise fun a b => p a = true → p b = true) :
    (l.reverse.takeWhile p).length = l.countP p := by
  rw [takeWhile_eq_filter (List.pairwise_reverse.mpr h), List.filter_reverse, List.length_reverse,
    List.countP_eq_length_filter]

end Monotone

theorem latest_mono (cutoff : ℕ) {l : List ℕ} (h : l.Pairwise (· ≤ ·)) :
    l.Pairwise fun s t => decide (cutoff ≤ s) = true → decide (cutoff ≤ t) = true :=
  h.imp fun hst hs => decide_eq_true ((of_decide_eq_true hs).trans hst)

/-- A record of the events from `c` on that takes the next event and drops those before `c'` is the record of the
events from `c'` on. -/
theorem prune_record {l : List ℕ} {t c c' : ℕ} (h : (l ++ [t]).Pairwise (· ≤ ·)) (hc : c ≤ c') (ht : c' ≤ t) :
    ((l.filter (c ≤ ·) ++ [t]).dropWhile fun s => s < c') = (l ++ [t]).filter (c' ≤ ·) := by
  have hlast : [t] = [t].filter (c ≤ ·) := by
    simp [hc.trans ht]
  conv_lhs => rw [hlast, ← List.filter_append]
  simp only [← not_le, decide_not]
  rw [dropWhile_not_eq_filter (latest_mono _ (h.filter _)), List.filter_filter]
  apply List.filter_congr
  intro s _
  rw [Bool.and_eq_left_iff_imp]
  exact fun hs => decide_eq_true (hc.trans (of_decide_eq_true hs))

/-- Every event finds fewer than `n` in the window of length `w` before it. -/
inductive Paced (w n : ℕ) : List ℕ → Prop
  | nil : Paced w n []
  | concat {l : List ℕ} {t : ℕ} : Paced w n l → l.countP (fun s => t - w ≤ s) < n → Paced w n (l ++ [t])

/-- Paced events are at most `n` in any closed window of length `w`. -/
theorem Paced.countP_window_le {w n : ℕ} {l : List ℕ} (h : Paced w n l) (start : ℕ) :
    l.countP (fun t => start ≤ t ∧ t ≤ start + w) ≤ n := by
  induction h with
  | nil => simp
  | @concat l t _ hbefore ih =>
    rw [List.countP_append, List.countP_singleton]
    split
    · rename_i ht
      -- The other events of a window that contains the last one were there when it came.
      have hsub : l.countP (fun s => start ≤ s ∧ s ≤ start + w) ≤ l.countP fun s => t - w ≤ s := by
        apply List.countP_mono_left
        intro s _ hs
        rw [decide_eq_true_iff] at hs ht ⊢
        omega
      omega
    · exact ih

end PolyBot.General.TimeWindows
