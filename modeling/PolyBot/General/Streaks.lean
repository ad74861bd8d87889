import PolyBot.General.AdditiveRuns

/-! Counters of consecutive successes: one more with every success, and zero after a failure. -/

namespace PolyBot.General.Streaks
open AdditiveRuns

variable {σ α : Type*}

/-- The counter of a run whose steps are `ok` and keep `Inv`; a step that is `tried` succeeds if it is `good`. -/
structure Streak (step : σ → α → σ) (Inv : σ → Prop) (ok : α → Prop) (count : σ → ℕ) (tried : α → Bool)
    (good : σ → α → Prop) : Prop where
  keeps : ∀ s a, Inv s → ok a → Inv (step s a)
  other : ∀ s a, Inv s → ok a → tried a = false → count (step s a) = count s
  success : ∀ s a, Inv s → ok a → tried a = true → good s a → count (step s a) = count s + 1
  failure : ∀ s a, Inv s → ok a → tried a = true → ¬good s a → count (step s a) = 0

/-- `p` holds of every step of the run of `l` from `s`, of the number that a counter starting at `n` has come to with
the tries before, and of the state the step starts from. -/
def ThroughoutCounted (step : σ → α → σ) (tried : α → Bool) (p : ℕ → σ → α → Prop) : ℕ → σ → List α → Prop
  | _, _, [] => True
  | n, s, a :: l => p n s a ∧ ThroughoutCounted step tried p (n + (tried a).toNat) (step s a) l

instance decidableThroughoutCounted {step : σ → α → σ} {tried : α → Bool} {p : ℕ → σ → α → Prop}
    [∀ n s a, Decidable (p n s a)] (n : ℕ) (s : σ) (l : List α) : Decidable (ThroughoutCounted step tried p n s l) :=
  match l with
  | [] => inferInstanceAs (Decidable True)
  | a :: l =>
    have : Decidable (ThroughoutCounted step tried p (n + (tried a).toNat) (step s a) l) :=
      decidableThroughoutCounted _ _ l
    inferInstanceAs (Decidable (p n s a ∧ ThroughoutCounted step tried p (n + (tried a).toNat) (step s a) l))

section
variable {step : σ → α → σ} {Inv : σ → Prop} {ok : α → Prop} {count : σ → ℕ} {tried : α → Bool}
  {good : σ → α → Prop}

/-- Without a failure the counter has grown by the number of tries. -/
theorem Streak.count_foldl (h : Streak step Inv ok count tried good) {s : σ} {l : List α} (hs : Inv s)
    (hok : ∀ a ∈ l, ok a) (hgood : Throughout step (fun s a => tried a = true → good s a) s l) :
    count (l.foldl step s) = count s + l.countP tried := by
  induction l generalizing s with
  | nil => rfl
  | cons a l ih =>
    obtain ⟨hoka, hok⟩ := List.forall_mem_cons.mp hok
    rw [List.foldl_cons, ih (h.keeps s a hs hoka) hok hgood.2]
    cases htried : tried a with
    | true =>
      rw [h.success s a hs hoka htried (hgood.1 htried), List.countP_cons_of_pos htried]
      omega
    | false => rw [h.other s a hs hoka htried, List.countP_cons_of_neg (Bool.eq_false_iff.mp htried)]

/-- A failure leaves the counter behind the number of tries for good. -/
theorem Streak.count_foldl_lt (h : Streak step Inv ok count tried good) {s : σ} {l : List α} (hs : Inv s)
    (hok : ∀ a ∈ l, ok a) (hbad : ¬Throughout step (fun s a => tried a = true → good s a) s l) :
    count (l.foldl step s) < l.countP tried := by
  induction l generalizing s with
  | nil => exact absurd trivial hbad
  | cons a l ih =>
    obtain ⟨hoka, hok⟩ := List.forall_mem_cons.mp hok
    have hkept := h.keeps s a hs hoka
    have hrest := ih hkept hok
    rw [List.foldl_cons]
    by_cases hlater : Throughout step (fun s a => tried a = true → good s a) (step s a) l
    · have hfails : ¬(tried a = true → good s a) := fun hhead => hbad ⟨hhead, hlater⟩
      obtain ⟨htried, hnot⟩ := Classical.not_imp.mp hfails
      rw [h.count_foldl hkept hok hlater, h.failure s a hs hoka htried hnot,
        List.countP_cons_of_pos htried]
      omega
    · have hle : l.countP tried ≤ (a :: l).countP tried := (List.sublist_cons_self a l).countP_le
      exact Nat.lt_of_lt_of_le (hrest hlater) hle

/-- The counter has kept up with the tries exactly if none of them failed. -/
theorem Streak.le_count_iff (h : Streak step Inv ok count tried good) {s : σ} {l : List α} (hs : Inv s)
    (hok : ∀ a ∈ l, ok a) :
    l.countP tried ≤ count (l.foldl step s) ↔ Throughout step (fun s a => tried a = true → good s a) s l := by
  constructor
  · intro hle
    by_contra hbad
    exact Nat.not_le.mpr (h.count_foldl_lt hs hok hbad) hle
  · intro hgood
    rw [h.count_foldl hs hok hgood]
    exact Nat.le_add_left _ _

/-- Where the counter decides whether a try is good, that of the tries made so far can be asked instead. -/
theorem Streak.throughout_iff_counted (h : Streak step Inv ok count tried good) {fine : σ → α → Prop}
    {p : ℕ → σ → α → Prop} (hgood : ∀ s a, fine s a → p (count s) s a → good s a) {s : σ} {l : List α} (hs : Inv s)
    (hok : ∀ a ∈ l, ok a) (hfine : Throughout step fine s l) :
    Throughout step (fun s a => p (count s) s a) s l ↔ ThroughoutCounted step tried p (count s) s l := by
  induction l generalizing s with
  | nil => exact Iff.rfl
  | cons a l ih =>
    obtain ⟨hoka, hok⟩ := List.forall_mem_cons.mp hok
    refine and_congr_right fun hp => ?_
    have hnext : count (step s a) = count s + (tried a).toNat := by
      cases htried : tried a with
      | true => exact h.success s a hs hoka htried (hgood s a hfine.1 hp)
      | false => exact h.other s a hs hoka htried
    rw [ih (h.keeps s a hs hoka) hok hfine.2, hnext]

end

end PolyBot.General.Streaks
