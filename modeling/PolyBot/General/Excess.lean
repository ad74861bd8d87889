import Mathlib.Algebra.Order.BigOperators.Group.List
import Mathlib.Algebra.Order.Group.Unbundled.Basic
import Mathlib.Order.MinMax
import Mathlib.Tactic.Abel

/-! Amounts by which the elements of a list exceed something, and the list of those that do. -/

namespace PolyBot.General.Excess

section Minimum
variable {α : Type*} [LinearOrder α]

theorem foldl_min_le (xs : List α) (b : α) : xs.foldl min b ≤ b ∧ ∀ x ∈ xs, xs.foldl min b ≤ x := by
  induction xs generalizing b with
  | nil => exact ⟨le_refl b, by simp⟩
  | cons y ys ih =>
    obtain ⟨hb, hys⟩ := ih (min b y)
    refine ⟨hb.trans (min_le_left b y), ?_⟩
    intro x hx
    rcases List.mem_cons.mp hx with rfl | hx
    · exact hb.trans (min_le_right b x)
    · exact hys x hx

theorem foldl_min_mem (xs : List α) (b : α) : xs.foldl min b = b ∨ xs.foldl min b ∈ xs := by
  induction xs generalizing b with
  | nil => exact .inl rfl
  | cons y ys ih =>
    rcases ih (min b y) with heq | hmem
    · rw [List.foldl_cons, heq]
      rcases min_choice b y with hb | hy
      · exact .inl hb
      · exact .inr (by simp [hy])
    · exact .inr (List.mem_cons_of_mem y hmem)

/-- A fold of `min` finds the least element when its start is no smaller than some element. -/
theorem foldl_min_eq_iff {xs : List α} {b m : α} (hb : ∃ x ∈ xs, x ≤ b) :
    xs.foldl min b = m ↔ m ∈ xs ∧ ∀ x ∈ xs, m ≤ x := by
  obtain ⟨y, hy, hyb⟩ := hb
  have hle := (foldl_min_le xs b).2
  have hmem : xs.foldl min b ∈ xs := by
    rcases foldl_min_mem xs b with heq | hmem
    · have hby : b ≤ y := by
        have h := hle y hy
        rwa [heq] at h
      rw [heq, le_antisymm hby hyb]
      exact hy
    · exact hmem
  constructor
  · rintro rfl
    exact ⟨hmem, hle⟩
  · rintro ⟨hm, hall⟩
    exact le_antisymm (hle m hm) (hall _ hmem)

end Minimum

section Positives
variable {α β M : Type*} [AddCommGroup M] [LinearOrder M]
  {make : α → M → β} {size : β → M} {f g : α → M} {l : List α}

def positives (amount : α → M) (make : α → M → β) (l : List α) : List β :=
  l.filterMap fun a => if amount a ≤ 0 then none else some (make a (amount a))

theorem positives_cons_of_nonpos {a : α} (h : f a ≤ 0) : positives f make (a :: l) = positives f make l := by
  simp [positives, h]

theorem positives_cons_of_pos {a : α} (h : ¬f a ≤ 0) :
    positives f make (a :: l) = make a (f a) :: positives f make l := by
  simp [positives, h]

theorem positives_congr (h : ∀ a ∈ l, f a = g a) : positives f make l = positives g make l := by
  apply List.filterMap_congr
  intro a ha
  rw [h a ha]

theorem positives_eq_nil_iff : positives f make l = [] ↔ ∀ a ∈ l, f a ≤ 0 := by
  simp [positives, List.filterMap_eq_nil_iff]

theorem mem_positives {b : β} : b ∈ positives f make l ↔ ∃ a ∈ l, 0 < f a ∧ make a (f a) = b := by
  simp only [positives, List.mem_filterMap]
  constructor
  · rintro ⟨a, ha, hb⟩
    by_cases h : f a ≤ 0
    · rw [if_pos h] at hb
      cases hb
    · rw [if_neg h] at hb
      exact ⟨a, ha, not_le.mp h, Option.some.inj hb⟩
  · rintro ⟨a, ha, hpos, rfl⟩
    exact ⟨a, ha, if_neg (not_le.mpr hpos)⟩

theorem sum_size_positives (hsize : ∀ a q, size (make a q) = q) (h0 : ∀ a ∈ l, 0 ≤ f a) :
    ((positives f make l).map size).sum = (l.map f).sum := by
  induction l with
  | nil => rfl
  | cons a l ih =>
    have hrest := ih fun b hb => h0 b (by simp [hb])
    by_cases h : f a ≤ 0
    · have hzero : f a = 0 := le_antisymm h (h0 a (by simp))
      rw [positives_cons_of_nonpos h, hrest, List.map_cons, List.sum_cons, hzero, zero_add]
    · rw [positives_cons_of_pos h, List.map_cons, List.sum_cons, hsize, hrest, List.map_cons, List.sum_cons]

variable [IsOrderedAddMonoid M]

private theorem eq_of_sum_eq (hle : ∀ a ∈ l, f a ≤ g a) (hsum : (l.map f).sum = (l.map g).sum) :
    ∀ a ∈ l, f a = g a := by
  have hdiff : (l.map fun a => g a - f a).sum = 0 := by
    have hsub : (l.map fun a => g a - f a).sum = (l.map g).sum - (l.map f).sum := by
      clear hsum hle
      induction l with
      | nil => simp
      | cons a l ih =>
        simp only [List.map_cons, List.sum_cons, ih]
        abel
    rw [hsub, hsum, sub_self]
  have hnonneg : ∀ x ∈ l.map fun a => g a - f a, 0 ≤ x := by
    intro x hx
    obtain ⟨a, ha, rfl⟩ := List.mem_map.mp hx
    exact sub_nonneg.mpr (hle a ha)
  intro a ha
  have hzero := List.all_zero_of_le_zero_le_of_sum_eq_zero hnonneg hdiff (List.mem_map.mpr ⟨a, ha, rfl⟩)
  exact (sub_eq_zero.mp hzero).symm

/-- Two such lists, the amounts of one below those of the other, are equal only if all amounts are. -/
theorem positives_eq_iff (hsize : ∀ a q, size (make a q) = q) (h0 : ∀ a ∈ l, 0 ≤ f a) (hle : ∀ a ∈ l, f a ≤ g a) :
    positives f make l = positives g make l ↔ ∀ a ∈ l, f a = g a := by
  refine ⟨fun heq => eq_of_sum_eq hle ?_, positives_congr⟩
  rw [← sum_size_positives hsize h0, heq, sum_size_positives hsize fun a ha => (h0 a ha).trans (hle a ha)]

end Positives

end PolyBot.General.Excess
