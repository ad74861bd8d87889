import Mathlib.Algebra.BigOperators.Group.Finset.Basic
import Mathlib.Data.Finset.Dedup
import Mathlib.Tactic.Abel

/-! A loop that adds up amounts and counts each group once, at the first of its members that it meets. -/

namespace PolyBot.General.FirstVisits

variable {α κ M : Type*}

def ungrouped (key : α → Option κ) (l : List α) : List α := l.filter fun a => (key a).isNone

theorem ungrouped_cons_none {key : α → Option κ} {a : α} (h : key a = none) (l : List α) :
    ungrouped key (a :: l) = a :: ungrouped key l := by
  rw [ungrouped, List.filter_cons_of_pos (by rw [h]; rfl), ungrouped]

theorem ungrouped_cons_some {key : α → Option κ} {a : α} {k : κ} (h : key a = some k) (l : List α) :
    ungrouped key (a :: l) = ungrouped key l := by
  rw [ungrouped, List.filter_cons_of_neg (by rw [h]; exact Bool.false_ne_true), ungrouped]

variable [DecidableEq κ]

def visit [Add M] (key : α → Option κ) (amount : α → M) (state : M × Finset κ) (a : α) : M × Finset κ :=
  match key a with
  | none => (state.1 + amount a, state.2)
  | some k => if k ∈ state.2 then state else (state.1 + amount a, insert k state.2)

def groups (key : α → Option κ) (l : List α) : Finset κ := (l.filterMap key).toFinset

theorem mem_groups {key : α → Option κ} {l : List α} {k : κ} : k ∈ groups key l ↔ ∃ a ∈ l, key a = some k := by
  rw [groups, List.mem_toFinset, List.mem_filterMap]

theorem groups_cons_none {key : α → Option κ} {a : α} (h : key a = none) (l : List α) :
    groups key (a :: l) = groups key l := by
  rw [groups, List.filterMap_cons_none h, groups]

theorem groups_cons_some {key : α → Option κ} {a : α} {k : κ} (h : key a = some k) (l : List α) :
    groups key (a :: l) = insert k (groups key l) := by
  rw [groups, List.filterMap_cons_some h, List.toFinset_cons, groups]

variable [AddCommMonoid M] {key : α → Option κ} {amount : α → M} {groupAmount : κ → M}

/-- If all members of a group have its amount, the loop adds the amounts of the groups that are not counted yet. -/
theorem foldl_visit {l : List α} (h : ∀ a ∈ l, ∀ k, key a = some k → amount a = groupAmount k) (total : M)
    (seen : Finset κ) :
    (l.foldl (visit key amount) (total, seen)).1 =
      total + ∑ k ∈ groups key l \ seen, groupAmount k + ((ungrouped key l).map amount).sum := by
  induction l generalizing total seen with
  | nil => simp [groups, ungrouped]
  | cons a l ih =>
    have htail : ∀ b ∈ l, ∀ k, key b = some k → amount b = groupAmount k :=
      fun b hb => h b (List.mem_cons_of_mem a hb)
    rw [List.foldl_cons, visit]
    cases hkey : key a with
    | none =>
      rw [ih htail, groups_cons_none hkey, ungrouped_cons_none hkey, List.map_cons, List.sum_cons]
      dsimp only
      abel
    | some k =>
      rw [groups_cons_some hkey, ungrouped_cons_some hkey]
      by_cases hseen : k ∈ seen
      · dsimp only
        rw [if_pos hseen, ih htail, Finset.insert_sdiff_of_mem _ hseen]
      · dsimp only
        have hfresh : k ∉ groups key l \ insert k seen := by simp
        have hsplit : insert k (groups key l) \ seen = insert k (groups key l \ insert k seen) := by grind
        rw [if_neg hseen, ih htail, hsplit, Finset.sum_insert hfresh, h a List.mem_cons_self k hkey]
        abel

end PolyBot.General.FirstVisits
