import PolyBot.Strategy.Traits
import Mathlib.Data.List.Sort

namespace PolyBot.StrategyRouter

def conflictKey (i : OrderIntent) : ConditionId × TokenId × Side := (i.marketId, i.tokenId, i.side)

/-- One intent per key in list order; grouped intents are always kept. -/
def dropConflicts (seen : List (ConditionId × TokenId × Side)) : List OrderIntent → List OrderIntent
  | [] => []
  | i :: intents =>
    if !i.isGrouped && decide (conflictKey i ∈ seen) then dropConflicts seen intents
    else i :: dropConflicts (conflictKey i :: seen) intents

/-- The batch the router returns: highest priority first, ties in emission order, conflicts dropped. -/
def resolveConflicts (intents : List OrderIntent) : List OrderIntent :=
  dropConflicts [] (intents.insertionSort fun a b => b.priority ≤ a.priority)

theorem mem_of_mem_dropConflicts {seen : List (ConditionId × TokenId × Side)} {i : OrderIntent}
    {intents : List OrderIntent} (h : i ∈ dropConflicts seen intents) : i ∈ intents := by
  induction intents generalizing seen with
  | nil => exact h
  | cons j intents ih =>
    rw [dropConflicts] at h
    split at h
    · exact List.mem_cons_of_mem j (ih h)
    · rcases List.mem_cons.mp h with rfl | h
      · exact List.mem_cons_self
      · exact List.mem_cons_of_mem j (ih h)

theorem mem_of_mem_resolveConflicts {i : OrderIntent} {intents : List OrderIntent}
    (h : i ∈ resolveConflicts intents) : i ∈ intents :=
  (List.mem_insertionSort _).mp (mem_of_mem_dropConflicts h)

/-- The first intent of the order has nothing to conflict with. -/
theorem resolveConflicts_eq_nil_iff {intents : List OrderIntent} : resolveConflicts intents = [] ↔ intents = [] := by
  constructor
  · intro h
    have hsorted : intents.insertionSort (fun a b => b.priority ≤ a.priority) = [] := by
      cases hfirst : intents.insertionSort (fun a b => b.priority ≤ a.priority) with
      | nil => rfl
      | cons first rest =>
        rw [resolveConflicts, hfirst, dropConflicts] at h
        simp at h
    rw [← List.length_eq_zero_iff, ← List.length_insertionSort (fun a b => b.priority ≤ a.priority) intents, hsorted]
    rfl
  · rintro rfl
    rfl

end PolyBot.StrategyRouter
