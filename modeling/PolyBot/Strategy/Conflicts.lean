import PolyBot.General.StableSort
import PolyBot.Strategy.Router

/-! What the router's conflict resolution keeps of a batch, and why it drops the rest. -/

namespace PolyBot.StrategyRouter
open General.StableSort

/-- The intents of a batch with whether each is kept, as `dropConflicts` goes through them. -/
def marked (seen : List (ConditionId × TokenId × Side)) : List OrderIntent → List (OrderIntent × Bool)
  | [] => []
  | i :: intents =>
    if !i.isGrouped && seen.contains (conflictKey i) then (i, false) :: marked seen intents
    else (i, true) :: marked (conflictKey i :: seen) intents

/-- An intent that is dropped has no group, and one of the intents before it is kept, competes for the same and has no
lower priority. -/
def DroppedFor (before : List (OrderIntent × Bool)) (i : OrderIntent) : Prop :=
  i.isGrouped = false ∧
    ∃ o, (o, true) ∈ before ∧ conflictKey o = conflictKey i ∧ i.priority ≤ o.priority

/-- `output` is what is kept of the batch `sorted`, and the marks say which of its intents that is. -/
structure Resolves (sorted : List OrderIntent) (marks : List (OrderIntent × Bool)) (output : List OrderIntent) :
    Prop where
  all : marks.map (·.1) = sorted
  kept : (marks.filter (·.2)).map (·.1) = output
  grouped : ∀ i kept, (i, kept) ∈ marks → i.isGrouped = true → kept = true
  once : ((output.filter fun i => !i.isGrouped).map conflictKey).Nodup
  dropped : ∀ before i after, marks = before ++ (i, false) :: after → DroppedFor before i

variable {seen : List (ConditionId × TokenId × Side)} {intents : List OrderIntent}

theorem map_fst_marked : (marked seen intents).map (·.1) = intents := by
  induction intents generalizing seen with
  | nil => rfl
  | cons i intents ih =>
    rw [marked]
    split
    · exact congrArg (i :: ·) ih
    · exact congrArg (i :: ·) ih

theorem filter_marked : ((marked seen intents).filter (·.2)).map (·.1) = dropConflicts seen intents := by
  induction intents generalizing seen with
  | nil => rfl
  | cons i intents ih =>
    rw [marked, List.contains_eq_mem, dropConflicts]
    split
    · rw [List.filter_cons_of_neg Bool.noConfusion, ih]
    · rw [List.filter_cons_of_pos rfl, List.map_cons, ih]

theorem kept_of_grouped {i : OrderIntent} {kept : Bool} (h : (i, kept) ∈ marked seen intents)
    (hgrouped : i.isGrouped = true) : kept = true := by
  induction intents generalizing seen with
  | nil => cases h
  | cons j intents ih =>
    rw [marked] at h
    split at h
    · rename_i hdrop
      rcases List.mem_cons.mp h with heq | hrest
      · obtain ⟨rfl, rfl⟩ := Prod.mk.injEq _ _ _ _ ▸ heq
        rw [hgrouped] at hdrop
        exact Bool.noConfusion hdrop
      · exact ih hrest
    · rcases List.mem_cons.mp h with heq | hrest
      · exact (Prod.mk.inj heq).2
      · exact ih hrest

/-- What an intent without a group competes for is kept for one such intent, and not at all if it was seen. -/
theorem nodup_ungrouped_keys : (((dropConflicts seen intents).filter fun i => !i.isGrouped).map conflictKey).Nodup ∧
    ∀ i ∈ (dropConflicts seen intents).filter fun i => !i.isGrouped, conflictKey i ∉ seen := by
  induction intents generalizing seen with
  | nil => exact ⟨List.nodup_nil, fun i hi => by cases hi⟩
  | cons i intents ih =>
    rw [dropConflicts]
    split
    · exact ih
    · rename_i hkeep
      obtain ⟨hnodup, hfresh⟩ := @ih (conflictKey i :: seen)
      have hunseen := fun j hj => mt (List.mem_cons_of_mem _) (hfresh j hj)
      cases hgrouped : i.isGrouped with
      | true =>
        rw [List.filter_cons_of_neg (by simp [hgrouped])]
        exact ⟨hnodup, hunseen⟩
      | false =>
        rw [List.filter_cons_of_pos (by simp [hgrouped]), List.map_cons, List.nodup_cons]
        refine ⟨⟨fun hagain => ?_, hnodup⟩, fun j hj => ?_⟩
        · obtain ⟨j, hj, hkey⟩ := List.mem_map.mp hagain
          exact hfresh j hj (hkey ▸ List.mem_cons_self)
        · rcases List.mem_cons.mp hj with rfl | hj
          · simpa [hgrouped] using hkeep
          · exact hunseen j hj

/-- An intent that is dropped comes after one that is kept for the same, or its key was seen. -/
theorem exists_kept_of_dropped {before after : List (OrderIntent × Bool)} {i : OrderIntent}
    (h : marked seen intents = before ++ (i, false) :: after) :
    i.isGrouped = false ∧ (conflictKey i ∈ seen ∨ ∃ o, (o, true) ∈ before ∧ conflictKey o = conflictKey i) := by
  induction intents generalizing seen before with
  | nil => simp [marked] at h
  | cons j intents ih =>
    rw [marked] at h
    split at h
    · rename_i hdrop
      cases before with
      | nil =>
        obtain ⟨rfl, -⟩ := Prod.mk.inj (List.cons.inj h).1
        simp only [Bool.and_eq_true, Bool.not_eq_true', List.contains_iff_mem] at hdrop
        exact ⟨hdrop.1, .inl hdrop.2⟩
      | cons b before =>
        obtain ⟨hgroup, hwhy⟩ := ih (List.cons.inj h).2
        exact ⟨hgroup, hwhy.imp_right fun ⟨o, ho, hkey⟩ => ⟨o, List.mem_cons_of_mem b ho, hkey⟩⟩
    · cases before with
      | nil => cases (List.cons.inj h).1
      | cons b before =>
        obtain ⟨rfl, hrest⟩ := List.cons.inj h
        obtain ⟨hgroup, hwhy⟩ := ih hrest
        refine ⟨hgroup, ?_⟩
        rcases hwhy with hseen | ⟨o, ho, hkey⟩
        · rcases List.mem_cons.mp hseen with hkey | hseen
          · exact .inr ⟨j, List.mem_cons_self, hkey.symm⟩
          · exact .inl hseen
        · exact .inr ⟨o, List.mem_cons_of_mem _ ho, hkey⟩

/-- What is kept of a batch in descending order. -/
theorem resolves_of_descending (h : intents.Pairwise fun a b => b.priority ≤ a.priority) :
    Resolves intents (marked [] intents) (dropConflicts [] intents) := by
  refine ⟨map_fst_marked, filter_marked, fun _ _ => kept_of_grouped, nodup_ungrouped_keys.1, ?_⟩
  intro before i after heq
  obtain ⟨hgroup, hwhy⟩ := exists_kept_of_dropped heq
  obtain ⟨o, ho, hkey⟩ := hwhy.resolve_left List.not_mem_nil
  refine ⟨hgroup, o, ho, hkey, ?_⟩
  have hall : (marked [] intents).map (·.1) = intents := map_fst_marked
  rw [← hall, heq, List.map_append, List.map_cons] at h
  exact (List.pairwise_append.mp h).2.2 o (List.mem_map.mpr ⟨(o, true), ho, rfl⟩) i List.mem_cons_self

/-- No key of a batch loses all of its intents. -/
theorem Resolves.exists_of_key {sorted output : List OrderIntent} {marks : List (OrderIntent × Bool)}
    (h : Resolves sorted marks output) {i : OrderIntent} (hi : i ∈ sorted) :
    ∃ o ∈ output, conflictKey o = conflictKey i := by
  have hkept : ∀ o, (o, true) ∈ marks → o ∈ output := fun o ho => by
    rw [← h.kept]
    exact List.mem_map.mpr ⟨(o, true), List.mem_filter.mpr ⟨ho, rfl⟩, rfl⟩
  rw [← h.all] at hi
  obtain ⟨⟨i, kept⟩, hmark, rfl⟩ := List.mem_map.mp hi
  cases kept with
  | true => exact ⟨i, hkept i hmark, rfl⟩
  | false =>
    obtain ⟨before, after, heq⟩ := List.append_of_mem hmark
    obtain ⟨-, o, ho, hkey, -⟩ := h.dropped before i after heq
    exact ⟨o, hkept o (heq ▸ List.mem_append_left _ ho), hkey⟩

/-- The batch that the router returns is the stable sort of the intents, highest priority first, less some of those
without a group: one that competes for the same, and has no lower priority, stands before each of them and is kept. -/
theorem conflicts_resolved (intents : List OrderIntent) :
    ∃ sorted marks, IsStableSort OrderIntent.priority intents sorted ∧
      Resolves sorted marks (resolveConflicts intents) ∧
      ∀ i ∈ intents, ∃ o ∈ resolveConflicts intents, conflictKey o = conflictKey i := by
  have hsort := isStableSort_insertionSort OrderIntent.priority intents
  have hresolves := resolves_of_descending hsort.descending
  exact ⟨_, _, hsort, hresolves, fun i hi => hresolves.exists_of_key (hsort.perm.mem_iff.mpr hi)⟩

end PolyBot.StrategyRouter
