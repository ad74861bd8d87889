import PolyBot.General.Excess
import PolyBot.Execution.Executor

/-! The legs of an executed batch and the unwinds they lead to. -/

namespace PolyBot.Execution
open General.Excess OrderExecutor

abbrev Leg := ExecutionResult × OrderIntent

def Leg.filled (leg : Leg) : Decimal := leg.1.filledSize
def Leg.group (leg : Leg) : Option String := leg.2.groupId

def intentsOf (legs : List Leg) : List OrderIntent := legs.map Prod.snd
def resultsOf (legs : List Leg) : List ExecutionResult := legs.map Prod.fst

def batchExcess (legs : List Leg) (leg : Leg) : Decimal := leg.filled - minFilled (resultsOf legs)

def unwindLeg (leg : Leg) (excess : Decimal) : OrderIntent := unwindIntent leg.2 excess

def acceptedLeg (policy : ExecutionPolicy) (nowSecs : ℕ) (intent : OrderIntent) (response : PostOrderResponse) : Leg :=
  (acceptedResult (policy.orderParams nowSecs intent) response, intent)

theorem unwindIntents_eq_positives (legs : List Leg) :
    unwindIntents (intentsOf legs) (resultsOf legs) = positives (batchExcess legs) unwindLeg legs := by
  have hzip : (resultsOf legs).zip (intentsOf legs) = legs := by
    rw [resultsOf, intentsOf, ← List.unzip_fst, ← List.unzip_snd, List.zip_unzip]
  rw [unwindIntents, hzip]
  rfl

theorem minFilled_le (legs : List Leg) {leg : Leg} (h : leg ∈ legs) : minFilled (resultsOf legs) ≤ leg.filled := by
  apply (foldl_min_le _ _).2
  simp only [resultsOf, List.map_map, List.mem_map]
  exact ⟨leg, h, rfl⟩

/-- No fill passes the largest decimal, so the fold finds the smallest fill of a batch that has a leg. -/
theorem minFilled_eq_iff {legs : List Leg} (h : legs ≠ []) {m : Decimal} :
    minFilled (resultsOf legs) = m ↔ (∃ leg ∈ legs, leg.filled = m) ∧ ∀ leg ∈ legs, m ≤ leg.filled := by
  obtain ⟨first, rest, rfl⟩ := List.exists_cons_of_ne_nil h
  have hbound : ∃ x ∈ (resultsOf (first :: rest)).map (·.filledSize), x ≤ Decimal.max :=
    ⟨first.1.filledSize, by simp [resultsOf], first.1.filled_le_max⟩
  rw [minFilled, foldl_min_eq_iff hbound]
  simp only [resultsOf, List.map_map, List.mem_map, Function.comp_apply, forall_exists_index, and_imp,
    forall_apply_eq_imp_iff₂]
  rfl

theorem batchExcess_pos_iff {legs : List Leg} {leg : Leg} (h : leg ∈ legs) :
    0 < batchExcess legs leg ↔ ∃ leg' ∈ legs, leg'.filled < leg.filled := by
  have hne : legs ≠ [] := List.ne_nil_of_mem h
  obtain ⟨⟨low, hlow, hmin⟩, -⟩ := (minFilled_eq_iff hne).mp rfl
  rw [batchExcess, sub_pos]
  constructor
  · intro hlt
    exact ⟨low, hlow, hmin.trans_lt hlt⟩
  · rintro ⟨leg', hleg', hlt⟩
    exact (minFilled_le legs hleg').trans_lt hlt

/-- Every planned unwind closes the positive excess of a leg of a grouped batch. -/
theorem mem_plannedUnwinds {legs : List Leg} {unwind : OrderIntent} :
    unwind ∈ plannedUnwinds (intentsOf legs) (resultsOf legs) ↔
      firstIsGrouped (intentsOf legs) = true ∧
        ∃ leg ∈ legs, 0 < batchExcess legs leg ∧ unwindIntent leg.2 (batchExcess legs leg) = unwind := by
  unfold plannedUnwinds
  split
  · rename_i h
    rw [unwindIntents_eq_positives, mem_positives]
    simp [h, unwindLeg]
  · rename_i h
    simp [h]

end PolyBot.Execution
