import PolyBot.Execution.Legs
import PolyBot.Strategy.AllStrategies

/-! The unwinds that a batch of mixed intents is planned, against balancing each group on its own. -/

namespace PolyBot.Execution.GroupBalance
open General.Excess OrderExecutor

def groupFloor (legs : List Leg) (g : String) : Decimal :=
  (((legs.filter fun leg => leg.group = some g).map Leg.filled).min?).getD 0

def groupExcess (legs : List Leg) (leg : Leg) : Decimal :=
  match leg.group with
  | none => 0
  | some g => leg.filled - groupFloor legs g

def balancingUnwinds (legs : List Leg) : List OrderIntent := positives (groupExcess legs) unwindLeg legs

def GroupsEven (legs : List Leg) : Prop :=
  ∀ leg ∈ legs, ∀ leg' ∈ legs, leg.group ≠ none → leg.group = leg'.group → leg.filled = leg'.filled

/-- There is one size below no fill of the batch, at which every leg without a group filled and which some
leg of every group filled. -/
def CommonFloor (legs : List Leg) : Prop :=
  ∃ m, (∀ leg ∈ legs, m ≤ leg.filled) ∧ (∀ leg ∈ legs, leg.group = none → leg.filled = m) ∧
    ∀ leg ∈ legs, ∀ g, leg.group = some g → ∃ leg' ∈ legs, leg'.group = some g ∧ leg'.filled = m

/-- The floor of a group is one of its fills, and below the others. -/
private theorem groupFloor_spec {legs : List Leg} {leg : Leg} {g : String} (hleg : leg ∈ legs) (hg : leg.group = some g) :
    (∃ leg' ∈ legs, leg'.group = some g ∧ leg'.filled = groupFloor legs g) ∧
      ∀ leg' ∈ legs, leg'.group = some g → groupFloor legs g ≤ leg'.filled := by
  have hmem : leg.filled ∈ (legs.filter fun leg => leg.group = some g).map Leg.filled :=
    List.mem_map.mpr ⟨leg, List.mem_filter.mpr ⟨hleg, by simp [hg]⟩, rfl⟩
  cases hmin : ((legs.filter fun leg => leg.group = some g).map Leg.filled).min? with
  | none =>
    rw [List.min?_eq_none_iff] at hmin
    rw [hmin] at hmem
    cases hmem
  | some m =>
    obtain ⟨hm, hle⟩ := List.min?_eq_some_iff.mp hmin
    have hfloor : groupFloor legs g = m := by rw [groupFloor, hmin, Option.getD_some]
    rw [hfloor]
    constructor
    · obtain ⟨leg', hleg', rfl⟩ := List.mem_map.mp hm
      obtain ⟨hin, hgroup⟩ := List.mem_filter.mp hleg'
      exact ⟨leg', hin, of_decide_eq_true hgroup, rfl⟩
    · intro leg' hin hgroup
      exact hle _ (List.mem_map.mpr ⟨leg', List.mem_filter.mpr ⟨hin, by simp [hgroup]⟩, rfl⟩)

private theorem groupExcess_nonneg (legs : List Leg) {leg : Leg} (h : leg ∈ legs) : 0 ≤ groupExcess legs leg := by
  rw [groupExcess]
  cases hg : leg.group with
  | none => exact le_refl 0
  | some g => exact sub_nonneg.mpr ((groupFloor_spec h hg).2 leg h hg)

/-- The batch minimum is below every group's, so the batch excess is at least the group's. -/
private theorem groupExcess_le_batchExcess (legs : List Leg) {leg : Leg} (h : leg ∈ legs) :
    groupExcess legs leg ≤ batchExcess legs leg := by
  rw [groupExcess, batchExcess]
  cases hg : leg.group with
  | none => exact sub_nonneg.mpr (minFilled_le legs h)
  | some g =>
    obtain ⟨leg', hleg', -, hfloor⟩ := (groupFloor_spec h hg).1
    have hle := minFilled_le legs hleg'
    rw [hfloor] at hle
    exact sub_le_sub_left hle leg.filled

private theorem excess_eq_iff {legs : List Leg} (h : legs ≠ []) (hgrouped : ∃ leg ∈ legs, leg.group ≠ none) :
    (∀ leg ∈ legs, groupExcess legs leg = batchExcess legs leg) ↔ CommonFloor legs := by
  constructor
  · intro heq
    refine ⟨minFilled (resultsOf legs), fun leg hleg => minFilled_le legs hleg, ?_, ?_⟩
    · intro leg hleg hg
      have h0 := heq leg hleg
      simp only [groupExcess, hg, batchExcess] at h0
      exact sub_eq_zero.mp h0.symm
    · intro leg hleg g hg
      obtain ⟨leg', hleg', hgroup, hfloor⟩ := (groupFloor_spec hleg hg).1
      have h0 := heq leg hleg
      simp only [groupExcess, hg, batchExcess] at h0
      exact ⟨leg', hleg', hgroup, hfloor.trans (sub_right_inj.mp h0)⟩
  · rintro ⟨m, hle, hungrouped, hgroups⟩
    have hmin : minFilled (resultsOf legs) = m := by
      obtain ⟨leg, hleg, hne⟩ := hgrouped
      obtain ⟨g, hg⟩ := Option.ne_none_iff_exists'.mp hne
      obtain ⟨leg', hleg', -, hm⟩ := hgroups leg hleg g hg
      exact (minFilled_eq_iff h).mpr ⟨⟨leg', hleg', hm⟩, hle⟩
    intro leg hleg
    rw [groupExcess, batchExcess]
    rw [hmin]
    cases hg : leg.group with
    | none => exact (sub_eq_zero.mpr (hungrouped leg hleg hg)).symm
    | some g =>
      obtain ⟨leg', hleg', hgroup, hm⟩ := hgroups leg hleg g hg
      obtain ⟨⟨low, hlow, -, hfloor⟩, hbelow⟩ := groupFloor_spec hleg hg
      have hfloor_eq : groupFloor legs g = m :=
        le_antisymm (hm ▸ hbelow leg' hleg' hgroup) (hfloor ▸ hle low hlow)
      dsimp only
      rw [hfloor_eq]

private theorem no_excess_iff (legs : List Leg) : (∀ leg ∈ legs, groupExcess legs leg ≤ 0) ↔ GroupsEven legs := by
  constructor
  · intro hle leg hleg leg' hleg' hne hsame
    obtain ⟨g, hg⟩ := Option.ne_none_iff_exists'.mp hne
    have hg' : leg'.group = some g := hsame.symm.trans hg
    have h0 := le_antisymm (hle leg hleg) (groupExcess_nonneg legs hleg)
    have h0' := le_antisymm (hle leg' hleg') (groupExcess_nonneg legs hleg')
    simp only [groupExcess, hg] at h0
    simp only [groupExcess, hg'] at h0'
    exact (sub_eq_zero.mp h0).trans (sub_eq_zero.mp h0').symm
  · intro heven leg hleg
    rw [groupExcess]
    cases hg : leg.group with
    | none => exact le_refl 0
    | some g =>
      obtain ⟨leg', hleg', hgroup, hfloor⟩ := (groupFloor_spec hleg hg).1
      have hsame := heven leg hleg leg' hleg' (by simp [hg]) (hg.trans hgroup.symm)
      exact (sub_eq_zero.mpr (hsame.trans hfloor)).le

private theorem firstIsGrouped_exists {legs : List Leg} (h : firstIsGrouped (intentsOf legs) = true) :
    legs ≠ [] ∧ ∃ leg ∈ legs, leg.group ≠ none := by
  cases legs with
  | nil => cases h
  | cons leg rest =>
    refine ⟨List.cons_ne_nil leg rest, leg, by simp, ?_⟩
    intro hnone
    simp only [firstIsGrouped, intentsOf, List.map_cons, List.head?_cons, Option.bind_some] at h
    rw [show leg.2.groupId = none from hnone] at h
    cases h

/-- For legs in any order and with any fills, the unwinds planned for the batch are those that balance each
group exactly when, the first leg being grouped, all groups and all ungrouped legs share one floor, or, the
first leg being ungrouped, every group filled evenly. -/
theorem planned_unwinds_balance_iff (legs : List Leg) :
    plannedUnwinds (intentsOf legs) (resultsOf legs) = balancingUnwinds legs ↔
      (firstIsGrouped (intentsOf legs) = true ∧ CommonFloor legs) ∨
        (firstIsGrouped (intentsOf legs) = false ∧ GroupsEven legs) := by
  cases hfirst : firstIsGrouped (intentsOf legs) with
  | false =>
    simp only [plannedUnwinds, hfirst, Bool.false_eq_true, if_false, false_and, false_or, true_and]
    rw [eq_comm, balancingUnwinds, positives_eq_nil_iff, no_excess_iff]
  | true =>
    obtain ⟨hne, hgrouped⟩ := firstIsGrouped_exists hfirst
    have hsize : ∀ (leg : Leg) (excess : Decimal), OrderIntent.size (unwindLeg leg excess) = excess := fun _ _ => rfl
    have hpositives : balancingUnwinds legs = positives (batchExcess legs) unwindLeg legs ↔
        ∀ leg ∈ legs, groupExcess legs leg = batchExcess legs leg :=
      positives_eq_iff hsize (fun leg h => groupExcess_nonneg legs h)
        fun leg h => groupExcess_le_batchExcess legs h
    simp only [plannedUnwinds, hfirst, if_true, true_and, Bool.true_eq_false, false_and, or_false]
    rw [eq_comm, unwindIntents_eq_positives, hpositives, excess_eq_iff hne hgrouped]

private def evenText (text : String) : Option Decimal :=
  if text = "0.45" then some (45 / 100)
  else if text = "0.44" then some (44 / 100)
  else if text = "10" then some 10
  else none

private def evenRegistry : MarketPairRegistry := MarketPairRegistry.new.register (MarketPair.new "m1" "yes" "no")

private def evenQuotes : AllStrategies.Surroundings where
  registry := evenRegistry
  prices := ∅
  ctx :=
    { books := ((∅ : OrderBookState).insert "yes" ⟨"yes", "m1", [⟨"0.44", "10"⟩], [⟨"0.45", "10"⟩], none, none⟩).insert
        "no" ⟨"no", "m1", [⟨"0.44", "10"⟩], [⟨"0.45", "10"⟩], none, none⟩
      ledger := Ledger.new 1000
      now := 0 }
  utcNow := 0
  uuid := "1"

private def arbRouter : AllStrategies.StrategyRouter :=
  ([.mathArb (.withConfig evenRegistry .taker), .makerRebateArb (.withConfig evenRegistry .default)] :
    List AllStrategies.Strategy).foldl (AllStrategies.StrategyRouter.register evenRegistry) []

private def takerLeg (tokenId : TokenId) : OrderIntent :=
  (((OrderIntent.new "m1" tokenId .Buy (45 / 100) (111 / 20) .Immediate "MathArbStrategy").withGroup
    "arb-1").withPriority 100).withTickSize (1 / 100)

private def restingLeg (tokenId : TokenId) : OrderIntent :=
  (((OrderIntent.new "m1" tokenId .Buy (44 / 100) (142 / 25) .Passive "MakerRebateArbStrategy").withGroup
    "maker-arb-1").withPriority 90).withTickSize (1 / 100)

/-- The taker legs fill completely, the maker legs rest in the book. -/
private def routedBatch : List Leg :=
  [acceptedLeg DualPolicy.new.policy 0 (takerLeg "yes") (.taking "x1" (54 / 10)),
    acceptedLeg DualPolicy.new.policy 0 (takerLeg "no") (.taking "x2" (54 / 10)),
    acceptedLeg DualPolicy.new.policy 0 (restingLeg "yes") (.taking "x3" 0),
    acceptedLeg DualPolicy.new.policy 0 (restingLeg "no") (.taking "x4" 0)]

/-- On one book update both arb strategies buy the pair. The group of the taker filled evenly, and both its legs
are unwound because the group of the maker, routed in the same batch, has not filled. -/
theorem balanced_group_is_unwound :
    (arbRouter.onBookUpdate evenText (fun _ => none) evenQuotes "m1" "yes").1 = intentsOf routedBatch ∧
      balancingUnwinds routedBatch = [] ∧
      plannedUnwinds (intentsOf routedBatch) (resultsOf routedBatch) =
        [unwindIntent (takerLeg "yes") (54 / 10), unwindIntent (takerLeg "no") (54 / 10)] ∧
      plannedUnwinds (intentsOf routedBatch) (resultsOf routedBatch) ≠ balancingUnwinds routedBatch := by
  refine ⟨by decide +kernel, by decide +kernel, by decide +kernel, by decide +kernel⟩

end PolyBot.Execution.GroupBalance
