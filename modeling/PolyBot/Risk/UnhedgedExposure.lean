import Mathlib.Algebra.BigOperators.Option
import Mathlib.Algebra.Order.BigOperators.Group.Finset
import Mathlib.Tactic.Linarith
import PolyBot.General.FirstVisits
import PolyBot.Ledger.Runs
import PolyBot.Risk.RiskLimits
import PolyBot.Strategy.RegistryCoherence

/-! The part of the open positions that no opposite leg covers. -/

namespace PolyBot
open General.FirstVisits General.KeyedStore

namespace RiskLimits

def complementNotional (positions : List Position) (pair : MarketPair) (tokenId : TokenId) : Decimal :=
  (((pair.complement tokenId).bind fun cid => positions.find? (·.tokenId = cid)).map (·.notional)).getD 0

/-- Adds one position to the total, unless its market is among those already seen. -/
def addUnhedged (registry : MarketPairRegistry) (positions : List Position) (state : Decimal × Finset ConditionId)
    (pos : Position) : Decimal × Finset ConditionId :=
  match registry.getByToken pos.tokenId with
  | some pair =>
    if pair.conditionId ∈ state.2 then state
    else (state.1 + |pos.notional - complementNotional positions pair pos.tokenId|, insert pair.conditionId state.2)
  | none => (state.1 + pos.notional, state.2)

/-- Of the open positions in the order in which the map lists them; without a registry all of them count. -/
def calculateUnhedgedExposure (positions : List Position) : Option MarketPairRegistry → Decimal
  | none => (positions.map (·.notional)).sum
  | some registry => (positions.foldl (addUnhedged registry positions) (0, ∅)).1

end RiskLimits

namespace Positions
variable {ps : Positions}

def notionalOf (ps : Positions) (tokenId : TokenId) : Decimal := (ps.get tokenId).notional

theorem notionalOf_of_flat {t : TokenId} (h : (ps.get t).shares = 0) : ps.notionalOf t = 0 := by
  rw [notionalOf, Position.notional, h, abs_zero, zero_mul]

theorem notionalOf_of_mem (h : ps.WellKeyed) {p : Position} (hp : p ∈ ps.allPositions) :
    ps.notionalOf p.tokenId = p.notional := by
  rw [notionalOf, (get_of_mem_allPositions h hp).1]

theorem mem_tokens_iff (h : ps.WellKeyed) {t : TokenId} :
    t ∈ ps.allPositions.map (·.tokenId) ↔ (ps.get t).shares ≠ 0 := by
  constructor
  · intro ht
    obtain ⟨p, hp, rfl⟩ := List.mem_map.mp ht
    obtain ⟨hget, hopen⟩ := get_of_mem_allPositions h hp
    exact hget.symm ▸ hopen
  · intro hopen
    cases hlookup : ps.lookup t with
    | none =>
      rw [get, hlookup] at hopen
      exact absurd rfl hopen
    | some p =>
      rw [get, hlookup, Option.getD_some] at hopen
      refine List.mem_map.mpr ⟨p, List.mem_filter.mpr ⟨mem_values_iff.mpr ⟨t, hlookup⟩, ?_⟩, h t p hlookup⟩
      simpa [Position.isFlat] using hopen

/-- A token holds nothing, or it is that of an open position. -/
theorem notionalOf_cases (h : ps.WellKeyed) (t : TokenId) :
    ps.notionalOf t = 0 ∨ ∃ p ∈ ps.allPositions, p.tokenId = t ∧ ps.notionalOf t = p.notional := by
  by_cases hflat : (ps.get t).shares = 0
  · exact .inl (notionalOf_of_flat hflat)
  · obtain ⟨p, hp, rfl⟩ := List.mem_map.mp ((mem_tokens_iff h).mpr hflat)
    exact .inr ⟨p, hp, rfl, notionalOf_of_mem h hp⟩

theorem mem_keys_of_mem_tokens (h : ps.WellKeyed) {t : TokenId} (ht : t ∈ ps.allPositions.map (·.tokenId)) :
    t ∈ ps.keys := by
  by_contra hnone
  have hflat : ps.get t = Position.new t := by
    rw [get, AList.lookup_eq_none.mpr hnone, Option.getD_none]
  exact (mem_tokens_iff h).mp ht (hflat ▸ rfl)

theorem sum_map_notional (h : ps.WellKeyed) {l : List Position} (hsub : l ⊆ ps.allPositions)
    (hnodup : (l.map (·.tokenId)).Nodup) :
    (l.map (·.notional)).sum = ∑ t ∈ (l.map (·.tokenId)).toFinset, ps.notionalOf t := by
  rw [List.sum_toFinset _ hnodup, List.map_map]
  exact congrArg List.sum (List.map_congr_left fun p hp => (notionalOf_of_mem h (hsub hp)).symm)

/-- Only what is open counts, so a sum over open tokens may leave out or take in tokens that are flat. -/
theorem sum_notionalOf_of_subset (h : ps.WellKeyed) {s s' : Finset TokenId} (hsub : s ⊆ s')
    (hall : ∀ t ∈ s', t ∈ ps.allPositions.map (·.tokenId) → t ∈ s) :
    ∑ t ∈ s, ps.notionalOf t = ∑ t ∈ s', ps.notionalOf t := by
  refine Finset.sum_subset hsub fun t ht hnot => (notionalOf_cases h t).resolve_right ?_
  rintro ⟨p, hp, rfl, -⟩
  exact hnot (hall _ ht (List.mem_map_of_mem hp))

end Positions

namespace MarketPairRegistry

def conditionOf (r : MarketPairRegistry) (tokenId : TokenId) : Option ConditionId :=
  (r.getByToken tokenId).map (·.conditionId)

def netNotional (r : MarketPairRegistry) (ps : Positions) (conditionId : ConditionId) : Decimal :=
  ((r.getByCondition conditionId).map fun pair =>
    |ps.notionalOf pair.yesTokenId - ps.notionalOf pair.noTokenId|).getD 0

def unregistered (r : MarketPairRegistry) (ps : Positions) : Finset TokenId :=
  ps.keys.toFinset.filter fun tokenId => (r.getByToken tokenId).isNone

theorem mem_unregistered_iff {r : MarketPairRegistry} {ps : Positions} {tokenId : TokenId} :
    tokenId ∈ r.unregistered ps ↔ tokenId ∈ ps.keys ∧ r.conditionOf tokenId = none := by
  rw [unregistered, Finset.mem_filter, List.mem_toFinset, conditionOf, Option.map_eq_none_iff,
    Option.isNone_iff_eq_none]

theorem Coherent.pair_of_conditionOf {r : MarketPairRegistry} (h : r.Coherent) {tokenId : TokenId}
    {conditionId : ConditionId} (hcondition : r.conditionOf tokenId = some conditionId) :
    ∃ pair, r.getByToken tokenId = some pair ∧ r.getByCondition conditionId = some pair ∧
      pair.contains tokenId = true := by
  obtain ⟨pair, hpair, rfl⟩ := Option.map_eq_some_iff.mp hcondition
  obtain ⟨hregistered, hcontains⟩ := (h.tokens tokenId pair).mp hpair
  exact ⟨pair, hpair, hregistered, hcontains⟩

theorem Coherent.conditionOf_of_contains {r : MarketPairRegistry} (h : r.Coherent) (hkeyed : r.Keyed)
    {conditionId : ConditionId} {pair : MarketPair} (hpair : r.getByCondition conditionId = some pair)
    {tokenId : TokenId} (hcontains : pair.contains tokenId = true) : r.conditionOf tokenId = some conditionId := by
  have hkey := hkeyed conditionId pair hpair
  have htoken := (h.tokens tokenId pair).mpr ⟨hkey.symm ▸ hpair, hcontains⟩
  rw [conditionOf, htoken, Option.map_some, hkey]

end MarketPairRegistry

namespace RiskLimits
open MarketPairRegistry Positions
variable {ps : Positions} {registry : MarketPairRegistry} {order : List Position}

def unhedgedAmount (registry : MarketPairRegistry) (positions : List Position) (pos : Position) : Decimal :=
  match registry.getByToken pos.tokenId with
  | some pair => |pos.notional - complementNotional positions pair pos.tokenId|
  | none => pos.notional

/-- The loop counts every market at the first of its legs. -/
theorem addUnhedged_eq_visit (registry : MarketPairRegistry) (positions : List Position) :
    addUnhedged registry positions =
      visit (fun pos => registry.conditionOf pos.tokenId) (unhedgedAmount registry positions) := by
  funext state pos
  rw [addUnhedged, visit, conditionOf, unhedgedAmount]
  cases registry.getByToken pos.tokenId <;> rfl

theorem find_notional (h : ps.WellKeyed) (horder : order.Perm ps.allPositions) (t : TokenId) :
    ((order.find? (·.tokenId = t)).map (·.notional)).getD 0 = ps.notionalOf t := by
  cases hfind : order.find? (·.tokenId = t) with
  | some p =>
    obtain rfl : p.tokenId = t := by simpa using List.find?_some hfind
    exact (notionalOf_of_mem h (horder.mem_iff.mp (List.mem_of_find?_eq_some hfind))).symm
  | none =>
    refine ((notionalOf_cases h t).resolve_right ?_).symm
    rintro ⟨p, hp, hpt, -⟩
    exact absurd hpt (by simpa using List.find?_eq_none.mp hfind p (horder.mem_iff.mpr hp))

/-- Whichever leg comes first, the other one is found. -/
theorem unhedgedAmount_of_conditionOf (h : ps.WellKeyed) (hcoherent : registry.Coherent)
    (horder : order.Perm ps.allPositions) {pos : Position} (hpos : pos ∈ order) {conditionId : ConditionId}
    (hcondition : registry.conditionOf pos.tokenId = some conditionId) :
    unhedgedAmount registry order pos = registry.netNotional ps conditionId := by
  obtain ⟨pair, hpair, hregistered, hcontains⟩ := hcoherent.pair_of_conditionOf hcondition
  have hthis := notionalOf_of_mem h (horder.mem_iff.mp hpos)
  have hother : ∀ t, pair.complement pos.tokenId = some t →
      complementNotional order pair pos.tokenId = ps.notionalOf t := by
    intro t ht
    rw [complementNotional, ht, Option.bind_some, find_notional h horder]
  rw [unhedgedAmount, hpair, netNotional, hregistered, Option.map_some, Option.getD_some]
  dsimp only
  by_cases hyes : pos.tokenId = pair.yesTokenId
  · rw [hother pair.noTokenId (if_pos hyes), ← hthis, hyes]
  · have hno : pos.tokenId = pair.noTokenId := by
      simpa [MarketPair.contains, hyes] using hcontains
    have hcomplement : pair.complement pos.tokenId = some pair.yesTokenId := by
      rw [MarketPair.complement, if_neg hyes, if_pos hno]
    rw [hother _ hcomplement, ← hthis, hno, abs_sub_comm]

theorem unhedgedAmount_of_unregistered {pos : Position} (h : registry.conditionOf pos.tokenId = none) :
    unhedgedAmount registry order pos = pos.notional := by
  rw [unhedgedAmount, Option.map_eq_none_iff.mp h]

theorem sum_ungrouped (h : ps.WellKeyed) (horder : order.Perm ps.allPositions) :
    ((ungrouped (fun pos => registry.conditionOf pos.tokenId) order).map (unhedgedAmount registry order)).sum =
      ∑ t ∈ registry.unregistered ps, ps.notionalOf t := by
  have hmem : ∀ pos, pos ∈ ungrouped (fun pos => registry.conditionOf pos.tokenId) order ↔
      pos ∈ ps.allPositions ∧ registry.conditionOf pos.tokenId = none := by
    intro pos
    rw [ungrouped, List.mem_filter, horder.mem_iff, Option.isNone_iff_eq_none]
  have hnotional : (ungrouped (fun pos => registry.conditionOf pos.tokenId) order).map
      (unhedgedAmount registry order) =
        (ungrouped (fun pos => registry.conditionOf pos.tokenId) order).map (·.notional) :=
    List.map_congr_left fun pos hpos =>
      unhedgedAmount_of_unregistered ((hmem pos).mp hpos).2
  have hnodup : ((ungrouped (fun pos => registry.conditionOf pos.tokenId) order).map (·.tokenId)).Nodup :=
    (List.filter_sublist.map _).nodup ((horder.map _).nodup_iff.mpr (nodup_tokens h))
  rw [hnotional, sum_map_notional h (fun pos hpos => ((hmem pos).mp hpos).1) hnodup]
  refine sum_notionalOf_of_subset h (fun t ht => ?_) (fun t ht hopen => ?_)
  · obtain ⟨pos, hpos, rfl⟩ := List.mem_map.mp (List.mem_toFinset.mp ht)
    obtain ⟨hopen, hnone⟩ := (hmem pos).mp hpos
    exact mem_unregistered_iff.mpr ⟨mem_keys_of_mem_tokens h (List.mem_map_of_mem hopen), hnone⟩
  · obtain ⟨pos, hpos, rfl⟩ := List.mem_map.mp hopen
    have hnone := (mem_unregistered_iff.mp ht).2
    exact List.mem_toFinset.mpr (List.mem_map_of_mem ((hmem pos).mpr ⟨hpos, hnone⟩))

/-- A market without an open leg adds nothing. -/
theorem sum_groups (h : ps.WellKeyed) (hkeyed : registry.Keyed) (hcoherent : registry.Coherent)
    (horder : order.Perm ps.allPositions) :
    ∑ c ∈ groups (fun pos => registry.conditionOf pos.tokenId) order, registry.netNotional ps c =
      ∑ c ∈ registry.allConditionIds.toFinset, registry.netNotional ps c := by
  refine Finset.sum_subset (fun c hc => ?_) (fun c hc hnot => ?_)
  · obtain ⟨pos, -, hcondition⟩ := mem_groups.mp hc
    obtain ⟨pair, -, hregistered, -⟩ := hcoherent.pair_of_conditionOf hcondition
    exact List.mem_toFinset.mpr (mem_allConditionIds.mpr ⟨pair, hregistered⟩)
  · obtain ⟨pair, hpair⟩ := mem_allConditionIds.mp (List.mem_toFinset.mp hc)
    have hflat : ∀ t, pair.contains t = true → ps.notionalOf t = 0 := by
      intro t ht
      refine (notionalOf_cases h t).resolve_right ?_
      rintro ⟨pos, hpos, rfl, -⟩
      exact hnot (mem_groups.mpr ⟨pos, horder.mem_iff.mpr hpos, hcoherent.conditionOf_of_contains hkeyed hpair ht⟩)
    rw [netNotional, hpair, Option.map_some, Option.getD_some, hflat _ (by simp [MarketPair.contains]),
      hflat _ (by simp [MarketPair.contains]), sub_zero, abs_zero]

/-- The loop adds up the differences of all markets and what is held of tokens without a market. -/
theorem calculateUnhedgedExposure_some (h : ps.WellKeyed) (hkeyed : registry.Keyed) (hcoherent : registry.Coherent)
    (horder : order.Perm ps.allPositions) :
    calculateUnhedgedExposure order (some registry) =
      ∑ c ∈ registry.allConditionIds.toFinset, registry.netNotional ps c +
        ∑ t ∈ registry.unregistered ps, ps.notionalOf t := by
  have hamount : ∀ pos ∈ order, ∀ c, registry.conditionOf pos.tokenId = some c →
      unhedgedAmount registry order pos = registry.netNotional ps c :=
    fun pos hpos c hc => unhedgedAmount_of_conditionOf h hcoherent horder hpos hc
  rw [calculateUnhedgedExposure, addUnhedged_eq_visit, foldl_visit hamount, Finset.sdiff_empty, zero_add,
    sum_groups h hkeyed hcoherent horder, sum_ungrouped h horder]

theorem calculateUnhedgedExposure_none (h : ps.WellKeyed) (horder : order.Perm ps.allPositions) :
    calculateUnhedgedExposure order none = ∑ t ∈ (ps.allPositions.map (·.tokenId)).toFinset, ps.notionalOf t := by
  rw [calculateUnhedgedExposure, (horder.map _).sum_eq,
    sum_map_notional h (List.Subset.refl _) (nodup_tokens h)]

theorem notionalOf_nonneg (h : ps.WellKeyed) (hcost : ∀ pos ∈ ps.allPositions, 0 ≤ pos.avgCost) (t : TokenId) :
    0 ≤ ps.notionalOf t := by
  rcases notionalOf_cases h t with hzero | ⟨pos, hpos, -, heq⟩
  · exact hzero.ge
  · rw [heq]
    exact mul_nonneg (abs_nonneg _) (hcost pos hpos)

theorem netNotional_nonneg (c : ConditionId) : 0 ≤ registry.netNotional ps c := by
  rw [netNotional]
  cases registry.getByCondition c with
  | none => exact le_rfl
  | some pair => exact abs_nonneg _

/-- The difference of two legs is at most what both of them hold. -/
theorem netNotional_le (h : ps.WellKeyed) (hkeyed : registry.Keyed) (hcoherent : registry.Coherent)
    (hnonneg : ∀ t, 0 ≤ ps.notionalOf t) (c : ConditionId) :
    registry.netNotional ps c ≤
      ∑ t ∈ (ps.allPositions.map (·.tokenId)).toFinset with registry.conditionOf t = some c, ps.notionalOf t := by
  have hsum := Finset.sum_nonneg (s := (ps.allPositions.map (·.tokenId)).toFinset.filter
    fun t => registry.conditionOf t = some c) fun t _ => hnonneg t
  rw [netNotional]
  cases hpair : registry.getByCondition c with
  | none => exact hsum
  | some pair =>
    have hleg : ∀ t, pair.contains t = true → ps.notionalOf t ≤
        ∑ t ∈ (ps.allPositions.map (·.tokenId)).toFinset with registry.conditionOf t = some c, ps.notionalOf t := by
      intro t ht
      rcases notionalOf_cases h t with hzero | ⟨pos, hpos, rfl, -⟩
      · exact hzero.trans_le hsum
      · have hopen := List.mem_toFinset.mpr (List.mem_map_of_mem (f := (·.tokenId)) hpos)
        have hgroup := hcoherent.conditionOf_of_contains hkeyed hpair ht
        exact Finset.single_le_sum (fun t _ => hnonneg t) (Finset.mem_filter.mpr ⟨hopen, hgroup⟩)
    have hyes := hleg pair.yesTokenId (by simp [MarketPair.contains])
    have hno := hleg pair.noTokenId (by simp [MarketPair.contains])
    rw [Option.map_some, Option.getD_some, abs_sub_le_iff]
    constructor
    · linarith [hnonneg pair.noTokenId]
    · linarith [hnonneg pair.yesTokenId]

/-- The tokens with an open position, by condition. -/
theorem sum_by_condition (h : ps.WellKeyed) (hcoherent : registry.Coherent) :
    ∑ t ∈ (ps.allPositions.map (·.tokenId)).toFinset, ps.notionalOf t =
      ∑ c ∈ registry.allConditionIds.toFinset,
          ∑ t ∈ (ps.allPositions.map (·.tokenId)).toFinset with registry.conditionOf t = some c, ps.notionalOf t +
        ∑ t ∈ registry.unregistered ps, ps.notionalOf t := by
  have hmaps : ∀ t ∈ (ps.allPositions.map (·.tokenId)).toFinset,
      registry.conditionOf t ∈ registry.allConditionIds.toFinset.insertNone := by
    intro t _
    refine Finset.mem_insertNone.mpr fun c hc => ?_
    obtain ⟨pair, -, hregistered, -⟩ := hcoherent.pair_of_conditionOf hc
    exact List.mem_toFinset.mpr (mem_allConditionIds.mpr ⟨pair, hregistered⟩)
  have hunregistered : ∑ t ∈ (ps.allPositions.map (·.tokenId)).toFinset with registry.conditionOf t = none,
      ps.notionalOf t = ∑ t ∈ registry.unregistered ps, ps.notionalOf t := by
    refine sum_notionalOf_of_subset h (fun t ht => ?_) (fun t ht hopen => ?_)
    · obtain ⟨hopen, hnone⟩ := Finset.mem_filter.mp ht
      exact mem_unregistered_iff.mpr ⟨mem_keys_of_mem_tokens h (List.mem_toFinset.mp hopen), hnone⟩
    · exact Finset.mem_filter.mpr ⟨List.mem_toFinset.mpr hopen, (mem_unregistered_iff.mp ht).2⟩
  rw [← Finset.sum_fiberwise_of_maps_to hmaps, Finset.sum_insertNone, hunregistered, add_comm]

/-- Of any ledger and registry that keep their indexes, in whatever order the positions are listed: the differences of
the two legs of all markets, and all that is held without a market. At costs that are not negative this is no less than
zero and no more than without a registry. -/
theorem unhedged_is_net_of_pairs (l : Ledger) (registry : MarketPairRegistry) (hledger : l.positions.WellKeyed)
    (hkeyed : registry.Keyed) (hcoherent : registry.Coherent) (order : List Position)
    (horder : order.Perm l.positions.allPositions) :
    calculateUnhedgedExposure order (some registry) =
        ∑ c ∈ registry.allConditionIds.toFinset, registry.netNotional l.positions c +
          ∑ t ∈ registry.unregistered l.positions, (l.getPosition t).notional ∧
      ((∀ pos ∈ l.positions.allPositions, 0 ≤ pos.avgCost) →
        0 ≤ calculateUnhedgedExposure order (some registry) ∧
          calculateUnhedgedExposure order (some registry) ≤ calculateUnhedgedExposure order none) := by
  refine ⟨calculateUnhedgedExposure_some hledger hkeyed hcoherent horder, fun hcost => ?_⟩
  have hnonneg := notionalOf_nonneg hledger hcost
  rw [calculateUnhedgedExposure_some hledger hkeyed hcoherent horder, calculateUnhedgedExposure_none hledger horder,
    sum_by_condition hledger hcoherent]
  constructor
  · exact add_nonneg (Finset.sum_nonneg fun c _ => netNotional_nonneg c) (Finset.sum_nonneg fun t _ => hnonneg t)
  · have hle := Finset.sum_le_sum fun c (_ : c ∈ registry.allConditionIds.toFinset) =>
      netNotional_le hledger hkeyed hcoherent hnonneg c
    linarith

private def paidToBuy : Ledger := Ledger.run (.new 0) [.processFill ⟨"f", "o", "t", .Buy, -1, 1, 0, none, 0⟩]

/-- A share that was bought at a price of minus one dollar. -/
theorem negative_cost_below_zero :
    paidToBuy.positions.WellKeyed ∧ MarketPairRegistry.new.Keyed ∧ MarketPairRegistry.new.Coherent ∧
      ¬0 ≤ calculateUnhedgedExposure paidToBuy.positions.allPositions (some .new) := by
  refine ⟨Ledger.wellKeyed_run 0 _, keyed_new, indexed_new.coherent, ?_⟩
  decide +kernel

private def twoLegs : Ledger :=
  Ledger.run (.new 100)
    [.processFill ⟨"f1", "o1", "a", .Buy, 2 / 5, 10, 0, none, 0⟩,
      .processFill ⟨"f2", "o2", "z", .Buy, 1 / 5, 5, 0, none, 0⟩,
      .processFill ⟨"f3", "o3", "b", .Buy, 1 / 2, 10, 0, none, 0⟩]

private def onePair : MarketPairRegistry := MarketPairRegistry.new.register (.new "c1" "a" "b")

/-- Four dollars against five in one market and a dollar outside of it, listed in either order. -/
theorem two_legs_and_a_stray :
    calculateUnhedgedExposure twoLegs.positions.allPositions.reverse (some onePair) =
        calculateUnhedgedExposure twoLegs.positions.allPositions (some onePair) ∧
      0 ≤ calculateUnhedgedExposure twoLegs.positions.allPositions (some onePair) ∧
      calculateUnhedgedExposure twoLegs.positions.allPositions (some onePair) ≤
        calculateUnhedgedExposure twoLegs.positions.allPositions none := by
  have hindexed : onePair.Indexed :=
    (indexed_new.apply_iff (.register (.new "c1" "a" "b"))).mpr ⟨fun _ h => (nomatch h), fun _ h => (nomatch h)⟩
  have hkeyed : onePair.Keyed := keyed_new.register _
  have hcost : ∀ pos ∈ twoLegs.positions.allPositions, 0 ≤ pos.avgCost := by decide +kernel
  have hlisted := unhedged_is_net_of_pairs twoLegs onePair (Ledger.wellKeyed_run 100 _) hkeyed hindexed.coherent
    twoLegs.positions.allPositions (.refl _)
  have hreversed := unhedged_is_net_of_pairs twoLegs onePair (Ledger.wellKeyed_run 100 _) hkeyed hindexed.coherent
    twoLegs.positions.allPositions.reverse (List.reverse_perm _)
  exact ⟨hreversed.1.trans hlisted.1.symm, hlisted.2 hcost⟩

end RiskLimits

end PolyBot
