import PolyBot.Execution.Legs
import PolyBot.Strategy.MakerRebateArb
import PolyBot.Strategy.MathArb

/-! The submitted sizes of the two legs of an arbitrage group. -/

namespace PolyBot.Execution.ArbLegSizes
open General.LotRounding OrderExecutor

inductive EmittedGroup (parse : String → Option Decimal) (yes no : OrderIntent) : Prop where
  | mathArb (strategy : MathArbStrategy) (pair : MarketPair) (ctx : StrategyContext) (uuid : String)
      (emits : (strategy.checkArbOpportunity parse pair ctx uuid).map Prod.fst = some [yes, no])
  | makerRebate (strategy : MakerRebateArbStrategy) (pair : MarketPair) (ctx : StrategyContext) (uuid : String)
      (emits : (strategy.checkArbOpportunity parse pair ctx uuid).map Prod.fst = some [yes, no])

/-- What both strategies promise about a pair: one size, in whole hundredths and no smaller than a share, and
one group. -/
structure PairShape (yes no : OrderIntent) (s : ℕ) : Prop where
  yes_size : yes.size = s / 100
  no_size : no.size = s / 100
  pos : 0 < s
  grouped : yes.groupId.isSome = true

/-- Both strategies size the two legs alike, and never below the exchange minimum. -/
private theorem pairShape {lim : SizingLimits} {depth exposure cash yesPrice noPrice size : Decimal}
    {yes no : OrderIntent} (h : lim.Admits depth exposure cash yesPrice noPrice size) (hyes : yes.size = size)
    (hno : no.size = size) (hgroup : yes.groupId.isSome = true) : ∃ s, PairShape yes no s := by
  obtain ⟨s, hs⟩ := h.exists_hundredths
  have hpos : (0 : Decimal) < s / 100 := h.size_pos.trans_eq hs
  refine ⟨s, hyes.trans hs, hno.trans hs, ?_, hgroup⟩
  exact_mod_cast (div_pos_iff_of_pos_right (by norm_num)).mp hpos

theorem EmittedGroup.shape {parse : String → Option Decimal} {yes no : OrderIntent} (h : EmittedGroup parse yes no) :
    ∃ s, PairShape yes no s := by
  cases h with
  | mathArb strategy pair ctx uuid emits | makerRebate strategy pair ctx uuid emits =>
    obtain ⟨⟨intents, s'⟩, hcheck, rfl⟩ := Option.map_eq_some_iff.mp emits
    obtain ⟨_, _, _, _, _, hopp, hlegs, -⟩ := strategy.checkArbOpportunity_inv parse hcheck
    obtain ⟨rfl, hno⟩ := List.cons_eq_cons.mp hlegs
    obtain ⟨rfl, -⟩ := List.cons_eq_cons.mp hno
    exact pairShape hopp.admitted rfl rfl rfl

def policyPrice (d : DualPolicy) (nowSecs : ℕ) (intent : OrderIntent) : Decimal :=
  (d.policy.toOrderParams nowSecs (IntentRef.fromIntent intent)).price

def submittedSize (d : DualPolicy) (nowSecs : ℕ) (intent : OrderIntent) : Decimal :=
  (d.policy.orderParams nowSecs intent).size

private theorem submittedSize_eq (d : DualPolicy) (nowSecs : ℕ) (intent : OrderIntent) :
    submittedSize d nowSecs intent = quantizeSizeForUsdcPrecision (policyPrice d nowSecs intent) intent.size := by
  have hsize := d.toOrderParams_size nowSecs (IntentRef.fromIntent intent)
  exact congrArg (quantizeSizeForUsdcPrecision (policyPrice d nowSecs intent)) hsize

/-- A size of `s` hundredths is cut alike at two prices: neither leg gets a lot for the minimum notional and
what `s` leaves over the common multiple of the lots is less than both lots, or both get one and `s` misses
the common multiple by no more than either lot. -/
def CutAlike (yesPrice noPrice : Decimal) (s : ℕ) : Prop :=
  let a := lotOf yesPrice
  let b := lotOf noPrice
  let rest := s % Nat.lcm a b
  (¬Bumped yesPrice (s / 100) ∧ ¬Bumped noPrice (s / 100) ∧ rest < min a b) ∨
    (Bumped yesPrice (s / 100) ∧ Bumped noPrice (s / 100) ∧ Nat.lcm a b - min a b ≤ rest)

instance (yesPrice noPrice : Decimal) (s : ℕ) : Decidable (CutAlike yesPrice noPrice s) :=
  inferInstanceAs (Decidable (_ ∨ _))

theorem quantize_eq_iff (yesPrice noPrice : Decimal) {s : ℕ} (hs : 0 < s) :
    quantizeSizeForUsdcPrecision yesPrice (s / 100) = quantizeSizeForUsdcPrecision noPrice (s / 100) ↔
      CutAlike yesPrice noPrice s := by
  have ha := lotOf_pos yesPrice
  have hb := lotOf_pos noPrice
  have hdiv : ∀ m n : ℕ, (m : Decimal) / 100 = n / 100 ↔ m = n := by
    intro m n
    rw [div_left_inj' (by norm_num)]
    exact Nat.cast_inj
  rw [quantize_hundredths yesPrice hs, quantize_hundredths noPrice hs, hdiv]
  unfold CutAlike
  by_cases hy : Bumped yesPrice (s / 100) <;> by_cases hn : Bumped noPrice (s / 100)
  · simp only [hy, hn, if_true, not_true_eq_false, false_and, false_or, true_and]
    exact floorTo_add_eq_iff ha hb s
  · simp only [hy, hn, if_true, if_false, add_zero, not_true_eq_false, false_and, and_false, or_self, iff_false]
    exact floorTo_add_ne ha (lotOf noPrice) s
  · simp only [hy, hn, if_true, if_false, add_zero, not_true_eq_false, false_and, and_false, or_self, iff_false]
    exact (floorTo_add_ne hb (lotOf yesPrice) s).symm
  · simp only [hy, hn, if_false, add_zero, not_false_eq_true, true_and, false_and, or_false]
    exact floorTo_eq_iff ha hb s

def FilledCompletely (d : DualPolicy) (nowSecs : ℕ) (intent : OrderIntent) (response : PostOrderResponse) : Prop :=
  submittedSize d nowSecs intent ≤ response.takingAmount

def NoUnwindWhenFilled (d : DualPolicy) (nowSecs : ℕ) (yes no : OrderIntent) : Prop :=
  ∀ yesResponse noResponse, FilledCompletely d nowSecs yes yesResponse → FilledCompletely d nowSecs no noResponse →
    plannedUnwinds [yes, no]
      [acceptedResult (d.policy.orderParams nowSecs yes) yesResponse,
        acceptedResult (d.policy.orderParams nowSecs no) noResponse] = []

/-- Equal sizes are what keeps two complete fills from leaving an excess. -/
theorem noUnwindWhenFilled_of_sizes_eq {d : DualPolicy} {nowSecs : ℕ} {yes no : OrderIntent}
    (h : submittedSize d nowSecs yes = submittedSize d nowSecs no) : NoUnwindWhenFilled d nowSecs yes no := by
  intro yesResponse noResponse hyes hno
  let legs : List Leg :=
    [acceptedLeg d.policy nowSecs yes yesResponse, acceptedLeg d.policy nowSecs no noResponse]
  have hfilled : ∀ leg ∈ legs, leg.filled = submittedSize d nowSecs yes := by
    intro leg hleg
    simp only [legs, List.mem_cons, List.not_mem_nil, or_false] at hleg
    rcases hleg with rfl | rfl
    · exact min_eq_right hyes
    · exact (min_eq_right hno).trans h.symm
  change plannedUnwinds (intentsOf legs) (resultsOf legs) = []
  rw [List.eq_nil_iff_forall_not_mem]
  intro unwind hmem
  obtain ⟨-, leg, hleg, hpos, -⟩ := mem_plannedUnwinds.mp hmem
  obtain ⟨leg', hleg', hlt⟩ := (batchExcess_pos_iff hleg).mp hpos
  rw [hfilled leg hleg, hfilled leg' hleg'] at hlt
  exact lt_irrefl _ hlt

/-- For every pair a strategy emits, the legs are submitted with equal sizes, so that complete fills leave
nothing to unwind, exactly when the common size is cut alike at the two policy prices. -/
theorem arb_legs_stay_equal_iff (parse : String → Option Decimal) (d : DualPolicy) (nowSecs : ℕ) (yes no : OrderIntent)
    (h : EmittedGroup parse yes no) :
    ∃ s : ℕ, yes.size = s / 100 ∧ no.size = s / 100 ∧
      ((submittedSize d nowSecs yes = submittedSize d nowSecs no ∧ NoUnwindWhenFilled d nowSecs yes no) ↔
        CutAlike (policyPrice d nowSecs yes) (policyPrice d nowSecs no) s) := by
  obtain ⟨s, hshape⟩ := h.shape
  refine ⟨s, hshape.yes_size, hshape.no_size, ?_⟩
  have hyes : submittedSize d nowSecs yes = quantizeSizeForUsdcPrecision (policyPrice d nowSecs yes) (s / 100) := by
    rw [submittedSize_eq, hshape.yes_size]
  have hno : submittedSize d nowSecs no = quantizeSizeForUsdcPrecision (policyPrice d nowSecs no) (s / 100) := by
    rw [submittedSize_eq, hshape.no_size]
  rw [← quantize_eq_iff _ _ hshape.pos, ← hyes, ← hno]
  exact ⟨And.left, fun heq => ⟨heq, noUnwindWhenFilled_of_sizes_eq heq⟩⟩

private def decimalText (text : String) : Option Decimal :=
  if text = "0.48" then some (48 / 100)
  else if text = "0.47" then some (47 / 100)
  else if text = "0.45" then some (45 / 100)
  else if text = "0.44" then some (44 / 100)
  else if text = "0.43" then some (43 / 100)
  else if text = "1000" then some 1000
  else none

private def deepBook (tokenId : TokenId) (bid ask : String) : BookSnapshot :=
  ⟨tokenId, "m1", [⟨bid, "1000"⟩], [⟨ask, "1000"⟩], none, none⟩

private def market (noBid noAsk : String) : StrategyContext where
  books := ((∅ : OrderBookState).insert "yes" (deepBook "yes" "0.47" "0.48")).insert "no" (deepBook "no" noBid noAsk)
  ledger := Ledger.new 1000
  now := 0

private def strategy : MathArbStrategy := MathArbStrategy.withConfig MarketPairRegistry.new MathArbConfig.taker

private def pair : MarketPair := MarketPair.new "m1" "yes" "no"

private def legOf (tokenId : TokenId) (price size : Decimal) : OrderIntent :=
  strategy.leg pair "arb-1" tokenId price size

/-- Tokens at 0.48 and 0.44 are both traded in quarter shares, so 5.43 shares are cut alike. -/
theorem equal_lots_stay_equal :
    submittedSize DualPolicy.new 0 (legOf "yes" (48 / 100) (543 / 100)) =
        submittedSize DualPolicy.new 0 (legOf "no" (44 / 100) (543 / 100)) ∧
      NoUnwindWhenFilled DualPolicy.new 0 (legOf "yes" (48 / 100) (543 / 100)) (legOf "no" (44 / 100) (543 / 100)) := by
  obtain ⟨s, hs, -, hiff⟩ := arb_legs_stay_equal_iff decimalText DualPolicy.new 0 (legOf "yes" (48 / 100) (543 / 100))
    (legOf "no" (44 / 100) (543 / 100)) (.mathArb strategy pair (market "0.43" "0.44") "1" (by decide +kernel))
  have hcents : (s : Decimal) = (543 : ℕ) := by
    have hsize : (543 / 100 : Decimal) = s / 100 := hs
    rw [div_left_inj' (by norm_num)] at hsize
    exact_mod_cast hsize.symm
  obtain rfl : s = 543 := Nat.cast_injective hcents
  exact hiff.mpr (by decide +kernel)

/-- Tokens at 0.48 and 0.45: 5.37 shares of each are submitted as 5.25 and 5.20. -/
theorem unequal_lots_part :
    EmittedGroup decimalText (legOf "yes" (48 / 100) (537 / 100)) (legOf "no" (45 / 100) (537 / 100)) ∧
      submittedSize DualPolicy.new 0 (legOf "yes" (48 / 100) (537 / 100)) = 525 / 100 ∧
      submittedSize DualPolicy.new 0 (legOf "no" (45 / 100) (537 / 100)) = 520 / 100 ∧
      submittedSize DualPolicy.new 0 (legOf "yes" (48 / 100) (537 / 100)) ≠
        submittedSize DualPolicy.new 0 (legOf "no" (45 / 100) (537 / 100)) := by
  refine ⟨.mathArb strategy pair (market "0.44" "0.45") "1" (by decide +kernel), by decide +kernel,
    by decide +kernel, by decide +kernel⟩

end PolyBot.Execution.ArbLegSizes
