import PolyBot.Strategy.MathArb
import Mathlib.Tactic.FieldSimp
import Mathlib.Tactic.Ring

/-! The profit of an arbitrage group at the limits it is submitted with. -/

namespace PolyBot

def MarketPair.takerFee (p : MarketPair) : Decimal := p.feeRateBps / 10000

theorem MarketPair.takerFee_nonneg (p : MarketPair) : 0 ≤ p.takerFee :=
  div_nonneg (Nat.cast_nonneg _) (by norm_num)

def toNextTick (price tickSize : Decimal) : Decimal := Int.fract (-(price / tickSize)) * tickSize

theorem roundUpToTick_eq (price tickSize : Decimal) :
    roundUpToTick price tickSize = price + toNextTick price tickSize := by
  unfold roundUpToTick toNextTick
  by_cases htick : tickSize = 0
  · rw [if_pos htick, htick, mul_zero, add_zero]
  · have hfract : Int.fract (-(price / tickSize)) = ⌈price / tickSize⌉ - price / tickSize := by
      rw [Int.fract, Int.floor_neg]
      push_cast
      ring
    rw [if_neg htick, hfract, sub_mul, div_mul_cancel₀ price htick]
    ring

namespace EdgeConfig
variable {parse : String → Option Decimal} {c : EdgeConfig} {yesBook noBook : BookSnapshot}

theorem estimateSlippage_nonneg {intendedSize : Decimal} (h : intendedSize ≤ minDepth parse yesBook noBook) :
    0 ≤ c.estimateSlippage parse yesBook noBook intendedSize := by
  unfold estimateSlippage
  dsimp only
  split_ifs with hdepth hless
  · norm_num
  · exact absurd h (not_le.mpr hless)
  · exact le_rfl

theorem partialFillMargin_nonneg (h : 0 ≤ c.thinBookMargin) : 0 ≤ c.partialFillMargin parse yesBook noBook := by
  unfold partialFillMargin
  dsimp only
  split_ifs
  · exact h
  · exact div_nonneg h zero_le_two
  · exact le_rfl

theorem spreadPenalty_nonneg : 0 ≤ spreadPenalty parse yesBook noBook := by
  unfold spreadPenalty
  dsimp only
  split_ifs with hwide
  · exact mul_nonneg (sub_nonneg.mpr hwide.le) (by norm_num)
  · exact le_rfl

/-- A profitable calculation leaves at least the fees, since no other component of the required edge is negative. -/
theorem fees_le_of_isProfitable {feeRateBps : ℕ} {intendedSize yesAsk noAsk : Decimal} (hmargin : 0 ≤ c.thinBookMargin)
    (hyes : yesBook.bestAsk parse = some yesAsk) (hno : noBook.bestAsk parse = some noAsk)
    (h : (c.calculate parse yesBook noBook feeRateBps intendedSize).isProfitable = true) :
    c.calculateFees feeRateBps (yesAsk + noAsk) ≤ 1 - (yesAsk + noAsk) := by
  unfold calculate at h
  simp only [decide_eq_true_eq, hyes, hno, Option.getD_some] at h
  obtain ⟨hedge, hdepth⟩ := h
  have hslippage := estimateSlippage_nonneg (c := c) hdepth
  have hpartial : 0 ≤ c.partialFillMargin parse yesBook noBook := partialFillMargin_nonneg hmargin
  have hpenalty : 0 ≤ spreadPenalty parse yesBook noBook := spreadPenalty_nonneg
  have hsum := (le_max_left _ _).trans hedge
  linarith

end EdgeConfig

/-- One share of each token, bought at the two limits, pays out its cost and the taker fees on it. -/
def CoversFees (fee yesPrice noPrice : Decimal) : Prop := fee * (yesPrice + noPrice) ≤ 1 - (yesPrice + noPrice)

/-- The price of both tokens together at which the payout is the cost and the taker fees on it. -/
def breakEven (fee : Decimal) : Decimal := 1 / (1 + fee)

theorem coversFees_iff {fee yesPrice noPrice : Decimal} (hfee : 0 ≤ fee) :
    CoversFees fee yesPrice noPrice ↔ yesPrice + noPrice ≤ breakEven fee := by
  unfold CoversFees breakEven
  rw [le_div_iff₀ (by linarith)]
  constructor <;> intro h <;> linarith

namespace MathArbStrategy
variable {parse : String → Option Decimal} {s : MathArbStrategy} {pair : MarketPair} {ctx : StrategyContext}
  {yesBook noBook : BookSnapshot} {yesRaw noRaw size : Decimal}

/-- The raw asks of an emission by a taker cover the fees. -/
theorem Opportunity.raw_coversFees (h : s.Opportunity parse pair ctx yesBook noBook yesRaw noRaw size)
    (htaker : s.edgeCalculator = .taker) : CoversFees pair.takerFee yesRaw noRaw := by
  have hmargin : (0 : Decimal) ≤ EdgeConfig.taker.thinBookMargin := by decide +kernel
  have hprofit := h.profitable
  rw [htaker] at hprofit
  exact EdgeConfig.fees_le_of_isProfitable hmargin h.yes_ask h.no_ask hprofit

/-- Asks that are on the tick are submitted as they are. -/
theorem Opportunity.coversFees_of_onTick (h : s.Opportunity parse pair ctx yesBook noBook yesRaw noRaw size)
    (htaker : s.edgeCalculator = .taker) (hyes : toNextTick yesRaw pair.tickSize = 0)
    (hno : toNextTick noRaw pair.tickSize = 0) :
    CoversFees pair.takerFee (roundUpToTick yesRaw pair.tickSize) (roundUpToTick noRaw pair.tickSize) := by
  rw [roundUpToTick_eq, roundUpToTick_eq, hyes, hno, add_zero, add_zero]
  exact h.raw_coversFees htaker

/-- A minimum edge that pays the fees on what it leaves of a dollar keeps every group profitable. -/
theorem Opportunity.coversFees_of_minEdge (h : s.Opportunity parse pair ctx yesBook noBook yesRaw noRaw size)
    (htaker : s.edgeCalculator = .taker) (hedge : pair.takerFee * (1 - s.config.minEdge) ≤ s.config.minEdge) :
    CoversFees pair.takerFee (roundUpToTick yesRaw pair.tickSize) (roundUpToTick noRaw pair.tickSize) := by
  by_cases hmoved : roundUpToTick yesRaw pair.tickSize ≠ yesRaw ∨ roundUpToTick noRaw pair.tickSize ≠ noRaw
  · have hkept := h.rechecked hmoved
    have hfees := mul_le_mul_of_nonneg_left (le_sub_comm.mp hkept) pair.takerFee_nonneg
    exact hfees.trans (hedge.trans hkept)
  · obtain ⟨hyes, hno⟩ := not_or.mp hmoved
    rw [not_not.mp hyes, not_not.mp hno]
    exact h.raw_coversFees htaker

/-- The limits of a group that a taker emits cover the fees exactly if both asks together are no further below the
ticks they are rounded up to than below the break-even price. So it is where both asks are on the tick, and where
the minimum edge pays the fees. -/
theorem emitted_group_covers_fees_iff {s' : MathArbStrategy} {uuid : String} {intents : List OrderIntent}
    (htaker : s.edgeCalculator = .taker) (h : s.checkArbOpportunity parse pair ctx uuid = some (intents, s')) :
    ∃ yesRaw noRaw yes no, ctx.bestAsk parse pair.yesTokenId = some yesRaw ∧
      ctx.bestAsk parse pair.noTokenId = some noRaw ∧ intents = [yes, no] ∧
      (CoversFees pair.takerFee yes.price no.price ↔
        toNextTick yesRaw pair.tickSize + toNextTick noRaw pair.tickSize ≤
          breakEven pair.takerFee - (yesRaw + noRaw)) ∧
      (toNextTick yesRaw pair.tickSize = 0 ∧ toNextTick noRaw pair.tickSize = 0 →
        CoversFees pair.takerFee yes.price no.price) ∧
      (pair.takerFee * (1 - s.config.minEdge) ≤ s.config.minEdge → CoversFees pair.takerFee yes.price no.price) := by
  obtain ⟨yesBook, noBook, yesRaw, noRaw, size, hopp, hlegs, -⟩ := checkArbOpportunity_inv parse h
  have hyesAsk : ctx.bestAsk parse pair.yesTokenId = some yesRaw := by
    rw [StrategyContext.bestAsk, OrderBookState.bestAsk, hopp.yes_book]
    exact hopp.yes_ask
  have hnoAsk : ctx.bestAsk parse pair.noTokenId = some noRaw := by
    rw [StrategyContext.bestAsk, OrderBookState.bestAsk, hopp.no_book]
    exact hopp.no_ask
  refine ⟨yesRaw, noRaw, _, _, hyesAsk, hnoAsk, hlegs, ?_,
    fun htick => hopp.coversFees_of_onTick htaker htick.1 htick.2, hopp.coversFees_of_minEdge htaker⟩
  change CoversFees pair.takerFee (roundUpToTick yesRaw pair.tickSize) (roundUpToTick noRaw pair.tickSize) ↔ _
  rw [coversFees_iff pair.takerFee_nonneg, roundUpToTick_eq, roundUpToTick_eq]
  constructor <;> intro hle <;> linarith

private def askText (text : String) : Option Decimal :=
  if text = "0.4501" then some (4501 / 10000)
  else if text = "0.45" then some (45 / 100)
  else if text = "0.44" then some (44 / 100)
  else if text = "1000" then some 1000
  else none

private def feePair : MarketPair := MarketPair.newUpDown "m1" "up" "down"

private def askedAt (ask : String) : StrategyContext where
  books :=
    ((∅ : OrderBookState).insert "up" ⟨"up", "m1", [⟨"0.44", "1000"⟩], [⟨ask, "1000"⟩], none, none⟩).insert
      "down" ⟨"down", "m1", [⟨"0.44", "1000"⟩], [⟨ask, "1000"⟩], none, none⟩
  ledger := Ledger.new 1000
  now := 0

private def feeTaker : MathArbStrategy := withConfig MarketPairRegistry.new .taker

/-- Both tokens at 0.45, where the fee is a tenth: the group is submitted at 0.90 and pays its fees of 0.09. -/
theorem asks_on_tick_cover_fees :
    ∃ yes no, (feeTaker.checkArbOpportunity askText feePair (askedAt "0.45") "1").map Prod.fst = some [yes, no] ∧
      CoversFees feePair.takerFee yes.price no.price := by
  cases hcheck : feeTaker.checkArbOpportunity askText feePair (askedAt "0.45") "1" with
  | none => exact absurd hcheck (by decide +kernel)
  | some emitted =>
    obtain ⟨yesRaw, noRaw, yes, no, hyes, hno, hlegs, -, htick, -⟩ := emitted_group_covers_fees_iff rfl hcheck
    have hraw : (askedAt "0.45").bestAsk askText "up" = some (45 / 100) ∧
        (askedAt "0.45").bestAsk askText "down" = some (45 / 100) := by decide +kernel
    obtain rfl := Option.some.inj (hyes.symm.trans hraw.1)
    obtain rfl := Option.some.inj (hno.symm.trans hraw.2)
    exact ⟨yes, no, congrArg some hlegs, htick (by decide +kernel)⟩

private def limitLeg (tokenId : TokenId) : OrderIntent := feeTaker.leg feePair "arb-1" tokenId (46 / 100) (543 / 100)

/-- Both tokens at 0.4501: the raw asks leave 0.0998 for fees of 0.09002, the submitted limits of 0.46 leave 0.08 for
fees of 0.092. -/
theorem rounded_asks_lose_money :
    feeTaker.config.useMakerExecution = false ∧ 0 < feePair.tickSize ∧ feePair.feeRateBps = 1000 ∧
      (feeTaker.checkArbOpportunity askText feePair (askedAt "0.4501") "1").map Prod.fst =
        some [limitLeg "up", limitLeg "down"] ∧
      ¬(feePair.feeRateBps : Decimal) / 10000 * ((limitLeg "up").price + (limitLeg "down").price) ≤
        1 - ((limitLeg "up").price + (limitLeg "down").price) := by
  decide +kernel

end MathArbStrategy

end PolyBot
