import PolyBot.Execution.Policy
import PolyBot.Strategy.MakerRebateArb

/-! The edge of a maker group at the prices it is posted at, after the policy has moved them. -/

namespace PolyBot

/-- What a price offset in cents adds to a price that is on the tick. -/
def wholeTicks (offsetCents tickSize : Decimal) : Decimal := ⌊offsetCents / 100 / tickSize⌋ * tickSize

private theorem roundDownToTick_add {tickSize : Decimal} (htick : 0 < tickSize) (k : ℤ) (amount : Decimal) :
    roundDownToTick (k * tickSize + amount) tickSize = k * tickSize + ⌊amount / tickSize⌋ * tickSize := by
  have hsplit : (k * tickSize + amount) / tickSize = k + amount / tickSize := by
    rw [add_div, mul_div_cancel_right₀ _ htick.ne']
  rw [roundDownToTick, if_neg htick.ne', hsplit, Int.floor_intCast_add]
  push_cast
  exact add_mul _ _ _

namespace DualPolicy

/-- A resting purchase is posted at its price and the offset, cut down to the tick. -/
theorem toOrderParams_price_of_passive {intent : IntentRef} (hurgency : intent.urgency = .Passive)
    (hside : intent.side = .Buy) (offsetCents : Decimal) (nowSecs : ℕ) :
    ((DualPolicy.new.withMakerOffset offsetCents).toOrderParams nowSecs intent).price =
      roundDownToTick (intent.price + offsetCents / 100) intent.tickSize := by
  rw [toOrderParams, hurgency]
  change MakerPolicy.applyPriceOffset _ intent.price intent.side intent.tickSize = _
  rw [hside]
  rfl

end DualPolicy

namespace MakerRebateArbStrategy
variable {parse : String → Option Decimal} {s : MakerRebateArbStrategy}

/-- A maker price is on the tick, and the policy moves it by the whole ticks of its offset. -/
theorem roundDownToTick_makerPrice_add {tickSize : Decimal} (htick : 0 < tickSize)
    (bestAsk bestBid offsetCents : Decimal) :
    roundDownToTick (makerPrice bestAsk bestBid tickSize + offsetCents / 100) tickSize =
      makerPrice bestAsk bestBid tickSize + wholeTicks offsetCents tickSize := by
  unfold makerPrice
  dsimp only
  rw [if_neg htick.ne']
  exact roundDownToTick_add htick _ _

/-- A book update that emits does so for the pair of its token. -/
theorem check_of_onBookUpdate {marketId : ConditionId} {tokenId : TokenId} {ctx : StrategyContext} {uuid : String}
    (hemits : (s.onBookUpdate parse marketId tokenId ctx uuid).1 ≠ []) :
    ∃ pair, s.registry.getByToken tokenId = some pair ∧
      s.checkArbOpportunity parse pair ctx uuid = some (s.onBookUpdate parse marketId tokenId ctx uuid) := by
  rcases s.onBookUpdate_cases parse marketId tokenId ctx uuid with hnone | ⟨pair, intents, s', hpair, -, hcheck, hnext⟩
  · rw [hnone] at hemits
    exact absurd rfl hemits
  · rw [hnext]
    exact ⟨pair, hpair, hcheck⟩

private theorem exists_best_of_posted {pair : MarketPair} {yesBook noBook : BookSnapshot} {yesPost noPost : Decimal}
    (h : postedPrices parse pair yesBook noBook = some (yesPost, noPost)) :
    ∃ yesAsk yesBid noAsk noBid, yesBook.bestAsk parse = some yesAsk ∧ yesBook.bestBid parse = some yesBid ∧
      noBook.bestAsk parse = some noAsk ∧ noBook.bestBid parse = some noBid ∧
      yesPost = makerPrice yesAsk yesBid pair.tickSize ∧ noPost = makerPrice noAsk noBid pair.tickSize := by
  simp only [postedPrices, Option.bind_eq_bind, Option.bind_eq_some_iff] at h
  obtain ⟨yesAsk, hyesAsk, yesBid, hyesBid, noAsk, hnoAsk, noBid, hnoBid, hposted⟩ := h
  cases hposted
  exact ⟨yesAsk, yesBid, noAsk, noBid, hyesAsk, hyesBid, hnoAsk, hnoBid, rfl, rfl⟩

def postedAt (offsetCents : Decimal) (nowSecs : ℕ) (intent : OrderIntent) : Decimal :=
  ((DualPolicy.new.withMakerOffset offsetCents).toOrderParams nowSecs (.fromIntent intent)).price

theorem postedAt_leg {pair : MarketPair} (htick : 0 < pair.tickSize) (groupId : String) (tokenId : TokenId)
    (bestAsk bestBid size offsetCents : Decimal) (nowSecs : ℕ) :
    postedAt offsetCents nowSecs (leg pair groupId tokenId (makerPrice bestAsk bestBid pair.tickSize) size) =
      makerPrice bestAsk bestBid pair.tickSize + wholeTicks offsetCents pair.tickSize :=
  (DualPolicy.toOrderParams_price_of_passive rfl rfl offsetCents nowSecs).trans
    (roundDownToTick_makerPrice_add htick bestAsk bestBid offsetCents)

/-- The legs of a group keep the minimum edge at the prices they are posted at exactly if the whole ticks of the
offset, added to both, fit in what the maker prices of the two books leave above that edge. -/
theorem posted_legs_keep_edge_iff {marketId : ConditionId} {tokenId : TokenId} {ctx : StrategyContext} {uuid : String}
    (offsetCents : Decimal) (nowSecs : ℕ)
    (htick : ∀ pair, s.registry.getByToken tokenId = some pair → 0 < pair.tickSize)
    (hemits : (s.onBookUpdate parse marketId tokenId ctx uuid).1 ≠ []) :
    ∃ pair yesAsk yesBid noAsk noBid yes no, s.registry.getByToken tokenId = some pair ∧
      ctx.bestAsk parse pair.yesTokenId = some yesAsk ∧ ctx.bestBid parse pair.yesTokenId = some yesBid ∧
      ctx.bestAsk parse pair.noTokenId = some noAsk ∧ ctx.bestBid parse pair.noTokenId = some noBid ∧
      (s.onBookUpdate parse marketId tokenId ctx uuid).1 = [yes, no] ∧
      (postedAt offsetCents nowSecs yes + postedAt offsetCents nowSecs no ≤ 1 - s.config.minEdge ↔
        2 * wholeTicks offsetCents pair.tickSize ≤ (1 - s.config.minEdge) -
          (makerPrice yesAsk yesBid pair.tickSize + makerPrice noAsk noBid pair.tickSize)) := by
  obtain ⟨pair, hpair, hcheck⟩ := check_of_onBookUpdate hemits
  obtain ⟨yesBook, noBook, yesPost, noPost, size, hopp, hlegs, -⟩ := checkArbOpportunity_inv parse hcheck
  obtain ⟨yesAsk, yesBid, noAsk, noBid, hyesAsk, hyesBid, hnoAsk, hnoBid, rfl, rfl⟩ := exists_best_of_posted hopp.posted
  have hyes : ctx.books.getBook pair.yesTokenId = some yesBook := hopp.yes_book
  have hno : ctx.books.getBook pair.noTokenId = some noBook := hopp.no_book
  refine ⟨pair, yesAsk, yesBid, noAsk, noBid, _, _, hpair, ?_, ?_, ?_, ?_, hlegs, ?_⟩
  · rwa [StrategyContext.bestAsk, OrderBookState.bestAsk, hyes]
  · rwa [StrategyContext.bestBid, OrderBookState.bestBid, hyes]
  · rwa [StrategyContext.bestAsk, OrderBookState.bestAsk, hno]
  · rwa [StrategyContext.bestBid, OrderBookState.bestBid, hno]
  · have hpos := htick pair hpair
    rw [postedAt_leg hpos, postedAt_leg hpos]
    constructor <;> intro hle <;> linarith

private def readText (text : String) : Option Decimal :=
  if text = "0.49" then some (49 / 100)
  else if text = "0.48" then some (48 / 100)
  else if text = "1000" then some 1000
  else none

private def makerPair : MarketPair := MarketPair.new "m1" "up" "down"

private def maker : MakerRebateArbStrategy := withConfig (MarketPairRegistry.new.register makerPair) .default

private def asked : StrategyContext where
  books :=
    ((∅ : OrderBookState).insert "up" ⟨"up", "m1", [⟨"0.48", "1000"⟩], [⟨"0.49", "1000"⟩], none, none⟩).insert
      "down" ⟨"down", "m1", [⟨"0.48", "1000"⟩], [⟨"0.49", "1000"⟩], none, none⟩
  ledger := Ledger.new 1000
  now := 0

private theorem maker_pair : maker.registry.getByToken "up" = some makerPair := by decide +kernel

/-- Both tokens at 0.49: half a cent more than the posts of 0.48 is rounded away. -/
theorem half_cent_keeps_edge :
    ∃ yes no, (maker.onBookUpdate readText "m1" "up" asked "1").1 = [yes, no] ∧
      postedAt (1 / 2) 0 yes + postedAt (1 / 2) 0 no ≤ 1 - maker.config.minEdge := by
  have hemits : (maker.onBookUpdate readText "m1" "up" asked "1").1 ≠ [] := by decide +kernel
  have htick : ∀ pair, maker.registry.getByToken "up" = some pair → 0 < pair.tickSize := by
    intro pair h
    cases maker_pair.symm.trans h
    norm_num [makerPair, MarketPair.new]
  obtain ⟨pair, yesAsk, yesBid, noAsk, noBid, yes, no, hfound, hyesAsk, hyesBid, hnoAsk, hnoBid, hlegs, hiff⟩ :=
    posted_legs_keep_edge_iff (1 / 2) 0 htick hemits
  refine ⟨yes, no, hlegs, hiff.mpr ?_⟩
  cases maker_pair.symm.trans hfound
  have hasks : asked.bestAsk readText "up" = some (49 / 100) ∧ asked.bestAsk readText "down" = some (49 / 100) := by
    decide +kernel
  have hbids : asked.bestBid readText "up" = some (48 / 100) ∧ asked.bestBid readText "down" = some (48 / 100) := by
    decide +kernel
  cases hasks.1.symm.trans hyesAsk
  cases hasks.2.symm.trans hnoAsk
  cases hbids.1.symm.trans hyesBid
  cases hbids.2.symm.trans hnoBid
  decide +kernel

private def postedLeg (tokenId : TokenId) : OrderIntent := leg makerPair "maker-arb-1" tokenId (48 / 100) (520 / 100)

/-- With two cents the posts of 0.48 become 0.50 each, which leaves nothing of a dollar. -/
theorem two_cents_lose_edge :
    0 < makerPair.tickSize ∧ (0 : Decimal) ≤ 2 ∧
      (maker.onBookUpdate readText "m1" "up" asked "1").1 = [postedLeg "up", postedLeg "down"] ∧
      postedAt 2 0 (postedLeg "up") + postedAt 2 0 (postedLeg "down") = 1 ∧
      ¬postedAt 2 0 (postedLeg "up") + postedAt 2 0 (postedLeg "down") ≤ 1 - maker.config.minEdge := by
  refine ⟨by norm_num [makerPair, MarketPair.new], by norm_num, ?_, ?_, ?_⟩
  · decide +kernel
  · decide +kernel
  · decide +kernel

end MakerRebateArbStrategy

end PolyBot
