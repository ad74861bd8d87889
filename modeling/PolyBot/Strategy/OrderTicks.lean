import PolyBot.Execution.Policy
import PolyBot.Strategy.StrategyRuns

/-! Whether the orders that the policy builds are priced at the ticks of their markets. -/

namespace PolyBot
open AllStrategies

def OnTick (tickSize price : Decimal) : Prop := ∃ k : ℤ, price = k * tickSize

theorem onTick_roundUpToTick {tickSize : Decimal} (htick : tickSize ≠ 0) (price : Decimal) :
    OnTick tickSize (roundUpToTick price tickSize) :=
  ⟨⌈price / tickSize⌉, if_neg htick⟩

theorem onTick_roundDownToTick {tickSize : Decimal} (htick : tickSize ≠ 0) (price : Decimal) :
    OnTick tickSize (roundDownToTick price tickSize) :=
  ⟨⌊price / tickSize⌋, if_neg htick⟩

namespace DualPolicy

/-- Both policies round to the tick that an order carries, if it does. -/
theorem onTick_toOrderParams (d : DualPolicy) (nowSecs : ℕ) (intent : IntentRef) (htick : intent.tickSize ≠ 0) :
    OnTick intent.tickSize (d.toOrderParams nowSecs intent).price := by
  have htaker : OnTick intent.tickSize (d.taker.toOrderParams nowSecs intent).price :=
    onTick_roundUpToTick htick intent.price
  have hmaker : OnTick intent.tickSize (d.maker.toOrderParams nowSecs intent).price := by
    unfold MakerPolicy.toOrderParams MakerPolicy.applyPriceOffset
    dsimp only
    split
    · exact onTick_roundDownToTick htick _
    · exact onTick_roundUpToTick htick _
  unfold toOrderParams
  split
  · exact htaker
  · exact htaker
  · exact hmaker

/-- An urgent order without a tick is priced as it stands. -/
theorem toOrderParams_price_of_no_tick (d : DualPolicy) (nowSecs : ℕ) {intent : IntentRef}
    (hurgency : intent.urgency = .Immediate) (htick : intent.tickSize = 0) :
    (d.toOrderParams nowSecs intent).price = intent.price := by
  rw [toOrderParams, hurgency]
  exact if_pos htick

end DualPolicy

section Made
variable {parse : String → Option Decimal} {ctx : StrategyContext} {pair : MarketPair} {intents : List OrderIntent}

theorem MathArbStrategy.Legs.tick {s : MathArbStrategy} {groupId : String} (h : s.Legs groupId pair intents) :
    ∀ i ∈ intents, i.tickSize = pair.tickSize := by
  obtain ⟨_, _, _, rfl⟩ := h
  intro i hi
  rcases List.mem_pair.mp hi with rfl | rfl
  · rfl
  · rfl

theorem MakerRebateArbStrategy.Legs.tick {groupId : String} (h : Legs groupId pair intents) :
    ∀ i ∈ intents, i.tickSize = pair.tickSize := by
  obtain ⟨_, _, _, rfl⟩ := h
  intro i hi
  rcases List.mem_pair.mp hi with rfl | rfl
  · rfl
  · rfl

/-- The temporal strategy pays the ask and passes no tick on. -/
theorem TemporalArbStrategy.OneBuy.no_tick {s : TemporalArbStrategy} (h : s.OneBuy parse ctx pair intents) :
    ∀ i ∈ intents, ctx.bestAsk parse i.tokenId = some i.price ∧ i.urgency = .Immediate ∧ i.tickSize = 0 := by
  obtain ⟨_, _, hask, rfl⟩ := h
  intro i hi
  rw [List.mem_singleton.mp hi]
  exact ⟨hask, rfl, rfl⟩

end Made

namespace AllStrategies

inductive StrategyCall where
  | bookUpdate (around : Surroundings) (marketId : ConditionId) (tokenId : TokenId)
  | tick (around : Surroundings)
  | shutdown (around : Surroundings)

namespace Strategy

def emits (parse : String → Option Decimal) (assetSymbol : MarketPair → Option String) (s : Strategy) :
    StrategyCall → List OrderIntent
  | .bookUpdate around marketId tokenId => (s.onBookUpdate parse assetSymbol around marketId tokenId).1
  | .tick around => (s.onTick parse around).1
  | .shutdown around => s.onShutdown parse around.ctx

/-- The pair in which an order is emitted: the arbitrage strategies look up the token of a book update, otherwise it is
that of the order's own token. -/
def pairOf (i : OrderIntent) : Strategy → StrategyCall → Option MarketPair
  | mathArb _, .bookUpdate around _ tokenId => around.registry.getByToken tokenId
  | makerRebateArb _, .bookUpdate around _ tokenId => around.registry.getByToken tokenId
  | temporalArb _, .bookUpdate around _ tokenId => around.registry.getByToken tokenId
  | exit _, .bookUpdate around _ _ => around.registry.getByToken i.tokenId
  | _, .tick around => around.registry.getByToken i.tokenId
  | _, .shutdown around => around.registry.getByToken i.tokenId

/-- The price in the book at which an order is emitted that carries no tick: the ask that the temporal strategy pays,
and the bid at which the maker strategy unwinds a leg. -/
def bookPrice (parse : String → Option Decimal) (i : OrderIntent) : Strategy → StrategyCall → Option Decimal
  | temporalArb _, .bookUpdate around _ _ => around.ctx.bestAsk parse i.tokenId
  | makerRebateArb _, .tick around => around.ctx.bestBid parse i.tokenId
  | makerRebateArb _, .shutdown around => around.ctx.bestBid parse i.tokenId
  | _, _ => none

variable {parse : String → Option Decimal} {assetSymbol : MarketPair → Option String}

/-- What is known of the tick of an order: it is that of the pair, or there is none and the price is the book's. -/
def TickKnown (parse : String → Option Decimal) (s : Strategy) (call : StrategyCall) (i : OrderIntent) : Prop :=
  (s.bookPrice parse i call = none ∧ ∃ pair, s.pairOf i call = some pair ∧ i.tickSize = pair.tickSize) ∨
    s.bookPrice parse i call = some i.price ∧ i.urgency = .Immediate ∧ i.tickSize = 0

/-- The sale of a leg by the maker strategy is at the bid. -/
theorem bid_of_mem_unwindLeg {ctx : StrategyContext} {p : PendingArb} {tokenId : TokenId} {shares : Decimal}
    {i : OrderIntent} (h : i ∈ MakerRebateArbStrategy.unwindLeg parse ctx p tokenId shares) :
    ctx.bestBid parse i.tokenId = some i.price ∧ i.urgency = .Immediate ∧ i.tickSize = 0 := by
  obtain ⟨bid, hbid, rfl⟩ := (MakerRebateArbStrategy.mem_unwindLeg_iff parse).mp h
  exact ⟨hbid, rfl, rfl⟩

theorem bid_of_mem_maker_onShutdown {s : MakerRebateArbStrategy} {ctx : StrategyContext} {i : OrderIntent}
    (h : i ∈ s.onShutdown parse ctx) :
    ctx.bestBid parse i.tokenId = some i.price ∧ i.urgency = .Immediate ∧ i.tickSize = 0 := by
  have hone : ∀ {p : PendingArb} {tokenId : TokenId},
      i ∈ MakerRebateArbStrategy.shutdownLeg parse ctx p tokenId →
      ctx.bestBid parse i.tokenId = some i.price ∧ i.urgency = .Immediate ∧ i.tickSize = 0 := by
    intro p tokenId hi
    unfold MakerRebateArbStrategy.shutdownLeg at hi
    dsimp only at hi
    split_ifs at hi
    · exact bid_of_mem_unwindLeg hi
    · cases hi
  obtain ⟨p, -, hi⟩ := List.mem_flatMap.mp h
  exact (List.mem_append.mp hi).elim hone hone

/-- Every order of a strategy carries the tick of its pair, but for those that are priced by the book. -/
theorem tickKnown_of_mem_emits {s : Strategy} {call : StrategyCall} {i : OrderIntent}
    (h : i ∈ s.emits parse assetSymbol call) : s.TickKnown parse call i := by
  cases s with
  | mathArb s =>
    cases call with
    | bookUpdate around marketId tokenId =>
      have henters := ({ s with registry := around.registry }.onBookUpdate_enters parse marketId tokenId around.ctx
        around.uuid).1
      obtain ⟨pair, hpair, hlegs⟩ := henters.exists_pair h
      exact .inl ⟨rfl, pair, hpair, hlegs.tick i h⟩
    | tick around | shutdown around => cases h
  | makerRebateArb s =>
    cases call with
    | bookUpdate around marketId tokenId =>
      have henters := ({ s with registry := around.registry }.onBookUpdate_enters parse marketId tokenId around.ctx
        around.uuid).1
      obtain ⟨pair, hpair, hlegs⟩ := henters.exists_pair h
      exact .inl ⟨rfl, pair, hpair, hlegs.tick i h⟩
    | tick around =>
      obtain ⟨_, _, _, hleg⟩ := MakerRebateArbStrategy.onTick_inv h
      exact .inr (bid_of_mem_unwindLeg hleg)
    | shutdown around => exact .inr (bid_of_mem_maker_onShutdown h)
  | temporalArb s =>
    cases call with
    | bookUpdate around marketId tokenId =>
      have henters := (s.onBookUpdate_enters parse marketId tokenId around.ctx assetSymbol around.registry
        around.prices).1
      obtain ⟨pair, -, hbuy⟩ := henters.exists_pair h
      exact .inr (hbuy.no_tick i h)
    | tick around | shutdown around => cases h
  | exit s =>
    cases call with
    | bookUpdate around marketId tokenId => exact .inl ⟨rfl, (ExitStrategy.onBookUpdate_inv h).2⟩
    | tick around => exact .inl ⟨rfl, (ExitStrategy.onTick_inv h).2⟩
    | shutdown around => cases h

/-- An order is priced at the tick of its pair exactly if the book is, where the order is priced by the book. -/
theorem order_on_tick_iff {s : Strategy} {call : StrategyCall} {i : OrderIntent}
    (hemits : i ∈ s.emits parse assetSymbol call) {pair : MarketPair} (hpair : s.pairOf i call = some pair)
    (htick : 0 < pair.tickSize) (d : DualPolicy) (nowSecs : ℕ) :
    OnTick pair.tickSize (d.toOrderParams nowSecs (IntentRef.fromIntent i)).price ↔
      ∀ price, s.bookPrice parse i call = some price → OnTick pair.tickSize price := by
  rcases tickKnown_of_mem_emits hemits with ⟨hnone, pair', hpair', hsame⟩ | ⟨hprice, hurgency, hno⟩
  · have hown : pair' = pair := Option.some.inj (hpair'.symm.trans hpair)
    have hcarried : (IntentRef.fromIntent i).tickSize = pair.tickSize := hsame.trans (congrArg _ hown)
    have hon := d.onTick_toOrderParams nowSecs (IntentRef.fromIntent i) (hcarried ▸ htick.ne')
    rw [hcarried] at hon
    refine iff_of_true hon fun price h => ?_
    rw [hnone] at h
    cases h
  · have hkept : (d.toOrderParams nowSecs (IntentRef.fromIntent i)).price = i.price :=
      d.toOrderParams_price_of_no_tick nowSecs hurgency hno
    rw [hkept, hprice]
    constructor
    · rintro hon price ⟨⟩
      exact hon
    · exact fun h => h i.price rfl

private def offTickText (text : String) : Option Decimal :=
  if text = "0.4567" then some (4567 / 10000)
  else if text = "0.48" then some (48 / 100)
  else if text = "0.47" then some (47 / 100)
  else if text = "1000" then some 1000
  else none

private def centPair : MarketPair := MarketPair.new "m1" "yes" "no"

/-- The first token as quoted, the other one bid at 0.47 and asked at 0.48, and a rise of the asset by one percent. -/
private def quotedWith (bid ask : String) (ledger : Ledger) : Surroundings where
  registry := MarketPairRegistry.new.register centPair
  prices := (∅ : ExternalPriceStore).insert "BTC" ⟨0, 100⟩
  ctx := {
    books :=
      ((∅ : OrderBookState).insert "yes" ⟨"yes", "m1", [⟨bid, "1000"⟩], [⟨ask, "1000"⟩], none, none⟩).insert
        "no" ⟨"no", "m1", [⟨"0.47", "1000"⟩], [⟨"0.48", "1000"⟩], none, none⟩
    ledger := ledger
    now := 0 }
  utcNow := 0
  uuid := "1"

private def temporal : Strategy := .temporalArb (.withConfig .default)

private def askedOffTick : StrategyCall := .bookUpdate (quotedWith "0.4567" "0.4567" (Ledger.new 1000)) "m1" "yes"

private def offTickBuy : OrderIntent :=
  TemporalArbStrategy.buy centPair "yes" (4567 / 10000) (200 / (4567 / 10000))

private def postedMaker : Strategy :=
  ((makerRebateArb (.withConfig (MarketPairRegistry.new.register centPair) .default)).onBookUpdate offTickText
    (fun _ => none) (quotedWith "0.47" "0.48" (Ledger.new 1000)) "m1" "yes").2

private def shutdownOffTick : StrategyCall :=
  .shutdown (quotedWith "0.4567" "0.48" { Ledger.new 1000 with
    positions := Positions.new.applyFill ⟨"f1", "o1", "yes", .Buy, 47 / 100, 5, 0, none, 0⟩ })

private def offTickUnwind : OrderIntent :=
  (OrderIntent.new "m1" "yes" .Sell (4567 / 10000) 5 .Immediate "MakerRebateArbStrategy").withPriority 255

private theorem not_onTick_of_centPair : ¬OnTick centPair.tickSize (4567 / 10000) := by
  rintro ⟨k, hk⟩
  have hcents : (4567 : ℚ) = k * 100 := by
    change (4567 / 10000 : ℚ) = k * (1 / 100) at hk
    linarith
  have hwhole : (4567 : ℤ) = k * 100 := by exact_mod_cast hcents
  omega

/-- A purchase at an ask of 0.48. -/
theorem ask_on_tick_is_kept :
    OnTick centPair.tickSize (DualPolicy.new.toOrderParams 0 (IntentRef.fromIntent
      (TemporalArbStrategy.buy centPair "yes" (48 / 100) (200 / (48 / 100))))).price := by
  have hemits : TemporalArbStrategy.buy centPair "yes" (48 / 100) (200 / (48 / 100)) ∈
      temporal.emits offTickText (fun _ => some "BTC")
        (.bookUpdate (quotedWith "0.47" "0.48" (Ledger.new 1000)) "m1" "yes") := by decide +kernel
  have hbook : temporal.bookPrice offTickText (TemporalArbStrategy.buy centPair "yes" (48 / 100) (200 / (48 / 100)))
      (.bookUpdate (quotedWith "0.47" "0.48" (Ledger.new 1000)) "m1" "yes") = some (48 / 100) := by decide +kernel
  refine (order_on_tick_iff hemits rfl (by decide +kernel) DualPolicy.new 0).mpr fun price hprice => ⟨48, ?_⟩
  have hask : price = 48 / 100 := Option.some.inj (hprice.symm.trans hbook)
  rw [hask]
  decide +kernel

/-- In a market with ticks of a cent the temporal strategy buys at 0.4567, and the maker strategy unwinds there at
shutdown. -/
theorem book_prices_off_tick :
    (offTickBuy ∈ temporal.emits offTickText (fun _ => some "BTC") askedOffTick ∧
        temporal.pairOf offTickBuy askedOffTick = some centPair ∧
        ¬OnTick centPair.tickSize (DualPolicy.new.toOrderParams 0 (IntentRef.fromIntent offTickBuy)).price) ∧
      offTickUnwind ∈ postedMaker.emits offTickText (fun _ => none) shutdownOffTick ∧
        postedMaker.pairOf offTickUnwind shutdownOffTick = some centPair ∧
        ¬OnTick centPair.tickSize (DualPolicy.new.toOrderParams 0 (IntentRef.fromIntent offTickUnwind)).price :=
  ⟨⟨by decide +kernel, rfl, not_onTick_of_centPair⟩, by decide +kernel, by decide +kernel, not_onTick_of_centPair⟩

end Strategy

end AllStrategies

end PolyBot
