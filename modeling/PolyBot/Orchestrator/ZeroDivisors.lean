import PolyBot.Strategy.CheckedArbs
import PolyBot.Strategy.CheckedDivergences
import PolyBot.Strategy.CheckedLateEntry
import PolyBot.Websocket.CryptoIntervals

/-! The divisions by zero that stop the bot: over any run of a strategy, and when discovery rounds the current time. -/

namespace PolyBot
open General.CheckedDivision General.KeyedStore

namespace ExitStrategy
variable (parse : String → Option Decimal) (registry : MarketPairRegistry)

def onBookUpdateChecked (tokenId : TokenId) (ctx : StrategyContext) (utcNow : ℕ) :
    ExitStrategy → Option (List OrderIntent × ExitStrategy)
  | contrarian s => (s.onBookUpdateChecked parse registry tokenId ctx).map (Prod.map id contrarian)
  | tboTrend s => (s.onBookUpdateChecked parse registry tokenId ctx).map (Prod.map id tboTrend)
  | tbtDivergence s => (s.onBookUpdateChecked parse registry tokenId ctx).map (Prod.map id tbtDivergence)
  | lateEntry s => (s.onBookUpdateChecked parse registry tokenId ctx utcNow).map (Prod.map id lateEntry)

/-- A tick of the late entry does not divide. -/
def onTickChecked (ctx : StrategyContext) : ExitStrategy → Option (List OrderIntent × ExitStrategy)
  | contrarian s => (s.onTickChecked parse registry ctx).map (Prod.map id contrarian)
  | tboTrend s => (s.onTickChecked parse registry ctx).map (Prod.map id tboTrend)
  | tbtDivergence s => (s.onTickChecked parse registry ctx).map (Prod.map id tbtDivergence)
  | lateEntry s => some ((s.onTick parse registry ctx).map id lateEntry)

def NonzeroDivisors (tokenId : TokenId) (ctx : StrategyContext) (utcNow : ℕ) : ExitStrategy → Prop
  | contrarian s => s.NonzeroDivisors parse registry tokenId ctx
  | tboTrend s => s.NonzeroDivisors parse registry tokenId ctx
  | tbtDivergence s => s.NonzeroDivisors parse registry tokenId ctx
  | lateEntry s => s.NonzeroDivisors parse registry tokenId ctx utcNow

theorem exactly_onBookUpdateChecked (s : ExitStrategy) (tokenId : TokenId) (ctx : StrategyContext) (utcNow : ℕ) :
    Exactly (s.onBookUpdateChecked parse registry tokenId ctx utcNow)
      (s.onBookUpdate parse registry tokenId ctx utcNow) (s.NonzeroDivisors parse registry tokenId ctx utcNow) := by
  cases s with
  | contrarian s => exact (s.exactly_onBookUpdateChecked parse registry tokenId ctx).map _
  | tboTrend s => exact (s.exactly_onBookUpdateChecked parse registry tokenId ctx).map _
  | tbtDivergence s => exact (s.exactly_onBookUpdateChecked parse registry tokenId ctx).map _
  | lateEntry s => exact (s.exactly_onBookUpdateChecked parse registry tokenId ctx utcNow).map _

theorem onTickChecked_eq (s : ExitStrategy) (ctx : StrategyContext) :
    s.onTickChecked parse registry ctx = some (s.onTick parse registry ctx) := by
  cases s with
  | contrarian s => rw [onTickChecked, s.onTickChecked_eq, Option.map_some, onTick]
  | tboTrend s => rw [onTickChecked, s.onTickChecked_eq, Option.map_some, onTick]
  | tbtDivergence s => rw [onTickChecked, s.onTickChecked_eq, Option.map_some, onTick]
  | lateEntry s => rfl

end ExitStrategy

namespace AllStrategies.Strategy
variable (parse : String → Option Decimal) (assetSymbol : MarketPair → Option String)

def onBookUpdateChecked (around : Surroundings) (marketId : ConditionId) (tokenId : TokenId) :
    Strategy → Option (List OrderIntent × Strategy)
  | mathArb s =>
    ({ s with registry := around.registry }.onBookUpdateChecked parse marketId tokenId around.ctx around.uuid).map
      (Prod.map id mathArb)
  | makerRebateArb s =>
    ({ s with registry := around.registry }.onBookUpdateChecked parse marketId tokenId around.ctx around.uuid).map
      (Prod.map id makerRebateArb)
  | temporalArb s =>
    (s.onBookUpdateChecked parse assetSymbol around.registry around.prices marketId tokenId around.ctx).map
      (Prod.map id temporalArb)
  | exit s => (s.onBookUpdateChecked parse around.registry tokenId around.ctx around.utcNow).map (Prod.map id exit)

/-- A tick of the maker strategy divides by two only, and the other arbitrage strategies do nothing on ticks. -/
def onTickChecked (around : Surroundings) : Strategy → Option (List OrderIntent × Strategy)
  | mathArb s => some ((s.onTick around.ctx).map id mathArb)
  | makerRebateArb s => some ((s.onTick parse around.ctx).map id makerRebateArb)
  | temporalArb s => some ([], temporalArb s)
  | exit s => (s.onTickChecked parse around.registry around.ctx).map (Prod.map id exit)

def handleChecked (s : Strategy) : StrategyEvent → Option (List OrderIntent × Strategy)
  | .bookUpdate around marketId tokenId => s.onBookUpdateChecked parse assetSymbol around marketId tokenId
  | .fill f now => some ([], s.onFill f now)
  | .tick around => s.onTickChecked parse around

def stepChecked (s : Strategy) (e : StrategyEvent) : Option Strategy :=
  (s.handleChecked parse assetSymbol e).map Prod.snd

def runChecked (s : Strategy) (events : List StrategyEvent) : Option Strategy :=
  events.foldlM (stepChecked parse assetSymbol) s

/-- No divisor that the event reaches is zero. The two-sided arbitrage strategies guard all of theirs, and so do the
ticks. -/
def NonzeroDivisors : Strategy → StrategyEvent → Prop
  | temporalArb s, .bookUpdate around marketId tokenId =>
    s.NonzeroDivisors parse assetSymbol around.registry around.prices marketId tokenId around.ctx
  | exit s, .bookUpdate around _ tokenId => s.NonzeroDivisors parse around.registry tokenId around.ctx around.utcNow
  | _, _ => True

variable {parse assetSymbol}

theorem exactly_onBookUpdateChecked (s : Strategy) (around : Surroundings) (marketId : ConditionId)
    (tokenId : TokenId) :
    Exactly (s.onBookUpdateChecked parse assetSymbol around marketId tokenId)
      (s.onBookUpdate parse assetSymbol around marketId tokenId)
      (s.NonzeroDivisors parse assetSymbol (.bookUpdate around marketId tokenId)) := by
  cases s with
  | mathArb s =>
    refine .of_eq ?_ trivial
    rw [onBookUpdateChecked, MathArbStrategy.onBookUpdateChecked_eq, Option.map_some, onBookUpdate]
  | makerRebateArb s =>
    refine .of_eq ?_ trivial
    rw [onBookUpdateChecked, MakerRebateArbStrategy.onBookUpdateChecked_eq, Option.map_some, onBookUpdate]
  | temporalArb s =>
    exact (s.exactly_onBookUpdateChecked parse assetSymbol around.registry around.prices marketId tokenId
      around.ctx).map _
  | exit s => exact (s.exactly_onBookUpdateChecked parse around.registry tokenId around.ctx around.utcNow).map _

theorem onTickChecked_eq (s : Strategy) (around : Surroundings) :
    s.onTickChecked parse around = some (s.onTick parse around) := by
  cases s with
  | mathArb s | makerRebateArb s | temporalArb s => rfl
  | exit s => rw [onTickChecked, ExitStrategy.onTickChecked_eq, Option.map_some, onTick]

theorem exactly_handleChecked (s : Strategy) (e : StrategyEvent) :
    Exactly (s.handleChecked parse assetSymbol e) (s.handle parse assetSymbol e)
      (s.NonzeroDivisors parse assetSymbol e) := by
  cases e with
  | bookUpdate around marketId tokenId => exact s.exactly_onBookUpdateChecked around marketId tokenId
  | fill f now => exact .of_eq rfl (by cases s <;> trivial)
  | tick around => exact .of_eq (s.onTickChecked_eq around) (by cases s <;> trivial)

theorem exactly_runChecked (s : Strategy) (events : List StrategyEvent) :
    Exactly (s.runChecked parse assetSymbol events) (s.run parse assetSymbol events)
      (∀ earlier e later, events = earlier ++ e :: later →
        (s.run parse assetSymbol earlier).NonzeroDivisors parse assetSymbol e) :=
  .run (fun s e => (s.exactly_handleChecked e).map Prod.snd) s events

/-- Nothing divides by zero exactly if no event of the run comes to a divisor that is zero in the state before it, and
the time frame is not one of no seconds. -/
theorem no_division_by_zero_iff (parse : String → Option Decimal) (assetSymbol : MarketPair → Option String)
    (s : Strategy) (events : List StrategyEvent) (now : ℕ) (timeframe : String) :
    s.runChecked parse assetSymbol events = some (s.run parse assetSymbol events) ∧
        currentIntervalChecked now (timeframeToSecs timeframe) =
          some (currentInterval now (timeframeToSecs timeframe)) ↔
      (∀ earlier e later, events = earlier ++ e :: later →
        (s.run parse assetSymbol earlier).NonzeroDivisors parse assetSymbol e) ∧ ¬ZeroTimeframe timeframe :=
  and_congr (s.exactly_runChecked events).eq_some_iff (exactly_currentIntervalChecked now timeframe).eq_some_iff

private def freeQuote (text : String) : Option Decimal :=
  if text = "0" then some 0 else if text = "0.50" then some (1 / 2) else if text = "100" then some 100 else none

private def freeToken : Surroundings where
  registry := MarketPairRegistry.new.register (MarketPair.new "m1" "yes" "no")
  prices := (∅ : ExternalPriceStore).insert "BTC" ⟨0, 200⟩
  ctx := {
    books := ((∅ : OrderBookState).insert "yes" ⟨"yes", "m1", [], [⟨"0", "100"⟩], none, none⟩).insert "no"
      ⟨"no", "m1", [], [⟨"0.50", "100"⟩], none, none⟩
    ledger := Ledger.new 1000
    now := 0 }
  utcNow := 0
  uuid := "u1"

/-- The size of a purchase is divided by the ask of zero; discovery at a time frame of no minutes divides as well. -/
theorem free_token_stops_the_bot :
    (temporalArb (.withConfig .default)).runChecked freeQuote (fun _ => some "BTC")
        [.bookUpdate freeToken "m1" "yes"] = none ∧
      currentIntervalChecked 1700000000 (timeframeToSecs "0m") = none := by
  decide +kernel

end AllStrategies.Strategy

end PolyBot
