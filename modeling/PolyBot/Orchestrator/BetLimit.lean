import PolyBot.General.AdditiveRuns
import PolyBot.Orchestrator.Handlers
import PolyBot.Strategy.BetCaps

/-! The size of the orders over runs of the bot. No strategy reads the current bet: each keeps to a cap of its own, and
the unwinds of the maker strategy to none. -/

namespace PolyBot.Bot.BetLimit
open General.AdditiveRuns General.KeyedStore AllStrategies Handlers Handlers.State

variable {F : Type*} (parse : String → Option Decimal) (assetSymbol : MarketPair → Option String)
  (tryFrom : F → Option Decimal)

def currentBet (s : State) : Decimal := s.controls.runtimeConfig.maxBetUsd

/-- No intent that an event executes is worth more than the bet allowed when it arrives. -/
def WithinBet (s : State) (event : Event F) : Prop :=
  ∀ i ∈ s.executed parse assetSymbol tryFrom event, i.notional ≤ currentBet s

def SaleWithin (ctx : StrategyContext) (bet : Decimal) (tokenId : TokenId) : Prop :=
  ∀ bid, ctx.bestBid parse tokenId = some bid → bid * (ctx.position tokenId).shares ≤ bet

def EntryKeepsToBet (s : State) (marketId : ConditionId) (tokenId : TokenId) (moment : Moment)
    (strategy : Strategy) : Prop :=
  (strategy.onBookUpdate parse assetSymbol (s.surroundings moment) marketId tokenId).1 ≠ [] →
    (s.context moment.now).PricesNonneg parse ∧ strategy.betCap ≤ currentBet s

def ExpiryKeepsToBet (ctx : StrategyContext) (bet : Decimal) (p : PendingArb) : Prop :=
  let yes := (ctx.position p.yesTokenId).shares
  let no := (ctx.position p.noTokenId).shares
  (p.size / 2 ≤ yes ∧ no < p.size / 2 → SaleWithin parse ctx bet p.yesTokenId) ∧
    (yes < p.size / 2 ∧ p.size / 2 ≤ no → SaleWithin parse ctx bet p.noTokenId)

def ShutdownKeepsToBet (ctx : StrategyContext) (bet : Decimal) (p : PendingArb) : Prop :=
  ∀ tokenId, tokenId = p.yesTokenId ∨ tokenId = p.noTokenId →
    0 < (ctx.position tokenId).shares → SaleWithin parse ctx bet tokenId

/-- What the strategies would order on an event, their caps and the holdings of the maker strategies keep within the
current bet. -/
def KeepsToBet (s : State) : Event F → Prop
  | .marketMessage (.Book msg) moment =>
    s.controls.isPaused = false → ∀ reg ∈ s.router, reg.evaluates msg.subject.1 = true →
      EntryKeepsToBet parse assetSymbol { s with books := s.books.take parse msg } msg.subject.1 msg.subject.2 moment
        reg.strategy
  | .tick moment =>
    ∀ reg ∈ s.router, reg.isEnabled = true → ∀ maker, reg.strategy = .makerRebateArb maker →
      ∀ p ∈ maker.expiredArbs moment.now, ExpiryKeepsToBet parse (s.context moment.now) (currentBet s) p
  | .shutdown moment =>
    ∀ reg ∈ s.router, ∀ maker, reg.strategy = .makerRebateArb maker →
      ∀ p ∈ values maker.pendingArbs, ShutdownKeepsToBet parse (s.context moment.now) (currentBet s) p
  | _ => True

variable {parse assetSymbol tryFrom} {s : State}

theorem notional_unwindLeg_le {ctx : StrategyContext} {bet : Decimal} {p : PendingArb} {tokenId : TokenId}
    {i : OrderIntent} (hsale : SaleWithin parse ctx bet tokenId)
    (h : i ∈ MakerRebateArbStrategy.unwindLeg parse ctx p tokenId (ctx.position tokenId).shares) :
    i.notional ≤ bet := by
  obtain ⟨bid, hbid, rfl⟩ := (MakerRebateArbStrategy.mem_unwindLeg_iff parse).mp h
  exact hsale bid hbid

theorem notional_expirySales_le {ctx : StrategyContext} {bet : Decimal} {p : PendingArb} {i : OrderIntent}
    (hkeeps : ExpiryKeepsToBet parse ctx bet p) (h : i ∈ MakerRebateArbStrategy.expirySales parse ctx p) :
    i.notional ≤ bet := by
  rcases MakerRebateArbStrategy.mem_expirySales_iff.mp h with ⟨hyes, hleg⟩ | ⟨hno, hleg⟩
  · exact notional_unwindLeg_le (hkeeps.1 hyes) hleg
  · exact notional_unwindLeg_le (hkeeps.2 hno) hleg

theorem notional_shutdownLeg_le {ctx : StrategyContext} {bet : Decimal} {p : PendingArb} {tokenId : TokenId}
    {i : OrderIntent} (hkeeps : 0 < (ctx.position tokenId).shares → SaleWithin parse ctx bet tokenId)
    (h : i ∈ MakerRebateArbStrategy.shutdownLeg parse ctx p tokenId) : i.notional ≤ bet := by
  unfold MakerRebateArbStrategy.shutdownLeg at h
  dsimp only at h
  split_ifs at h with hheld
  · exact notional_unwindLeg_le (hkeeps hheld) h
  · cases h

theorem routeBookUpdate_within {marketId : ConditionId} {tokenId : TokenId} {moment : Moment} {i : OrderIntent}
    (hkeeps : s.controls.isPaused = false → ∀ reg ∈ s.router, reg.evaluates marketId = true →
      EntryKeepsToBet parse assetSymbol s marketId tokenId moment reg.strategy)
    (h : i ∈ (s.routeBookUpdate parse assetSymbol marketId tokenId moment).1) : i.notional ≤ currentBet s := by
  unfold routeBookUpdate at h
  split_ifs at h with hpaused
  · cases h
  · obtain ⟨reg, hreg, hevaluates, hi⟩ := AllStrategies.StrategyRouter.exists_of_mem_dispatch h
    obtain ⟨hprices, hcap⟩ := hkeeps (Bool.eq_false_iff.mpr hpaused) reg hreg hevaluates (List.ne_nil_of_mem hi)
    exact (Strategy.onBookUpdate_worth_le hprices hi).trans hcap

theorem handleTick_within (huntracked : ∀ reg ∈ s.router, reg.strategy.Untracked) {moment : Moment} {i : OrderIntent}
    (hkeeps : KeepsToBet parse assetSymbol s (.tick moment : Event F)) (h : i ∈ (s.handleTick parse moment).1) :
    i.notional ≤ currentBet s := by
  obtain ⟨reg, hreg, henabled, hi⟩ := AllStrategies.StrategyRouter.exists_of_mem_dispatch h
  rcases ((huntracked reg hreg).onTick parse (s.surroundings moment)).2 with hnone | ⟨maker, hmaker⟩
  · rw [hnone] at hi
    cases hi
  · rw [AllStrategies.RegisteredStrategy.onTick_maker henabled hmaker (s.surroundings moment)] at hi
    obtain ⟨p, hp, hi⟩ := List.mem_flatMap.mp hi
    exact notional_expirySales_le (hkeeps reg hreg henabled maker hmaker p hp) hi

theorem onShutdown_within {moment : Moment} {i : OrderIntent}
    (hkeeps : KeepsToBet parse assetSymbol s (.shutdown moment : Event F))
    (h : i ∈ s.router.onShutdown parse (s.context moment.now)) : i.notional ≤ currentBet s := by
  obtain ⟨reg, hreg, hi⟩ := List.mem_flatMap.mp h
  cases hstrategy : reg.strategy with
  | makerRebateArb maker =>
    rw [hstrategy] at hi
    obtain ⟨p, hp, hi⟩ := List.mem_flatMap.mp hi
    have hpair := hkeeps reg hreg maker hstrategy p hp
    rcases List.mem_append.mp hi with hyes | hno
    · exact notional_shutdownLeg_le (hpair _ (.inl rfl)) hyes
    · exact notional_shutdownLeg_le (hpair _ (.inr rfl)) hno
  | mathArb x | temporalArb x | exit x =>
    rw [hstrategy] at hi
    cases hi

/-- The step lemma. -/
theorem withinBet_of_keepsToBet (huntracked : ∀ reg ∈ s.router, reg.strategy.Untracked) {event : Event F}
    (hkeeps : s.Admits event.now → KeepsToBet parse assetSymbol s event) :
    WithinBet parse assetSymbol tryFrom s event := by
  intro i hi
  obtain ⟨hgenerated, hadmits⟩ := mem_executed_iff.mp hi
  have hkeeps := hkeeps hadmits
  cases event with
  | marketMessage msg moment =>
    cases msg with
    | Connected | Reconnecting => cases hgenerated
    | Book msg => exact routeBookUpdate_within (s := { s with books := s.books.take parse msg }) hkeeps hgenerated
  | tick moment => exact handleTick_within huntracked hkeeps hgenerated
  | shutdown moment => exact onShutdown_within hkeeps hgenerated
  | _ => cases hgenerated

/-- In a run of a bot from its start in which, whenever intents are let through, the strategies that find something to
buy have caps within the current bet and the legs to be unwound are worth no more, no order exceeds the current bet. -/
theorem orders_within_current_bet (hbuilt : s.Built) {events : List (Event F)}
    (hkeeps : Throughout (step parse assetSymbol tryFrom)
      (fun s event => s.Admits event.now → KeepsToBet parse assetSymbol s event) s events) :
    ∀ before event, before ++ [event] <+: events →
      WithinBet parse assetSymbol tryFrom (before.foldl (step parse assetSymbol tryFrom) s) event := by
  rw [← throughout_iff_prefixes]
  exact throughout_imp (fun s => ∀ reg ∈ s.router, reg.strategy.Untracked)
    (fun s event h _ => untracked_step h event) (fun s event h hok => withinBet_of_keepsToBet h hok)
    hbuilt.untracked hkeeps

private def amountOf (text : String) : Option Decimal :=
  if text = "0.48" then some (48 / 100)
  else if text = "0.49" then some (49 / 100)
  else if text = "1000" then some 1000
  else none

private def fiveDollars : Config :=
  { Config.default with maxBetUsd := 5, mathArbEnabled := false, makerRebateEnabled := true }

private def hundredDollars : Config :=
  { Config.default with mathArbEnabled := false, temporalArbEnabled := true }

private def market : MarketPairRegistry := MarketPairRegistry.new.register (.new "m1" "up" "down")

private def botOf (config : Config) : State := .new config 1000 market

private def quoteOf (tokenId : TokenId) : Event Unit :=
  .marketMessage (.Book (.snapshot tokenId "m1" [⟨"0.48", "1000"⟩] [⟨"0.49", "1000"⟩] none none))
    ⟨0, 0, "1", (∅ : ExternalPriceStore).insert "BTC" ⟨0, 500⟩⟩

private def stepOf : State → Event Unit → State := step amountOf (fun _ => some "BTC") fun _ => some 1

private theorem amountOf_nonneg (text : String) (price : Decimal) (h : amountOf text = some price) : 0 ≤ price := by
  unfold amountOf at h
  split_ifs at h <;> cases h <;> norm_num

/-- The maker strategy posts its pair within the configured bet. -/
theorem posted_pair_within_bet :
    ((stepOf (botOf fiveDollars) (quoteOf "up")).executed amountOf (fun _ => some "BTC") (fun _ => some 1)
        (quoteOf "down")).length = 2 ∧
      WithinBet amountOf (fun _ => some "BTC") (fun _ => some 1)
        ([quoteOf "up"].foldl (step amountOf (fun _ => some "BTC") fun _ => some 1) (botOf fiveDollars))
        (quoteOf "down") := by
  have hbefore : ∀ reg ∈ (botOf fiveDollars).router, reg.strategy.betCap ≤ currentBet (botOf fiveDollars) := by
    decide +kernel
  have hafter : ∀ reg ∈ (stepOf (botOf fiveDollars) (quoteOf "up")).router,
      reg.strategy.betCap ≤ currentBet (stepOf (botOf fiveDollars) (quoteOf "up")) := by
    decide +kernel
  have hkeeps : Throughout (step amountOf (fun _ => some "BTC") fun _ => some 1)
      (fun s event => s.Admits event.now → KeepsToBet amountOf (fun _ => some "BTC") s event) (botOf fiveDollars)
      [quoteOf "up", quoteOf "down"] := by
    refine ⟨?_, ?_, trivial⟩
    · intro _ _ reg hreg _ _
      exact ⟨.of_parse amountOf_nonneg _, hbefore reg hreg⟩
    · intro _ _ reg hreg _ _
      exact ⟨.of_parse amountOf_nonneg _, hafter reg hreg⟩
  exact ⟨by decide +kernel,
    orders_within_current_bet (built_new fiveDollars 1000 market) hkeeps [quoteOf "up"] (quoteOf "down")
      List.prefix_rfl⟩

private def temporalBot : State := stepOf (botOf hundredDollars) (quoteOf "up")

private def patchedBot : State :=
  [.applyPatch ⟨some (), none, none, none, none, none, none, none, none⟩, quoteOf "up"].foldl stepOf
    (botOf fiveDollars)

/-- The temporal strategy buys for 200 dollars with a bet of 100 dollars. After a patch to one dollar, the maker
strategy posts two legs of about 2.50 dollars as before. -/
theorem orders_exceed_current_bet :
    ((botOf hundredDollars).Built ∧ currentBet temporalBot = 100 ∧
      (temporalBot.executed amountOf (fun _ => some "BTC") (fun _ => some 1) (quoteOf "down")).map
        (fun i => (i.side, i.tokenId, i.notional)) = [(.Buy, "up", 200)] ∧
      ¬WithinBet amountOf (fun _ => some "BTC") (fun _ => some 1) temporalBot (quoteOf "down")) ∧
    ((botOf fiveDollars).Built ∧ currentBet patchedBot = 1 ∧
      (patchedBot.executed amountOf (fun _ => some "BTC") (fun _ => some 1) (quoteOf "down")).map
        (fun i => (i.side, i.tokenId, i.notional)) = [(.Buy, "up", 2496 / 1000), (.Buy, "down", 2496 / 1000)] ∧
      ¬WithinBet amountOf (fun _ => some "BTC") (fun _ => some 1) patchedBot (quoteOf "down")) := by
  have htemporal : ∃ i ∈ temporalBot.executed amountOf (fun _ => some "BTC") (fun _ => some 1) (quoteOf "down"),
      currentBet temporalBot < i.notional := by
    decide +kernel
  have hpatched : ∃ i ∈ patchedBot.executed amountOf (fun _ => some "BTC") (fun _ => some 1) (quoteOf "down"),
      currentBet patchedBot < i.notional := by
    decide +kernel
  obtain ⟨i, hi, hlarge⟩ := htemporal
  obtain ⟨j, hj, hlargeToo⟩ := hpatched
  exact ⟨⟨built_new hundredDollars 1000 market, by decide +kernel, by decide +kernel, fun h => (h i hi).not_gt hlarge⟩,
    built_new fiveDollars 1000 market, by decide +kernel, by decide +kernel, fun h => (h j hj).not_gt hlargeToo⟩

end PolyBot.Bot.BetLimit
