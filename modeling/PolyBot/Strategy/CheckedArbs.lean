import PolyBot.General.CheckedDivision
import PolyBot.Strategy.MakerRebateArb
import PolyBot.Strategy.MathArb
import PolyBot.Strategy.TemporalArb

/-! The arbitrage strategies with divisions that stop at zero. -/

namespace PolyBot
open General.CheckedDivision General.KeyedStore

def roundUpToTickChecked (price tickSize : Decimal) : Option Decimal :=
  if tickSize = 0 then some price else (divide price tickSize).map fun ticks => ⌈ticks⌉ * tickSize

theorem roundUpToTickChecked_eq (price tickSize : Decimal) :
    roundUpToTickChecked price tickSize = some (roundUpToTick price tickSize) := by
  rw [roundUpToTickChecked, roundUpToTick]
  split
  · rfl
  · rename_i htick
    rw [(Exactly.divide price tickSize).through htick, Option.map_some]

namespace EdgeConfig
variable (parse : String → Option Decimal)

def estimateSlippageChecked (c : EdgeConfig) (yesBook noBook : BookSnapshot) (intendedSize : Decimal) :
    Option Decimal :=
  let depth := minDepth parse yesBook noBook
  if depth = 0 then some (1 / 10)
  else if depth < intendedSize then
    (divide (intendedSize - depth) depth).map fun excessRatio =>
      min (excessRatio * averageSpread parse (5 / 100) yesBook noBook * c.slippageFactor) (1 / 10)
  else some 0

theorem estimateSlippageChecked_eq (c : EdgeConfig) (yesBook noBook : BookSnapshot) (intendedSize : Decimal) :
    c.estimateSlippageChecked parse yesBook noBook intendedSize =
      some (c.estimateSlippage parse yesBook noBook intendedSize) := by
  rw [estimateSlippageChecked, estimateSlippage]
  split
  · rfl
  · rename_i hdepth
    rw [(Exactly.divide _ _).through hdepth]
    split <;> rfl

def calculateChecked (c : EdgeConfig) (yesBook noBook : BookSnapshot) (feeRateBps : ℕ) (intendedSize : Decimal) :
    Option EdgeCalculation :=
  let combinedCost := (yesBook.bestAsk parse).getD 1 + (noBook.bestAsk parse).getD 1
  let actualEdge := 1 - combinedCost
  let fees := c.calculateFees feeRateBps combinedCost
  (c.estimateSlippageChecked parse yesBook noBook intendedSize).map fun slippage =>
    let partialFillRisk := c.partialFillMargin parse yesBook noBook
    let penalty := spreadPenalty parse yesBook noBook
    let requiredEdge := max (fees + slippage + partialFillRisk + penalty) c.minEdge
    let maxSize := minDepth parse yesBook noBook
    { requiredEdge := requiredEdge
      actualEdge := actualEdge
      isProfitable := requiredEdge ≤ actualEdge ∧ intendedSize ≤ maxSize
      maxSize := maxSize
      components := ⟨fees, slippage, partialFillRisk, penalty⟩ }

theorem calculateChecked_eq (c : EdgeConfig) (yesBook noBook : BookSnapshot) (feeRateBps : ℕ) (intendedSize : Decimal) :
    c.calculateChecked parse yesBook noBook feeRateBps intendedSize =
      some (c.calculate parse yesBook noBook feeRateBps intendedSize) := by
  rw [calculateChecked, estimateSlippageChecked_eq]
  rfl

end EdgeConfig

namespace SizingLimits

def affordableChecked (usd combined : Decimal) : Option Decimal := if 0 < combined then divide usd combined else some 0

theorem affordableChecked_eq (usd combined : Decimal) :
    affordableChecked usd combined = some (affordable usd combined) := by
  rw [affordableChecked, affordable]
  split
  · rename_i hpos
    exact (Exactly.divide usd combined).through hpos.ne'
  · rfl

def tradeSizeChecked (lim : SizingLimits) (maxByBook currentExposure availableCash combined : Decimal) :
    Option Decimal := do
  let maxByExposure := (lim.maxTotalExposure - currentExposure) / 2
  let maxByBalance ← affordableChecked availableCash combined
  let maxByBet ← affordableChecked lim.maxBetUsd combined
  let capped := min (min (min (min maxByBook lim.maxPositionSize) maxByExposure) maxByBalance) maxByBet
  some (Decimal.truncDp 2 (max capped 0))

theorem tradeSizeChecked_eq (lim : SizingLimits) (maxByBook currentExposure availableCash combined : Decimal) :
    lim.tradeSizeChecked maxByBook currentExposure availableCash combined =
      some (lim.tradeSize maxByBook currentExposure availableCash combined) := by
  rw [tradeSizeChecked, affordableChecked_eq, affordableChecked_eq]
  rfl

def effectiveMinChecked (lim : SizingLimits) (yesPrice noPrice : Decimal) : Option Decimal :=
  let cheaper := min yesPrice noPrice
  let minByExchange := if 0 < cheaper then
      (divide EXCHANGE_MIN_ORDER_USDC cheaper).map fun size => (⌈size⌉ : Decimal)
    else some 1
  minByExchange.map fun size => max size lim.minPositionSize

theorem effectiveMinChecked_eq (lim : SizingLimits) (yesPrice noPrice : Decimal) :
    lim.effectiveMinChecked yesPrice noPrice = some (lim.effectiveMin yesPrice noPrice) := by
  rw [effectiveMinChecked, effectiveMin]
  split
  · rename_i hpos
    rw [(Exactly.divide _ _).through hpos.ne']
    rfl
  · rfl

end SizingLimits

namespace MathArbStrategy
variable (parse : String → Option Decimal)

def checkArbOpportunityChecked (s : MathArbStrategy) (pair : MarketPair) (ctx : StrategyContext) (uuid : String) :
    Option (Option (List OrderIntent × MathArbStrategy)) :=
  match ctx.books.getBook pair.yesTokenId, ctx.books.getBook pair.noTokenId with
  | some yesBook, some noBook =>
    if !yesBook.isTwoSided || !noBook.isTwoSided then some none
    else match s.edgeCalculator.quickCheck parse ctx.books pair.yesTokenId pair.noTokenId with
      | none => some none
      | some (yesAskRaw, noAskRaw, _) => do
        let yesAsk ← roundUpToTickChecked yesAskRaw pair.tickSize
        let noAsk ← roundUpToTickChecked noAskRaw pair.tickSize
        let combinedAsk := yesAsk + noAsk
        if (yesAsk ≠ yesAskRaw ∨ noAsk ≠ noAskRaw) ∧ (1 ≤ combinedAsk ∨ 1 - combinedAsk < s.config.minEdge) then
          some none
        else
          let edgeCalc ← s.edgeCalculator.calculateChecked parse yesBook noBook pair.feeRateBps
            s.config.limits.minPositionSize
          if edgeCalc.isProfitable = false then some none
          else
            let tradeSize ←
              s.config.limits.tradeSizeChecked edgeCalc.maxSize s.currentExposure ctx.availableCash combinedAsk
            let effectiveMin ← s.config.limits.effectiveMinChecked yesAsk noAsk
            if tradeSize < effectiveMin then some none
            else
              let totalNotional := combinedAsk * tradeSize
              if s.checkExposureLimit totalNotional = false then some none
              else
                let groupId := "arb-" ++ uuid
                some (some ([s.leg pair groupId pair.yesTokenId yesAsk tradeSize,
                    s.leg pair groupId pair.noTokenId noAsk tradeSize],
                  (s.recordTrade pair.conditionId ctx.now).addExposure totalNotional))
  | _, _ => some none

theorem checkArbOpportunityChecked_eq (s : MathArbStrategy) (pair : MarketPair) (ctx : StrategyContext)
    (uuid : String) :
    s.checkArbOpportunityChecked parse pair ctx uuid = some (s.checkArbOpportunity parse pair ctx uuid) := by
  rw [checkArbOpportunityChecked, checkArbOpportunity]
  cases ctx.books.getBook pair.yesTokenId with
  | none => rfl
  | some yesBook =>
    cases ctx.books.getBook pair.noTokenId with
    | none => rfl
    | some noBook =>
      dsimp only
      cases s.edgeCalculator.quickCheck parse ctx.books pair.yesTokenId pair.noTokenId with
      | none => split_ifs <;> rfl
      | some quotes =>
        obtain ⟨yesAskRaw, noAskRaw, edge⟩ := quotes
        simp only [roundUpToTickChecked_eq, EdgeConfig.calculateChecked_eq, SizingLimits.tradeSizeChecked_eq,
          SizingLimits.effectiveMinChecked_eq, Option.bind_eq_bind, Option.bind_some]
        split_ifs <;> rfl

def onBookUpdateChecked (s : MathArbStrategy) (marketId : ConditionId) (tokenId : TokenId) (ctx : StrategyContext)
    (uuid : String) : Option (List OrderIntent × MathArbStrategy) :=
  if s.enabled = false then some ([], s)
  else match s.registry.getByToken tokenId with
    | none => some ([], s)
    | some pair =>
      if pair.conditionId ≠ marketId then some ([], s)
      else if s.isOnCooldown marketId ctx.now then some ([], s)
      else (s.checkArbOpportunityChecked parse pair ctx uuid).map fun emitted => emitted.getD ([], s)

/-- All divisors of the two-sided strategy are guarded. -/
theorem onBookUpdateChecked_eq (s : MathArbStrategy) (marketId : ConditionId) (tokenId : TokenId)
    (ctx : StrategyContext) (uuid : String) :
    s.onBookUpdateChecked parse marketId tokenId ctx uuid = some (s.onBookUpdate parse marketId tokenId ctx uuid) := by
  rw [onBookUpdateChecked, onBookUpdate]
  cases s.registry.getByToken tokenId with
  | none => split_ifs <;> rfl
  | some pair =>
    dsimp only
    rw [checkArbOpportunityChecked_eq]
    split_ifs <;> rfl

end MathArbStrategy

namespace MakerRebateArbStrategy
variable (parse : String → Option Decimal)

def makerPriceChecked (bestAsk bestBid tickSize : Decimal) : Option Decimal :=
  let raw := max (bestAsk - tickSize) bestBid
  if tickSize = 0 then some raw else (divide raw tickSize).map fun ticks => ⌊ticks⌋ * tickSize

theorem makerPriceChecked_eq (bestAsk bestBid tickSize : Decimal) :
    makerPriceChecked bestAsk bestBid tickSize = some (makerPrice bestAsk bestBid tickSize) := by
  rw [makerPriceChecked, makerPrice]
  split
  · rfl
  · rename_i htick
    rw [(Exactly.divide _ _).through htick, Option.map_some]

def postedPricesChecked (pair : MarketPair) (yesBook noBook : BookSnapshot) : Option (Option (Decimal × Decimal)) :=
  early (yesBook.bestAsk parse) fun yesAsk =>
  early (yesBook.bestBid parse) fun yesBid =>
  early (noBook.bestAsk parse) fun noAsk =>
  early (noBook.bestBid parse) fun noBid => do
    let yesPost ← makerPriceChecked yesAsk yesBid pair.tickSize
    let noPost ← makerPriceChecked noAsk noBid pair.tickSize
    some (some (yesPost, noPost))

theorem postedPricesChecked_eq (pair : MarketPair) (yesBook noBook : BookSnapshot) :
    postedPricesChecked parse pair yesBook noBook = some (postedPrices parse pair yesBook noBook) := by
  rw [postedPricesChecked, postedPrices]
  refine early_eq fun yesAsk _ => early_eq fun yesBid _ => early_eq fun noAsk _ => early_eq fun noBid _ => ?_
  rw [makerPriceChecked_eq, makerPriceChecked_eq]
  rfl

def checkArbOpportunityChecked (s : MakerRebateArbStrategy) (pair : MarketPair) (ctx : StrategyContext)
    (uuid : String) : Option (Option (List OrderIntent × MakerRebateArbStrategy)) :=
  match ctx.books.getBook pair.yesTokenId, ctx.books.getBook pair.noTokenId with
  | some yesBook, some noBook =>
    if !yesBook.isTwoSided || !noBook.isTwoSided then some none
    else do
      match ← postedPricesChecked parse pair yesBook noBook with
      | none => some none
      | some (yesPost, noPost) =>
        let combinedCost := yesPost + noPost
        if 1 - combinedCost < s.config.minEdge then some none
        else
          let edgeCalc ← s.edgeCalculator.calculateChecked parse yesBook noBook pair.feeRateBps
            s.config.limits.minPositionSize
          if edgeCalc.isProfitable = false then some none
          else
            let tradeSize ←
              s.config.limits.tradeSizeChecked edgeCalc.maxSize s.currentExposure ctx.availableCash combinedCost
            let effectiveMin ← s.config.limits.effectiveMinChecked yesPost noPost
            if tradeSize < effectiveMin then some none
            else
              let totalNotional := combinedCost * tradeSize
              if s.config.limits.maxTotalExposure < s.currentExposure + totalNotional then some none
              else
                let groupId := "maker-arb-" ++ uuid
                some (some ([leg pair groupId pair.yesTokenId yesPost tradeSize,
                    leg pair groupId pair.noTokenId noPost tradeSize],
                  s.recordPosted pair tradeSize totalNotional ctx.now))
  | _, _ => some none

theorem checkArbOpportunityChecked_eq (s : MakerRebateArbStrategy) (pair : MarketPair) (ctx : StrategyContext)
    (uuid : String) :
    s.checkArbOpportunityChecked parse pair ctx uuid = some (s.checkArbOpportunity parse pair ctx uuid) := by
  rw [checkArbOpportunityChecked, checkArbOpportunity]
  cases ctx.books.getBook pair.yesTokenId with
  | none => rfl
  | some yesBook =>
    cases ctx.books.getBook pair.noTokenId with
    | none => rfl
    | some noBook =>
      dsimp only
      rw [postedPricesChecked_eq]
      cases postedPrices parse pair yesBook noBook with
      | none => split_ifs <;> rfl
      | some posts =>
        obtain ⟨yesPost, noPost⟩ := posts
        simp only [EdgeConfig.calculateChecked_eq, SizingLimits.tradeSizeChecked_eq,
          SizingLimits.effectiveMinChecked_eq, Option.bind_eq_bind, Option.bind_some]
        split_ifs <;> rfl

def onBookUpdateChecked (s : MakerRebateArbStrategy) (marketId : ConditionId) (tokenId : TokenId)
    (ctx : StrategyContext) (uuid : String) : Option (List OrderIntent × MakerRebateArbStrategy) :=
  if s.enabled = false then some ([], s)
  else match s.registry.getByToken tokenId with
    | none => some ([], s)
    | some pair =>
      if pair.conditionId ≠ marketId then some ([], s)
      else if s.hasPendingArb marketId then some ([], s)
      else if s.isOnCooldown marketId ctx.now then some ([], s)
      else (s.checkArbOpportunityChecked parse pair ctx uuid).map fun emitted => emitted.getD ([], s)

theorem onBookUpdateChecked_eq (s : MakerRebateArbStrategy) (marketId : ConditionId) (tokenId : TokenId)
    (ctx : StrategyContext) (uuid : String) :
    s.onBookUpdateChecked parse marketId tokenId ctx uuid = some (s.onBookUpdate parse marketId tokenId ctx uuid) := by
  rw [onBookUpdateChecked, onBookUpdate]
  cases s.registry.getByToken tokenId with
  | none => split_ifs <;> rfl
  | some pair =>
    dsimp only
    rw [checkArbOpportunityChecked_eq]
    split_ifs <;> rfl

end MakerRebateArbStrategy

namespace TemporalArbStrategy

def estimateFairYesChecked (s : TemporalArbStrategy) (changeBps : ℤ) : Option Decimal :=
  (divide (changeBps : Decimal) s.config.sensitivityBps).map fun adjustment =>
    min (max (1 / 2 + adjustment) (5 / 100)) (95 / 100)

def tradeSizeChecked (s : TemporalArbStrategy) (ask : Decimal) : Option Decimal :=
  (divide s.config.maxPositionSize ask).bind fun byPosition =>
  (divide s.maxByExposure ask).map fun byExposure => min (max (min byPosition byExposure) 0) 10000

def staleTokenAt (s : TemporalArbStrategy) (pair : MarketPair) (fairYes : Decimal) (changeBps : ℤ)
    (yesAsk noAsk : Decimal) : Option (TokenId × Decimal) :=
  if 0 < changeBps then
    if fairYes - s.config.minEdge ≤ yesAsk then none else some (pair.yesTokenId, yesAsk)
  else if 1 - fairYes - s.config.minEdge ≤ noAsk then none
  else some (pair.noTokenId, noAsk)

variable (parse : String → Option Decimal) (assetSymbol : MarketPair → Option String)

def checkOpportunityChecked (s : TemporalArbStrategy) (prices : ExternalPriceStore) (pair : MarketPair)
    (ctx : StrategyContext) : Option (Option (OrderIntent × TemporalArbStrategy)) :=
  early (assetSymbol pair) fun symbol =>
  early (prices.lookup symbol) fun ext =>
  require (ext.isFresh s.config.maxFeedAgeSecs ctx.now) <|
  require (s.config.thresholdBps ≤ |ext.changeBps|) <|
  (s.estimateFairYesChecked ext.changeBps).bind fun fairYes =>
  early (ctx.bestAsk parse pair.yesTokenId) fun yesAsk =>
  early (ctx.bestAsk parse pair.noTokenId) fun noAsk =>
  require (isOnCooldown s.lastTrade s.config.cooldownMs pair.conditionId ctx.now = false) <|
  early (s.staleTokenAt pair fairYes ext.changeBps yesAsk noAsk) fun (tokenId, ask) =>
  (s.tradeSizeChecked ask).bind fun size =>
  require (s.config.minPositionSize ≤ size * ask) <|
  some (some (buy pair tokenId ask size, { s with
    lastTrade := s.lastTrade.insert pair.conditionId ctx.now
    tradeCount := s.tradeCount + 1
    currentExposure := s.currentExposure + ask * size }))

/-- The move of the asset, if it is known, fresh and large enough to be acted on. -/
def moveOf (s : TemporalArbStrategy) (prices : ExternalPriceStore) (pair : MarketPair) (now : Instant) : Option ℤ := do
  let symbol ← assetSymbol pair
  let ext ← prices.lookup symbol
  guard (ext.isFresh s.config.maxFeedAgeSecs now)
  guard (s.config.thresholdBps ≤ |ext.changeBps|)
  some ext.changeBps

def askAfter (s : TemporalArbStrategy) (pair : MarketPair) (ctx : StrategyContext) (changeBps : ℤ) :
    Option Decimal := do
  let yesAsk ← ctx.bestAsk parse pair.yesTokenId
  let noAsk ← ctx.bestAsk parse pair.noTokenId
  guard (isOnCooldown s.lastTrade s.config.cooldownMs pair.conditionId ctx.now = false)
  let (_, ask) ← s.staleToken pair changeBps yesAsk noAsk
  some ask

theorem exactly_estimateFairYesChecked (s : TemporalArbStrategy) (changeBps : ℤ) :
    Exactly (s.estimateFairYesChecked changeBps) (s.estimateFairYes changeBps) (s.config.sensitivityBps ≠ 0) :=
  ((Exactly.divide _ _).map _).congr Int.cast_ne_zero

theorem exactly_tradeSizeChecked (s : TemporalArbStrategy) (ask : Decimal) :
    Exactly (s.tradeSizeChecked ask) (s.tradeSize ask) (ask ≠ 0) :=
  ((Exactly.divide _ ask).bind ((Exactly.divide _ ask).map _)).congr and_self_iff

/-- The sensitivity divides every move that is acted on, and an ask what is spent after it. -/
theorem exactly_checkOpportunityChecked (s : TemporalArbStrategy) (prices : ExternalPriceStore) (pair : MarketPair)
    (ctx : StrategyContext) :
    Exactly (s.checkOpportunityChecked parse assetSymbol prices pair ctx)
      (s.checkOpportunity parse assetSymbol prices pair ctx)
      (∀ changeBps ∈ s.moveOf assetSymbol prices pair ctx.now,
        s.config.sensitivityBps ≠ 0 ∧ ∀ ask ∈ s.askAfter parse pair ctx changeBps, ask ≠ 0) := by
  rw [checkOpportunityChecked, checkOpportunity, moveOf]
  refine .early fun symbol _ => .early fun ext _ => .require fun _ => .require fun _ => .reached ?_
  refine (s.exactly_estimateFairYesChecked ext.changeBps).bind ?_
  rw [askAfter]
  refine .early fun yesAsk _ => .early fun noAsk _ => .require fun _ => .early ?_
  rintro ⟨tokenId, ask⟩ -
  exact .reached ((s.exactly_tradeSizeChecked ask).andThen (require_eq fun _ => rfl))

def onBookUpdateChecked (s : TemporalArbStrategy) (registry : MarketPairRegistry) (prices : ExternalPriceStore)
    (marketId : ConditionId) (tokenId : TokenId) (ctx : StrategyContext) :
    Option (List OrderIntent × TemporalArbStrategy) :=
  if s.enabled = false then some ([], s)
  else match registry.getByToken tokenId with
    | none => some ([], s)
    | some pair =>
      if pair.conditionId ≠ marketId then some ([], s)
      else if (assetSymbol pair).isNone then some ([], s)
      else (s.checkOpportunityChecked parse assetSymbol prices pair ctx).map fun
        | none => ([], s)
        | some (intent, s') => ([intent], s')

/-- No move that is acted on meets a sensitivity of zero, and no purchase an ask of zero. -/
def NonzeroDivisors (s : TemporalArbStrategy) (registry : MarketPairRegistry) (prices : ExternalPriceStore)
    (marketId : ConditionId) (tokenId : TokenId) (ctx : StrategyContext) : Prop :=
  s.enabled = true → ∀ pair ∈ registry.getByToken tokenId, pair.conditionId = marketId →
    ∀ changeBps ∈ s.moveOf assetSymbol prices pair ctx.now,
      s.config.sensitivityBps ≠ 0 ∧ ∀ ask ∈ s.askAfter parse pair ctx changeBps, ask ≠ 0

theorem exactly_onBookUpdateChecked (s : TemporalArbStrategy) (registry : MarketPairRegistry)
    (prices : ExternalPriceStore) (marketId : ConditionId) (tokenId : TokenId) (ctx : StrategyContext) :
    Exactly (s.onBookUpdateChecked parse assetSymbol registry prices marketId tokenId ctx)
      (s.onBookUpdate parse assetSymbol registry prices marketId tokenId ctx)
      (s.NonzeroDivisors parse assetSymbol registry prices marketId tokenId ctx) := by
  rw [onBookUpdateChecked, onBookUpdate, NonzeroDivisors, ← Bool.not_eq_false]
  refine .otherwise fun _ => ?_
  cases registry.getByToken tokenId with
  | none => exact .nothing rfl
  | some pair =>
    refine .reached ((Exactly.otherwise fun _ => ?_).congr (imp_congr_left not_not))
    have hcheck := s.exactly_checkOpportunityChecked parse assetSymbol prices pair ctx
    cases hsymbol : assetSymbol pair with
    | none =>
      refine .of_eq rfl fun changeBps hmove => ?_
      rw [moveOf, hsymbol] at hmove
      cases hmove
    | some symbol => exact hcheck.map _

end TemporalArbStrategy

end PolyBot
