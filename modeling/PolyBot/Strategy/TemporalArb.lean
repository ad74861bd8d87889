import PolyBot.Strategy.ArbSizing
import PolyBot.Strategy.Exits
import PolyBot.Strategy.MarketPair

/-! The temporal arbitrage strategy: buys the token that the market has not repriced after a move of its asset on an
external exchange. -/

namespace PolyBot
open General.KeyedStore

/-- What the external feed tells of an asset: when it was heard of, and its move in basis points. -/
structure ExternalPriceRecord where
  updatedAt : Instant
  changeBps : ℤ
  deriving DecidableEq, Repr

def ExternalPriceRecord.isFresh (r : ExternalPriceRecord) (maxAgeSecs : ℕ) (now : Instant) : Bool :=
  r.updatedAt.elapsedSecs now < maxAgeSecs

abbrev ExternalPriceStore := Store String ExternalPriceRecord

structure TemporalArbConfig where
  thresholdBps : ℤ
  sensitivityBps : ℤ
  minEdge : Decimal
  maxPositionSize : Decimal
  minPositionSize : Decimal
  maxTotalExposure : Decimal
  cooldownMs : ℕ
  maxFeedAgeSecs : ℕ
  deriving DecidableEq, Repr

def TemporalArbConfig.default : TemporalArbConfig := ⟨100, 2000, 3 / 100, 200, 10, 1000, 5000, 10⟩

structure TemporalArbStrategy where
  config : TemporalArbConfig
  enabled : Bool
  lastTrade : Store ConditionId Instant
  tradeCount : ℕ
  currentExposure : Decimal

namespace TemporalArbStrategy

def name : String := "TemporalArbStrategy"

def withConfig (config : TemporalArbConfig) : TemporalArbStrategy := ⟨config, true, ∅, 0, 0⟩

def estimateFairYes (s : TemporalArbStrategy) (changeBps : ℤ) : Decimal :=
  min (max (1 / 2 + (changeBps : Decimal) / s.config.sensitivityBps) (5 / 100)) (95 / 100)

def maxByExposure (s : TemporalArbStrategy) : Decimal := max (s.config.maxTotalExposure - s.currentExposure) 0

def tradeSize (s : TemporalArbStrategy) (ask : Decimal) : Decimal :=
  min (max (min (s.config.maxPositionSize / ask) (s.maxByExposure / ask)) 0) 10000

def staleToken (s : TemporalArbStrategy) (pair : MarketPair) (changeBps : ℤ) (yesAsk noAsk : Decimal) :
    Option (TokenId × Decimal) :=
  let fairYes := s.estimateFairYes changeBps
  if 0 < changeBps then
    if fairYes - s.config.minEdge ≤ yesAsk then none else some (pair.yesTokenId, yesAsk)
  else if 1 - fairYes - s.config.minEdge ≤ noAsk then none
  else some (pair.noTokenId, noAsk)

def buy (pair : MarketPair) (tokenId : TokenId) (ask size : Decimal) : OrderIntent :=
  (OrderIntent.new pair.conditionId tokenId .Buy ask size .Immediate name).withPriority 95

variable (parse : String → Option Decimal) (assetSymbol : MarketPair → Option String)

def checkOpportunity (s : TemporalArbStrategy) (prices : ExternalPriceStore) (pair : MarketPair)
    (ctx : StrategyContext) : Option (OrderIntent × TemporalArbStrategy) := do
  let symbol ← assetSymbol pair
  let ext ← prices.lookup symbol
  guard (ext.isFresh s.config.maxFeedAgeSecs ctx.now)
  guard (s.config.thresholdBps ≤ |ext.changeBps|)
  let yesAsk ← ctx.bestAsk parse pair.yesTokenId
  let noAsk ← ctx.bestAsk parse pair.noTokenId
  guard (isOnCooldown s.lastTrade s.config.cooldownMs pair.conditionId ctx.now = false)
  let (tokenId, ask) ← s.staleToken pair ext.changeBps yesAsk noAsk
  let size := s.tradeSize ask
  guard (s.config.minPositionSize ≤ size * ask)
  pure (buy pair tokenId ask size, { s with
    lastTrade := s.lastTrade.insert pair.conditionId ctx.now
    tradeCount := s.tradeCount + 1
    currentExposure := s.currentExposure + ask * size })

def onBookUpdate (s : TemporalArbStrategy) (registry : MarketPairRegistry) (prices : ExternalPriceStore)
    (marketId : ConditionId) (tokenId : TokenId) (ctx : StrategyContext) : List OrderIntent × TemporalArbStrategy :=
  if s.enabled = false then ([], s)
  else match registry.getByToken tokenId with
    | none => ([], s)
    | some pair =>
      if pair.conditionId ≠ marketId then ([], s)
      else if (assetSymbol pair).isNone then ([], s)
      else match s.checkOpportunity parse assetSymbol prices pair ctx with
        | none => ([], s)
        | some (intent, s') => ([intent], s')

def onFill (s : TemporalArbStrategy) (f : Fill) : TemporalArbStrategy :=
  match f.side with
  | .Sell => { s with currentExposure := max (s.currentExposure - f.notional) 0 }
  | .Buy => s

def betCap (s : TemporalArbStrategy) : Decimal := max (min s.config.maxPositionSize s.maxByExposure) 0

theorem tradeSize_worth_le (s : TemporalArbStrategy) (ask : Decimal) : ask * s.tradeSize ask ≤ s.betCap := by
  have hsize : 0 ≤ s.tradeSize ask := le_min (le_max_right _ _) (by norm_num)
  rcases le_or_gt ask 0 with hask | hask
  · exact (mul_nonpos_of_nonpos_of_nonneg hask hsize).trans (le_max_right _ _)
  · have hle : s.tradeSize ask ≤ max (min (s.config.maxPositionSize / ask) (s.maxByExposure / ask)) 0 :=
      min_le_left _ _
    have hscaled : ask * max (min (s.config.maxPositionSize / ask) (s.maxByExposure / ask)) 0 = s.betCap := by
      rw [mul_max_of_nonneg _ _ hask.le, mul_min_of_nonneg _ _ hask.le, mul_div_cancel₀ _ hask.ne',
        mul_div_cancel₀ _ hask.ne', mul_zero]
      rfl
    exact (mul_le_mul_of_nonneg_left hle hask.le).trans_eq hscaled

end TemporalArbStrategy

end PolyBot
