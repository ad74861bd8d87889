import PolyBot.Strategy.Exits
import Mathlib.Data.List.DropRight

/-! The contrarian strategy: buys a token whose mid price fell sharply, and exits on the timed rules. -/

namespace PolyBot
open General.KeyedStore

structure ContrarianConfig where
  minMoveBps : ℤ
  lookbackSecs : ℕ
  minBidDepth : Decimal
  minEdge : Decimal
  highFeeMinEdge : Decimal
  maxBetUsd : Decimal
  minBetUsd : Decimal
  maxHoldSecs : ℕ
  profitTargetPct : Decimal
  stopLossPct : Decimal
  cooldownMs : ℕ
  maxHistoryLen : ℕ
  deriving DecidableEq, Repr

def ContrarianConfig.default : ContrarianConfig :=
  ⟨500, 60, 10, 5 / 100, 12 / 100, 100, 5, 120, 8 / 100, 5 / 100, 10000, 500⟩

/-- The price history has the newest price in front. The market registry is shared with the bot and comes with each
call. -/
structure ContrarianStrategy where
  config : ContrarianConfig
  enabled : Bool
  priceHistory : Store TokenId (List (Instant × Decimal))
  exits : ExitTracking
  lastTrade : Store ConditionId Instant
  tradeCount : ℕ

namespace ContrarianStrategy

def name : String := "contrarian"

def withConfig (config : ContrarianConfig) : ContrarianStrategy := ⟨config, true, ∅, .new, ∅, 0⟩

def exitRules (s : ContrarianStrategy) : ExitRules :=
  ⟨name, 60, s.config.maxHoldSecs, s.config.profitTargetPct, s.config.stopLossPct⟩

def effectiveMinEdge (s : ContrarianStrategy) (pair : MarketPair) : Decimal :=
  if pair.isCrypto15min then s.config.highFeeMinEdge else s.config.minEdge

/-- Adds a price in front, and drops from the back what is too old or too much. -/
def updatePriceHistory (s : ContrarianStrategy) (tokenId : TokenId) (mid : Decimal) (now : Instant) :
    ContrarianStrategy :=
  let history := (now, mid) :: (s.priceHistory.lookup tokenId).getD []
  let recent := history.rdropWhile fun e => decide (s.config.lookbackSecs * 1000 < e.1.elapsedMillis now)
  { s with priceHistory := s.priceHistory.insert tokenId (recent.take s.config.maxHistoryLen) }

/-- The move of the mid price over the history, in basis points. -/
def computeVelocity (s : ContrarianStrategy) (tokenId : TokenId) : Option Decimal := do
  let history ← s.priceHistory.lookup tokenId
  guard (2 ≤ history.length)
  let (_, midNow) ← history.head?
  let (_, midOld) ← history.getLast?
  guard (midOld ≠ 0)
  pure ((midNow - midOld) / midOld * 10000)

variable (parse : String → Option Decimal)

def checkEntry (s : ContrarianStrategy) (registry : MarketPairRegistry) (tokenId : TokenId) (ctx : StrategyContext) :
    Option OrderIntent := do
  let pair ← registry.getByToken tokenId
  guard (isOnCooldown s.lastTrade s.config.cooldownMs pair.conditionId ctx.now = false)
  guard (ctx.position tokenId).isFlat
  guard (s.exits.pendingExit.lookup tokenId).isNone
  let velocityBps ← s.computeVelocity tokenId
  guard (velocityBps ≤ -s.config.minMoveBps)
  let complementId ← pair.complement tokenId
  let yesAsk ← ctx.bestAsk parse tokenId
  let noMid ← ctx.midPrice parse complementId
  -- what the other token says this one is worth
  let fair := min (max (1 - noMid) (5 / 100)) (95 / 100)
  guard (s.effectiveMinEdge pair ≤ fair - yesAsk)
  guard (s.config.minBidDepth ≤ (ctx.books.bidDepth parse tokenId).getD 0)
  guard (ctx.position complementId).isFlat
  let shares ← entrySize s.config.maxBetUsd s.config.minBetUsd yesAsk
  pure (s.exitRules.buy pair tokenId yesAsk shares)

def onBookUpdate (s : ContrarianStrategy) (registry : MarketPairRegistry) (tokenId : TokenId) (ctx : StrategyContext) :
    List OrderIntent × ContrarianStrategy :=
  if s.enabled = false then ([], s)
  else match ctx.midPrice parse tokenId with
    | none => ([], s)
    | some mid =>
      let s := s.updatePriceHistory tokenId mid ctx.now
      match s.checkEntry parse registry tokenId ctx with
      | none => ([], s)
      | some intent => ([intent], { s with
          lastTrade := s.lastTrade.insert intent.marketId ctx.now
          tradeCount := s.tradeCount + 1 })

def onFill (s : ContrarianStrategy) (f : Fill) (now : Instant) : ContrarianStrategy :=
  { s with exits := s.exits.onFill f now }

def onTick (s : ContrarianStrategy) (registry : MarketPairRegistry) (ctx : StrategyContext) :
    List OrderIntent × ContrarianStrategy :=
  if s.enabled = false then ([], s)
  else
    let (intents, exits) := s.exits.onTick parse s.exitRules registry ctx
    (intents, { s with exits := exits })

/-- Book updates do not reach the tracking. -/
theorem exits_onBookUpdate (s : ContrarianStrategy) (registry : MarketPairRegistry) (tokenId : TokenId)
    (ctx : StrategyContext) : (s.onBookUpdate parse registry tokenId ctx).2.exits = s.exits := by
  unfold onBookUpdate
  split
  · rfl
  · split
    · rfl
    · dsimp only
      split <;> rfl

end ContrarianStrategy

end PolyBot
