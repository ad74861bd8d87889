import PolyBot.Strategy.Exits
import Mathlib.Algebra.BigOperators.Group.List.Basic

/-! The divergence strategy: a lower low with a higher momentum is a signal, and a token is bought once its price has
come back from it. Exits are on the timed rules. -/

namespace PolyBot
open General.KeyedStore

structure TbtConfig where
  lookbackTicks : ℕ
  rsiPeriod : ℕ
  divergenceMinGapBps : ℤ
  pullbackBps : ℤ
  signalExpiryTicks : ℕ
  maxBetUsd : Decimal
  minBetUsd : Decimal
  maxHoldSecs : ℕ
  profitTargetPct : Decimal
  stopLossPct : Decimal
  minAskDepth : Decimal
  cooldownMs : ℕ
  deriving DecidableEq, Repr

def TbtConfig.default : TbtConfig := ⟨80, 14, 100, 50, 30, 100, 5, 240, 7 / 100, 5 / 100, 8, 20000⟩

structure DivergenceSignal where
  detectionMid : Decimal
  ticksSince : ℕ
  deriving DecidableEq, Repr

structure TbtDivergenceStrategy where
  config : TbtConfig
  enabled : Bool
  priceHistory : Store TokenId (List Decimal)
  divergenceSignal : Store TokenId DivergenceSignal
  exits : ExitTracking
  lastTrade : Store ConditionId Instant
  tradeCount : ℕ

/-- The index and the value of the first lowest price. -/
def lowest? : List Decimal → Option (ℕ × Decimal)
  | [] => none
  | price :: prices =>
    match lowest? prices with
    | none => some (0, price)
    | some (i, low) => if low < price then some (i + 1, low) else some (0, price)

namespace TbtDivergenceStrategy

def name : String := "tbt_divergence"

def withConfig (config : TbtConfig) : TbtDivergenceStrategy := ⟨config, true, ∅, ∅, .new, ∅, 0⟩

def exitRules (s : TbtDivergenceStrategy) : ExitRules :=
  ⟨name, 50, s.config.maxHoldSecs, s.config.profitTargetPct, s.config.stopLossPct⟩

def updatePriceHistory (s : TbtDivergenceStrategy) (tokenId : TokenId) (mid : Decimal) : TbtDivergenceStrategy :=
  let history := mid :: (s.priceHistory.lookup tokenId).getD []
  { s with priceHistory := s.priceHistory.insert tokenId (history.take s.config.lookbackTicks) }

/-- The momentum of the last `period` price changes, from 0 to 100; the newest price comes first. -/
def computeRsi (prices : List Decimal) (period : ℕ) : Option Decimal :=
  if prices.length < period + 1 then none
  else
    let changes := (List.zipWith (fun newer older => newer - older) prices (prices.drop 1)).take period
    let avgGain := (changes.map fun change => if 0 < change then change else 0).sum / period
    let avgLoss := (changes.map fun change => if 0 < change then 0 else |change|).sum / period
    if avgLoss = 0 then some 100 else some (100 - 100 / (1 + avgGain / avgLoss))

/-- Whether the recent half has a lower low than the older one at a higher momentum. -/
def detectDivergence (s : TbtDivergenceStrategy) (prices : List Decimal) : Bool :=
  if prices.length < s.config.lookbackTicks then false
  else
    let half := prices.length / 2
    match lowest? (prices.take half), lowest? (prices.drop half) with
    | some (recentIdx, recentLow), some (olderIdx, olderLow) =>
      let gapBps := |olderLow - recentLow| / max olderLow (1 / 100) * 10000
      if gapBps < s.config.divergenceMinGapBps then false
      else if olderLow ≤ recentLow then false
      else
        let rsiFrom := fun start => computeRsi ((prices.drop start).take (s.config.rsiPeriod + 1)) s.config.rsiPeriod
        match rsiFrom recentIdx, rsiFrom (half + olderIdx) with
        | some rsiRecent, some rsiOld => rsiOld < rsiRecent
        | _, _ => false
    | _, _ => false

variable (parse : String → Option Decimal)

def checkEntry (s : TbtDivergenceStrategy) (registry : MarketPairRegistry) (tokenId : TokenId)
    (ctx : StrategyContext) : Option OrderIntent := do
  let pair ← registry.getByToken tokenId
  guard (isOnCooldown s.lastTrade s.config.cooldownMs pair.conditionId ctx.now = false)
  guard (ctx.position tokenId).isFlat
  guard (s.exits.pendingExit.lookup tokenId).isNone
  let complementId ← pair.complement tokenId
  guard (ctx.position complementId).isFlat
  guard (s.config.minAskDepth ≤ (ctx.books.askDepth parse tokenId).getD 0)
  let bestAsk ← ctx.bestAsk parse tokenId
  guard (bestAsk < 92 / 100)
  let shares ← entrySize s.config.maxBetUsd s.config.minBetUsd bestAsk
  pure (s.exitRules.buy pair tokenId bestAsk shares)

/-- An update of a token with a pending signal: it expires, waits on, or is spent on one try to enter. -/
def followSignal (s : TbtDivergenceStrategy) (registry : MarketPairRegistry) (tokenId : TokenId)
    (ctx : StrategyContext) (mid : Decimal) (signal : DivergenceSignal) : List OrderIntent × TbtDivergenceStrategy :=
  let signal := { signal with ticksSince := signal.ticksSince + 1 }
  let spent := { s with divergenceSignal := s.divergenceSignal.erase tokenId }
  if s.config.signalExpiryTicks < signal.ticksSince then ([], spent)
  else if mid ≤ signal.detectionMid - signal.detectionMid * s.config.pullbackBps / 10000 then
    match spent.checkEntry parse registry tokenId ctx with
    | none => ([], spent)
    | some intent => ([intent], { spent with
        lastTrade := spent.lastTrade.insert intent.marketId ctx.now
        tradeCount := spent.tradeCount + 1 })
  else ([], { s with divergenceSignal := s.divergenceSignal.insert tokenId signal })

def onBookUpdate (s : TbtDivergenceStrategy) (registry : MarketPairRegistry) (tokenId : TokenId)
    (ctx : StrategyContext) : List OrderIntent × TbtDivergenceStrategy :=
  if s.enabled = false then ([], s)
  else match ctx.midPrice parse tokenId with
    | none => ([], s)
    | some mid =>
      let s := s.updatePriceHistory tokenId mid
      let history := (s.priceHistory.lookup tokenId).getD []
      if history.length < s.config.lookbackTicks then ([], s)
      else match s.divergenceSignal.lookup tokenId with
        | some signal => s.followSignal parse registry tokenId ctx mid signal
        | none =>
          if s.detectDivergence history then
            ([], { s with divergenceSignal := s.divergenceSignal.insert tokenId ⟨mid, 0⟩ })
          else ([], s)

def onFill (s : TbtDivergenceStrategy) (f : Fill) (now : Instant) : TbtDivergenceStrategy :=
  { s with exits := s.exits.onFill f now }

def onTick (s : TbtDivergenceStrategy) (registry : MarketPairRegistry) (ctx : StrategyContext) :
    List OrderIntent × TbtDivergenceStrategy :=
  if s.enabled = false then ([], s)
  else
    let (intents, exits) := s.exits.onTick parse s.exitRules registry ctx
    (intents, { s with exits := exits })

/-- A pending signal ends without an order, waits on, or ends in an entry, in time and after the price has come back. -/
theorem followSignal_cases (s : TbtDivergenceStrategy) (registry : MarketPairRegistry) (tokenId : TokenId)
    (ctx : StrategyContext) (mid : Decimal) (signal : DivergenceSignal) :
    let spent := { s with divergenceSignal := s.divergenceSignal.erase tokenId }
    s.followSignal parse registry tokenId ctx mid signal = ([], spent) ∨
      s.followSignal parse registry tokenId ctx mid signal = ([], { s with
        divergenceSignal := s.divergenceSignal.insert tokenId ⟨signal.detectionMid, signal.ticksSince + 1⟩ }) ∨
      ∃ intent, spent.checkEntry parse registry tokenId ctx = some intent ∧
        signal.ticksSince + 1 ≤ s.config.signalExpiryTicks ∧
        mid ≤ signal.detectionMid - signal.detectionMid * s.config.pullbackBps / 10000 ∧
        s.followSignal parse registry tokenId ctx mid signal = ([intent], { spent with
          lastTrade := spent.lastTrade.insert intent.marketId ctx.now
          tradeCount := spent.tradeCount + 1 }) := by
  intro spent
  rw [followSignal]
  dsimp only
  split_ifs with hexpired hback
  · exact .inl rfl
  · cases hentry : spent.checkEntry parse registry tokenId ctx with
    | none => exact .inl rfl
    | some intent => exact .inr (.inr ⟨intent, rfl, not_lt.mp hexpired, hback, rfl⟩)
  · exact .inr (.inl rfl)

theorem exits_followSignal (s : TbtDivergenceStrategy) (registry : MarketPairRegistry) (tokenId : TokenId)
    (ctx : StrategyContext) (mid : Decimal) (signal : DivergenceSignal) :
    (s.followSignal parse registry tokenId ctx mid signal).2.exits = s.exits := by
  rcases s.followSignal_cases parse registry tokenId ctx mid signal with heq | heq | ⟨_, -, -, -, heq⟩
  · rw [heq]
  · rw [heq]
  · rw [heq]

/-- Book updates do not reach the tracking. -/
theorem exits_onBookUpdate (s : TbtDivergenceStrategy) (registry : MarketPairRegistry) (tokenId : TokenId)
    (ctx : StrategyContext) : (s.onBookUpdate parse registry tokenId ctx).2.exits = s.exits := by
  unfold onBookUpdate
  split
  · rfl
  · split
    · rfl
    · dsimp only
      split
      · rfl
      · split
        · exact exits_followSignal parse _ registry tokenId ctx _ _
        · split <;> rfl

end TbtDivergenceStrategy

end PolyBot
