import PolyBot.Strategy.Exits

/-! The trending-breakout strategy: buys a token whose mid price stays above its recent high, and exits on the timed
rules. -/

namespace PolyBot
open General.KeyedStore

structure TboConfig where
  lookbackTicks : ℕ
  breakoutThresholdBps : ℤ
  minConfirmTicks : ℕ
  minAskDepth : Decimal
  maxBetUsd : Decimal
  minBetUsd : Decimal
  maxHoldSecs : ℕ
  profitTargetPct : Decimal
  stopLossPct : Decimal
  cooldownMs : ℕ
  deriving DecidableEq, Repr

def TboConfig.default : TboConfig := ⟨50, 150, 3, 10, 100, 5, 180, 6 / 100, 4 / 100, 15000⟩

structure TboTrendStrategy where
  config : TboConfig
  enabled : Bool
  priceHistory : Store TokenId (List Decimal)
  breakoutConfirm : Store TokenId ℕ
  exits : ExitTracking
  lastTrade : Store ConditionId Instant
  tradeCount : ℕ

def highest? : List Decimal → Option Decimal
  | [] => none
  | price :: prices => some (prices.foldl max price)

namespace TboTrendStrategy

def name : String := "tbo_trend"

def withConfig (config : TboConfig) : TboTrendStrategy := ⟨config, true, ∅, ∅, .new, ∅, 0⟩

def exitRules (s : TboTrendStrategy) : ExitRules :=
  ⟨name, 55, s.config.maxHoldSecs, s.config.profitTargetPct, s.config.stopLossPct⟩

def updatePriceHistory (s : TboTrendStrategy) (tokenId : TokenId) (mid : Decimal) : TboTrendStrategy :=
  let history := mid :: (s.priceHistory.lookup tokenId).getD []
  { s with priceHistory := s.priceHistory.insert tokenId (history.take s.config.lookbackTicks) }

variable (parse : String → Option Decimal)

def updateComplement (s : TboTrendStrategy) (registry : MarketPairRegistry) (tokenId : TokenId)
    (ctx : StrategyContext) : TboTrendStrategy :=
  match (registry.getByToken tokenId).bind (·.complement tokenId) with
  | none => s
  | some complementId =>
    match ctx.midPrice parse complementId with
    | none => s
    | some mid => s.updatePriceHistory complementId mid

def checkEntry (s : TboTrendStrategy) (registry : MarketPairRegistry) (tokenId : TokenId) (ctx : StrategyContext) :
    Option OrderIntent := do
  let pair ← registry.getByToken tokenId
  guard (isOnCooldown s.lastTrade s.config.cooldownMs pair.conditionId ctx.now = false)
  guard (ctx.position tokenId).isFlat
  guard (s.exits.pendingExit.lookup tokenId).isNone
  let complementId ← pair.complement tokenId
  guard (ctx.position complementId).isFlat
  guard (s.config.minAskDepth ≤ (ctx.books.askDepth parse tokenId).getD 0)
  let bestAsk ← ctx.bestAsk parse tokenId
  guard (bestAsk < 92 / 100)
  let shares ← entrySize s.config.maxBetUsd s.config.minBetUsd bestAsk
  pure (s.exitRules.buy pair tokenId bestAsk shares)

/-- A mid price above the breakout level: the confirmations so far decide whether an entry is tried. -/
def confirmBreakout (s : TboTrendStrategy) (registry : MarketPairRegistry) (tokenId : TokenId)
    (ctx : StrategyContext) : List OrderIntent × TboTrendStrategy :=
  let count := (s.breakoutConfirm.lookup tokenId).getD 0 + 1
  let s := { s with breakoutConfirm := s.breakoutConfirm.insert tokenId count }
  if count < s.config.minConfirmTicks then ([], s)
  else match s.checkEntry parse registry tokenId ctx with
    | none => ([], s)
    | some intent => ([intent], { s with
        lastTrade := s.lastTrade.insert intent.marketId ctx.now
        breakoutConfirm := s.breakoutConfirm.insert tokenId 0
        tradeCount := s.tradeCount + 1 })

def onBookUpdate (s : TboTrendStrategy) (registry : MarketPairRegistry) (tokenId : TokenId) (ctx : StrategyContext) :
    List OrderIntent × TboTrendStrategy :=
  if s.enabled = false then ([], s)
  else match ctx.midPrice parse tokenId with
    | none => ([], s)
    | some mid =>
      let s := (s.updatePriceHistory tokenId mid).updateComplement parse registry tokenId ctx
      let history := (s.priceHistory.lookup tokenId).getD []
      if history.length < s.config.lookbackTicks then ([], s)
      else
        -- the high before the current price
        let highN := (highest? (history.drop 1)).getD mid
        let threshold := highN * (1 + s.config.breakoutThresholdBps / 10000)
        if threshold < mid then s.confirmBreakout parse registry tokenId ctx
        else ([], { s with breakoutConfirm := s.breakoutConfirm.insert tokenId 0 })

def onFill (s : TboTrendStrategy) (f : Fill) (now : Instant) : TboTrendStrategy :=
  { s with exits := s.exits.onFill f now }

def onTick (s : TboTrendStrategy) (registry : MarketPairRegistry) (ctx : StrategyContext) :
    List OrderIntent × TboTrendStrategy :=
  if s.enabled = false then ([], s)
  else
    let (intents, exits) := s.exits.onTick parse s.exitRules registry ctx
    (intents, { s with exits := exits })

/-- The mid of the complement is recorded, if there is one. -/
theorem updateComplement_cases (s : TboTrendStrategy) (registry : MarketPairRegistry) (tokenId : TokenId)
    (ctx : StrategyContext) :
    s.updateComplement parse registry tokenId ctx = s ∨
      ∃ complementId mid, (registry.getByToken tokenId).bind (·.complement tokenId) = some complementId ∧
        s.updateComplement parse registry tokenId ctx = s.updatePriceHistory complementId mid := by
  rw [updateComplement]
  cases hcomplement : (registry.getByToken tokenId).bind (·.complement tokenId) with
  | none => exact .inl rfl
  | some complementId =>
    cases hmid : ctx.midPrice parse complementId with
    | none =>
      dsimp only
      rw [hmid]
      exact .inl rfl
    | some mid =>
      dsimp only
      rw [hmid]
      exact .inr ⟨complementId, mid, rfl, rfl⟩

/-- A confirmation is counted, or it is enough, the gates are open, and the entry starts the count again. -/
theorem confirmBreakout_cases (s : TboTrendStrategy) (registry : MarketPairRegistry) (tokenId : TokenId)
    (ctx : StrategyContext) :
    let count := (s.breakoutConfirm.lookup tokenId).getD 0 + 1
    let counted := s.breakoutConfirm.insert tokenId count
    s.confirmBreakout parse registry tokenId ctx = ([], { s with breakoutConfirm := counted }) ∧
        ¬(s.config.minConfirmTicks ≤ count ∧ (s.checkEntry parse registry tokenId ctx).isSome = true) ∨
      ∃ intent, s.config.minConfirmTicks ≤ count ∧ s.checkEntry parse registry tokenId ctx = some intent ∧
        s.confirmBreakout parse registry tokenId ctx = ([intent], { s with
          lastTrade := s.lastTrade.insert intent.marketId ctx.now
          breakoutConfirm := counted.insert tokenId 0
          tradeCount := s.tradeCount + 1 }) := by
  intro count counted
  have hcheck : ({ s with breakoutConfirm := counted } : TboTrendStrategy).checkEntry parse registry tokenId ctx =
      s.checkEntry parse registry tokenId ctx := rfl
  rw [confirmBreakout]
  dsimp only
  rw [hcheck]
  split_ifs with hshort
  · exact .inl ⟨rfl, fun henough => absurd henough.1 (not_le.mpr hshort)⟩
  · cases hentry : s.checkEntry parse registry tokenId ctx with
    | none => exact .inl ⟨rfl, fun henough => Bool.noConfusion henough.2⟩
    | some intent => exact .inr ⟨intent, not_lt.mp hshort, rfl, rfl⟩

theorem exits_updateComplement (s : TboTrendStrategy) (registry : MarketPairRegistry) (tokenId : TokenId)
    (ctx : StrategyContext) : (s.updateComplement parse registry tokenId ctx).exits = s.exits := by
  rcases s.updateComplement_cases parse registry tokenId ctx with heq | ⟨_, _, -, heq⟩
  · rw [heq]
  · rw [heq]
    rfl

theorem exits_confirmBreakout (s : TboTrendStrategy) (registry : MarketPairRegistry) (tokenId : TokenId)
    (ctx : StrategyContext) : (s.confirmBreakout parse registry tokenId ctx).2.exits = s.exits := by
  rcases s.confirmBreakout_cases parse registry tokenId ctx with ⟨heq, -⟩ | ⟨_, -, -, heq⟩
  · rw [heq]
  · rw [heq]

/-- Book updates do not reach the tracking. -/
theorem exits_onBookUpdate (s : TboTrendStrategy) (registry : MarketPairRegistry) (tokenId : TokenId)
    (ctx : StrategyContext) : (s.onBookUpdate parse registry tokenId ctx).2.exits = s.exits := by
  unfold onBookUpdate
  split
  · rfl
  · split
    · rfl
    · rename_i mid _
      have hupdated := exits_updateComplement parse (s.updatePriceHistory tokenId mid) registry tokenId ctx
      dsimp only
      split
      · exact hupdated
      · split
        · exact (exits_confirmBreakout parse _ registry tokenId ctx).trans hupdated
        · exact hupdated

end TboTrendStrategy

end PolyBot
