import PolyBot.Strategy.CheckedExits

/-! The book updates of the contrarian and the breakout strategy with divisions that stop at zero. -/

namespace PolyBot
open General.CheckedDivision General.KeyedStore

def entrySizeChecked (maxBetUsd minBetUsd ask : Decimal) : Option (Option Decimal) :=
  (divide maxBetUsd ask).map fun bought =>
    let shares := Decimal.truncDp 2 bought
    if shares ≤ 0 then none else if shares * ask < minBetUsd then none else some shares

theorem exactly_entrySizeChecked (maxBetUsd minBetUsd ask : Decimal) :
    Exactly (entrySizeChecked maxBetUsd minBetUsd ask) (entrySize maxBetUsd minBetUsd ask) (ask ≠ 0) :=
  (Exactly.divide maxBetUsd ask).map _

namespace ContrarianStrategy

def computeVelocityChecked (s : ContrarianStrategy) (tokenId : TokenId) : Option (Option Decimal) :=
  early (s.priceHistory.lookup tokenId) fun history =>
  require (2 ≤ history.length) <|
  early history.head? fun (_, midNow) =>
  early history.getLast? fun (_, midOld) =>
  require (midOld ≠ 0) <|
  (divide (midNow - midOld) midOld).map fun change => some (change * 10000)

theorem computeVelocityChecked_eq (s : ContrarianStrategy) (tokenId : TokenId) :
    s.computeVelocityChecked tokenId = some (s.computeVelocity tokenId) := by
  rw [computeVelocityChecked, computeVelocity]
  refine early_eq fun history _ => require_eq fun _ => early_eq ?_
  rintro ⟨_, midNow⟩ -
  refine early_eq ?_
  rintro ⟨_, midOld⟩ -
  refine require_eq fun hold => ?_
  rw [(Exactly.divide _ _).through hold]
  rfl

variable (parse : String → Option Decimal)

def checkEntryChecked (s : ContrarianStrategy) (registry : MarketPairRegistry) (tokenId : TokenId)
    (ctx : StrategyContext) : Option (Option OrderIntent) :=
  early (registry.getByToken tokenId) fun pair =>
  require (isOnCooldown s.lastTrade s.config.cooldownMs pair.conditionId ctx.now = false) <|
  require (ctx.position tokenId).isFlat <|
  require (s.exits.pendingExit.lookup tokenId).isNone <|
  (s.computeVelocityChecked tokenId).bind fun velocity =>
  early velocity fun velocityBps =>
  require (velocityBps ≤ -s.config.minMoveBps) <|
  early (pair.complement tokenId) fun complementId =>
  early (ctx.bestAsk parse tokenId) fun yesAsk =>
  early (ctx.midPrice parse complementId) fun noMid =>
  let fair := min (max (1 - noMid) (5 / 100)) (95 / 100)
  require (s.effectiveMinEdge pair ≤ fair - yesAsk) <|
  require (s.config.minBidDepth ≤ (ctx.books.bidDepth parse tokenId).getD 0) <|
  require (ctx.position complementId).isFlat <|
  (entrySizeChecked s.config.maxBetUsd s.config.minBetUsd yesAsk).map fun sized => do
    let shares ← sized
    pure (s.exitRules.buy pair tokenId yesAsk shares)

def entryAsk (s : ContrarianStrategy) (registry : MarketPairRegistry) (tokenId : TokenId) (ctx : StrategyContext) :
    Option Decimal := do
  let pair ← registry.getByToken tokenId
  guard (isOnCooldown s.lastTrade s.config.cooldownMs pair.conditionId ctx.now = false)
  guard (ctx.position tokenId).isFlat
  guard (s.exits.pendingExit.lookup tokenId).isNone
  let velocityBps ← s.computeVelocity tokenId
  guard (velocityBps ≤ -s.config.minMoveBps)
  let complementId ← pair.complement tokenId
  let yesAsk ← ctx.bestAsk parse tokenId
  let noMid ← ctx.midPrice parse complementId
  let fair := min (max (1 - noMid) (5 / 100)) (95 / 100)
  guard (s.effectiveMinEdge pair ≤ fair - yesAsk)
  guard (s.config.minBidDepth ≤ (ctx.books.bidDepth parse tokenId).getD 0)
  guard (ctx.position complementId).isFlat
  some yesAsk

theorem exactly_checkEntryChecked (s : ContrarianStrategy) (registry : MarketPairRegistry) (tokenId : TokenId)
    (ctx : StrategyContext) :
    Exactly (s.checkEntryChecked parse registry tokenId ctx) (s.checkEntry parse registry tokenId ctx)
      (∀ ask ∈ s.entryAsk parse registry tokenId ctx, ask ≠ 0) := by
  rw [checkEntryChecked, checkEntry, entryAsk, computeVelocityChecked_eq]
  refine .early fun pair _ => .require fun _ => .require fun _ => .require fun _ => ?_
  refine .early fun velocityBps _ => .require fun _ => .early fun complementId _ => ?_
  refine .early fun yesAsk _ => .early fun noMid _ => .require fun _ => .require fun _ => .require fun _ => ?_
  exact .reached ((exactly_entrySizeChecked _ _ yesAsk).map _)

def onBookUpdateChecked (s : ContrarianStrategy) (registry : MarketPairRegistry) (tokenId : TokenId)
    (ctx : StrategyContext) : Option (List OrderIntent × ContrarianStrategy) :=
  if s.enabled = false then some ([], s)
  else match ctx.midPrice parse tokenId with
    | none => some ([], s)
    | some mid =>
      let s := s.updatePriceHistory tokenId mid ctx.now
      (s.checkEntryChecked parse registry tokenId ctx).map fun
        | none => ([], s)
        | some intent => ([intent], { s with
            lastTrade := s.lastTrade.insert intent.marketId ctx.now
            tradeCount := s.tradeCount + 1 })

def NonzeroDivisors (s : ContrarianStrategy) (registry : MarketPairRegistry) (tokenId : TokenId)
    (ctx : StrategyContext) : Prop :=
  s.enabled = true → ∀ mid ∈ ctx.midPrice parse tokenId,
    ∀ ask ∈ (s.updatePriceHistory tokenId mid ctx.now).entryAsk parse registry tokenId ctx, ask ≠ 0

theorem exactly_onBookUpdateChecked (s : ContrarianStrategy) (registry : MarketPairRegistry) (tokenId : TokenId)
    (ctx : StrategyContext) :
    Exactly (s.onBookUpdateChecked parse registry tokenId ctx) (s.onBookUpdate parse registry tokenId ctx)
      (s.NonzeroDivisors parse registry tokenId ctx) := by
  rw [onBookUpdateChecked, onBookUpdate, NonzeroDivisors, ← Bool.not_eq_false]
  refine .otherwise fun _ => ?_
  cases ctx.midPrice parse tokenId with
  | none => exact .nothing rfl
  | some mid =>
    have hcheck := (s.updatePriceHistory tokenId mid ctx.now).exactly_checkEntryChecked parse registry tokenId ctx
    exact .reached (hcheck.map _)

end ContrarianStrategy

/-- What an entry of the breakout or the divergence strategy depends on. -/
structure EntryGates where
  lastTrade : Store ConditionId Instant
  cooldownMs : ℕ
  pendingExit : Store TokenId Instant
  minAskDepth : Decimal
  maxBetUsd : Decimal
  minBetUsd : Decimal
  rules : ExitRules

namespace EntryGates
variable (parse : String → Option Decimal)

def checkEntry (g : EntryGates) (registry : MarketPairRegistry) (tokenId : TokenId) (ctx : StrategyContext) :
    Option OrderIntent := do
  let pair ← registry.getByToken tokenId
  guard (isOnCooldown g.lastTrade g.cooldownMs pair.conditionId ctx.now = false)
  guard (ctx.position tokenId).isFlat
  guard (g.pendingExit.lookup tokenId).isNone
  let complementId ← pair.complement tokenId
  guard (ctx.position complementId).isFlat
  guard (g.minAskDepth ≤ (ctx.books.askDepth parse tokenId).getD 0)
  let bestAsk ← ctx.bestAsk parse tokenId
  guard (bestAsk < 92 / 100)
  let shares ← entrySize g.maxBetUsd g.minBetUsd bestAsk
  pure (g.rules.buy pair tokenId bestAsk shares)

def checkEntryChecked (g : EntryGates) (registry : MarketPairRegistry) (tokenId : TokenId) (ctx : StrategyContext) :
    Option (Option OrderIntent) :=
  early (registry.getByToken tokenId) fun pair =>
  require (isOnCooldown g.lastTrade g.cooldownMs pair.conditionId ctx.now = false) <|
  require (ctx.position tokenId).isFlat <|
  require (g.pendingExit.lookup tokenId).isNone <|
  early (pair.complement tokenId) fun complementId =>
  require (ctx.position complementId).isFlat <|
  require (g.minAskDepth ≤ (ctx.books.askDepth parse tokenId).getD 0) <|
  early (ctx.bestAsk parse tokenId) fun bestAsk =>
  require (bestAsk < 92 / 100) <|
  (entrySizeChecked g.maxBetUsd g.minBetUsd bestAsk).map fun sized => do
    let shares ← sized
    pure (g.rules.buy pair tokenId bestAsk shares)

def entryAsk (g : EntryGates) (registry : MarketPairRegistry) (tokenId : TokenId) (ctx : StrategyContext) :
    Option Decimal := do
  let pair ← registry.getByToken tokenId
  guard (isOnCooldown g.lastTrade g.cooldownMs pair.conditionId ctx.now = false)
  guard (ctx.position tokenId).isFlat
  guard (g.pendingExit.lookup tokenId).isNone
  let complementId ← pair.complement tokenId
  guard (ctx.position complementId).isFlat
  guard (g.minAskDepth ≤ (ctx.books.askDepth parse tokenId).getD 0)
  let bestAsk ← ctx.bestAsk parse tokenId
  guard (bestAsk < 92 / 100)
  some bestAsk

theorem exactly_checkEntryChecked (g : EntryGates) (registry : MarketPairRegistry) (tokenId : TokenId)
    (ctx : StrategyContext) :
    Exactly (g.checkEntryChecked parse registry tokenId ctx) (g.checkEntry parse registry tokenId ctx)
      (∀ ask ∈ g.entryAsk parse registry tokenId ctx, ask ≠ 0) := by
  rw [checkEntryChecked, checkEntry, entryAsk]
  refine .early fun pair _ => .require fun _ => .require fun _ => .require fun _ => ?_
  refine .early fun complementId _ => .require fun _ => .require fun _ => .early fun bestAsk _ => .require fun _ => ?_
  exact .reached ((exactly_entrySizeChecked _ _ bestAsk).map _)

end EntryGates

namespace TboTrendStrategy
variable (parse : String → Option Decimal)

def gates (s : TboTrendStrategy) : EntryGates where
  lastTrade := s.lastTrade
  cooldownMs := s.config.cooldownMs
  pendingExit := s.exits.pendingExit
  minAskDepth := s.config.minAskDepth
  maxBetUsd := s.config.maxBetUsd
  minBetUsd := s.config.minBetUsd
  rules := s.exitRules

def checkEntryChecked (s : TboTrendStrategy) (registry : MarketPairRegistry) (tokenId : TokenId)
    (ctx : StrategyContext) : Option (Option OrderIntent) := s.gates.checkEntryChecked parse registry tokenId ctx

theorem exactly_checkEntryChecked (s : TboTrendStrategy) (registry : MarketPairRegistry) (tokenId : TokenId)
    (ctx : StrategyContext) :
    Exactly (s.checkEntryChecked parse registry tokenId ctx) (s.checkEntry parse registry tokenId ctx)
      (∀ ask ∈ s.gates.entryAsk parse registry tokenId ctx, ask ≠ 0) :=
  s.gates.exactly_checkEntryChecked parse registry tokenId ctx

def confirmBreakoutChecked (s : TboTrendStrategy) (registry : MarketPairRegistry) (tokenId : TokenId)
    (ctx : StrategyContext) : Option (List OrderIntent × TboTrendStrategy) :=
  let count := (s.breakoutConfirm.lookup tokenId).getD 0 + 1
  let s := { s with breakoutConfirm := s.breakoutConfirm.insert tokenId count }
  if count < s.config.minConfirmTicks then some ([], s)
  else (s.checkEntryChecked parse registry tokenId ctx).map fun
    | none => ([], s)
    | some intent => ([intent], { s with
        lastTrade := s.lastTrade.insert intent.marketId ctx.now
        breakoutConfirm := s.breakoutConfirm.insert tokenId 0
        tradeCount := s.tradeCount + 1 })

theorem exactly_confirmBreakoutChecked (s : TboTrendStrategy) (registry : MarketPairRegistry) (tokenId : TokenId)
    (ctx : StrategyContext) :
    Exactly (s.confirmBreakoutChecked parse registry tokenId ctx) (s.confirmBreakout parse registry tokenId ctx)
      (s.config.minConfirmTicks ≤ (s.breakoutConfirm.lookup tokenId).getD 0 + 1 →
        ∀ ask ∈ s.gates.entryAsk parse registry tokenId ctx, ask ≠ 0) := by
  rw [confirmBreakoutChecked, confirmBreakout, ← not_lt]
  exact .otherwise fun _ => (exactly_checkEntryChecked parse _ registry tokenId ctx).map _

def onBookUpdateChecked (s : TboTrendStrategy) (registry : MarketPairRegistry) (tokenId : TokenId)
    (ctx : StrategyContext) : Option (List OrderIntent × TboTrendStrategy) :=
  if s.enabled = false then some ([], s)
  else match ctx.midPrice parse tokenId with
    | none => some ([], s)
    | some mid =>
      let s := (s.updatePriceHistory tokenId mid).updateComplement parse registry tokenId ctx
      let history := (s.priceHistory.lookup tokenId).getD []
      if history.length < s.config.lookbackTicks then some ([], s)
      else
        let highN := (highest? (history.drop 1)).getD mid
        let threshold := highN * (1 + s.config.breakoutThresholdBps / 10000)
        if threshold < mid then s.confirmBreakoutChecked parse registry tokenId ctx
        else some ([], { s with breakoutConfirm := s.breakoutConfirm.insert tokenId 0 })

/-- The mid price, which is the latest of its history, is above the breakout level and confirmed often enough. -/
def TriesEntry (s : TboTrendStrategy) (tokenId : TokenId) (mid : Decimal) : Prop :=
  let history := (s.priceHistory.lookup tokenId).getD []
  s.config.lookbackTicks ≤ history.length ∧
    (highest? (history.drop 1)).getD mid * (1 + s.config.breakoutThresholdBps / 10000) < mid ∧
    s.config.minConfirmTicks ≤ (s.breakoutConfirm.lookup tokenId).getD 0 + 1

def NonzeroDivisors (s : TboTrendStrategy) (registry : MarketPairRegistry) (tokenId : TokenId)
    (ctx : StrategyContext) : Prop :=
  s.enabled = true → ∀ mid ∈ ctx.midPrice parse tokenId,
    let updated := (s.updatePriceHistory tokenId mid).updateComplement parse registry tokenId ctx
    updated.TriesEntry tokenId mid → ∀ ask ∈ updated.gates.entryAsk parse registry tokenId ctx, ask ≠ 0

theorem exactly_onBookUpdateChecked (s : TboTrendStrategy) (registry : MarketPairRegistry) (tokenId : TokenId)
    (ctx : StrategyContext) :
    Exactly (s.onBookUpdateChecked parse registry tokenId ctx) (s.onBookUpdate parse registry tokenId ctx)
      (s.NonzeroDivisors parse registry tokenId ctx) := by
  rw [onBookUpdateChecked, onBookUpdate, NonzeroDivisors, ← Bool.not_eq_false]
  refine .otherwise fun _ => ?_
  cases ctx.midPrice parse tokenId with
  | none => exact .nothing rfl
  | some mid =>
    refine .reached ?_
    dsimp only [TriesEntry]
    have hconfirm := ((s.updatePriceHistory tokenId mid).updateComplement parse registry tokenId
      ctx).exactly_confirmBreakoutChecked parse registry tokenId ctx
    refine (Exactly.otherwise fun _ => .ite (fun _ => hconfirm) fun _ => .pure _).congr ?_
    rw [not_lt]
    tauto

end TboTrendStrategy

end PolyBot
