import PolyBot.Strategy.Exits
import Mathlib.Data.Option.Basic

/-! The late-entry strategy: buys the side that is nearly certain shortly before resolution, and sells only on its
stop-loss. -/

namespace PolyBot
open General.KeyedStore

/-- The float `entryWindowPct` is taken as an exact number. -/
structure LateEntryConfig where
  entryWindowPct : Decimal
  minEntryPrice : Decimal
  marketIntervalSecs : ℕ
  minAskDepth : Decimal
  maxBetUsd : Decimal
  cooldownMs : ℕ
  stopLossPrice : Decimal
  deriving DecidableEq, Repr

def LateEntryConfig.default : LateEntryConfig := ⟨1 / 5, 9 / 10, 900, 5, 100, 120000, 7 / 10⟩

structure LateEntryStrategy where
  config : LateEntryConfig
  enabled : Bool
  entryTracking : Store TokenId Decimal
  lastTrade : Store ConditionId Instant
  tradeCount : ℕ

namespace LateEntryStrategy

def name : String := "late_entry"

def withConfig (config : LateEntryConfig) : LateEntryStrategy := ⟨config, true, ∅, ∅, 0⟩

/-- The seconds to the next multiple of the market's interval. -/
def secsToResolution (s : LateEntryStrategy) (utcNow : ℕ) : ℕ :=
  if s.config.marketIntervalSecs = 0 then 2 ^ 64 - 1
  else s.config.marketIntervalSecs - utcNow % s.config.marketIntervalSecs

def entryWindowSecs (s : LateEntryStrategy) : ℕ :=
  max ⌊(s.config.marketIntervalSecs : Decimal) * s.config.entryWindowPct + 1 / 2⌋.toNat 1

/-- The shares that the bet buys; rounded up when they would cost less than the exchange takes. -/
def shares (s : LateEntryStrategy) (bestAsk : Decimal) : Decimal :=
  let sharesFloor := Decimal.truncDp 2 (s.config.maxBetUsd / bestAsk)
  if sharesFloor * bestAsk < 1 then max (Decimal.awayDp 2 (s.config.maxBetUsd / bestAsk)) (1 / 100) else sharesFloor

def buy (pair : MarketPair) (tokenId : TokenId) (ask size : Decimal) : OrderIntent :=
  ((OrderIntent.new pair.conditionId tokenId .Buy ask size .Normal name).withTickSize pair.tickSize).withPriority 70

def sell (pair : MarketPair) (tokenId : TokenId) (bid size : Decimal) : OrderIntent :=
  ((OrderIntent.new pair.conditionId tokenId .Sell bid size .Immediate name).withTickSize pair.tickSize).withPriority 80

variable (parse : String → Option Decimal)

def entryOf (s : LateEntryStrategy) (pair : MarketPair) (tokenId : TokenId) (ctx : StrategyContext) :
    Option OrderIntent := do
  guard (ctx.position tokenId).isFlat
  let complementId ← pair.complement tokenId
  guard (ctx.position complementId).isFlat
  guard (s.entryTracking.lookup tokenId).isNone
  let bestAsk ← ctx.bestAsk parse tokenId
  guard (s.config.minEntryPrice ≤ bestAsk)
  guard (bestAsk < 99 / 100)
  let _ ← ctx.bestBid parse tokenId
  guard (s.config.minAskDepth ≤ (ctx.books.askDepth parse tokenId).getD 0)
  guard (0 < s.shares bestAsk)
  pure (buy pair tokenId bestAsk (s.shares bestAsk))

/-- The cooldown of the market starts before the other gates are tried, whatever comes of them. -/
def checkEntry (s : LateEntryStrategy) (registry : MarketPairRegistry) (tokenId : TokenId) (ctx : StrategyContext) :
    Option OrderIntent × LateEntryStrategy :=
  match registry.getByToken tokenId with
  | none => (none, s)
  | some pair =>
    if isOnCooldown s.lastTrade s.config.cooldownMs pair.conditionId ctx.now then (none, s)
    else
      let s := { s with lastTrade := s.lastTrade.insert pair.conditionId ctx.now }
      (s.entryOf parse pair tokenId ctx, s)

def tryEntries (s : LateEntryStrategy) (registry : MarketPairRegistry) (ctx : StrategyContext) :
    List TokenId → List OrderIntent × LateEntryStrategy
  | [] => ([], s)
  | tokenId :: tokenIds =>
    match ctx.bestAsk parse tokenId with
    | none => s.tryEntries registry ctx tokenIds
    | some ask =>
      if s.config.minEntryPrice ≤ ask ∧ ask < 99 / 100 then
        match s.checkEntry parse registry tokenId ctx with
        | (none, s) => s.tryEntries registry ctx tokenIds
        | (some intent, s) =>
          let (intents, s) := { s with tradeCount := s.tradeCount + 1 }.tryEntries registry ctx tokenIds
          (intent :: intents, s)
      else s.tryEntries registry ctx tokenIds

/-- Both tokens are tried, the one with the higher ask first. `utcNow` counts seconds. -/
def onBookUpdate (s : LateEntryStrategy) (registry : MarketPairRegistry) (tokenId : TokenId) (ctx : StrategyContext)
    (utcNow : ℕ) : List OrderIntent × LateEntryStrategy :=
  if s.enabled = false then ([], s)
  else if s.entryWindowSecs < s.secsToResolution utcNow then ([], s)
  else if s.secsToResolution utcNow < 5 then ([], s)
  else match registry.getByToken tokenId with
    | none => ([], s)
    | some pair => s.tryEntries parse registry ctx (ctx.tokensByAskAsc parse pair).reverse

def onFill (s : LateEntryStrategy) (f : Fill) : LateEntryStrategy :=
  match f.side with
  | .Buy =>
    if (s.entryTracking.lookup f.tokenId).isSome then s
    else { s with entryTracking := s.entryTracking.insert f.tokenId f.price }
  | .Sell => { s with entryTracking := s.entryTracking.erase f.tokenId }

def exitOf (s : LateEntryStrategy) (registry : MarketPairRegistry) (ctx : StrategyContext) (tokenId : TokenId) :
    Option OrderIntent := do
  let bestBid ← ctx.bestBid parse tokenId
  guard (bestBid ≤ s.config.stopLossPrice)
  guard ((ctx.position tokenId).isFlat = false)
  let pair ← registry.getByToken tokenId
  pure (sell pair tokenId bestBid |(ctx.position tokenId).shares|)

def onTick (s : LateEntryStrategy) (registry : MarketPairRegistry) (ctx : StrategyContext) :
    List OrderIntent × LateEntryStrategy :=
  if s.enabled = false then ([], s)
  else
    let s := { s with entryTracking := retain (fun tokenId _ => !(ctx.position tokenId).isFlat) s.entryTracking }
    if s.config.stopLossPrice = 0 then ([], s)
    else (s.entryTracking.entries.filterMap fun entry => s.exitOf parse registry ctx entry.1, s)

theorem entryTracking_checkEntry (s : LateEntryStrategy) (registry : MarketPairRegistry) (tokenId : TokenId)
    (ctx : StrategyContext) : (s.checkEntry parse registry tokenId ctx).2.entryTracking = s.entryTracking := by
  unfold checkEntry
  split
  · rfl
  · split <;> rfl

theorem entryTracking_tryEntries (s : LateEntryStrategy) (registry : MarketPairRegistry) (ctx : StrategyContext)
    (tokenIds : List TokenId) : (s.tryEntries parse registry ctx tokenIds).2.entryTracking = s.entryTracking := by
  induction tokenIds generalizing s with
  | nil => rfl
  | cons tokenId tokenIds ih =>
    have hcheck := entryTracking_checkEntry parse s registry tokenId ctx
    unfold tryEntries
    split
    · exact ih s
    · split
      · split
        · rename_i heq
          rw [heq] at hcheck
          exact (ih _).trans hcheck
        · rename_i heq
          rw [heq] at hcheck
          exact (ih _).trans hcheck
      · exact ih s

/-- Book updates do not reach the tracking. -/
theorem entryTracking_onBookUpdate (s : LateEntryStrategy) (registry : MarketPairRegistry) (tokenId : TokenId)
    (ctx : StrategyContext) (utcNow : ℕ) :
    (s.onBookUpdate parse registry tokenId ctx utcNow).2.entryTracking = s.entryTracking := by
  unfold onBookUpdate
  split
  · rfl
  · split
    · rfl
    · split
      · rfl
      · split
        · rfl
        · exact entryTracking_tryEntries parse s registry ctx _

/-- A tracked position whose stop-loss is due is sold on the next tick. -/
theorem onTick_sells (s : LateEntryStrategy) (registry : MarketPairRegistry) (ctx : StrategyContext)
    (henabled : s.enabled = true) (hstop : s.config.stopLossPrice ≠ 0) {t : TokenId} {price : Decimal}
    (htracked : s.entryTracking.lookup t = some price) {intent : OrderIntent}
    (hdue : s.exitOf parse registry ctx t = some intent) : intent ∈ (s.onTick parse registry ctx).1 := by
  have hopen : (ctx.position t).isFlat = false := by
    unfold exitOf at hdue
    simp only [Option.bind_eq_bind, Option.bind_eq_some_iff, Option.guard_eq_some'] at hdue
    obtain ⟨_, _, _, _, _, hopen, _⟩ := hdue
    exact hopen
  have hkept : (retain (fun tokenId _ => !(ctx.position tokenId).isFlat) s.entryTracking).lookup t = some price := by
    rw [lookup_retain, htracked, Option.filter_some, hopen]
    rfl
  unfold onTick
  rw [henabled, if_neg Bool.noConfusion]
  dsimp only
  rw [if_neg hstop]
  exact List.mem_filterMap.mpr ⟨⟨t, price⟩, AList.mem_lookup_iff.mp hkept, hdue⟩

end LateEntryStrategy

end PolyBot
