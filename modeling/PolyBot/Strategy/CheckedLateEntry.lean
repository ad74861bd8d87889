import PolyBot.General.CheckedDivision
import PolyBot.Strategy.SpentCooldowns

/-! The late entry with divisions that stop at zero: an ask of zero passes its price gate if the least entry price is
not positive. -/

namespace PolyBot.LateEntryStrategy
open General.CheckedDivision General.KeyedStore

def secsToResolutionChecked (s : LateEntryStrategy) (utcNow : ℕ) : Option ℕ :=
  if s.config.marketIntervalSecs = 0 then some (2 ^ 64 - 1)
  else (remainder utcNow s.config.marketIntervalSecs).map fun secsIntoInterval =>
    s.config.marketIntervalSecs - secsIntoInterval

theorem secsToResolutionChecked_eq (s : LateEntryStrategy) (utcNow : ℕ) :
    s.secsToResolutionChecked utcNow = some (s.secsToResolution utcNow) := by
  rw [secsToResolutionChecked, secsToResolution]
  split
  · rfl
  · rename_i hinterval
    rw [remainder, if_neg hinterval, Option.map_some]

def sharesChecked (s : LateEntryStrategy) (bestAsk : Decimal) : Option Decimal :=
  (divide s.config.maxBetUsd bestAsk).bind fun bought =>
  let sharesFloor := Decimal.truncDp 2 bought
  if sharesFloor * bestAsk < 1 then
    (divide s.config.maxBetUsd bestAsk).map fun again => max (Decimal.awayDp 2 again) (1 / 100)
  else some sharesFloor

theorem exactly_sharesChecked (s : LateEntryStrategy) (bestAsk : Decimal) :
    Exactly (s.sharesChecked bestAsk) (s.shares bestAsk) (bestAsk ≠ 0) := by
  have hdivide := Exactly.divide s.config.maxBetUsd bestAsk
  refine (hdivide.bind (.ite (fun _ => hdivide.map _) fun _ => .pure _)).congr ?_
  tauto

variable (parse : String → Option Decimal)

def entryOfChecked (s : LateEntryStrategy) (pair : MarketPair) (tokenId : TokenId) (ctx : StrategyContext) :
    Option (Option OrderIntent) :=
  require (ctx.position tokenId).isFlat <|
  early (pair.complement tokenId) fun complementId =>
  require (ctx.position complementId).isFlat <|
  require (s.entryTracking.lookup tokenId).isNone <|
  early (ctx.bestAsk parse tokenId) fun bestAsk =>
  require (s.config.minEntryPrice ≤ bestAsk) <|
  require (bestAsk < 99 / 100) <|
  early (ctx.bestBid parse tokenId) fun _ =>
  require (s.config.minAskDepth ≤ (ctx.books.askDepth parse tokenId).getD 0) <|
  (s.sharesChecked bestAsk).bind fun shares =>
  require (0 < shares) <|
  some (some (buy pair tokenId bestAsk shares))

def sizedAsk (s : LateEntryStrategy) (pair : MarketPair) (tokenId : TokenId) (ctx : StrategyContext) :
    Option Decimal := do
  guard (ctx.position tokenId).isFlat
  let complementId ← pair.complement tokenId
  guard (ctx.position complementId).isFlat
  guard (s.entryTracking.lookup tokenId).isNone
  let bestAsk ← ctx.bestAsk parse tokenId
  guard (s.config.minEntryPrice ≤ bestAsk)
  guard (bestAsk < 99 / 100)
  let _ ← ctx.bestBid parse tokenId
  guard (s.config.minAskDepth ≤ (ctx.books.askDepth parse tokenId).getD 0)
  some bestAsk

theorem exactly_entryOfChecked (s : LateEntryStrategy) (pair : MarketPair) (tokenId : TokenId)
    (ctx : StrategyContext) :
    Exactly (s.entryOfChecked parse pair tokenId ctx) (s.entryOf parse pair tokenId ctx)
      (∀ ask ∈ s.sizedAsk parse pair tokenId ctx, ask ≠ 0) := by
  rw [entryOfChecked, entryOf, sizedAsk]
  refine .require fun _ => .early fun complementId _ => .require fun _ => .require fun _ => ?_
  refine .early fun bestAsk _ => .require fun _ => .require fun _ => .early fun _ _ => .require fun _ => ?_
  exact .reached ((s.exactly_sharesChecked bestAsk).andThen (require_eq fun _ => rfl))

def checkEntryChecked (s : LateEntryStrategy) (registry : MarketPairRegistry) (tokenId : TokenId)
    (ctx : StrategyContext) : Option (Option OrderIntent × LateEntryStrategy) :=
  match registry.getByToken tokenId with
  | none => some (none, s)
  | some pair =>
    if isOnCooldown s.lastTrade s.config.cooldownMs pair.conditionId ctx.now then some (none, s)
    else
      let s := { s with lastTrade := s.lastTrade.insert pair.conditionId ctx.now }
      (s.entryOfChecked parse pair tokenId ctx).map fun entry => (entry, s)

def tryEntriesChecked (s : LateEntryStrategy) (registry : MarketPairRegistry) (ctx : StrategyContext) :
    List TokenId → Option (List OrderIntent × LateEntryStrategy)
  | [] => some ([], s)
  | tokenId :: tokenIds =>
    match ctx.bestAsk parse tokenId with
    | none => s.tryEntriesChecked registry ctx tokenIds
    | some ask =>
      if s.config.minEntryPrice ≤ ask ∧ ask < 99 / 100 then
        (s.checkEntryChecked parse registry tokenId ctx).bind fun
          | (none, s) => s.tryEntriesChecked registry ctx tokenIds
          | (some intent, s) =>
            ({ s with tradeCount := s.tradeCount + 1 }.tryEntriesChecked registry ctx tokenIds).map fun
              | (intents, s) => (intent :: intents, s)
      else s.tryEntriesChecked registry ctx tokenIds

def openAsk (s : LateEntryStrategy) (registry : MarketPairRegistry) (tokenId : TokenId) (ctx : StrategyContext) :
    Option Decimal := (registry.getByToken tokenId).bind fun pair => s.sizedAsk parse pair tokenId ctx

section Tokens
variable {parse} {s : LateEntryStrategy} {registry : MarketPairRegistry} {ctx : StrategyContext} {tokenId : TokenId}

theorem tryEntriesChecked_of_not_claims (h : ∀ c, ¬s.Claims parse registry ctx tokenId c) (tokenIds : List TokenId) :
    s.tryEntriesChecked parse registry ctx (tokenId :: tokenIds) =
      s.tryEntriesChecked parse registry ctx tokenIds := by
  rw [tryEntriesChecked]
  cases hask : ctx.bestAsk parse tokenId with
  | none => rfl
  | some ask =>
    dsimp only
    by_cases hgate : s.config.minEntryPrice ≤ ask ∧ ask < 99 / 100
    · have hkept : s.checkEntryChecked parse registry tokenId ctx = some (none, s) := by
        rw [checkEntryChecked]
        cases hpair : registry.getByToken tokenId with
        | none => rfl
        | some pair =>
          refine if_pos (eq_true_of_ne_false fun hready => ?_)
          exact h pair.conditionId ⟨⟨ask, hask, hgate⟩, ⟨pair, hpair, rfl⟩, hready⟩
      rw [if_pos hgate, hkept]
      rfl
    · rw [if_neg hgate]

theorem Claims.exactly_checkEntryChecked {conditionId : ConditionId}
    (h : s.Claims parse registry ctx tokenId conditionId) :
    Exactly (s.checkEntryChecked parse registry tokenId ctx)
      (s.openEntry parse registry ctx tokenId, s.claim conditionId ctx.now s.tradeCount)
      (∀ ask ∈ s.openAsk parse registry tokenId ctx, ask ≠ 0) := by
  obtain ⟨-, ⟨pair, hpair, rfl⟩, hready⟩ := h
  have hentry := exactly_entryOfChecked parse (s.claim pair.conditionId ctx.now s.tradeCount) pair tokenId ctx
  rw [checkEntryChecked, openEntry, openAsk, hpair]
  dsimp only
  rw [hready]
  exact hentry.map _

/-- Each token that is reached divides by its own ask. -/
theorem exactly_tryEntriesChecked (s : LateEntryStrategy) (tokenIds : List TokenId) :
    Exactly (s.tryEntriesChecked parse registry ctx tokenIds) (s.tryEntries parse registry ctx tokenIds)
      (∀ tokenId c, s.Reaches parse registry ctx tokenIds tokenId c →
        ∀ ask ∈ s.openAsk parse registry tokenId ctx, ask ≠ 0) := by
  induction tokenIds generalizing s with
  | nil => exact .of_eq rfl fun tokenId c hreach => absurd hreach (s.not_reaches_nil tokenId c)
  | cons head tokenIds ih =>
    by_cases hclaims : ∃ c, s.Claims parse registry ctx head c
    · obtain ⟨claimed, hclaims⟩ := hclaims
      have hcheck := hclaims.exactly_checkEntryChecked
      -- the tokens after the claimed one are reached from the state that the claim leaves, whatever has been counted
      have hothers : ∀ tradeCount, (∀ ask ∈ s.openAsk parse registry head ctx, ask ≠ 0) ∧
          (∀ tokenId c, (s.claim claimed ctx.now tradeCount).Reaches parse registry ctx tokenIds tokenId c →
            ∀ ask ∈ s.openAsk parse registry tokenId ctx, ask ≠ 0) ↔
          ∀ tokenId c, s.Reaches parse registry ctx (head :: tokenIds) tokenId c →
            ∀ ask ∈ s.openAsk parse registry tokenId ctx, ask ≠ 0 := by
        intro tradeCount
        simp only [reaches_cons_of_claims hclaims tokenIds _ _ tradeCount]
        constructor
        · rintro ⟨hhead, hrest⟩ tokenId c (⟨rfl, -⟩ | hreach)
          · exact hhead
          · exact hrest tokenId c hreach
        · exact fun hall => ⟨hall head claimed (.inl ⟨rfl, rfl⟩), fun tokenId c hreach => hall tokenId c (.inr hreach)⟩
      rw [hclaims.tryEntries, tryEntriesChecked]
      obtain ⟨⟨ask, hask, hgate⟩, -⟩ := hclaims
      rw [hask]
      dsimp only
      rw [if_pos hgate]
      cases hopen : s.openEntry parse registry ctx head with
      | none =>
        rw [hopen] at hcheck
        exact Exactly.congr (hcheck.bind (ih (s.claim claimed ctx.now s.tradeCount))) (hothers _)
      | some intent =>
        rw [hopen] at hcheck
        exact Exactly.congr (hcheck.bind ((ih (s.claim claimed ctx.now (s.tradeCount + 1))).map _)) (hothers _)
    · have hnone := not_exists.mp hclaims
      rw [tryEntriesChecked_of_not_claims hnone, tryEntries_of_not_claims hnone]
      simp only [reaches_cons_of_not_claims hnone]
      exact ih s

end Tokens

def onBookUpdateChecked (s : LateEntryStrategy) (registry : MarketPairRegistry) (tokenId : TokenId)
    (ctx : StrategyContext) (utcNow : ℕ) : Option (List OrderIntent × LateEntryStrategy) :=
  if s.enabled = false then some ([], s)
  else (s.secsToResolutionChecked utcNow).bind fun secsRemaining =>
    if s.entryWindowSecs < secsRemaining then some ([], s)
    else if secsRemaining < 5 then some ([], s)
    else match registry.getByToken tokenId with
      | none => some ([], s)
      | some pair => s.tryEntriesChecked parse registry ctx (ctx.tokensByAskAsc parse pair).reverse

def NonzeroDivisors (s : LateEntryStrategy) (registry : MarketPairRegistry) (tokenId : TokenId)
    (ctx : StrategyContext) (utcNow : ℕ) : Prop :=
  s.enabled = true → s.secsToResolution utcNow ≤ s.entryWindowSecs → 5 ≤ s.secsToResolution utcNow →
    ∀ pair ∈ registry.getByToken tokenId, ∀ tokenId c,
      s.Reaches parse registry ctx (ctx.tokensByAskAsc parse pair).reverse tokenId c →
        ∀ ask ∈ s.openAsk parse registry tokenId ctx, ask ≠ 0

theorem exactly_onBookUpdateChecked (s : LateEntryStrategy) (registry : MarketPairRegistry) (tokenId : TokenId)
    (ctx : StrategyContext) (utcNow : ℕ) :
    Exactly (s.onBookUpdateChecked parse registry tokenId ctx utcNow)
      (s.onBookUpdate parse registry tokenId ctx utcNow) (s.NonzeroDivisors parse registry tokenId ctx utcNow) := by
  rw [onBookUpdateChecked, onBookUpdate, NonzeroDivisors, ← Bool.not_eq_false, secsToResolutionChecked_eq,
    Option.bind_some]
  simp only [← not_lt]
  refine .otherwise fun _ => .otherwise fun _ => .otherwise fun _ => ?_
  cases registry.getByToken tokenId with
  | none => exact .nothing rfl
  | some pair => exact (s.exactly_tryEntriesChecked _).reached

end PolyBot.LateEntryStrategy
