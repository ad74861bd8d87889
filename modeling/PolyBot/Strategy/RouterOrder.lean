import PolyBot.Strategy.Conflicts
import PolyBot.Strategy.StrategyRuns

/-! The router over strategies of any kind, and that the order in which it goes through them does not show in what it
returns. -/

namespace PolyBot.AnyStrategies
open General.KeyedStore General.StableSort

variable {σ : Type*}

/-- What the router calls of a strategy; a call leaves the strategy as it is afterwards. -/
structure StrategyTrait (σ : Type*) where
  isEnabled : σ → Bool
  onBookUpdate : ConditionId → TokenId → StrategyContext → σ → List OrderIntent × σ
  onFill : Fill → StrategyContext → σ → List OrderIntent × σ
  onTick : StrategyContext → σ → List OrderIntent × σ

structure RegisteredStrategy (σ : Type*) where
  strategy : σ
  enabled : Bool
  subscribedMarkets : Finset ConditionId

/-- The registered strategies by name; the entries stand in the order in which they are gone through. -/
abbrev StrategyRouter (σ : Type*) := Store String (RegisteredStrategy σ)

inductive RouterCall where
  | bookUpdate (marketId : ConditionId) (tokenId : TokenId) (ctx : StrategyContext)
  | fill (f : Fill) (ctx : StrategyContext)
  | tick (ctx : StrategyContext)

namespace RouterCall

/-- Book updates go to the subscribed strategies only. -/
def reaches (reg : RegisteredStrategy σ) : RouterCall → Bool
  | bookUpdate marketId _ _ => reg.subscribedMarkets = ∅ ∨ marketId ∈ reg.subscribedMarkets
  | fill _ _ | tick _ => true

def callback (t : StrategyTrait σ) : RouterCall → σ → List OrderIntent × σ
  | bookUpdate marketId tokenId ctx => t.onBookUpdate marketId tokenId ctx
  | fill f ctx => t.onFill f ctx
  | tick ctx => t.onTick ctx

end RouterCall

namespace RegisteredStrategy

def call (t : StrategyTrait σ) (c : RouterCall) (reg : RegisteredStrategy σ) :
    List OrderIntent × RegisteredStrategy σ :=
  if reg.enabled && t.isEnabled reg.strategy && c.reaches reg then
    ((c.callback t reg.strategy).1, { reg with strategy := (c.callback t reg.strategy).2 })
  else ([], reg)

theorem call_fst (t : StrategyTrait σ) (c : RouterCall) (reg : RegisteredStrategy σ) :
    (reg.call t c).1 =
      if reg.enabled && t.isEnabled reg.strategy && c.reaches reg then (c.callback t reg.strategy).1 else [] :=
  apply_ite Prod.fst _ _ _

end RegisteredStrategy

namespace StrategyRouter
variable (t : StrategyTrait σ)

def route (r : StrategyRouter σ) (c : RouterCall) : List OrderIntent × StrategyRouter σ :=
  (PolyBot.StrategyRouter.resolveConflicts (r.entries.flatMap fun e => (e.2.call t c).1),
    mapValues (fun _ reg => (reg.call t c).2) r)

def onBookUpdate (r : StrategyRouter σ) (marketId : ConditionId) (tokenId : TokenId) (ctx : StrategyContext) :
    List OrderIntent × StrategyRouter σ := route t r (.bookUpdate marketId tokenId ctx)

def onFill (r : StrategyRouter σ) (f : Fill) (ctx : StrategyContext) : List OrderIntent × StrategyRouter σ :=
  route t r (.fill f ctx)

def onTick (r : StrategyRouter σ) (ctx : StrategyContext) : List OrderIntent × StrategyRouter σ := route t r (.tick ctx)

def PrioritiesApart (r : StrategyRouter σ) (c : RouterCall) : Prop :=
  r.entries.Pairwise fun e e' => ∀ i ∈ (e.2.call t c).1, ∀ j ∈ (e'.2.call t c).1, i.priority ≠ j.priority

variable {t} {r r' : StrategyRouter σ} {c : RouterCall}

/-- The same strategies, gone through in another order, have the same intents returned and end up the same. -/
theorem route_of_perm (hperm : r.entries.Perm r'.entries) (hapart : PrioritiesApart t r c) :
    (route t r c).1 = (route t r' c).1 ∧ (route t r c).2.entries.Perm (route t r' c).2.entries := by
  have hsorted := (isStableSort_insertionSort OrderIntent.priority _).unique
    (isStableSort_insertionSort OrderIntent.priority _) (filter_flatMap_of_perm hperm hapart)
  exact ⟨congrArg (PolyBot.StrategyRouter.dropConflicts []) hsorted, hperm.map _⟩

/-- What the router returns on book updates, fills and ticks does not depend on the order of its strategies, as long as
no two of them emit intents of one priority. -/
theorem map_order_does_not_show (t : StrategyTrait σ) (hperm : r.entries.Perm r'.entries) :
    (∀ marketId tokenId ctx, PrioritiesApart t r (.bookUpdate marketId tokenId ctx) →
      (onBookUpdate t r marketId tokenId ctx).1 = (onBookUpdate t r' marketId tokenId ctx).1) ∧
    (∀ f ctx, PrioritiesApart t r (.fill f ctx) → (onFill t r f ctx).1 = (onFill t r' f ctx).1) ∧
    (∀ ctx, PrioritiesApart t r (.tick ctx) → (onTick t r ctx).1 = (onTick t r' ctx).1) ∧
    ∀ c, PrioritiesApart t r c → (route t r c).2.entries.Perm (route t r' c).2.entries :=
  ⟨fun _ _ _ hapart => (route_of_perm hperm hapart).1, fun _ _ hapart => (route_of_perm hperm hapart).1,
    fun _ hapart => (route_of_perm hperm hapart).1, fun _ hapart => (route_of_perm hperm hapart).2⟩

private def buyers : StrategyTrait OrderIntent where
  isEnabled := fun _ => true
  onBookUpdate := fun marketId tokenId _ i => ([{ i with marketId := marketId, tokenId := tokenId }], i)
  onFill := fun _ _ i => ([], i)
  onTick := fun _ i => ([], i)

private def registered (name : String) (priority : ℕ) (r : StrategyRouter OrderIntent) : StrategyRouter OrderIntent :=
  r.insert name ⟨(OrderIntent.new "" "" .Buy (1 / 2) 100 .Normal name).withPriority priority, true, ∅⟩

private def noBooks : StrategyContext := ⟨∅, Ledger.new 1000, 0⟩

/-- Two strategies that buy the same token at different priorities. -/
theorem two_orders_agree :
    (onBookUpdate buyers (registered "low" 10 (registered "high" 100 ∅)) "m1" "yes" noBooks).1 =
      (onBookUpdate buyers (registered "high" 100 (registered "low" 10 ∅)) "m1" "yes" noBooks).1 :=
  (map_order_does_not_show buyers (List.Perm.swap _ _ _)).1 "m1" "yes" noBooks (by
    unfold PrioritiesApart
    decide +kernel)

end StrategyRouter

def botStrategies (parse : String → Option Decimal) (assetSymbol : MarketPair → Option String)
    (registry : MarketPairRegistry) (prices : ExternalPriceStore) (utcNow : ℕ) (uuid : String) :
    StrategyTrait AllStrategies.Strategy where
  isEnabled := (·.isEnabled)
  onBookUpdate := fun marketId tokenId ctx s =>
    s.onBookUpdate parse assetSymbol ⟨registry, prices, ctx, utcNow, uuid⟩ marketId tokenId
  onFill := fun f ctx s => ([], s.onFill f ctx.now)
  onTick := fun ctx s => s.onTick parse ⟨registry, prices, ctx, utcNow, uuid⟩

section Bot
variable {parse : String → Option Decimal} {assetSymbol : MarketPair → Option String} {registry : MarketPairRegistry}
  {prices : ExternalPriceStore} {utcNow : ℕ} {uuid : String}

def inOrder (r : StrategyRouter AllStrategies.Strategy) : AllStrategies.StrategyRouter :=
  r.entries.map fun e => ⟨e.2.strategy, e.2.enabled, e.2.subscribedMarkets⟩

variable (r : StrategyRouter AllStrategies.Strategy) (ctx : StrategyContext)

/-- The router of the bot's strategies is the general one. -/
theorem inOrder_onBookUpdate (marketId : ConditionId) (tokenId : TokenId) :
    ((inOrder r).onBookUpdate parse assetSymbol ⟨registry, prices, ctx, utcNow, uuid⟩ marketId tokenId).1 =
      (r.onBookUpdate (botStrategies parse assetSymbol registry prices utcNow uuid) marketId tokenId ctx).1 := by
  refine congrArg PolyBot.StrategyRouter.resolveConflicts ?_
  rw [inOrder, List.flatMap_map]
  refine congrArg (List.flatMap · r.entries) (funext fun e => ?_)
  rw [RegisteredStrategy.call_fst]
  rfl

theorem inOrder_onTick :
    ((inOrder r).onTick parse ⟨registry, prices, ctx, utcNow, uuid⟩).1 =
      (r.onTick (botStrategies parse assetSymbol registry prices utcNow uuid) ctx).1 := by
  refine congrArg PolyBot.StrategyRouter.resolveConflicts ?_
  rw [inOrder, List.flatMap_map]
  refine congrArg (List.flatMap · r.entries) (funext fun e => ?_)
  rw [RegisteredStrategy.call_fst, RouterCall.reaches, Bool.and_true]
  rfl

end Bot

end PolyBot.AnyStrategies
