import PolyBot.Strategy.Dispatch
import PolyBot.Strategy.MakerTtl
import PolyBot.Strategy.MathArb
import PolyBot.Strategy.TemporalArb

/-! The seven strategies behind one router. -/

namespace PolyBot
open General.KeyedStore

namespace MakerRebateArbStrategy
variable (parse : String → Option Decimal)

def shutdownLeg (ctx : StrategyContext) (p : PendingArb) (tokenId : TokenId) : List OrderIntent :=
  let shares := (ctx.position tokenId).shares
  if 0 < shares then unwindLeg parse ctx p tokenId shares else []

def onShutdown (s : MakerRebateArbStrategy) (ctx : StrategyContext) : List OrderIntent :=
  (values s.pendingArbs).flatMap fun p => shutdownLeg parse ctx p p.yesTokenId ++ shutdownLeg parse ctx p p.noTokenId

end MakerRebateArbStrategy

namespace AllStrategies

/-- What the strategies share with the bot when they are called; `uuid` names a group and `utcNow` counts seconds. -/
structure Surroundings where
  registry : MarketPairRegistry
  prices : ExternalPriceStore
  ctx : StrategyContext
  utcNow : ℕ
  uuid : String

inductive Strategy where
  | mathArb (s : MathArbStrategy)
  | makerRebateArb (s : MakerRebateArbStrategy)
  | temporalArb (s : TemporalArbStrategy)
  | exit (s : ExitStrategy)

namespace Strategy

def name : Strategy → String
  | mathArb _ => "MathArbStrategy"
  | makerRebateArb _ => "MakerRebateArbStrategy"
  | temporalArb _ => TemporalArbStrategy.name
  | exit s => s.name

def isEnabled : Strategy → Bool
  | mathArb s => s.enabled
  | makerRebateArb s => s.enabled
  | temporalArb s => s.enabled
  | exit s => s.isEnabled

/-- The arbitrage strategies subscribe to the markets that they find registered, the others to all. -/
def subscribedMarkets (registry : MarketPairRegistry) : Strategy → List ConditionId
  | mathArb _ | makerRebateArb _ | temporalArb _ => registry.allConditionIds
  | exit _ => []

variable (parse : String → Option Decimal) (assetSymbol : MarketPair → Option String)

def onBookUpdate (around : Surroundings) (marketId : ConditionId) (tokenId : TokenId) :
    Strategy → List OrderIntent × Strategy
  | mathArb s =>
    ({ s with registry := around.registry }.onBookUpdate parse marketId tokenId around.ctx around.uuid).map id mathArb
  | makerRebateArb s =>
    ({ s with registry := around.registry }.onBookUpdate parse marketId tokenId around.ctx around.uuid).map id
      makerRebateArb
  | temporalArb s =>
    (s.onBookUpdate parse assetSymbol around.registry around.prices marketId tokenId around.ctx).map id temporalArb
  | exit s => (s.onBookUpdate parse around.registry tokenId around.ctx around.utcNow).map id exit

/-- The temporal strategy leaves ticks to the default, which does nothing. -/
def onTick (around : Surroundings) : Strategy → List OrderIntent × Strategy
  | mathArb s => (s.onTick around.ctx).map id mathArb
  | makerRebateArb s => (s.onTick parse around.ctx).map id makerRebateArb
  | temporalArb s => ([], temporalArb s)
  | exit s => (s.onTick parse around.registry around.ctx).map id exit

/-- Only the maker strategy unwinds at shutdown; the others log. -/
def onShutdown (ctx : StrategyContext) : Strategy → List OrderIntent
  | makerRebateArb s => s.onShutdown parse ctx
  | mathArb _ | temporalArb _ | exit _ => []

def Untracked : Strategy → Prop
  | exit s => s.Untracked
  | mathArb _ | makerRebateArb _ | temporalArb _ => True

variable {parse assetSymbol}

theorem Untracked.onBookUpdate {s : Strategy} (h : s.Untracked) (around : Surroundings) (marketId : ConditionId)
    (tokenId : TokenId) : (s.onBookUpdate parse assetSymbol around marketId tokenId).2.Untracked := by
  cases s with
  | exit s => exact ExitStrategy.Untracked.onBookUpdate h tokenId around.ctx around.utcNow
  | mathArb s | makerRebateArb s | temporalArb s => trivial

/-- On a tick only the maker strategy has anything to sell. -/
theorem Untracked.onTick (parse : String → Option Decimal) {s : Strategy} (h : s.Untracked) (around : Surroundings) :
    (s.onTick parse around).2.Untracked ∧
      ((s.onTick parse around).1 = [] ∨ ∃ m : MakerRebateArbStrategy, s = makerRebateArb m) := by
  cases s with
  | exit s =>
    have hquiet : (s.onTick parse around.registry around.ctx).1 = [] ∧
        (s.onTick parse around.registry around.ctx).2.Untracked := ExitStrategy.Untracked.onTick h around.ctx
    exact ⟨hquiet.2, .inl hquiet.1⟩
  | makerRebateArb m => exact ⟨trivial, .inr ⟨m, rfl⟩⟩
  | mathArb s | temporalArb s => exact ⟨trivial, .inl rfl⟩

end Strategy

/-- A strategy as it is registered; no subscription means all markets. -/
structure RegisteredStrategy where
  strategy : Strategy
  enabled : Bool
  subscribedMarkets : Finset ConditionId

namespace RegisteredStrategy

def isEnabled (reg : RegisteredStrategy) : Bool := reg.enabled && reg.strategy.isEnabled

def evaluates (marketId : ConditionId) (reg : RegisteredStrategy) : Bool :=
  reg.isEnabled && (reg.subscribedMarkets = ∅ ∨ marketId ∈ reg.subscribedMarkets)

/-- A tick of a maker strategy that is enabled emits the sales of its expired pairs. -/
theorem onTick_maker {parse : String → Option Decimal} {reg : RegisteredStrategy} (henabled : reg.isEnabled = true)
    {maker : MakerRebateArbStrategy} (hstrategy : reg.strategy = .makerRebateArb maker) (around : Surroundings) :
    (reg.strategy.onTick parse around).1 =
      (maker.expiredArbs around.ctx.now).flatMap (MakerRebateArbStrategy.expirySales parse around.ctx) := by
  have hboth : reg.enabled = true ∧ reg.strategy.isEnabled = true := Bool.and_eq_true _ _ ▸ henabled
  rw [hstrategy] at hboth ⊢
  exact MakerRebateArbStrategy.onTick_fst hboth.2

end RegisteredStrategy

abbrev StrategyRouter := List RegisteredStrategy

namespace StrategyRouter

def register (registry : MarketPairRegistry) (r : StrategyRouter) (s : Strategy) : StrategyRouter :=
  if r.any fun reg => reg.strategy.name = s.name then r
  else r ++ [⟨s, true, (s.subscribedMarkets registry).toFinset⟩]

def setEnabled (r : StrategyRouter) (name : String) (enabled : Bool) : StrategyRouter :=
  r.map fun reg => if reg.strategy.name = name then { reg with enabled := enabled } else reg

def dispatch (calls : RegisteredStrategy → Bool) (f : Strategy → List OrderIntent × Strategy) (r : StrategyRouter) :
    List OrderIntent × StrategyRouter :=
  (PolyBot.StrategyRouter.resolveConflicts (r.flatMap fun reg => if calls reg then (f reg.strategy).1 else []),
    r.map fun reg => if calls reg then { reg with strategy := (f reg.strategy).2 } else reg)

variable (parse : String → Option Decimal) (assetSymbol : MarketPair → Option String)

def onBookUpdate (r : StrategyRouter) (around : Surroundings) (marketId : ConditionId) (tokenId : TokenId) :
    List OrderIntent × StrategyRouter :=
  r.dispatch (·.evaluates marketId) (·.onBookUpdate parse assetSymbol around marketId tokenId)

def onTick (r : StrategyRouter) (around : Surroundings) : List OrderIntent × StrategyRouter :=
  r.dispatch (·.isEnabled) (·.onTick parse around)

def onShutdown (r : StrategyRouter) (ctx : StrategyContext) : List OrderIntent :=
  r.flatMap fun reg => reg.strategy.onShutdown parse ctx

variable {parse assetSymbol} {r : StrategyRouter} {calls : RegisteredStrategy → Bool}
  {f : Strategy → List OrderIntent × Strategy}

/-- An intent that is dispatched comes from a strategy that was called. -/
theorem exists_of_mem_dispatch {i : OrderIntent} (h : i ∈ (r.dispatch calls f).1) :
    ∃ reg ∈ r, calls reg = true ∧ i ∈ (f reg.strategy).1 := by
  obtain ⟨reg, hreg, hi⟩ := List.mem_flatMap.mp (PolyBot.StrategyRouter.mem_of_mem_resolveConflicts h)
  split_ifs at hi with hcalls
  · exact ⟨reg, hreg, hcalls, hi⟩
  · cases hi

/-- Nothing is dispatched exactly if every strategy called returns nothing. -/
theorem dispatch_eq_nil_iff :
    (r.dispatch calls f).1 = [] ↔ ∀ reg ∈ r, calls reg = true → (f reg.strategy).1 = [] := by
  rw [dispatch, PolyBot.StrategyRouter.resolveConflicts_eq_nil_iff, List.flatMap_eq_nil_iff]
  refine forall₂_congr fun reg _ => ?_
  by_cases hcalls : calls reg = true
  · rw [if_pos hcalls]
    exact ⟨fun h _ => h, fun h => h hcalls⟩
  · rw [if_neg hcalls]
    exact iff_of_true rfl fun h => absurd h hcalls

/-- A property of strategies that calls keep holds of all registered ones after a dispatch. -/
theorem forall_dispatch {P : Strategy → Prop} (h : ∀ reg ∈ r, P reg.strategy) (hkeep : ∀ s, P s → P (f s).2) :
    ∀ reg ∈ (r.dispatch calls f).2, P reg.strategy := by
  intro reg hreg
  obtain ⟨old, hold, rfl⟩ := List.mem_map.mp hreg
  split_ifs
  · exact hkeep old.strategy (h old hold)
  · exact h old hold

theorem forall_foldl_register {P : Strategy → Prop} {registry : MarketPairRegistry} {strategies : List Strategy}
    (h : ∀ reg ∈ r, P reg.strategy) (hnew : ∀ s ∈ strategies, P s) :
    ∀ reg ∈ strategies.foldl (register registry) r, P reg.strategy := by
  induction strategies generalizing r with
  | nil => exact h
  | cons s strategies ih =>
    refine ih (fun reg hreg => ?_) fun x hx => hnew x (List.mem_cons_of_mem s hx)
    unfold register at hreg
    split at hreg
    · exact h reg hreg
    · rcases List.mem_append.mp hreg with hold | hlast
      · exact h reg hold
      · rw [List.mem_singleton.mp hlast]
        exact hnew s List.mem_cons_self

theorem forall_setEnabled {P : Strategy → Prop} (h : ∀ reg ∈ r, P reg.strategy) (name : String) (enabled : Bool) :
    ∀ reg ∈ r.setEnabled name enabled, P reg.strategy := by
  intro reg hreg
  obtain ⟨old, hold, rfl⟩ := List.mem_map.mp hreg
  split_ifs
  · exact h old hold
  · exact h old hold

end StrategyRouter

end AllStrategies

end PolyBot
