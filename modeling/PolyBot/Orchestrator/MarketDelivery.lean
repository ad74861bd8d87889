import PolyBot.Orchestrator.MarketRefresh
import PolyBot.Strategy.Subscriptions

namespace PolyBot.Bot.MarketDelivery
open General.AdditiveRuns General.KeyedStore MarketRefresh Subscriptions Subscriptions.StrategyRouter

structure State (β : Type*) where
  feeds : Feeds β
  router : Subscriptions.StrategyRouter

inductive Event where
  | refresh (discovered : Option (List MarketPair))
  | enable (name : String)
  | disable (name : String)
  | bookUpdate (marketId : ConditionId) (answer : String → List OrderIntent)

variable {β : Type*}

/-- A registration that is refused leaves the router as it is. -/
def registerKind (registry : MarketPairRegistry) (r : Subscriptions.StrategyRouter) (kind : StrategyKind) :
    Subscriptions.StrategyRouter :=
  match register r kind registry with
  | .ok r' => r'
  | .error _ => r

def start (parse : ConditionId → Option β) (marketPairs : List MarketPair) (credentials : Bool)
    (kinds : List StrategyKind) : State β :=
  let feeds := MarketRefresh.start parse marketPairs credentials
  ⟨feeds, kinds.foldl (registerKind feeds.registry) ∅⟩

def step (s : State β) : Event → State β
  | .refresh discovered => { s with feeds := refreshMarkets s.feeds discovered }
  | .enable name =>
    match s.router.enable name with
    | .ok router => { s with router := router }
    | .error _ => s
  | .disable name =>
    match s.router.disable name with
    | .ok router => { s with router := router }
    | .error _ => s
  | .bookUpdate marketId answer => { s with router := (onBookUpdate answer s.router marketId).2 }

def evalCount (r : Subscriptions.StrategyRouter) (kind : StrategyKind) : Option ℕ :=
  (r.lookup kind.name).map (·.evalCount)

def Delivers (s : State β) : Prop :=
  ∀ marketId ∈ s.feeds.registry.allConditionIds, ∀ kind : StrategyKind, kind.subscribesToAll = true →
    isEnabled s.router kind.name = true → ∀ answer,
      evalCount (onBookUpdate answer s.router marketId).2 kind = (evalCount s.router kind).map (· + 1)

/-- The markets that the last successful discovery found, those of the start before there is one. -/
def marketsInForce (marketPairs : List MarketPair) (events : List Event) : List ConditionId :=
  events.foldl (fun ids event => match event with
    | .refresh (some discovered) => discovered.map (·.conditionId)
    | _ => ids) (marketPairs.map (·.conditionId))

def SomeEnabled (s : State β) : Prop :=
  ∃ kind : StrategyKind, kind.subscribesToAll = true ∧ isEnabled s.router kind.name = true

def SubscribedOver (registry : MarketPairRegistry) (r : Subscriptions.StrategyRouter) : Prop :=
  ∀ (kind : StrategyKind) (reg : RegisteredStrategy), r.lookup kind.name = some reg →
    reg.subscribedMarkets = (kind.subscribedMarkets registry).toFinset

variable {registry : MarketPairRegistry} {r : Subscriptions.StrategyRouter}

private theorem SubscribedOver.insert (h : SubscribedOver registry r) {name : String} {reg : RegisteredStrategy}
    (hreg : ∀ kind : StrategyKind, kind.name = name →
      reg.subscribedMarkets = (kind.subscribedMarkets registry).toFinset) :
    SubscribedOver registry (AList.insert name reg r) := by
  intro kind other hlookup
  by_cases hname : kind.name = name
  · rw [hname, AList.lookup_insert] at hlookup
    rw [← Option.some.inj hlookup]
    exact hreg kind hname
  · rw [AList.lookup_insert_ne hname] at hlookup
    exact h kind other hlookup

theorem SubscribedOver.registerKind (h : SubscribedOver registry r) (kind : StrategyKind) :
    SubscribedOver registry (registerKind registry r kind) := by
  unfold MarketDelivery.registerKind
  split
  · rename_i r' hok
    rw [StrategyRouter.register] at hok
    split at hok
    · cases hok
    · cases hok
      refine h.insert fun other hname => ?_
      rw [StrategyKind.name_injective hname]
  · exact h

theorem SubscribedOver.setEnabled (h : SubscribedOver registry r) {name : String} {enabled : Bool}
    {r' : Subscriptions.StrategyRouter} (hok : r.setEnabled name enabled = .ok r') : SubscribedOver registry r' := by
  unfold StrategyRouter.setEnabled at hok
  split at hok
  · cases hok
  · rename_i reg hlookup
    cases hok
    refine h.insert fun kind hname => ?_
    exact h kind reg (hname ▸ hlookup)

theorem SubscribedOver.onBookUpdate (h : SubscribedOver registry r) (answer : String → List OrderIntent)
    (marketId : ConditionId) : SubscribedOver registry (onBookUpdate answer r marketId).2 := by
  intro kind reg hlookup
  rw [StrategyRouter.onBookUpdate, lookup_mapValues, Option.map_eq_some_iff] at hlookup
  obtain ⟨old, hold, rfl⟩ := hlookup
  rw [← h kind old hold]
  split <;> rfl

/-- Subscriptions are never renewed. -/
theorem subscribedOver_step {s : State β} (h : SubscribedOver registry s.router) (event : Event) :
    SubscribedOver registry (step s event).router := by
  cases event with
  | refresh discovered => exact h
  | enable name | disable name =>
    unfold step
    dsimp only
    split
    · rename_i hok
      exact h.setEnabled hok
    · exact h
  | bookUpdate marketId answer => exact h.onBookUpdate answer marketId

theorem subscribedOver_run (parse : ConditionId → Option β) (marketPairs : List MarketPair) (credentials : Bool)
    (kinds : List StrategyKind) (events : List Event) :
    SubscribedOver (MarketRefresh.start parse marketPairs credentials).registry
      (events.foldl step (start parse marketPairs credentials kinds)).router := by
  induction events using List.reverseRecOn with
  | nil =>
    suffices hkinds : ∀ r, SubscribedOver (MarketRefresh.start parse marketPairs credentials).registry r →
        SubscribedOver (MarketRefresh.start parse marketPairs credentials).registry
          (kinds.foldl (registerKind (MarketRefresh.start parse marketPairs credentials).registry) r) by
      refine hkinds ∅ fun kind reg hlookup => ?_
      cases hlookup
    intro r hr
    induction kinds generalizing r with
    | nil => exact hr
    | cons kind kinds ih => exact ih _ (hr.registerKind kind)
  | append_singleton events event ih =>
    rw [List.foldl_concat]
    exact subscribedOver_step ih event

/-- Only a refresh changes the markets. -/
theorem feeds_step (s : State β) (event : Event) : (step s event).feeds = match event with
    | .refresh discovered => refreshMarkets s.feeds discovered
    | _ => s.feeds := by
  cases event with
  | refresh discovered => rfl
  | enable name | disable name =>
    unfold step
    dsimp only
    split <;> rfl
  | bookUpdate marketId answer => rfl

theorem mem_allConditionIds_run (parse : ConditionId → Option β) (marketPairs : List MarketPair) (credentials : Bool)
    (kinds : List StrategyKind) (events : List Event) (marketId : ConditionId) :
    marketId ∈ (events.foldl step (start parse marketPairs credentials kinds)).feeds.registry.allConditionIds ↔
      marketId ∈ marketsInForce marketPairs events := by
  induction events using List.reverseRecOn with
  | nil => exact mem_allConditionIds_start
  | append_singleton events event ih =>
    rw [List.foldl_concat, feeds_step, marketsInForce, List.foldl_concat, ← marketsInForce]
    cases event with
    | refresh discovered =>
      cases discovered with
      | none => exact ih
      | some pairs => exact mem_allConditionIds_refresh
    | enable name => exact ih
    | disable name => exact ih
    | bookUpdate marketId answer => exact ih

/-- A strategy is called exactly if it evaluates the market. -/
private theorem called_iff {kind : StrategyKind} {reg : RegisteredStrategy} (hlookup : r.lookup kind.name = some reg)
    (answer : String → List OrderIntent) (marketId : ConditionId) :
    evalCount (onBookUpdate answer r marketId).2 kind = (evalCount r kind).map (· + 1) ↔
      evaluates marketId reg = true := by
  rw [evalCount, evalCount, StrategyRouter.onBookUpdate, lookup_mapValues, hlookup]
  simp only [Option.map_some, Option.some.injEq]
  split
  · rename_i h
    simp [h]
  · rename_i h
    simp [h]

private theorem isEnabled_eq_true_iff (r : Subscriptions.StrategyRouter) (name : String) :
    isEnabled r name = true ↔ ∃ reg, r.lookup name = some reg ∧ (reg.enabled && reg.isEnabled) = true := by
  unfold isEnabled
  cases r.lookup name <;> simp

/-- In a state, delivery depends on the markets at the time of the registrations. -/
theorem delivers_iff {s : State β} (h : SubscribedOver registry s.router) : Delivers s ↔
    (SomeEnabled s → registry.allConditionIds = [] ∨
      ∀ marketId ∈ s.feeds.registry.allConditionIds, marketId ∈ registry.allConditionIds) := by
  have hreached : ∀ (kind : StrategyKind), kind.subscribesToAll = true → isEnabled s.router kind.name = true →
      ∀ answer marketId, evalCount (onBookUpdate answer s.router marketId).2 kind =
          (evalCount s.router kind).map (· + 1) ↔
        registry.allConditionIds = [] ∨ marketId ∈ registry.allConditionIds := by
    intro kind hall henabled answer marketId
    obtain ⟨reg, hlookup, hon⟩ := (isEnabled_eq_true_iff _ _).mp henabled
    rw [called_iff hlookup, evaluates, hon, Bool.true_and, decide_eq_true_iff, h kind reg hlookup,
      StrategyKind.subscribedMarkets_of_subscribesToAll hall, List.toFinset_eq_empty_iff, List.mem_toFinset]
  constructor
  · rintro hdelivers ⟨kind, hall, henabled⟩
    rw [or_iff_not_imp_left]
    intro hsome marketId hmarket
    have hcalled := hdelivers marketId hmarket kind hall henabled fun _ => []
    exact ((hreached kind hall henabled _ marketId).mp hcalled).resolve_left hsome
  · intro hmarkets marketId hmarket kind hall henabled answer
    rw [hreached kind hall henabled]
    exact (hmarkets ⟨kind, hall, henabled⟩).imp_right fun hin => hin marketId hmarket

/-- In every state of a run the updates of all registered markets reach the enabled strategies that subscribe to all of
them exactly if there were no markets at the start, or no market is in force that was not there, whenever one of these
strategies is enabled. -/
theorem delivery_after_refresh_iff (parse : ConditionId → Option β) (marketPairs : List MarketPair) (credentials : Bool)
    (kinds : List StrategyKind) (events : List Event) :
    (∀ p, p <+: events → Delivers (p.foldl step (start parse marketPairs credentials kinds))) ↔
      marketPairs = [] ∨ ∀ p, p <+: events → SomeEnabled (p.foldl step (start parse marketPairs credentials kinds)) →
        ∀ marketId ∈ marketsInForce marketPairs p, marketId ∈ marketPairs.map (·.conditionId) := by
  have hempty : (MarketRefresh.start parse marketPairs credentials).registry.allConditionIds = [] ↔
      marketPairs = [] := by
    rw [List.eq_nil_iff_forall_not_mem, ← List.map_eq_nil_iff (f := fun pair : MarketPair => pair.conditionId),
      List.eq_nil_iff_forall_not_mem]
    exact forall_congr' fun _ => not_congr mem_allConditionIds_start
  simp only [delivers_iff (subscribedOver_run parse marketPairs credentials kinds _), hempty, mem_allConditionIds_run,
    mem_allConditionIds_start]
  rw [← forall_or_left]
  refine forall_congr' fun p => ?_
  tauto

def nextPair : MarketPair := .newUpDown (conditionOf '2') "21" "22"

/-- The strategy that was registered over the first market is not called for the one that replaces it. -/
theorem replaced_market_not_delivered :
    ¬∀ p, p <+: [Event.refresh (some [nextPair])] →
      Delivers (p.foldl step (start some [.newUpDown (conditionOf '1') "11" "12"] true [.MathArb])) := by
  intro hall
  have hcalled := hall _ List.prefix_rfl (conditionOf '2') (by decide +kernel) .MathArb rfl (by decide +kernel)
    fun _ => []
  revert hcalled
  decide +kernel

end PolyBot.Bot.MarketDelivery
