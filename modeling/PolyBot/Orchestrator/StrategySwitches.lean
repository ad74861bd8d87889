import PolyBot.Orchestrator.Handlers
import PolyBot.Strategy.Subscriptions

/-! A strategy that is switched off at runtime, and the bot that is configured without it. -/

namespace PolyBot.Bot
open AllStrategies
open Subscriptions (StrategyKind)

namespace Config

def kinds : List StrategyKind :=
  [.MathArb, .MakerRebateArb, .TemporalArb, .Contrarian, .TboTrend, .TbtDivergence, .LateEntry]

def strategyOf (config : Config) (registry : MarketPairRegistry) : StrategyKind → Option Strategy
  | .MathArb => if config.mathArbEnabled then some (.mathArb (.withConfig registry config.mathArbConfig)) else none
  | .MakerRebateArb =>
    if config.makerRebateEnabled then some (.makerRebateArb (.withConfig registry config.rebateConfig)) else none
  | .TemporalArb =>
    if config.temporalArbEnabled then some (.temporalArb (.withConfig config.temporalConfig)) else none
  | .Contrarian => config.exits.contrarian.map fun c => .exit (.contrarian (.withConfig c))
  | .TboTrend => config.exits.tboTrend.map fun c => .exit (.tboTrend (.withConfig c))
  | .TbtDivergence => config.exits.tbtDivergence.map fun c => .exit (.tbtDivergence (.withConfig c))
  | .LateEntry => config.exits.lateEntry.map fun c => .exit (.lateEntry (.withConfig c))

def without (config : Config) : StrategyKind → Config
  | .MathArb => { config with mathArbEnabled := false }
  | .MakerRebateArb => { config with makerRebateEnabled := false }
  | .TemporalArb => { config with temporalArbEnabled := false }
  | .Contrarian => { config with exits := { config.exits with contrarian := none } }
  | .TboTrend => { config with exits := { config.exits with tboTrend := none } }
  | .TbtDivergence => { config with exits := { config.exits with tbtDivergence := none } }
  | .LateEntry => { config with exits := { config.exits with lateEntry := none } }

variable (config : Config) (registry : MarketPairRegistry)

@[simp] theorem mode_without (kind : StrategyKind) : (config.without kind).mode = config.mode := by
  cases kind <;> rfl

theorem strategyOf_without (kind k : StrategyKind) :
    (config.without kind).strategyOf registry k = if k = kind then none else config.strategyOf registry k := by
  cases kind <;> cases k <;> rfl

theorem strategies_eq : config.strategies registry = kinds.flatMap fun k => (config.strategyOf registry k).toList := by
  simp only [strategies, kinds, strategyOf, List.flatMap_cons, List.flatMap_nil, List.append_nil, List.append_assoc,
    apply_ite Option.toList, Option.toList_some, Option.toList_none]

variable {config registry}

theorem name_strategyOf {k : StrategyKind} {s : Strategy} (h : config.strategyOf registry k = some s) :
    s.name = k.name := by
  cases k with
  | MathArb | MakerRebateArb | TemporalArb =>
    obtain ⟨-, hs⟩ := Option.ite_none_right_eq_some.mp h
    rw [← Option.some.inj hs]
    rfl
  | Contrarian | TboTrend | TbtDivergence | LateEntry =>
    obtain ⟨c, -, rfl⟩ := Option.map_eq_some_iff.mp h
    rfl

theorem mem_strategies_iff {s : Strategy} :
    s ∈ config.strategies registry ↔ ∃ k ∈ kinds, config.strategyOf registry k = some s := by
  simp [strategies_eq]

/-- No two of the strategies have one name. -/
theorem names_apart : (config.strategies registry).Pairwise fun s s' => s.name ≠ s'.name := by
  rw [strategies_eq, List.pairwise_flatMap]
  refine ⟨fun k _ => ?_, ?_⟩
  · cases config.strategyOf registry k with
    | none => exact .nil
    | some s => exact List.pairwise_singleton _ s
  · have hkinds : kinds.Nodup := by decide
    refine hkinds.imp fun hne s hs s' hs' hname => hne ?_
    rw [name_strategyOf (Option.mem_toList.mp hs), name_strategyOf (Option.mem_toList.mp hs')] at hname
    exact StrategyKind.name_injective hname

theorem strategies_without (kind : StrategyKind) :
    (config.without kind).strategies registry = (config.strategies registry).filter (·.name ≠ kind.name) := by
  rw [strategies_eq, strategies_eq, List.filter_flatMap]
  refine congrArg (List.flatMap · kinds) (funext fun k => ?_)
  rw [strategyOf_without]
  cases h : config.strategyOf registry k with
  | none => split <;> rfl
  | some s =>
    have hname : s.name ≠ kind.name ↔ k ≠ kind := by
      rw [name_strategyOf h]
      exact StrategyKind.name_injective.ne_iff
    by_cases hk : k = kind <;> simp [hk, hname]

/-- The router of strategies with names apart has all of them. -/
theorem foldl_register_eq {r : AllStrategies.StrategyRouter} {strategies : List Strategy}
    (hapart : strategies.Pairwise fun s s' => s.name ≠ s'.name)
    (hnew : ∀ s ∈ strategies, ∀ reg ∈ r, reg.strategy.name ≠ s.name) :
    strategies.foldl (AllStrategies.StrategyRouter.register registry) r =
      r ++ strategies.map fun s => ⟨s, true, (s.subscribedMarkets registry).toFinset⟩ := by
  induction strategies generalizing r with
  | nil => simp
  | cons s strategies ih =>
    obtain ⟨hfirst, hrest⟩ := List.pairwise_cons.mp hapart
    have hfree : (r.any fun reg => reg.strategy.name = s.name) = false := by
      simpa using hnew s List.mem_cons_self
    rw [List.foldl_cons, AllStrategies.StrategyRouter.register, hfree, if_neg Bool.false_ne_true, ih hrest,
      List.map_cons, List.append_assoc, List.singleton_append]
    intro s' hs' reg hreg
    rcases List.mem_append.mp hreg with hold | hlast
    · exact hnew s' (List.mem_cons_of_mem s hs') reg hold
    · rw [List.mem_singleton.mp hlast]
      exact hfirst s' hs'

theorem setup_eq : config.setup registry =
    (config.strategies registry).map fun s => ⟨s, true, (s.subscribedMarkets registry).toFinset⟩ :=
  foldl_register_eq names_apart fun _ _ _ hreg => by cases hreg

theorem setup_without (kind : StrategyKind) :
    (config.without kind).setup registry = (config.setup registry).filter (·.strategy.name ≠ kind.name) := by
  rw [setup_eq, setup_eq, strategies_without, List.filter_map]
  rfl

/-- A strategy that has just been built has nothing to unwind. -/
theorem onShutdown_of_mem_strategies {s : Strategy} (h : s ∈ config.strategies registry)
    (parse : String → Option Decimal) (ctx : StrategyContext) : s.onShutdown parse ctx = [] := by
  obtain ⟨k, -, hk⟩ := mem_strategies_iff.mp h
  cases k with
  | MathArb | MakerRebateArb | TemporalArb =>
    obtain ⟨-, hs⟩ := Option.ite_none_right_eq_some.mp hk
    rw [← Option.some.inj hs]
    rfl
  | Contrarian | TboTrend | TbtDivergence | LateEntry =>
    obtain ⟨c, -, rfl⟩ := Option.map_eq_some_iff.mp hk
    rfl

end Config

namespace StrategySwitches
open Handlers Handlers.State

def Idle (parse : String → Option Decimal) (name : String) (r : AllStrategies.StrategyRouter) : Prop :=
  ∀ reg ∈ r, reg.strategy.name = name → reg.enabled = false ∧ ∀ ctx, reg.strategy.onShutdown parse ctx = []

/-- The bot without the strategies of a name, under another configuration. -/
def without (name : String) (config : Config) (s : State) : State :=
  { s with config := config, router := s.router.filter (·.strategy.name ≠ name) }

variable {F : Type*} (parse : String → Option Decimal) (assetSymbol : MarketPair → Option String)
  (tryFrom : F → Option Decimal) {name : String} (config : Config) {s : State}

theorem name_onBookUpdate (around : Surroundings) (marketId : ConditionId) (tokenId : TokenId) (x : Strategy) :
    (x.onBookUpdate parse assetSymbol around marketId tokenId).2.name = x.name := by
  cases x with
  | mathArb x | makerRebateArb x | temporalArb x => rfl
  | exit x => cases x <;> rfl

theorem name_onTick (around : Surroundings) (x : Strategy) : (x.onTick parse around).2.name = x.name := by
  cases x with
  | mathArb x | makerRebateArb x | temporalArb x => rfl
  | exit x => cases x <;> rfl

section Dispatch
variable {parse} {calls : AllStrategies.RegisteredStrategy → Bool} {f : Strategy → List OrderIntent × Strategy}
  {r : AllStrategies.StrategyRouter}

private theorem flatMap_filter_of_nil {α β : Type*} {p : α → Bool} {g : α → List β} {l : List α}
    (h : ∀ a ∈ l, p a = false → g a = []) : (l.filter p).flatMap g = l.flatMap g := by
  induction l with
  | nil => rfl
  | cons a l ih =>
    have hrest := ih fun b hb => h b (List.mem_cons_of_mem a hb)
    cases hp : p a with
    | true => rw [List.filter_cons_of_pos hp, List.flatMap_cons, List.flatMap_cons, hrest]
    | false =>
      rw [List.filter_cons_of_neg (by simp [hp]), List.flatMap_cons, h a List.mem_cons_self hp, hrest,
        List.nil_append]

/-- Strategies that are off are not called and stay as they are, so they may as well be left out. -/
theorem dispatch_without (h : Idle parse name r) (hcalls : ∀ reg, reg.enabled = false → calls reg = false)
    (hname : ∀ x, (f x).2.name = x.name) :
    AllStrategies.StrategyRouter.dispatch calls f (r.filter (·.strategy.name ≠ name)) =
        ((r.dispatch calls f).1, (r.dispatch calls f).2.filter (·.strategy.name ≠ name)) ∧
      Idle parse name (r.dispatch calls f).2 := by
  refine ⟨Prod.ext (congrArg PolyBot.StrategyRouter.resolveConflicts ?_) ?_, ?_⟩
  · refine flatMap_filter_of_nil fun reg hreg hp => ?_
    rw [hcalls reg (h reg hreg (by simpa using hp)).1, if_neg Bool.false_ne_true]
  · dsimp only [AllStrategies.StrategyRouter.dispatch]
    rw [List.filter_map]
    refine congrArg (List.map _) (List.filter_congr fun reg _ => ?_)
    dsimp only [Function.comp_apply]
    split_ifs
    · rw [hname]
    · rfl
  · intro reg hreg hregname
    obtain ⟨old, hold, rfl⟩ := List.mem_map.mp hreg
    have holdname : old.strategy.name = name := by
      split_ifs at hregname
      · rwa [hname] at hregname
      · exact hregname
    have hidle := h old hold holdname
    rw [hcalls old hidle.1, if_neg Bool.false_ne_true]
    exact hidle

end Dispatch

theorem isEnabled_of_off {reg : AllStrategies.RegisteredStrategy} (h : reg.enabled = false) :
    reg.isEnabled = false := by
  rw [AllStrategies.RegisteredStrategy.isEnabled, h, Bool.false_and]

theorem evaluates_of_off {reg : AllStrategies.RegisteredStrategy} (h : reg.enabled = false) (marketId : ConditionId) :
    reg.evaluates marketId = false := by
  rw [AllStrategies.RegisteredStrategy.evaluates, isEnabled_of_off h, Bool.false_and]

private def withRouter (s : State) (d : List OrderIntent × AllStrategies.StrategyRouter) : List OrderIntent × State :=
  (d.1, { s with router := d.2 })

variable {parse}

theorem routeBookUpdate_without (h : Idle parse name s.router) (marketId : ConditionId) (tokenId : TokenId)
    (moment : Moment) :
    (without name config s).routeBookUpdate parse assetSymbol marketId tokenId moment =
        ((s.routeBookUpdate parse assetSymbol marketId tokenId moment).1,
          without name config (s.routeBookUpdate parse assetSymbol marketId tokenId moment).2) ∧
      Idle parse name (s.routeBookUpdate parse assetSymbol marketId tokenId moment).2.router := by
  have hpaused : (without name config s).controls.isPaused = s.controls.isPaused := rfl
  obtain ⟨heq, hidle⟩ := dispatch_without h (fun reg henabled => evaluates_of_off henabled marketId)
    (name_onBookUpdate parse assetSymbol (s.surroundings moment) marketId tokenId)
  unfold routeBookUpdate
  rw [hpaused]
  split
  · exact ⟨rfl, h⟩
  · have hpair := congrArg (withRouter (without name config s)) heq
    exact ⟨hpair, hidle⟩

theorem setEnabled_without (r : AllStrategies.StrategyRouter) (other : String) (enabled : Bool) :
    AllStrategies.StrategyRouter.setEnabled (r.filter (·.strategy.name ≠ name)) other enabled =
      (r.setEnabled other enabled).filter (·.strategy.name ≠ name) := by
  unfold AllStrategies.StrategyRouter.setEnabled
  rw [List.filter_map]
  refine congrArg (List.map _) (List.filter_congr fun reg _ => ?_)
  dsimp only [Function.comp_apply]
  split_ifs <;> rfl

def LeavesOff (name : String) (event : Event F) : Prop := event ≠ .setStrategy name true

theorem idle_setEnabled {r : AllStrategies.StrategyRouter} (h : Idle parse name r) {other : String} {enabled : Bool}
    (hoff : LeavesOff name (.setStrategy other enabled : Event F)) : Idle parse name (r.setEnabled other enabled) := by
  intro reg hreg hregname
  obtain ⟨old, hold, rfl⟩ := List.mem_map.mp hreg
  split_ifs at hregname ⊢ with hother
  · refine ⟨?_, (h old hold hregname).2⟩
    rw [← Bool.not_eq_true]
    rintro rfl
    exact hoff (by rw [← hother, ← hregname])
  · exact h old hold hregname

/-- What the handlers do with an event is the same without strategies that are off, and these stay off. -/
theorem handle_without (h : Idle parse name s.router) {event : Event F} (hoff : LeavesOff name event) :
    (without name config s).handle parse assetSymbol tryFrom event =
        ((s.handle parse assetSymbol tryFrom event).1,
          without name config (s.handle parse assetSymbol tryFrom event).2) ∧
      Idle parse name (s.handle parse assetSymbol tryFrom event).2.router := by
  cases event with
  | marketMessage msg moment =>
    cases msg with
    | Connected | Reconnecting => exact ⟨rfl, h⟩
    | Book msg =>
      have hbooks : Idle parse name { s with books := s.books.take parse msg }.router := h
      exact routeBookUpdate_without assetSymbol config hbooks msg.subject.1 msg.subject.2 moment
  | userMessage msg =>
    cases msg with
    | Connected | Reconnecting | OrderUpdate orderId status => exact ⟨rfl, h⟩
    | Trade trade =>
      have hfill : (without name config s).handleUserMessage (.Trade trade) =
          without name config (s.handleUserMessage (.Trade trade)) ∧
            (s.handleUserMessage (.Trade trade)).router = s.router := by
        unfold handleUserMessage
        dsimp only
        split <;> exact ⟨rfl, rfl⟩
      refine ⟨Prod.ext rfl hfill.1, ?_⟩
      change Idle parse name (s.handleUserMessage (.Trade trade)).router
      rw [hfill.2]
      exact h
  | tick moment =>
    obtain ⟨heq, hidle⟩ := dispatch_without h (fun reg henabled => isEnabled_of_off henabled)
      (name_onTick parse (s.surroundings moment))
    have hpair := congrArg (withRouter (without name config s)) heq
    exact ⟨hpair, hidle⟩
  | shutdown moment =>
    refine ⟨Prod.ext ?_ rfl, h⟩
    exact flatMap_filter_of_nil fun reg hreg hp => (h reg hreg (by simpa using hp)).2 _
  | setStrategy other enabled =>
    refine ⟨Prod.ext rfl (congrArg (fun r => { without name config s with router := r }) ?_), ?_⟩
    · exact setEnabled_without s.router other enabled
    · exact idle_setEnabled h hoff
  | _ => exact ⟨rfl, h⟩

variable {config}

theorem processIntents_without (parse : String → Option Decimal) (name : String)
    (hmode : config.mode = s.config.mode) (intents : List OrderIntent) (now : Instant) :
    (without name config s).processIntents parse intents now =
        ((s.processIntents parse intents now).1, without name config (s.processIntents parse intents now).2) ∧
      (s.processIntents parse intents now).2.config = s.config := by
  have hmode' : (without name config s).config.mode = s.config.mode := hmode
  unfold processIntents
  dsimp only
  rw [hmode']
  have hbreaker : (without name config s).circuitBreaker = s.circuitBreaker := rfl
  rw [hbreaker]
  split
  · exact ⟨rfl, rfl⟩
  · cases s.config.mode <;> exact ⟨rfl, rfl⟩

theorem config_handle (parse : String → Option Decimal) (s : State) (event : Event F) :
    (s.handle parse assetSymbol tryFrom event).2.config = s.config := by
  cases event with
  | marketMessage msg moment =>
    cases msg with
    | Connected | Reconnecting => rfl
    | Book msg =>
      change (State.routeBookUpdate parse assetSymbol { s with books := s.books.take parse msg } msg.subject.1
        msg.subject.2 moment).2.config = s.config
      unfold routeBookUpdate
      split <;> rfl
  | userMessage msg =>
    cases msg with
    | Connected | Reconnecting | OrderUpdate orderId status => rfl
    | Trade trade =>
      change (s.handleUserMessage (.Trade trade)).config = s.config
      unfold handleUserMessage
      dsimp only
      split <;> rfl
  | _ => rfl

/-- The step lemma: an event is dealt with as without the strategies that are off, and these stay off. -/
theorem outcome_without (h : Idle parse name s.router) (hmode : config.mode = s.config.mode) {event : Event F}
    (hoff : LeavesOff name event) :
    (without name config s).outcome parse assetSymbol tryFrom event =
        ((s.outcome parse assetSymbol tryFrom event).1,
          without name config (s.outcome parse assetSymbol tryFrom event).2) ∧
      (s.outcome parse assetSymbol tryFrom event).2.config = s.config ∧
      Idle parse name (s.outcome parse assetSymbol tryFrom event).2.router := by
  obtain ⟨hhandle, hidle⟩ := handle_without assetSymbol tryFrom config h hoff
  have hconfig := config_handle assetSymbol tryFrom parse s event
  unfold outcome
  rw [hhandle]
  cases hboth : s.handle parse assetSymbol tryFrom event with
  | mk intents after =>
    rw [hboth] at hidle hconfig
    cases intents with
    | nil => exact ⟨rfl, hconfig, hidle⟩
    | cons first rest =>
      have hafter : config.mode = after.config.mode := hmode.trans (congrArg Config.mode hconfig.symm)
      obtain ⟨hprocess, hkept⟩ := processIntents_without parse name hafter (first :: rest) event.now
      refine ⟨hprocess, hkept.trans hconfig, ?_⟩
      have hrouter : (after.processIntents parse (first :: rest) event.now).2.router = after.router :=
        (processIntents_kept (first :: rest) event.now).1
      rw [hrouter]
      exact hidle

/-- The run lemma. -/
theorem run_without (h : Idle parse name s.router) (hmode : config.mode = s.config.mode) {events : List (Event F)}
    (hoff : ∀ event ∈ events, LeavesOff name event) :
    events.foldl (step parse assetSymbol tryFrom) (without name config s) =
        without name config (events.foldl (step parse assetSymbol tryFrom) s) ∧
      (events.foldl (step parse assetSymbol tryFrom) s).config = s.config ∧
      Idle parse name (events.foldl (step parse assetSymbol tryFrom) s).router := by
  induction events generalizing s with
  | nil => exact ⟨rfl, rfl, h⟩
  | cons event events ih =>
    obtain ⟨hfirst, hrest⟩ := List.forall_mem_cons.mp hoff
    obtain ⟨houtcome, hconfig, hidle⟩ := outcome_without assetSymbol tryFrom h hmode hfirst
    obtain ⟨hrun, hconfig', hidle'⟩ := ih hidle (hmode.trans (congrArg Config.mode hconfig.symm)) hrest
    have hstep : (without name config s).step parse assetSymbol tryFrom event =
        without name config (s.step parse assetSymbol tryFrom event) := congrArg Prod.snd houtcome
    rw [List.foldl_cons, List.foldl_cons, hstep]
    exact ⟨hrun, hconfig'.trans hconfig, hidle'⟩

/-- Strategies that have been switched off before anything else are idle. -/
theorem Built.idle_switched (h : s.Built) (name : String) : Idle parse name (s.router.setEnabled name false) := by
  intro reg hreg hname
  obtain ⟨old, hold, rfl⟩ := List.mem_map.mp hreg
  obtain ⟨strategy, hstrategy, rfl⟩ := List.mem_map.mp (Config.setup_eq ▸ h.router.mem_iff.mp hold)
  split_ifs at hname ⊢ with hsame
  · exact ⟨rfl, Config.onShutdown_of_mem_strategies hstrategy parse⟩
  · exact absurd hname hsame

theorem without_switched (s : State) (name : String) (config : Config) :
    without name config { s with router := s.router.setEnabled name false } = without name config s := by
  refine congrArg (fun r => { without name config s with router := r }) ?_
  rw [← setEnabled_without]
  refine (List.map_congr_left fun reg hreg => ?_).trans (List.map_id _)
  exact if_neg (of_decide_eq_true (List.mem_filter.mp hreg).2)

def builtWithout (kind : StrategyKind) (s : State) : State :=
  { without kind.name (s.config.without kind) s with controls := .new (s.config.without kind) }

theorem built_builtWithout (h : s.Built) (kind : StrategyKind) : (builtWithout kind s).Built where
  router := by
    change (s.router.filter (·.strategy.name ≠ kind.name)).Perm ((s.config.without kind).setup s.registry)
    rw [Config.setup_without]
    exact h.router.filter _
  controls := rfl

theorem builtWithout_eq (h : s.Built) (kind : StrategyKind) :
    builtWithout kind s = withSettings s.config.maxDailyLossUsd (.fromConfig (s.config.without kind))
      (without kind.name (s.config.without kind) s) := by
  have hlimit : (s.config.without kind).maxDailyLossUsd = s.config.maxDailyLossUsd := by cases kind <;> rfl
  rw [← hlimit]
  unfold builtWithout withSettings
  rw [ControlState.new]
  have hcontrols : (without kind.name (s.config.without kind) s).controls = .new s.config := h.controls
  rw [hcontrols]
  rfl

/-- Other settings show in nothing but themselves. -/
theorem exists_foldl_withSettings (parse : String → Option Decimal) (assetSymbol : MarketPair → Option String)
    (tryFrom : F → Option Decimal) (limit : Decimal) (current : RuntimeConfig) (s : State) (events : List (Event F)) :
    ∃ current', events.foldl (step parse assetSymbol tryFrom) (withSettings limit current s) =
      withSettings limit current' (events.foldl (step parse assetSymbol tryFrom) s) := by
  induction events generalizing s current with
  | nil => exact ⟨current, rfl⟩
  | cons event events ih =>
    obtain ⟨next, houtcome⟩ := outcome_withSettings parse assetSymbol tryFrom limit current s event
    have hstep : (withSettings limit current s).step parse assetSymbol tryFrom event =
        withSettings limit next (s.step parse assetSymbol tryFrom event) := congrArg Prod.snd houtcome
    rw [List.foldl_cons, List.foldl_cons, hstep]
    exact ih next (s.step parse assetSymbol tryFrom event)

/-- If a strategy is switched off at the start and not switched on again, every event executes what it executes in a
bot that is configured without the strategy, the shutdown included, and the two have the same books and ledger. -/
theorem switched_off_as_not_configured (parse : String → Option Decimal) (assetSymbol : MarketPair → Option String)
    (tryFrom : F → Option Decimal) {s : State} (hbuilt : s.Built) (kind : StrategyKind) {events : List (Event F)}
    (hoff : ∀ event ∈ events, LeavesOff kind.name event) :
    (builtWithout kind s).Built ∧ ∀ before event, before ++ [event] <+: events →
      let switched := (.setStrategy kind.name false :: before).foldl (step parse assetSymbol tryFrom) s
      let unconfigured := before.foldl (step parse assetSymbol tryFrom) (builtWithout kind s)
      switched.executed parse assetSymbol tryFrom event = unconfigured.executed parse assetSymbol tryFrom event ∧
        switched.books = unconfigured.books ∧ switched.ledger = unconfigured.ledger := by
  refine ⟨built_builtWithout hbuilt kind, fun before event hbegins => ?_⟩
  have hall : ∀ e ∈ before ++ [event], LeavesOff kind.name e := fun e he => hoff e (hbegins.subset he)
  obtain ⟨hbefore, hevent⟩ := List.forall_mem_append.mp hall
  have hmode : (s.config.without kind).mode = s.config.mode := Config.mode_without s.config kind
  have hidle₀ : Idle parse kind.name { s with router := s.router.setEnabled kind.name false }.router :=
    Built.idle_switched hbuilt kind.name
  obtain ⟨hrun, hconfig, hidle⟩ := run_without assetSymbol tryFrom hidle₀ hmode hbefore
  rw [without_switched] at hrun
  intro switched unconfigured
  obtain ⟨houtcome, -, -⟩ := outcome_without assetSymbol tryFrom hidle
    (hmode.trans (congrArg Config.mode hconfig.symm)) (List.forall_mem_singleton.mp hevent)
  obtain ⟨current, hsettings⟩ := exists_foldl_withSettings parse assetSymbol tryFrom s.config.maxDailyLossUsd
    (.fromConfig (s.config.without kind)) (without kind.name (s.config.without kind) s) before
  rw [← builtWithout_eq hbuilt, hrun] at hsettings
  have hstate : unconfigured = withSettings s.config.maxDailyLossUsd current
      (without kind.name (s.config.without kind) switched) := hsettings
  have hexecuted : unconfigured.executed parse assetSymbol tryFrom event =
      (without kind.name (s.config.without kind) switched).executed parse assetSymbol tryFrom event := by
    rw [hstate]
    exact executed_withSettings parse assetSymbol tryFrom _ _ _ [] event
  refine ⟨?_, by rw [hstate]; rfl, by rw [hstate]; rfl⟩
  rw [hexecuted]
  exact (congrArg Prod.fst houtcome).symm

private def readText (text : String) : Option Decimal :=
  if text = "0.48" then some (48 / 100)
  else if text = "0.49" then some (49 / 100)
  else if text = "1000" then some 1000
  else none

private def makerBot : State :=
  .new { Config.default with maxBetUsd := 5, mathArbEnabled := false, makerRebateEnabled := true } 1000
    (MarketPairRegistry.new.register (.new "m1" "up" "down"))

private def quoted (tokenId : TokenId) : Event Unit :=
  .marketMessage (.Book (.snapshot tokenId "m1" [⟨"0.48", "1000"⟩] [⟨"0.49", "1000"⟩] none none)) ⟨0, 0, "1", ∅⟩

/-- Two books that the maker strategy would post a pair on. -/
theorem maker_switched_off_posts_nothing :
    (([.setStrategy "MakerRebateArbStrategy" false, quoted "up"].foldl
        (step readText (fun _ => none) fun _ : Unit => none) makerBot).executed readText (fun _ => none)
          (fun _ : Unit => none) (quoted "down")).length = 0 := by
  have hbuilt : makerBot.Built := built_new _ _ _
  have hoff : ∀ event ∈ [quoted "up", quoted "down"], LeavesOff StrategyKind.MakerRebateArb.name event := by
    intro event hevent
    rcases List.mem_pair.mp hevent with rfl | rfl <;> (intro h; cases h)
  have hsame := (switched_off_as_not_configured readText (fun _ => none) (fun _ : Unit => none) hbuilt
    .MakerRebateArb hoff).2 [quoted "up"] (quoted "down") List.prefix_rfl
  refine (congrArg List.length hsame.1).trans ?_
  decide +kernel

example : (([quoted "up"].foldl (step readText (fun _ => none) fun _ : Unit => none) makerBot).executed readText
    (fun _ => none) (fun _ : Unit => none) (quoted "down")).length = 2 := by decide +kernel

end StrategySwitches

end PolyBot.Bot
