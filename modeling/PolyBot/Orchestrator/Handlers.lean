import PolyBot.Ledger.MarkToMarket
import PolyBot.Orchestrator.Controls
import PolyBot.Risk.CircuitBreaker
import PolyBot.State.BookUpdates
import PolyBot.Websocket.User

/-! The handlers of the main loop, from the messages and the timers to the intents that are processed, with the calls of
the API that come between them. -/

namespace PolyBot.Bot.Handlers
open AllStrategies Ledger Websocket
open ExitControl (simulatePaperFills bookPaperFill)

inductive MarketMessage where
  | Connected
  | Reconnecting
  | Book (msg : BookMessage)

inductive UserMessage where
  | Connected
  | Reconnecting
  | Trade (trade : TradeNotification)
  | OrderUpdate (orderId : OrderId) (status : String)

structure Moment where
  now : Instant
  utcNow : ℕ
  uuid : String
  prices : ExternalPriceStore

structure State where
  config : Config
  hasExecutor : Bool
  books : OrderBookState
  ledger : Ledger
  registry : MarketPairRegistry
  router : AllStrategies.StrategyRouter
  circuitBreaker : CircuitBreaker
  controls : ControlState
  paperFills : ℕ

/-- An event of the main loop or its shutdown, a call of the API, or what the tasks of the bot do to the ledger and the
breaker in between. -/
inductive Event (F : Type*) where
  | marketMessage (msg : MarketMessage) (moment : Moment)
  | userMessage (msg : UserMessage)
  | tick (moment : Moment)
  | heartbeat (now : Instant)
  | marketRefresh (registry : MarketPairRegistry)
  | shutdown (moment : Moment)
  | pause
  | resume
  | applyPatch (patch : ConfigPatch F)
  | setStrategy (name : String) (enabled : Bool)
  | ledgerOp (op : LedgerOp)
  | breaker (cb : CircuitBreaker)

namespace State

def context (s : State) (now : Instant) : StrategyContext := ⟨s.books, s.ledger, now⟩

def surroundings (s : State) (moment : Moment) : Surroundings :=
  ⟨s.registry, moment.prices, s.context moment.now, moment.utcNow, moment.uuid⟩

variable (parse : String → Option Decimal) (assetSymbol : MarketPair → Option String)

/-- Intents are dropped here while the bot is paused. -/
def routeBookUpdate (s : State) (marketId : ConditionId) (tokenId : TokenId) (moment : Moment) :
    List OrderIntent × State :=
  if s.controls.isPaused then ([], s)
  else
    let (intents, router) := s.router.onBookUpdate parse assetSymbol (s.surroundings moment) marketId tokenId
    (intents, { s with router := router })

def handleMarketMessage (s : State) (moment : Moment) : MarketMessage → List OrderIntent × State
  | .Connected | .Reconnecting => ([], s)
  | .Book msg =>
    let (marketId, tokenId) := msg.subject
    { s with books := s.books.take parse msg }.routeBookUpdate parse assetSymbol marketId tokenId moment

/-- A notification that is no fill is logged; order updates concern the order tracker alone. -/
def handleUserMessage (s : State) : UserMessage → State
  | .Trade trade =>
    match trade.toFill with
    | .ok f => { s with ledger := s.ledger.processFill f }
    | .error _ => s
  | .Connected | .Reconnecting | .OrderUpdate _ _ => s

def handleTick (s : State) (moment : Moment) : List OrderIntent × State :=
  let (intents, router) := s.router.onTick parse (s.surroundings moment)
  (intents, { s with router := router })

/-- Asks the breaker for its status and marks the open positions. -/
def logHeartbeat (s : State) (now : Instant) : State :=
  { s with
    circuitBreaker := (s.circuitBreaker.isTradingAllowed now).2
    ledger := { s.ledger with positions := s.ledger.positions.markOpen (s.books.midPrice parse) } }

/-- The intents that are simulated or handed to the executor, and the bot afterwards. -/
def processIntents (s : State) (intents : List OrderIntent) (now : Instant) : List OrderIntent × State :=
  let (allowed, circuitBreaker) := s.circuitBreaker.isTradingAllowed now
  let s := { s with circuitBreaker := circuitBreaker }
  if allowed = false then ([], s)
  else match s.config.mode with
    | .Paper =>
      let fills := simulatePaperFills parse s.books s.registry s.ledger s.paperFills intents
      (intents, { s with
        ledger := run s.ledger (fills.flatMap fun e => bookPaperFill e.2)
        paperFills := s.paperFills + fills.length })
    | .Live => (if s.hasExecutor then intents else [], s)

variable {F : Type*} (tryFrom : F → Option Decimal)

def handle (s : State) : Event F → List OrderIntent × State
  | .marketMessage msg moment => s.handleMarketMessage parse assetSymbol moment msg
  | .userMessage msg => ([], s.handleUserMessage msg)
  | .tick moment => s.handleTick parse moment
  | .heartbeat now => ([], s.logHeartbeat parse now)
  | .marketRefresh registry => ([], { s with registry := registry })
  | .shutdown moment => (s.router.onShutdown parse (s.context moment.now), s)
  | .pause => ([], { s with controls := s.controls.pause })
  | .resume => ([], { s with controls := s.controls.resume })
  | .applyPatch patch => ([], { s with controls := s.controls.applyPatch tryFrom patch })
  | .setStrategy name enabled => ([], { s with router := s.router.setEnabled name enabled })
  | .ledgerOp op => ([], { s with ledger := op.apply s.ledger })
  | .breaker cb => ([], { s with circuitBreaker := cb })

end State

def Event.now {F : Type*} : Event F → Instant
  | .marketMessage _ moment | .tick moment | .shutdown moment => moment.now
  | .heartbeat now => now
  | _ => 0

namespace State
variable (parse : String → Option Decimal) (assetSymbol : MarketPair → Option String)
  {F : Type*} (tryFrom : F → Option Decimal)

def generated (s : State) (event : Event F) : List OrderIntent := (s.handle parse assetSymbol tryFrom event).1

def outcome (s : State) (event : Event F) : List OrderIntent × State :=
  match s.handle parse assetSymbol tryFrom event with
  | ([], s') => ([], s')
  | (i :: intents, s') => s'.processIntents parse (i :: intents) event.now

def executed (s : State) (event : Event F) : List OrderIntent := (s.outcome parse assetSymbol tryFrom event).1
def step (s : State) (event : Event F) : State := (s.outcome parse assetSymbol tryFrom event).2

/-- The breaker allows trading, and there is something to trade with. -/
def Admits (s : State) (now : Instant) : Prop :=
  (s.circuitBreaker.isTradingAllowed now).1 = true ∧ (s.config.mode = .Paper ∨ s.hasExecutor = true)

structure Built (s : State) : Prop where
  router : s.router.Perm (s.config.setup s.registry)
  controls : s.controls = .new s.config

def new (config : Config) (initialCash : Decimal) (registry : MarketPairRegistry) : State :=
  ⟨config, false, ∅, .new initialCash, registry, config.setup registry, .new 0, .new config, 0⟩

theorem built_new (config : Config) (initialCash : Decimal) (registry : MarketPairRegistry) :
    (State.new config initialCash registry).Built :=
  ⟨.refl _, rfl⟩

variable {parse assetSymbol tryFrom} {s : State}

/-- Processing reaches neither the strategies nor the controls. -/
theorem processIntents_kept (intents : List OrderIntent) (now : Instant) :
    (s.processIntents parse intents now).2.router = s.router ∧
      (s.processIntents parse intents now).2.controls = s.controls := by
  unfold processIntents
  dsimp only
  split
  · exact ⟨rfl, rfl⟩
  · split <;> exact ⟨rfl, rfl⟩

theorem mem_processIntents_iff {i : OrderIntent} {intents : List OrderIntent} {now : Instant} :
    i ∈ (s.processIntents parse intents now).1 ↔ i ∈ intents ∧ s.Admits now := by
  unfold processIntents Admits
  dsimp only
  cases hallowed : (s.circuitBreaker.isTradingAllowed now).1 with
  | false => simp
  | true =>
    cases hmode : s.config.mode with
    | Paper => simp
    | Live => cases hexecutor : s.hasExecutor <;> simp

/-- What an event passes on is executed if the bot admits it, and only then. -/
theorem mem_executed_iff {i : OrderIntent} {event : Event F} :
    i ∈ s.executed parse assetSymbol tryFrom event ↔
      i ∈ s.generated parse assetSymbol tryFrom event ∧ s.Admits event.now := by
  have hgate : s.generated parse assetSymbol tryFrom event = [] ∨
      ∀ now, (s.handle parse assetSymbol tryFrom event).2.Admits now ↔ s.Admits now := by
    cases event with
    | marketMessage msg moment =>
      refine .inr fun now => ?_
      cases msg with
      | Connected | Reconnecting => exact Iff.rfl
      | Book msg =>
        change (State.routeBookUpdate parse assetSymbol { s with books := s.books.take parse msg } msg.subject.1
          msg.subject.2 moment).2.Admits now ↔ s.Admits now
        unfold routeBookUpdate
        split_ifs
        · exact Iff.rfl
        · exact Iff.rfl
    | tick moment | shutdown moment => exact .inr fun now => Iff.rfl
    | _ => exact .inl rfl
  unfold executed outcome
  unfold generated at hgate ⊢
  cases hhandle : s.handle parse assetSymbol tryFrom event with
  | mk intents s' =>
    rw [hhandle] at hgate
    cases intents with
    | nil => simp
    | cons first rest =>
      rcases hgate with hnone | hgate
      · cases hnone
      · exact mem_processIntents_iff.trans (and_congr_right fun _ => hgate event.now)

theorem step_kept (event : Event F) :
    (s.step parse assetSymbol tryFrom event).router = (s.handle parse assetSymbol tryFrom event).2.router ∧
      (s.step parse assetSymbol tryFrom event).controls = (s.handle parse assetSymbol tryFrom event).2.controls := by
  unfold step outcome
  split
  · rename_i hhandle
    rw [hhandle]
    exact ⟨rfl, rfl⟩
  · rename_i hhandle
    rw [hhandle]
    exact processIntents_kept _ _

/-- A property of strategies that book updates and ticks keep is kept by every event. -/
theorem forall_step {P : Strategy → Prop} (h : ∀ reg ∈ s.router, P reg.strategy)
    (hbook : ∀ around marketId tokenId x, P x → P (x.onBookUpdate parse assetSymbol around marketId tokenId).2)
    (htick : ∀ around x, P x → P (x.onTick parse around).2) (event : Event F) :
    ∀ reg ∈ (s.step parse assetSymbol tryFrom event).router, P reg.strategy := by
  rw [(step_kept event).1]
  cases event with
  | marketMessage msg moment =>
    cases msg with
    | Connected | Reconnecting => exact h
    | Book msg =>
      change ∀ reg ∈ (State.routeBookUpdate parse assetSymbol { s with books := s.books.take parse msg } msg.subject.1
        msg.subject.2 moment).2.router, P reg.strategy
      unfold routeBookUpdate
      split_ifs
      · exact h
      · exact AllStrategies.StrategyRouter.forall_dispatch h fun x hx => hbook _ _ _ x hx
  | userMessage msg =>
    cases msg with
    | Connected | Reconnecting | OrderUpdate orderId status => exact h
    | Trade trade =>
      have hrouter : (s.handleUserMessage (.Trade trade)).router = s.router := by
        unfold handleUserMessage
        dsimp only
        split <;> rfl
      change ∀ reg ∈ (s.handleUserMessage (.Trade trade)).router, P reg.strategy
      rw [hrouter]
      exact h
  | tick moment => exact AllStrategies.StrategyRouter.forall_dispatch h fun x hx => htick _ x hx
  | setStrategy name enabled => exact AllStrategies.StrategyRouter.forall_setEnabled h name enabled
  | _ => exact h

theorem Built.untracked (h : s.Built) : ∀ reg ∈ s.router, reg.strategy.Untracked := by
  intro reg hreg
  exact s.config.untracked_setup s.registry reg (h.router.mem_iff.mp hreg)

theorem untracked_step (h : ∀ reg ∈ s.router, reg.strategy.Untracked) (event : Event F) :
    ∀ reg ∈ (s.step parse assetSymbol tryFrom event).router, reg.strategy.Untracked :=
  forall_step h (fun around marketId tokenId _ hx => hx.onBookUpdate around marketId tokenId)
    (fun around _ hx => (hx.onTick parse around).1) event

section Settings

/-- The bot with another runtime configuration, and another daily loss limit in the one it was built with. -/
def withSettings (maxDailyLossUsd : Decimal) (runtimeConfig : RuntimeConfig) (s : State) : State :=
  { s with
    config := { s.config with maxDailyLossUsd := maxDailyLossUsd }
    controls := { s.controls with runtimeConfig := runtimeConfig } }

theorem processIntents_withSettings (limit : Decimal) (current : RuntimeConfig) (s : State)
    (intents : List OrderIntent) (now : Instant) :
    (withSettings limit current s).processIntents parse intents now =
      ((s.processIntents parse intents now).1, withSettings limit current (s.processIntents parse intents now).2) := by
  obtain ⟨⟨mode⟩⟩ := s
  unfold processIntents
  dsimp only [withSettings]
  split
  · rfl
  · cases mode <;> rfl

theorem routeBookUpdate_withSettings (limit : Decimal) (current : RuntimeConfig) (s : State) (marketId : ConditionId)
    (tokenId : TokenId) (moment : Moment) :
    (withSettings limit current s).routeBookUpdate parse assetSymbol marketId tokenId moment =
      ((s.routeBookUpdate parse assetSymbol marketId tokenId moment).1,
        withSettings limit current (s.routeBookUpdate parse assetSymbol marketId tokenId moment).2) := by
  have hpaused : (withSettings limit current s).controls.isPaused = s.controls.isPaused := rfl
  unfold routeBookUpdate
  rw [hpaused]
  split <;> rfl

variable (parse assetSymbol tryFrom)

/-- The handlers do not read the settings; a patch may change the runtime configuration. -/
theorem handle_withSettings (limit : Decimal) (current : RuntimeConfig) (s : State) (event : Event F) :
    ∃ current', (withSettings limit current s).handle parse assetSymbol tryFrom event =
      ((s.handle parse assetSymbol tryFrom event).1,
        withSettings limit current' (s.handle parse assetSymbol tryFrom event).2) := by
  cases event with
  | marketMessage msg moment =>
    cases msg with
    | Connected | Reconnecting => exact ⟨current, rfl⟩
    | Book msg =>
      exact ⟨current, routeBookUpdate_withSettings limit current { s with books := s.books.take parse msg }
        msg.subject.1 msg.subject.2 moment⟩
  | userMessage msg =>
    cases msg with
    | Connected | Reconnecting | OrderUpdate orderId status => exact ⟨current, rfl⟩
    | Trade trade =>
      refine ⟨current, Prod.ext rfl ?_⟩
      change State.handleUserMessage (withSettings limit current s) (.Trade trade) =
        withSettings limit current (s.handleUserMessage (.Trade trade))
      unfold handleUserMessage
      dsimp only
      split <;> rfl
  | applyPatch patch =>
    exact ⟨(ControlState.applyPatch tryFrom (withSettings limit current s).controls patch).runtimeConfig, rfl⟩
  | _ => exact ⟨current, rfl⟩

theorem outcome_withSettings (limit : Decimal) (current : RuntimeConfig) (s : State) (event : Event F) :
    ∃ current', (withSettings limit current s).outcome parse assetSymbol tryFrom event =
      ((s.outcome parse assetSymbol tryFrom event).1,
        withSettings limit current' (s.outcome parse assetSymbol tryFrom event).2) := by
  obtain ⟨current', hhandle⟩ := handle_withSettings parse assetSymbol tryFrom limit current s event
  refine ⟨current', ?_⟩
  unfold outcome
  rw [hhandle]
  cases s.handle parse assetSymbol tryFrom event with
  | mk intents s' =>
    cases intents with
    | nil => rfl
    | cons first rest => exact processIntents_withSettings limit current' s' (first :: rest) event.now

/-- Whatever the runtime configuration and the daily loss limit are, every run executes the same intents. -/
theorem executed_withSettings (limit : Decimal) (current : RuntimeConfig) (s : State) (events : List (Event F))
    (event : Event F) :
    (events.foldl (step parse assetSymbol tryFrom) (withSettings limit current s)).executed parse assetSymbol tryFrom
        event =
      (events.foldl (step parse assetSymbol tryFrom) s).executed parse assetSymbol tryFrom event := by
  induction events generalizing s current with
  | nil =>
    obtain ⟨_, houtcome⟩ := outcome_withSettings parse assetSymbol tryFrom limit current s event
    have hexecuted := congrArg Prod.fst houtcome
    exact hexecuted
  | cons first events ih =>
    obtain ⟨current', houtcome⟩ := outcome_withSettings parse assetSymbol tryFrom limit current s first
    have hstep : (withSettings limit current s).step parse assetSymbol tryFrom first =
        withSettings limit current' (s.step parse assetSymbol tryFrom first) := congrArg Prod.snd houtcome
    rw [List.foldl_cons, List.foldl_cons, hstep]
    exact ih current' (s.step parse assetSymbol tryFrom first)

/-- A patch changes nothing that is executed after it. -/
theorem executed_after_patch (patch : ConfigPatch F) (s : State) (events : List (Event F)) (event : Event F) :
    ((.applyPatch patch :: events).foldl (step parse assetSymbol tryFrom) s).executed parse assetSymbol tryFrom event =
      (events.foldl (step parse assetSymbol tryFrom) s).executed parse assetSymbol tryFrom event := by
  have hstep : s.step parse assetSymbol tryFrom (.applyPatch patch) =
      withSettings s.config.maxDailyLossUsd (s.controls.applyPatch tryFrom patch).runtimeConfig s := rfl
  rw [List.foldl_cons, hstep]
  exact executed_withSettings parse assetSymbol tryFrom _ _ s events event

end Settings

end State

end PolyBot.Bot.Handlers
