import PolyBot.General.DecimalText
import PolyBot.Ledger.Runs
import PolyBot.Strategy.Dispatch

/-! Exit control: which of the positions that the exit strategies enter are tracked for their exit, over any run of the
bot in paper or live mode. -/

namespace PolyBot.Bot.ExitControl
open General.AdditiveRuns General.KeyedStore Ledger

inductive OperatingMode where
  | Paper
  | Live
  deriving DecidableEq, Repr

structure ExitConfigs where
  contrarian : Option ContrarianConfig
  tboTrend : Option TboConfig
  tbtDivergence : Option TbtConfig
  lateEntry : Option LateEntryConfig
  deriving DecidableEq, Repr

def ExitConfigs.setup (c : ExitConfigs) : StrategyRouter :=
  ((c.contrarian.map fun config => ExitStrategy.contrarian (.withConfig config)).toList ++
    (c.tboTrend.map fun config => ExitStrategy.tboTrend (.withConfig config)).toList ++
    (c.tbtDivergence.map fun config => ExitStrategy.tbtDivergence (.withConfig config)).toList ++
    (c.lateEntry.map fun config => ExitStrategy.lateEntry (.withConfig config)).toList).foldl .register .new

/-- `ordered` lists the intents that went to the executor, `placed` the orders made of them, and `entered` the tokens
bought by fills of the exit strategies' entries, with the strategy's name. -/
structure State where
  mode : OperatingMode
  books : OrderBookState
  ledger : Ledger
  registry : MarketPairRegistry
  router : StrategyRouter
  ordered : List OrderIntent
  placed : Store OrderId OrderIntent
  paperFills : ℕ
  entered : List (String × TokenId)

/-- `book` is the book of a token after an update of it; `others` are the intents of the other strategies and `allowed`
is the answer of the breaker. -/
inductive Event where
  | bookUpdate (book : BookSnapshot) (others : List OrderIntent) (now : Instant) (utcNow : ℕ) (paused allowed : Bool)
  | tick (others : List OrderIntent) (now : Instant) (allowed : Bool)
  | orderPlaced (orderId : OrderId) (intent : OrderIntent)
  | tradeNotification (f : Fill)
  | ledgerOp (op : LedgerOp)
  | marketsRefreshed (registry : MarketPairRegistry)
  | strategySwitched (name : String) (enabled : Bool)

/-- The simulated fill of an intent, if the other side of the book is within its limit and a purchase is affordable. -/
def paperFill (parse : String → Option Decimal) (books : OrderBookState) (registry : MarketPairRegistry) (l : Ledger)
    (n : ℕ) (i : OrderIntent) : Option Fill := do
  let fillPrice ← match i.side with
    | .Buy => (books.bestAsk parse i.tokenId).filter (· ≤ i.price)
    | .Sell => (books.bestBid parse i.tokenId).filter (i.price ≤ ·)
  let notional := fillPrice * i.size
  let feeRateBps := ((registry.getByToken i.tokenId).map (·.feeRateBps)).getD 0
  let fee := notional * (feeRateBps / 10 ^ 4)
  guard (i.side = .Buy → l.cash.canAfford (notional + fee) = true)
  pure ⟨"paper_" ++ toString n, "paper_" ++ toString n, i.tokenId, i.side, fillPrice, i.size, fee, some i.price, 0⟩

/-- What a simulated fill does to the ledger: a purchase is withdrawn from the cash first. -/
def bookPaperFill (f : Fill) : List LedgerOp :=
  match f.side with
  | .Buy => [.withdraw f.notional, .processFill f]
  | .Sell => [.processFill f]

def simulatePaperFills (parse : String → Option Decimal) (books : OrderBookState) (registry : MarketPairRegistry) :
    Ledger → ℕ → List OrderIntent → List (OrderIntent × Fill)
  | _, _, [] => []
  | l, n, i :: intents =>
    match paperFill parse books registry l n i with
    | none => simulatePaperFills parse books registry l n intents
    | some f => (i, f) :: simulatePaperFills parse books registry (run l (bookPaperFill f)) (n + 1) intents

namespace State
variable (parse : String → Option Decimal)

def booksAfter (s : State) : Event → OrderBookState
  | .bookUpdate book _ _ _ _ _ => s.books.insert book.tokenId book
  | _ => s.books

/-- What the router returns for an event, and the router afterwards. Fills do not reach it. -/
def routed (s : State) (event : Event) : List OrderIntent × StrategyRouter :=
  match event with
  | .bookUpdate book others now utcNow paused _ =>
    if paused then ([], s.router)
    else s.router.onBookUpdate parse s.registry book.tokenId ⟨s.booksAfter event, s.ledger, now⟩ utcNow others
  | .tick others now _ => s.router.onTick parse s.registry ⟨s.books, s.ledger, now⟩ others
  | .strategySwitched name enabled => ([], s.router.setEnabled name enabled)
  | _ => ([], s.router)

def allowedIntents (s : State) (event : Event) : List OrderIntent :=
  match event with
  | .bookUpdate _ _ _ _ _ allowed | .tick _ _ allowed => if allowed then (s.routed parse event).1 else []
  | _ => []

def simulated (s : State) (event : Event) : List (OrderIntent × Fill) :=
  match s.mode with
  | .Paper =>
    simulatePaperFills parse (s.booksAfter event) s.registry s.ledger s.paperFills (s.allowedIntents parse event)
  | .Live => []

def ledgerOps (s : State) (event : Event) : List LedgerOp :=
  match event with
  | .tradeNotification f => [.processFill f]
  | .ledgerOp op => [op]
  | _ => (s.simulated parse event).flatMap fun e => bookPaperFill e.2

def fills (s : State) (event : Event) : List (OrderIntent × Fill) :=
  match event with
  | .tradeNotification f => ((s.placed.lookup f.orderId).map fun i => (i, f)).toList
  | _ => s.simulated parse event

def entries (s : State) (event : Event) : List (String × TokenId) :=
  ((s.fills parse event).filter fun e => e.1.side = .Buy ∧ e.2.side = .Buy ∧ e.2.tokenId = e.1.tokenId ∧
    (s.router.get e.1.strategyName).isSome).map fun e => (e.1.strategyName, e.1.tokenId)

def step (s : State) (event : Event) : State where
  mode := s.mode
  books := s.booksAfter event
  ledger := run s.ledger (s.ledgerOps parse event)
  registry := match event with
    | .marketsRefreshed registry => registry
    | _ => s.registry
  router := (s.routed parse event).2
  ordered := match s.mode with
    | .Paper => s.ordered
    | .Live => s.ordered ++ s.allowedIntents parse event
  placed := match event with
    | .orderPlaced orderId i => if i ∈ s.ordered then s.placed.insert orderId i else s.placed
    | _ => s.placed
  paperFills := s.paperFills + (s.simulated parse event).length
  entered := s.entered ++ s.entries parse event

def start (mode : OperatingMode) (configs : ExitConfigs) (l : Ledger) (registry : MarketPairRegistry) : State :=
  ⟨mode, ∅, l, registry, configs.setup, [], ∅, 0, []⟩

end State

/-- Every position that an exit strategy has entered is tracked by it as long as it is open. -/
def UnderExitControl (s : State) : Prop :=
  ∀ e ∈ s.entered, (s.ledger.getPosition e.2).isFlat = false → s.router.tracks e.1 e.2 = true

/-- The tokens that entries have bought, up to this step, are flat when its ledger operations are done. -/
def EntriesStayFlat (parse : String → Option Decimal) (s : State) (event : Event) : Prop :=
  ∀ e ∈ s.entered ++ s.entries parse event, ((run s.ledger (s.ledgerOps parse event)).getPosition e.2).isFlat = true

section Runs
variable {parse : String → Option Decimal} {s : State}

theorem untracked_setup (c : ExitConfigs) : c.setup.Untracked := by
  have hfold : ∀ (fresh : List ExitStrategy) (r : StrategyRouter), r.Untracked → (∀ x ∈ fresh, x.Untracked) →
      (fresh.foldl StrategyRouter.register r).Untracked := by
    intro fresh
    induction fresh with
    | nil => exact fun r hr _ => hr
    | cons x fresh ih =>
      intro r hr hfresh
      exact ih _ (hr.register (hfresh x List.mem_cons_self)) fun y hy => hfresh y (List.mem_cons_of_mem x hy)
  refine hfold _ _ (fun _ hreg => nomatch hreg) ?_
  intro x hx
  simp only [List.mem_append, Option.mem_toList, Option.map_eq_some_iff] at hx
  rcases hx with ((⟨config, -, rfl⟩ | ⟨config, -, rfl⟩) | ⟨config, -, rfl⟩) | ⟨config, -, rfl⟩ <;> rfl

/-- The step lemma: no event reaches the tracking, since no fill is routed to the strategies. -/
theorem untracked_routed (h : s.router.Untracked) (event : Event) : (s.routed parse event).2.Untracked := by
  cases event with
  | bookUpdate book others now utcNow paused allowed =>
    dsimp only [State.routed]
    split
    · exact h
    · exact h.dispatch (fun x hx => hx.onBookUpdate book.tokenId _ utcNow) others
  | tick others now allowed => exact h.dispatch (fun x hx => (hx.onTick _).2) others
  | strategySwitched name enabled => exact h.setEnabled name enabled
  | _ => exact h

theorem underExitControl_iff (h : s.router.Untracked) :
    UnderExitControl s ↔ ∀ e ∈ s.entered, (s.ledger.getPosition e.2).isFlat = true := by
  refine forall₂_congr fun e _ => ?_
  rw [h.not_tracks, Bool.false_eq_true, imp_false, Bool.not_eq_false]

end Runs

section
variable (parse : String → Option Decimal) (mode : OperatingMode) (configs : ExitConfigs) (l : Ledger)
  (registry : MarketPairRegistry)

theorem untracked_run (events : List Event) :
    (events.foldl (State.step parse) (.start mode configs l registry)).router.Untracked := by
  induction events using List.reverseRecOn with
  | nil => exact untracked_setup configs
  | append_singleton events event ih =>
    rw [List.foldl_append]
    exact untracked_routed ih event

/-- In every run, whatever was bought, a tick adds no exit to the intents of the other strategies. -/
theorem ticks_sell_nothing (events : List Event) (others : List OrderIntent) (now : Instant) (allowed : Bool) :
    ((events.foldl (State.step parse) (.start mode configs l registry)).routed parse (.tick others now allowed)).1 =
      StrategyRouter.resolveConflicts others :=
  (untracked_run parse mode configs l registry events).onTick_eq _ others

/-- In every run, the positions that the exit strategies enter are under exit control exactly if every token they buy
is flat again after each step. -/
theorem exit_control_iff (events : List Event) :
    (∀ p, p <+: events → UnderExitControl (p.foldl (State.step parse) (.start mode configs l registry))) ↔
      Throughout (State.step parse) (EntriesStayFlat parse) (.start mode configs l registry) events := by
  have hstart : UnderExitControl (.start mode configs l registry) := fun _ he => nomatch he
  rw [forall_prefix_iff, and_iff_right hstart]
  symm
  refine throughout_congr (fun s => s.router.Untracked) ?_ ?_ (untracked_setup configs)
  · intro s event h _
    exact untracked_routed h event
  · intro s event h
    have hnext : (s.step parse event).router.Untracked := untracked_routed h event
    exact (underExitControl_iff hnext).symm

end

private def parseDecimal (s : String) : Option Decimal :=
  (General.DecimalText.ScaledDecimal.fromStr s).map (·.value)

private def oneLevel (tokenId : TokenId) (bid ask : String) (now : ℕ) : Event :=
  .bookUpdate ⟨tokenId, "m1", [⟨bid, "100"⟩], [⟨ask, "100"⟩], none, none⟩ [] (Duration.fromSecs now) now false true

/-- The first token drops by a fifth in a second while the second token says that it is worth more. -/
private def sharpDrop : List Event :=
  [oneLevel "2" "0.40" "0.42" 0, oneLevel "1" "0.60" "0.62" 1, oneLevel "1" "0.48" "0.50" 2]

private def paperBot : State :=
  .start .Paper ⟨some .default, none, none, none⟩ (.new 1000) (MarketPairRegistry.new.register (.new "m1" "1" "2"))

/-- The contrarian entry is filled, and the time limit of two minutes passes without an exit. -/
theorem entry_is_never_exited :
    let held := sharpDrop.foldl (State.step parseDecimal) paperBot
    held.entered = [("contrarian", "1")] ∧ (held.ledger.getPosition "1").shares = 200 ∧
      (held.routed parseDecimal (.tick [] (Duration.fromSecs 200) true)).1 = [] ∧ ¬UnderExitControl held := by
  intro held
  have hentered : held.entered = [("contrarian", "1")] := by decide +kernel
  have hshares : (held.ledger.getPosition "1").shares = 200 := by decide +kernel
  have hopen : (held.ledger.getPosition "1").isFlat = false := by
    rw [Position.isFlat, hshares]
    decide
  have huntracked : held.router.Untracked :=
    untracked_run parseDecimal .Paper ⟨some .default, none, none, none⟩ (.new 1000)
      (MarketPairRegistry.new.register (.new "m1" "1" "2")) sharpDrop
  refine ⟨hentered, hshares, ?_, fun hcontrol => ?_⟩
  · exact ticks_sell_nothing parseDecimal .Paper ⟨some .default, none, none, none⟩ (.new 1000)
      (MarketPairRegistry.new.register (.new "m1" "1" "2")) sharpDrop [] _ _
  · have htracked := hcontrol ("contrarian", "1") (hentered ▸ List.mem_cons_self) hopen
    cases htracked.symm.trans (huntracked.not_tracks "contrarian" "1")

end PolyBot.Bot.ExitControl
