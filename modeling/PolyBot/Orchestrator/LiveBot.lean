import PolyBot.Ledger.Runs
import PolyBot.Orchestrator.Tasks

/-! The bot in live mode. The main loop, the tasks it spawns and the sync task share one ledger and one
executor; an event is one step of one of them, or of the exchange. -/

namespace PolyBot.Bot
open OrderExecutor

structure RestingOrder where
  orderId : OrderId
  side : Side
  price : Decimal
  remaining : Decimal
  deriving DecidableEq, Repr

def RestingOrder.remainingNotional (o : RestingOrder) : Decimal := o.remaining * o.price

/-- The exchange keeps a good-till-cancelled order open that it accepts and does not fill whole at once; `left`
is the size it keeps. -/
def restingOf (params : OrderParams) (reply : Reply) (left : Decimal) : List RestingOrder :=
  match reply with
  | .error _ => []
  | .ok response =>
    if response.success ∧ params.orderType = .GTC ∧ response.takingAmount < params.size ∧ 0 < left then
      [⟨response.orderId, params.side, params.price, left⟩]
    else []

def opened (task : Task) (event : TaskEvent) (left : Decimal) : List RestingOrder :=
  match task.answered event with
  | none => []
  | some (params, reply) => restingOf params reply left

theorem opened_eq_nil_iff (task : Task) (event : TaskEvent) (left : Decimal) :
    opened task event left = [] ↔
      ∀ params reply, task.answered event = some (params, reply) → restingOf params reply left = [] := by
  unfold opened
  cases task.answered event with
  | none => simp
  | some answer =>
    obtain ⟨params, reply⟩ := answer
    simp

structure LiveState where
  ledger : Ledger
  executor : OrderExecutor
  tasks : List Task
  resting : List RestingOrder

/-- What happens next. A step of a task tells with `left` what the exchange keeps open of the order it answers. -/
inductive LiveEvent where
  | processIntents (intents : List OrderIntent) (now : Instant)
  | task (i : ℕ) (event : TaskEvent) (left : Decimal)
  | heartbeat (prices : List (TokenId × Decimal)) (now : Instant)
  | handleTradeNotification (f : Fill)
  | syncCash (exchangeTotal : Decimal)
  | cancelGhost (orderId : OrderId) (now : Timestamp)
  | zeroPosition (tokenId : TokenId)
  | creditRedemption (usdc : Decimal) (tokenId : TokenId)
  | exchangeFill (orderId : OrderId) (size : Decimal)
  | exchangeCancel (orderId : OrderId)

def CASH_SYNC_THRESHOLD : Decimal := 1 / 100

def LiveEvent.ledgerOps : LiveEvent → List Ledger.LedgerOp
  | handleTradeNotification f => [.processFill f]
  | heartbeat prices _ => [.markAllToMarket prices]
  | syncCash exchangeTotal => [.syncFromExchange exchangeTotal CASH_SYNC_THRESHOLD]
  | cancelGhost orderId now => [.applyServerCancel orderId now]
  | zeroPosition tokenId => [.forceClose tokenId]
  | creditRedemption usdc tokenId => [.deposit usdc, .forceClose tokenId]
  | processIntents _ _ | task _ _ _ | exchangeFill _ _ | exchangeCancel _ => []

def matchResting (orderId : OrderId) (size : Decimal) (resting : List RestingOrder) : List RestingOrder :=
  (resting.map fun o => if o.orderId = orderId then { o with remaining := o.remaining - size } else o).filter
    fun o => 0 < o.remaining

def askBreaker (ex : OrderExecutor) (now : Instant) : Bool × OrderExecutor :=
  let (allowed, circuitBreaker) := ex.circuitBreaker.isTradingAllowed now
  (allowed, { ex with circuitBreaker := circuitBreaker })

namespace LiveState

/-- The bot as it starts: the cash of the configuration or of the exchange, and the recent fills replayed. -/
def start (ex : OrderExecutor) (initialCash : Decimal) (balance : Option Decimal) (recentFills : List Fill) :
    LiveState :=
  let ledger := Ledger.new initialCash
  let ledger := match balance with
    | some balance => ledger.syncCash balance
    | none => ledger
  ⟨recentFills.foldl Ledger.processFill ledger, ex, [], []⟩

def trade (s : LiveState) : LiveEvent → LiveState
  | .processIntents intents now =>
    let (allowed, ex) := askBreaker s.executor now
    { s with executor := ex, tasks := if allowed then s.tasks ++ [.spawn intents] else s.tasks }
  | .task i event left =>
    match s.tasks[i]? with
    | none => s
    | some task =>
      let (ex, task') := task.step s.executor event
      { s with
        executor := ex
        tasks := s.tasks.set i task'
        resting := s.resting ++ opened task event left }
  | .heartbeat _ now => { s with executor := (askBreaker s.executor now).2 }
  | .exchangeFill orderId size => { s with resting := matchResting orderId size s.resting }
  | .exchangeCancel orderId => { s with resting := s.resting.filter (·.orderId ≠ orderId) }
  | _ => s

def step (s : LiveState) (event : LiveEvent) : LiveState :=
  { s.trade event with ledger := Ledger.run s.ledger event.ledgerOps }

def run (s : LiveState) (events : List LiveEvent) : LiveState := events.foldl step s

def openBuyNotional (s : LiveState) : Decimal :=
  ((s.resting.filter (·.side = .Buy)).map (·.remainingNotional)).sum

end LiveState

end PolyBot.Bot
