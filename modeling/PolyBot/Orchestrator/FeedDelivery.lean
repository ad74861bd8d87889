import PolyBot.General.Subscription
import PolyBot.Orchestrator.MarketRefresh
import PolyBot.State.ExchangeBooks

/-! The tasks behind the two websockets, their queues, and the main loop that reads these and restarts the market task
when a refresh changes the markets. -/

namespace PolyBot.Bot.FeedDelivery
open General.Subscription MarketRefresh Websocket

/-- Where `MarketWebSocket::run` is; pauses are in seconds. -/
inductive MarketPhase where
  | returned
  | subscribing
  | streaming
  | sleeping (secs : ℕ)
  deriving DecidableEq, Repr

inductive MarketOutcome where
  | subscribeFails
  | subscribes
  | yields (book : OrderBook)
  | fails
  | ends
  | wakes
  deriving DecidableEq, Repr

namespace MarketPhase

/-- Without an id to subscribe to the task returns at once. -/
def start (isU256 : TokenId → Bool) (tokenIds : List TokenId) : MarketPhase :=
  if tokenIds.filter isU256 = [] then returned else subscribing

/-- The messages that the task sends and where it goes on; nothing happens that it does not await. -/
def next : MarketPhase → MarketOutcome → List (Message BookMessage) × MarketPhase
  | subscribing, .subscribeFails => ([.reconnecting], sleeping 5)
  | subscribing, .subscribes => ([.connected], streaming)
  | streaming, .yields book => ([.item book.snapshot], streaming)
  | streaming, .fails => ([.reconnecting], sleeping 1)
  | streaming, .ends => ([.reconnecting], sleeping 1)
  | sleeping _, .wakes => ([], subscribing)
  | phase, _ => ([], phase)

def isStreaming : MarketPhase → Bool
  | streaming => true
  | _ => false

theorem moves_next (phase : MarketPhase) (outcome : MarketOutcome) :
    Moves isStreaming phase (phase.next outcome).2 (phase.next outcome).1 := by
  cases phase with
  | returned => exact .silent rfl
  | subscribing =>
    cases outcome with
    | subscribeFails => exact .reconnects rfl
    | subscribes => exact .connects rfl rfl
    | _ => exact .silent rfl
  | streaming =>
    cases outcome with
    | yields book => exact .yields _ rfl rfl
    | fails | ends => exact .reconnects rfl
    | _ => exact .silent rfl
  | sleeping secs =>
    cases outcome with
    | wakes => exact .silent rfl
    | _ => exact .silent rfl

theorem isStreaming_start (isU256 : TokenId → Bool) (tokenIds : List TokenId) :
    isStreaming (start isU256 tokenIds) = false := by
  unfold start
  split <;> rfl

end MarketPhase

inductive UserPhase where
  | authenticating
  | subscribing
  | streaming
  | sleeping (secs : ℕ)
  deriving DecidableEq, Repr

inductive UserOutcome where
  | authenticateFails
  | authenticates
  | subscribeFails
  | subscribes
  | trade (trade : TradeMessage)
  | order (orderId : OrderId) (status : Option String)
  /-- Another kind of message, which is ignored. -/
  | other
  | fails
  | ends
  | wakes
  deriving DecidableEq, Repr

inductive UserItem where
  | trade (trade : TradeNotification)
  | orderUpdate (orderId : OrderId) (status : String)
  deriving DecidableEq, Repr

namespace UserPhase

def next : UserPhase → UserOutcome → List (Message UserItem) × UserPhase
  | authenticating, .authenticateFails => ([.reconnecting], sleeping 10)
  | authenticating, .authenticates => ([], subscribing)
  | subscribing, .subscribeFails => ([.reconnecting], sleeping 5)
  | subscribing, .subscribes => ([.connected], streaming)
  | streaming, .trade trade => ([.item (.trade trade.notification)], streaming)
  | streaming, .order orderId status => ([.item (.orderUpdate orderId (status.getD ""))], streaming)
  | streaming, .fails => ([.reconnecting], sleeping 5)
  | streaming, .ends => ([.reconnecting], sleeping 5)
  | sleeping _, .wakes => ([], authenticating)
  | phase, _ => ([], phase)

def isStreaming : UserPhase → Bool
  | streaming => true
  | _ => false

theorem moves_next (phase : UserPhase) (outcome : UserOutcome) :
    Moves isStreaming phase (phase.next outcome).2 (phase.next outcome).1 := by
  cases phase with
  | authenticating =>
    cases outcome with
    | authenticateFails => exact .reconnects rfl
    | _ => exact .silent rfl
  | subscribing =>
    cases outcome with
    | subscribeFails => exact .reconnects rfl
    | subscribes => exact .connects rfl rfl
    | _ => exact .silent rfl
  | streaming =>
    cases outcome with
    | trade trade => exact .yields _ rfl rfl
    | order orderId status => exact .yields _ rfl rfl
    | fails | ends => exact .reconnects rfl
    | _ => exact .silent rfl
  | sleeping secs =>
    cases outcome with
    | wakes => exact .silent rfl
    | _ => exact .silent rfl

end UserPhase

variable {β : Type*}

/-- The bot's markets, its links to the two websocket tasks and its books; without credentials there is no user task. -/
structure State (β : Type*) where
  feeds : Feeds β
  market : Link MarketPhase BookMessage
  user : Option (Link UserPhase UserItem)
  books : OrderBookState

/-- A task goes on, the main loop takes the next message of a queue, or it refreshes the markets. -/
inductive Event where
  | marketTask (outcome : MarketOutcome)
  | userTask (outcome : UserOutcome)
  | receiveMarket
  | receiveUser
  | refresh (discovered : Option (List MarketPair))

def changesMarkets (s : Feeds β) : Option (List MarketPair) → Bool
  | none => false
  | some discovered =>
    let newIds := discovered.map (·.conditionId)
    let existingIds := s.registry.allConditionIds
    !((∀ id ∈ newIds, id ∈ existingIds) ∧ ∀ id ∈ existingIds, id ∈ newIds)

namespace State
variable (isU256 : TokenId → Bool)

def new (feeds : Feeds β) : State β where
  feeds := feeds
  market := .new (.start isU256 feeds.marketFeed)
  user := feeds.userFeed.map fun _ => .new .authenticating
  books := ∅

/-- A refresh that changes the markets aborts the market task and starts one with the tokens registered now. -/
def refresh (s : State β) (discovered : Option (List MarketPair)) : State β :=
  let feeds := refreshMarkets s.feeds discovered
  { s with
    feeds := feeds
    market :=
      if changesMarkets s.feeds discovered then s.market.replace (.start isU256 feeds.marketFeed) else s.market }

/-- The main loop takes the next message of the market queue; a snapshot replaces the book of its token. -/
def receiveMarket (s : State β) : State β :=
  match s.market.queue with
  | .item message :: _ => { s with market := s.market.receive, books := s.books.take readDecimal message }
  | _ => { s with market := s.market.receive }

def step (s : State β) : Event → State β
  | .marketTask outcome =>
    let (ms, phase) := s.market.phase.next outcome
    { s with market := s.market.send phase ms }
  | .userTask outcome =>
    { s with user := s.user.map fun link =>
        let (ms, phase) := link.phase.next outcome
        link.send phase ms }
  | .receiveMarket => s.receiveMarket
  | .receiveUser => { s with user := s.user.map (·.receive) }
  | .refresh discovered => s.refresh isU256 discovered

def run (s : State β) (events : List Event) : State β := events.foldl (step isU256) s

end State

structure FeedsDelivered (isU256 : TokenId → Bool) (s : State β) : Prop where
  market : s.market.Delivers MarketPhase.isStreaming
  user : ∀ link ∈ s.user, link.Delivers UserPhase.isStreaming ∧ link.past = []
  covered : MarketCovered s.feeds
  /-- The market task has returned exactly if no token of the markets is a number. -/
  silent : s.market.phase = .returned ↔ s.feeds.marketFeed.filter isU256 = []
  /-- All that was received are books, and the last one of a token is the one that is held. -/
  books : ∃ received : List OrderBook, items s.market.allReceived = received.map (·.snapshot) ∧
    ∀ tokenId, Option.Rel OrderBook.IsReadIn (OrderBook.last received tokenId) (s.books.getBook tokenId)

/-- The queue holds books, and those received have been put into the order books one after the other. -/
def TakesBooks (s : State β) : Prop :=
  ∃ queued received : List OrderBook, items s.market.queue = queued.map (·.snapshot) ∧
    items s.market.allReceived = received.map (·.snapshot) ∧
      s.books = received.foldl (fun books book => books.take readDecimal book.snapshot) ∅

/-- A market task sends books only. -/
theorem items_next (phase : MarketPhase) (outcome : MarketOutcome) :
    ∃ books : List OrderBook, items (phase.next outcome).1 = books.map (·.snapshot) := by
  cases phase with
  | returned => exact ⟨[], rfl⟩
  | subscribing => cases outcome <;> exact ⟨[], rfl⟩
  | streaming =>
    cases outcome with
    | yields book => exact ⟨[book], rfl⟩
    | _ => exact ⟨[], rfl⟩
  | sleeping secs => cases outcome <;> exact ⟨[], rfl⟩

theorem next_eq_returned (phase : MarketPhase) (outcome : MarketOutcome) :
    (phase.next outcome).2 = .returned ↔ phase = .returned := by
  cases phase <;> cases outcome <;> simp [MarketPhase.next]

theorem start_eq_returned {isU256 : TokenId → Bool} {tokenIds : List TokenId} :
    MarketPhase.start isU256 tokenIds = .returned ↔ tokenIds.filter isU256 = [] := by
  unfold MarketPhase.start
  split
  · rename_i hnone
    exact iff_of_true rfl hnone
  · rename_i hsome
    exact iff_of_false MarketPhase.noConfusion hsome

/-- A message taken from the queue goes into the order books, if it is a book. -/
theorem TakesBooks.receiveMarket {s : State β} (h : TakesBooks s) : TakesBooks s.receiveMarket := by
  obtain ⟨queued, received, hqueue, hreceived, hbooks⟩ := h
  unfold State.receiveMarket
  cases hq : s.market.queue with
  | nil =>
    have hidle : s.market.receive = s.market := by rw [Link.receive, hq]
    exact ⟨queued, received, by rw [hidle, hqueue], by rw [hidle, hreceived], hbooks⟩
  | cons m queue =>
    obtain ⟨hqueue', hreceived'⟩ := Link.allReceived_receive hq
    rw [hq] at hqueue
    cases m with
    | connected | reconnecting =>
      refine ⟨queued, received, ?_, ?_, hbooks⟩
      · rw [hqueue', ← hqueue]
        rfl
      · rw [hreceived', items_append, hreceived]
        exact List.append_nil _
    | item message =>
      obtain ⟨book, rest, rfl, rfl, hrest⟩ := List.map_eq_cons_iff.mp hqueue.symm
      refine ⟨rest, received ++ [book], ?_, ?_, ?_⟩
      · rw [hqueue', hrest]
        rfl
      · rw [hreceived', items_append, hreceived, List.map_append]
        rfl
      · rw [List.foldl_append, ← hbooks]
        rfl

structure Running (isU256 : TokenId → Bool) (s : State β) : Prop where
  market : s.market.Delivers MarketPhase.isStreaming
  user : ∀ link ∈ s.user, link.Delivers UserPhase.isStreaming ∧ link.past = []
  kept : Kept s.feeds
  silent : s.market.phase = .returned ↔ s.feeds.marketFeed.filter isU256 = []
  books : TakesBooks s

theorem running_new (isU256 : TokenId → Bool) {feeds : Feeds β} (h : Kept feeds) :
    Running isU256 (.new isU256 feeds) where
  market := Link.delivers_new (MarketPhase.isStreaming_start isU256 _)
  user link hlink := by
    obtain ⟨feed, -, rfl⟩ := Option.mem_map.mp hlink
    exact ⟨Link.delivers_new rfl, rfl⟩
  kept := h
  silent := start_eq_returned
  books := ⟨[], [], rfl, rfl, rfl⟩

section Step
variable {isU256 : TokenId → Bool} {s : State β}

/-- Taking a message changes the link to the market task and the books only. -/
theorem receiveMarket_eq (s : State β) : s.receiveMarket.market = s.market.receive ∧
    s.receiveMarket.feeds = s.feeds ∧ s.receiveMarket.user = s.user := by
  unfold State.receiveMarket
  split <;> exact ⟨rfl, rfl, rfl⟩

theorem refreshMarkets_of_not_changes {feeds : Feeds β} {discovered : Option (List MarketPair)}
    (h : changesMarkets feeds discovered = false) : refreshMarkets feeds discovered = feeds := by
  cases discovered with
  | none => rfl
  | some discovered =>
    unfold refreshMarkets
    exact if_pos (by simpa [changesMarkets] using h)

theorem Running.refresh (h : Running isU256 s) (discovered : Option (List MarketPair)) :
    Running isU256 (s.refresh isU256 discovered) := by
  have hkept := h.kept.refresh discovered
  unfold State.refresh
  cases hchanges : changesMarkets s.feeds discovered with
  | true =>
    obtain ⟨queued, received, -, hreceived, hbooks⟩ := h.books
    exact ⟨h.market.replace (MarketPhase.isStreaming_start isU256 _), h.user, hkept, start_eq_returned,
      [], received, rfl, by rw [← hreceived]; exact congrArg items (Link.allReceived_replace _ _), hbooks⟩
  | false =>
    have hsame := refreshMarkets_of_not_changes hchanges
    exact ⟨h.market, h.user, hkept, by rw [hsame]; exact h.silent, h.books⟩

/-- The step lemma: whatever happens next, the tasks go on delivering. -/
theorem Running.step (h : Running isU256 s) (e : Event) : Running isU256 (s.step isU256 e) := by
  cases e with
  | marketTask outcome =>
    refine ⟨h.market.send (MarketPhase.moves_next s.market.phase outcome), h.user, h.kept,
      (next_eq_returned _ outcome).trans h.silent, ?_⟩
    obtain ⟨queued, received, hqueue, hreceived, hbooks⟩ := h.books
    obtain ⟨sent, hsent⟩ := items_next s.market.phase outcome
    refine ⟨queued ++ sent, received, ?_, hreceived, hbooks⟩
    rw [List.map_append, ← hqueue, ← hsent]
    exact items_append _ _
  | userTask outcome =>
    refine ⟨h.market, fun link hlink => ?_, h.kept, h.silent, h.books⟩
    obtain ⟨before, hbefore, rfl⟩ := Option.mem_map.mp hlink
    obtain ⟨hdelivers, hpast⟩ := h.user before hbefore
    exact ⟨hdelivers.send (UserPhase.moves_next before.phase outcome), hpast⟩
  | receiveMarket =>
    obtain ⟨hmarket, hfeeds, huser⟩ := receiveMarket_eq s
    have hrunning : Running isU256 s.receiveMarket :=
      ⟨by rw [hmarket]; exact h.market.receive, by rw [huser]; exact h.user, by rw [hfeeds]; exact h.kept,
        by rw [hmarket, hfeeds, Link.phase_receive]; exact h.silent, h.books.receiveMarket⟩
    exact hrunning
  | receiveUser =>
    refine ⟨h.market, fun link hlink => ?_, h.kept, h.silent, h.books⟩
    obtain ⟨before, hbefore, rfl⟩ := Option.mem_map.mp hlink
    obtain ⟨hdelivers, hpast⟩ := h.user before hbefore
    exact ⟨hdelivers.receive, before.past_receive.trans hpast⟩
  | refresh discovered => exact h.refresh discovered

end Step

/-- In every interleaving of the tasks, the main loop and its refreshes, the messages of the task in service arrive in
order with none lost or doubled, what they say fits what came before, the market feed covers the registered pairs, and
the best prices of a token are those of the last book received for it. -/
theorem feeds_delivered (parse : ConditionId → Option β) (isU256 : TokenId → Bool) (marketPairs : List MarketPair)
    (credentials : Bool) (events : List Event) :
    FeedsDelivered isU256
      ((State.new isU256 (MarketRefresh.start parse marketPairs credentials)).run isU256 events) := by
  have hrun : ∀ s : State β, Running isU256 s → Running isU256 (s.run isU256 events) := by
    induction events with
    | nil => exact fun _ h => h
    | cons e events ih => exact fun s h => ih (s.step isU256 e) (h.step e)
  have hkept : Kept (MarketRefresh.start parse marketPairs credentials) := kept_start marketPairs credentials
  have h := hrun _ (running_new isU256 hkept)
  obtain ⟨queued, received, -, hreceived, hbooks⟩ := h.books
  refine ⟨h.market, h.user, h.kept.covered, h.silent, received, hreceived, fun tokenId => ?_⟩
  rw [hbooks]
  exact OrderBook.rel_last received tokenId

end PolyBot.Bot.FeedDelivery
