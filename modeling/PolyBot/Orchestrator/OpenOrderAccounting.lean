import PolyBot.General.AdditiveRuns
import PolyBot.Orchestrator.LiveBot

/-! The orders open on the exchange against the order store and the reserved cash. No path of the live bot
adds an order to the store or reserves cash for one. -/

namespace PolyBot.Bot.OpenOrderAccounting
open General.AdditiveRuns OrderExecutor

/-- The open order is an active order of the ledger under its exchange id, a buy has its remaining notional
reserved along with that of the other buys, and the cash covers them all. -/
structure AccountedFor (s : LiveState) (o : RestingOrder) : Prop where
  tracked : ∃ t, s.ledger.orders.getByOrderId o.orderId = some t ∧ t.state.isActive = true
  reserved : o.side = .Buy → s.openBuyNotional ≤ s.ledger.cash.reserved
  covered : s.openBuyNotional ≤ s.ledger.cash.total

def Accounted (s : LiveState) : Prop := ∀ o ∈ s.resting, AccountedFor s o

def LeavesNothing (s : LiveState) : LiveEvent → Prop
  | .task i event left => ∀ task, s.tasks[i]? = some task → ∀ params reply,
      task.answered event = some (params, reply) → restingOf params reply left = []
  | _ => True

structure Unbooked (l : Ledger) : Prop where
  orders : l.orders.byOrderId = ∅
  reserved : l.cash.reserved = 0

theorem unbooked_book {l : Ledger} (h : Unbooked l) (f : Fill) : Unbooked (l.book f) where
  orders := h.orders
  reserved := by
    rw [Ledger.reserved_book, CashBalance.reserved_settleBuy_of_zero h.reserved, h.reserved, ite_self]

theorem unbooked_processFill {l : Ledger} (h : Unbooked l) (f : Fill) : Unbooked (l.processFill f) := by
  by_cases hseen : f.fillId ∈ l.seenFillIds
  · rw [Ledger.processFill_of_seen hseen]
    exact h
  · rw [Ledger.processFill_of_new hseen]
    exact unbooked_book h f

/-- No event of the live bot books an order. -/
theorem unbooked_run_ledgerOps {l : Ledger} (h : Unbooked l) (event : LiveEvent) :
    Unbooked (Ledger.run l event.ledgerOps) := by
  cases event with
  | handleTradeNotification f => exact unbooked_processFill h f
  | heartbeat prices now => exact ⟨h.orders, h.reserved⟩
  | syncCash exchangeTotal =>
    refine ⟨h.orders, ?_⟩
    change (l.cash.syncFromExchange exchangeTotal CASH_SYNC_THRESHOLD).2.reserved = 0
    unfold CashBalance.syncFromExchange
    dsimp only
    split <;> exact h.reserved
  | cancelGhost orderId now =>
    have hnone : l.orders.getByOrderId orderId = none := by
      rw [OpenOrders.getByOrderId, h.orders]
      rfl
    have hkeep : (l.applyServerCancel orderId now).2 = l := by
      simp only [Ledger.applyServerCancel, hnone]
    change Unbooked (l.applyServerCancel orderId now).2
    rw [hkeep]
    exact h
  | zeroPosition tokenId => exact ⟨h.orders, h.reserved⟩
  | creditRedemption usdc tokenId =>
    refine ⟨h.orders, ?_⟩
    change (l.cash.deposit usdc).reserved = 0
    rw [CashBalance.deposit]
    split <;> exact h.reserved
  | _ => exact h

theorem unbooked_start (ex : OrderExecutor) (initialCash : Decimal) (balance : Option Decimal)
    (recentFills : List Fill) :
    Unbooked (LiveState.start ex initialCash balance recentFills).ledger := by
  have hseed : ∀ (l : Ledger) (fills : List Fill), Unbooked l → Unbooked (fills.foldl Ledger.processFill l) := by
    intro l fills hl
    induction fills generalizing l with
    | nil => exact hl
    | cons f fills ih => exact ih _ (unbooked_processFill hl f)
  apply hseed
  cases balance with
  | none => exact ⟨rfl, rfl⟩
  | some balance => exact ⟨rfl, rfl⟩

theorem unbooked_run {s : LiveState} (h : Unbooked s.ledger) (events : List LiveEvent) :
    Unbooked (s.run events).ledger := by
  induction events generalizing s with
  | nil => exact h
  | cons event events ih => exact ih (unbooked_run_ledgerOps h event)

/-- Every strategy of a live run sizes from the whole cash. -/
theorem available_eq_total (ex : OrderExecutor) (initialCash : Decimal) (balance : Option Decimal)
    (recentFills : List Fill) (events : List LiveEvent) :
    let s := (LiveState.start ex initialCash balance recentFills).run events
    s.ledger.cash.available = s.ledger.cash.total := by
  have h := unbooked_run (unbooked_start ex initialCash balance recentFills) events
  dsimp only
  rw [CashBalance.total, h.reserved, add_zero]

/-- With nothing booked, the open orders are accounted for only if there are none. -/
theorem accounted_iff {s : LiveState} (h : Unbooked s.ledger) : Accounted s ↔ s.resting = [] := by
  constructor
  · intro haccounted
    by_contra hne
    obtain ⟨o, rest, hcons⟩ := List.exists_cons_of_ne_nil hne
    obtain ⟨t, hlookup, -⟩ := (haccounted o (by simp [hcons])).tracked
    rw [OpenOrders.getByOrderId, h.orders] at hlookup
    cases hlookup
  · intro hnil o ho
    rw [hnil] at ho
    cases ho

/-- From a state without open orders, an event leaves none exactly when it does not answer one that stays open. -/
theorem resting_step_eq_nil_iff {s : LiveState} (h : s.resting = []) (event : LiveEvent) :
    (s.step event).resting = [] ↔ LeavesNothing s event := by
  cases event with
  | task i event left =>
    change (s.trade (.task i event left)).resting = [] ↔ _
    simp only [LiveState.trade, LeavesNothing]
    cases htask : s.tasks[i]? with
    | none => simp [h]
    | some task => simp [h, opened_eq_nil_iff]
  | processIntents intents now => exact iff_of_true h trivial
  | exchangeFill orderId size => simp [LiveState.step, LiveState.trade, matchResting, LeavesNothing, h]
  | exchangeCancel orderId => simp [LiveState.step, LiveState.trade, LeavesNothing, h]
  | _ => exact iff_of_true h trivial

/-- In every state of a live run the open orders are accounted for exactly when no step of it answers an order that
stays open. -/
theorem open_orders_accounted_iff (ex : OrderExecutor) (initialCash : Decimal) (balance : Option Decimal)
    (recentFills : List Fill) (events : List LiveEvent) :
    let s := LiveState.start ex initialCash balance recentFills
    (∀ p, p <+: events → Accounted (s.run p)) ↔ Throughout LiveState.step LeavesNothing s events := by
  intro s
  have hstart : Unbooked s.ledger ∧ s.resting = [] := ⟨unbooked_start ex initialCash balance recentFills, rfl⟩
  have hreached : (∀ p, p <+: events → Accounted (s.run p)) ↔
      Accounted s ∧ Throughout LiveState.step (fun s event => Accounted (s.step event)) s events := forall_prefix_iff
  rw [hreached, and_iff_right ((accounted_iff hstart.1).mpr hstart.2)]
  apply throughout_congr (fun s => Unbooked s.ledger ∧ s.resting = []) ?_ ?_ hstart
  · intro s event hs haccounted
    have hunbooked : Unbooked (s.step event).ledger := unbooked_run_ledgerOps hs.1 event
    exact ⟨hunbooked, (accounted_iff hunbooked).mp haccounted⟩
  · intro s event hs
    rw [accounted_iff (unbooked_run_ledgerOps hs.1 event), resting_step_eq_nil_iff hs.2]

private def makerLeg (marketId : ConditionId) (tokenId : TokenId) : OrderIntent :=
  ((OrderIntent.new marketId tokenId .Buy (47 / 100) 100 .Passive "MakerRebateArbStrategy").withGroup
    marketId).withPriority 90

private def posted (orderId : OrderId) : Reply := .ok (.taking orderId 0)

/-- The batch `i` comes from the main loop, and both of its legs are posted and stay open whole. -/
private def restingBatch (i : ℕ) (marketId : ConditionId) : List LiveEvent :=
  [.processIntents [makerLeg marketId (marketId ++ "-yes"), makerLeg marketId (marketId ++ "-no")] 0,
    .task i (.leg (.start 0 0 0)) 0,
    .task i (.leg (.start 1 0 0)) 0,
    .task i (.leg (.answer 0 0 (posted (marketId ++ "-yes-order")))) 100,
    .task i (.leg (.answer 1 0 (posted (marketId ++ "-no-order")))) 100]

private def twoBatches : LiveState :=
  (LiveState.start (.new DualPolicy.new.policy (.new 0)) 100 none []).run (restingBatch 0 "m1" ++ restingBatch 1 "m2")

/-- Two batches of resting buys spend the same hundred dollars, none of which is reserved. -/
theorem two_batches_share_cash :
    twoBatches.resting.map (·.orderId) = ["m1-yes-order", "m1-no-order", "m2-yes-order", "m2-no-order"] ∧
      twoBatches.openBuyNotional = 188 ∧ twoBatches.ledger.cash = ⟨100, 0⟩ ∧ ¬Accounted twoBatches := by
  have hopen : twoBatches.resting.map (·.orderId) = ["m1-yes-order", "m1-no-order", "m2-yes-order", "m2-no-order"] := by
    decide +kernel
  have hnotional : twoBatches.openBuyNotional = 188 := by decide +kernel
  have hcash : twoBatches.ledger.cash = ⟨100, 0⟩ := by decide +kernel
  refine ⟨hopen, hnotional, hcash, ?_⟩
  intro haccounted
  obtain ⟨o, rest, hcons⟩ := List.exists_cons_of_ne_nil (show twoBatches.resting ≠ [] by
    intro hnil
    simp [hnil] at hopen)
  have hcovered := (haccounted o (by simp [hcons])).covered
  rw [hnotional, hcash] at hcovered
  exact absurd hcovered (by decide +kernel)

end PolyBot.Bot.OpenOrderAccounting
