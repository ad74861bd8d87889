import PolyBot.General.CappedLog
import PolyBot.General.Replay
import PolyBot.Ledger.Cash
import PolyBot.Ledger.Orders
import PolyBot.Ledger.Positions

namespace PolyBot
open General.KeyedStore General.Replay

inductive InvariantViolation where
  | CashMismatch (expectedReserved actualReserved : Decimal)
  | InvalidOrderState (order : TrackedOrder) (reason : String)
  deriving DecidableEq, Repr

structure Ledger where
  orders : OpenOrders
  positions : Positions
  cash : CashBalance
  fills : List Fill
  seenFillIds : Finset String

def MAX_FILLS : ℕ := 10000

namespace Ledger

def new (initialCash : Decimal) : Ledger := ⟨OpenOrders.new, Positions.new, CashBalance.new initialCash, [], ∅⟩

/-- The limit price of the tracked order, for a fill that does not carry one. -/
def resolveExpectedPrice (l : Ledger) (f : Fill) : Option Decimal :=
  match f.expectedPrice with
  | some price => some price
  | none => (l.orders.getByOrderId f.orderId).map (·.price)

/-- The fill as it is booked: its expected price resolved and its slippage cost computed. -/
def resolve (l : Ledger) (f : Fill) : Fill :=
  let expectedPrice := l.resolveExpectedPrice f
  { f with
    expectedPrice := expectedPrice
    slippageCost := match expectedPrice, f.side with
      | none, _ => 0
      | some exp, .Buy => (f.price - exp) * f.size
      | some exp, .Sell => (exp - f.price) * f.size }

def settle (cash : CashBalance) (f : Fill) : CashBalance :=
  match f.side with
  | .Buy => (cash.discard (cash.settleBuy f.notional)).deductFee f.fee
  | .Sell => (cash.settleSell f.notional).deductFee f.fee

def book (l : Ledger) (f : Fill) : Ledger :=
  { l with
    seenFillIds := insert f.fillId l.seenFillIds
    positions := l.positions.applyFill (l.resolve f)
    cash := settle l.cash (l.resolve f)
    fills := General.CappedLog.push MAX_FILLS (MAX_FILLS / 2) l.fills (l.resolve f) }

def processFill (l : Ledger) (f : Fill) : Ledger :=
  if f.fillId ∈ l.seenFillIds then l else l.book f

def syncCash (l : Ledger) (onChainBalance : Decimal) : Ledger := { l with cash := l.cash.reset onChainBalance }

/-- Closes an order the exchange no longer has; true when it was found open. -/
def applyServerCancel (l : Ledger) (exchangeOrderId : OrderId) (now : Timestamp) : Bool × Ledger :=
  match l.orders.getByOrderId exchangeOrderId with
  | none => (false, l)
  | some order =>
    if order.state.isActive then
      let cash := if 0 < order.remainingNotional then (l.cash.release order.remainingNotional).2 else l.cash
      let orders := match l.orders.transition order.localId .Cancelled now with
        | .ok (_, orders) => orders
        | .error _ => l.orders
      (true, { l with cash := cash, orders := orders })
    else (false, l)

def getPosition (l : Ledger) (tokenId : TokenId) : Position := l.positions.get tokenId

/-- The violations found; the reserved cash may be off by one ten-thousandth. -/
def checkInvariants (l : Ledger) : List InvariantViolation :=
  let expectedReserved := l.orders.totalReservedNotional
  let actualReserved := l.cash.reserved
  (if 1 / 10000 < |expectedReserved - actualReserved| then [.CashMismatch expectedReserved actualReserved] else []) ++
    (l.orders.activeOrders.filter (·.state.isTerminal)).map fun order =>
      .InvalidOrderState order "Terminal order in active list"

theorem processFill_of_seen {l : Ledger} {f : Fill} (h : f.fillId ∈ l.seenFillIds) : l.processFill f = l := if_pos h

theorem processFill_of_new {l : Ledger} {f : Fill} (h : f.fillId ∉ l.seenFillIds) : l.processFill f = l.book f :=
  if_neg h

@[simp] theorem resolve_notional (l : Ledger) (f : Fill) : (l.resolve f).notional = f.notional := rfl
@[simp] theorem resolve_fee (l : Ledger) (f : Fill) : (l.resolve f).fee = f.fee := rfl
@[simp] theorem resolve_side (l : Ledger) (f : Fill) : (l.resolve f).side = f.side := rfl

/-- Only purchases draw on the reserved cash. -/
theorem reserved_book (l : Ledger) (f : Fill) :
    (l.book f).cash.reserved =
      if f.side = .Buy then (l.cash.discard (l.cash.settleBuy f.notional)).reserved else l.cash.reserved := by
  simp only [book, settle, resolve_side, resolve_notional, resolve_fee]
  cases f.side with
  | Buy => exact CashBalance.reserved_deductFee _ _
  | Sell => exact (CashBalance.reserved_deductFee _ _).trans (CashBalance.reserved_settleSell _ _)

theorem seenFillIds_processFill (l : Ledger) (f : Fill) :
    (l.processFill f).seenFillIds = insert f.fillId l.seenFillIds := by
  by_cases h : f.fillId ∈ l.seenFillIds
  · rw [processFill_of_seen h, Finset.insert_eq_of_mem h]
  · rw [processFill_of_new h]
    rfl

/-- The id set accepts each fill id once. -/
theorem processFill_deduplicates : Deduplicates Fill.fillId seenFillIds processFill :=
  ⟨seenFillIds_processFill, fun _ _ h => processFill_of_seen h⟩

/-- Fills never reach the order store. -/
theorem orders_processFill (l : Ledger) (f : Fill) : (l.processFill f).orders = l.orders := by
  unfold processFill
  split <;> rfl

end Ledger

end PolyBot
