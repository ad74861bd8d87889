import PolyBot.Ledger.Ledger

/-! Runs of the ledger's operations, in whatever order the tasks of the bot call them. -/

namespace PolyBot.Ledger
open General.Replay

inductive LedgerOp where
  | processFill (f : Fill)
  | reserve (amount : Decimal)
  | release (amount : Decimal)
  | addOrder (order : TrackedOrder)
  | linkOrderId (localId : Uuid) (orderId : OrderId) (now : Timestamp)
  | transition (localId : Uuid) (newState : OrderState) (now : Timestamp)
  | applyOrderFill (localId : Uuid) (fillSize : Decimal) (now : Timestamp)
  | removeTerminal
  | applyServerCancel (orderId : OrderId) (now : Timestamp)
  | markAllToMarket (prices : List (TokenId × Decimal))
  | forceClose (tokenId : TokenId)
  | deposit (amount : Decimal)
  | withdraw (amount : Decimal)
  | syncCash (balance : Decimal)
  | syncFromExchange (exchangeTotal threshold : Decimal)

namespace LedgerOp

def apply (l : Ledger) : LedgerOp → Ledger
  | processFill f => l.processFill f
  | reserve amount => { l with cash := l.cash.tryReserve amount }
  | release amount => { l with cash := (l.cash.release amount).2 }
  | addOrder order => { l with orders := l.orders.add order }
  | linkOrderId localId orderId now =>
    match l.orders.linkOrderId localId orderId now with
    | .ok orders => { l with orders := orders }
    | .error _ => l
  | transition localId newState now =>
    match l.orders.transition localId newState now with
    | .ok (_, orders) => { l with orders := orders }
    | .error _ => l
  | applyOrderFill localId fillSize now =>
    match l.orders.applyFill localId fillSize now with
    | .ok (_, orders) => { l with orders := orders }
    | .error _ => l
  | removeTerminal => { l with orders := l.orders.removeTerminal }
  | applyServerCancel orderId now => (l.applyServerCancel orderId now).2
  | markAllToMarket prices => { l with positions := l.positions.markAllToMarket prices }
  | forceClose tokenId => { l with positions := l.positions.forceClose tokenId }
  | deposit amount => { l with cash := l.cash.deposit amount }
  | withdraw amount => { l with cash := l.cash.discard (l.cash.withdraw amount) }
  | syncCash balance => l.syncCash balance
  | syncFromExchange exchangeTotal threshold =>
    { l with cash := (l.cash.syncFromExchange exchangeTotal threshold).2 }

/-- Deposits, withdrawals and the two syncs set cash from outside the ledger. -/
def movesCashIn : LedgerOp → Bool
  | deposit _ | withdraw _ | syncCash _ | syncFromExchange _ _ => true
  | _ => false

def fill? : LedgerOp → Option Fill
  | processFill f => some f
  | _ => none

end LedgerOp

def run (l : Ledger) (ops : List LedgerOp) : Ledger := ops.foldl LedgerOp.apply l

def accepted (l : Ledger) : LedgerOp → List Fill
  | .processFill f => if f.fillId ∈ l.seenFillIds then [] else [l.resolve f]
  | _ => []

def acceptedFills : Ledger → List LedgerOp → List Fill
  | _, [] => []
  | l, op :: ops => accepted l op ++ acceptedFills (op.apply l) ops

structure SameHistory (l l' : Ledger) : Prop where
  fills : l'.fills = l.fills
  seenFillIds : l'.seenFillIds = l.seenFillIds

theorem SameHistory.refl (l : Ledger) : SameHistory l l := ⟨rfl, rfl⟩

theorem applyServerCancel_history (l : Ledger) (orderId : OrderId) (now : Timestamp) :
    SameHistory l (l.applyServerCancel orderId now).2 := by
  unfold applyServerCancel
  cases l.orders.getByOrderId orderId with
  | none => exact .refl l
  | some order =>
    dsimp only
    split
    · exact ⟨rfl, rfl⟩
    · exact .refl l

theorem apply_history {l : Ledger} {op : LedgerOp} (h : op.fill? = none) : SameHistory l (op.apply l) := by
  cases op with
  | processFill f => cases h
  | linkOrderId localId orderId now | transition localId newState now | applyOrderFill localId fillSize now =>
    dsimp only [LedgerOp.apply]
    split <;> exact ⟨rfl, rfl⟩
  | applyServerCancel orderId now => exact applyServerCancel_history l orderId now
  | _ => exact ⟨rfl, rfl⟩

theorem accepted_of_fill?_none {l : Ledger} {op : LedgerOp} (h : op.fill? = none) : accepted l op = [] := by
  cases op with
  | processFill f => cases h
  | _ => rfl

theorem total_applyServerCancel (l : Ledger) (orderId : OrderId) (now : Timestamp) :
    (l.applyServerCancel orderId now).2.cash.total = l.cash.total := by
  unfold applyServerCancel
  cases l.orders.getByOrderId orderId with
  | none => rfl
  | some order =>
    dsimp only
    split
    · dsimp only
      split
      · exact CashBalance.total_release l.cash order.remainingNotional
      · rfl
    · rfl

/-- Inside the ledger only fills change the total cash; reservations move it between the two cells. -/
theorem total_apply {l : Ledger} {op : LedgerOp} (hinside : op.movesCashIn = false) (hfill : op.fill? = none) :
    (op.apply l).cash.total = l.cash.total := by
  cases op with
  | processFill f => cases hfill
  | reserve amount => exact CashBalance.total_tryReserve l.cash amount
  | release amount => exact CashBalance.total_release l.cash amount
  | linkOrderId localId orderId now | transition localId newState now | applyOrderFill localId fillSize now =>
    dsimp only [LedgerOp.apply]
    split <;> rfl
  | applyServerCancel orderId now => exact total_applyServerCancel l orderId now
  | deposit amount => cases hinside
  | withdraw amount => cases hinside
  | syncCash balance => cases hinside
  | syncFromExchange exchangeTotal threshold => cases hinside
  | _ => rfl

theorem positions_applyServerCancel (l : Ledger) (orderId : OrderId) (now : Timestamp) :
    (l.applyServerCancel orderId now).2.positions = l.positions := by
  unfold applyServerCancel
  cases l.orders.getByOrderId orderId with
  | none => rfl
  | some order =>
    dsimp only
    split <;> rfl

theorem wellKeyed_apply {l : Ledger} (h : l.positions.WellKeyed) (op : LedgerOp) :
    (op.apply l).positions.WellKeyed := by
  cases op with
  | processFill f =>
    dsimp only [LedgerOp.apply, processFill]
    split
    · exact h
    · exact h.applyFill _
  | linkOrderId localId orderId now | transition localId newState now | applyOrderFill localId fillSize now =>
    dsimp only [LedgerOp.apply]
    split <;> exact h
  | applyServerCancel orderId now => exact positions_applyServerCancel l orderId now ▸ h
  | markAllToMarket prices => exact h.markAllToMarket prices
  | forceClose tokenId => exact h.forceClose tokenId
  | _ => exact h

/-- In every run positions stay under their own tokens. -/
theorem wellKeyed_run (initialCash : Decimal) (ops : List LedgerOp) :
    (run (.new initialCash) ops).positions.WellKeyed := by
  induction ops using List.reverseRecOn with
  | nil => exact Positions.wellKeyed_new
  | append_singleton ops op ih =>
    rw [run, List.foldl_append]
    exact wellKeyed_apply ih op

end PolyBot.Ledger
