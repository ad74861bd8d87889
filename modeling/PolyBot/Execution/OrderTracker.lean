import PolyBot.General.GroupedIndex
import PolyBot.Types

/-! The orders that rest on the exchange, with the indexes the maker strategy reads. -/

namespace PolyBot.Execution
open General.KeyedStore General.GroupedIndex

structure TrackedOrder where
  orderId : OrderId
  tokenId : TokenId
  marketId : ConditionId
  side : Side
  price : Decimal
  originalSize : Decimal
  filledSize : Decimal
  groupId : Option String
  deriving DecidableEq, Repr

namespace TrackedOrder

def remainingSize (o : TrackedOrder) : Decimal := o.originalSize - o.filledSize

def isFilled (o : TrackedOrder) : Bool := o.originalSize ≤ o.filledSize

def addFill (o : TrackedOrder) (size : Decimal) : TrackedOrder := { o with filledSize := o.filledSize + size }

@[simp] theorem addFill_originalSize (o : TrackedOrder) (size : Decimal) :
    (o.addFill size).originalSize = o.originalSize := rfl
@[simp] theorem addFill_filledSize (o : TrackedOrder) (size : Decimal) :
    (o.addFill size).filledSize = o.filledSize + size := rfl

@[simp] theorem addFill_zero (o : TrackedOrder) : o.addFill 0 = o := by
  simp [addFill]

theorem isFilled_eq_true_iff (o : TrackedOrder) : o.isFilled = true ↔ o.originalSize ≤ o.filledSize := by
  simp [isFilled]

end TrackedOrder

/-- The orders by id, their ids by token, market and group, and two counts kept for ever. -/
structure OrderTracker where
  orders : Store OrderId TrackedOrder
  byToken : Store TokenId (Finset OrderId)
  byMarket : Store ConditionId (Finset OrderId)
  byGroup : Store String (Finset OrderId)
  totalTracked : ℕ
  totalCompleted : ℕ

namespace OrderTracker

def new : OrderTracker := ⟨∅, ∅, ∅, ∅, 0, 0⟩

def activeCount (t : OrderTracker) : ℕ := t.orders.entries.length

def get (t : OrderTracker) (orderId : OrderId) : Option TrackedOrder := t.orders.lookup orderId

def track (t : OrderTracker) (order : TrackedOrder) : OrderTracker where
  orders := t.orders.insert order.orderId order
  byToken := file order.tokenId order.orderId t.byToken
  byMarket := file order.marketId order.orderId t.byMarket
  byGroup := fileIn order.groupId order.orderId t.byGroup
  totalTracked := t.totalTracked + 1
  totalCompleted := t.totalCompleted

def remove (t : OrderTracker) (orderId : OrderId) : OrderTracker :=
  match t.orders.lookup orderId with
  | none => t
  | some order =>
    { orders := t.orders.erase orderId
      byToken := unfile order.tokenId orderId t.byToken
      byMarket := unfile order.marketId orderId t.byMarket
      byGroup := unfileIn order.groupId orderId t.byGroup
      totalTracked := t.totalTracked
      totalCompleted := t.totalCompleted + 1 }

/-- The size left after a fill, if the order is tracked; a full order leaves the tracker. -/
def onFill (t : OrderTracker) (orderId : OrderId) (fillSize : Decimal) : Option Decimal × OrderTracker :=
  match t.orders.lookup orderId with
  | none => (none, t)
  | some order =>
    let order := order.addFill fillSize
    let t := { t with orders := t.orders.insert orderId order }
    (some order.remainingSize, if order.isFilled then t.remove orderId else t)

def ordersForToken (t : OrderTracker) (tokenId : TokenId) : Finset OrderId := keysAt t.byToken tokenId
def ordersForMarket (t : OrderTracker) (marketId : ConditionId) : Finset OrderId := keysAt t.byMarket marketId
def ordersInGroup (t : OrderTracker) (groupId : String) : Finset OrderId := keysAt t.byGroup groupId

def hasOrderAt (t : OrderTracker) (tokenId : TokenId) (side : Side) (price : Decimal) : Bool :=
  decide (∃ orderId ∈ t.ordersForToken tokenId,
    (t.orders.lookup orderId).any (fun order => order.side = side ∧ order.price = price) = true)

def hasOrderFor (t : OrderTracker) (tokenId : TokenId) (side : Side) : Bool :=
  decide (∃ orderId ∈ t.ordersForToken tokenId,
    (t.orders.lookup orderId).any (fun order => order.side = side) = true)

theorem remove_of_untracked {t : OrderTracker} {orderId : OrderId} (h : t.orders.lookup orderId = none) :
    t.remove orderId = t := by
  rw [remove, h]

theorem remove_of_tracked {t : OrderTracker} {orderId : OrderId} {order : TrackedOrder}
    (h : t.orders.lookup orderId = some order) :
    t.remove orderId =
      { orders := t.orders.erase orderId
        byToken := unfile order.tokenId orderId t.byToken
        byMarket := unfile order.marketId orderId t.byMarket
        byGroup := unfileIn order.groupId orderId t.byGroup
        totalTracked := t.totalTracked
        totalCompleted := t.totalCompleted + 1 } := by
  rw [remove, h]

/-- A fill of an order that is not tracked is lost. -/
theorem onFill_of_untracked {t : OrderTracker} {orderId : OrderId} (h : t.orders.lookup orderId = none)
    (fillSize : Decimal) : t.onFill orderId fillSize = (none, t) := by
  rw [onFill, h]

/-- Removing an order does not ask how much of it was filled. -/
theorem remove_insert {t : OrderTracker} {orderId : OrderId} {order : TrackedOrder}
    (h : t.orders.lookup orderId = some order) (fillSize : Decimal) :
    ({ t with orders := t.orders.insert orderId (order.addFill fillSize) } : OrderTracker).remove orderId =
      t.remove orderId := by
  have herase : (t.orders.insert orderId (order.addFill fillSize)).erase orderId = t.orders.erase orderId := by
    apply AList.ext
    exact List.kerase_cons_eq rfl
  rw [remove_of_tracked (AList.lookup_insert _), remove_of_tracked h, herase]
  rfl

/-- A fill of a tracked order either is added to it or removes it. -/
theorem onFill_of_tracked {t : OrderTracker} {orderId : OrderId} {order : TrackedOrder}
    (h : t.orders.lookup orderId = some order) (fillSize : Decimal) :
    t.onFill orderId fillSize =
      (some (order.addFill fillSize).remainingSize,
        if (order.addFill fillSize).isFilled then t.remove orderId
        else { t with orders := t.orders.insert orderId (order.addFill fillSize) }) := by
  simp only [onFill, h, remove_insert h]

theorem lookup_remove_self (t : OrderTracker) (orderId : OrderId) :
    (t.remove orderId).orders.lookup orderId = none := by
  cases h : t.orders.lookup orderId with
  | none => rwa [remove_of_untracked h]
  | some order =>
    rw [remove_of_tracked h]
    exact AList.lookup_erase _ _

theorem get_onFill_self {t : OrderTracker} {orderId : OrderId} {order : TrackedOrder}
    (h : t.orders.lookup orderId = some order) (fillSize : Decimal) :
    (t.onFill orderId fillSize).2.get orderId =
      if (order.addFill fillSize).isFilled then none else some (order.addFill fillSize) := by
  rw [onFill_of_tracked h]
  dsimp only
  split
  · exact lookup_remove_self t orderId
  · exact AList.lookup_insert _

structure SameState (t t' : OrderTracker) : Prop where
  orders : ∀ orderId, t.get orderId = t'.get orderId
  byToken : ∀ tokenId, t.ordersForToken tokenId = t'.ordersForToken tokenId
  byMarket : ∀ marketId, t.ordersForMarket marketId = t'.ordersForMarket marketId
  byGroup : ∀ groupId, t.ordersInGroup groupId = t'.ordersInGroup groupId
  tracked : t.totalTracked = t'.totalTracked
  completed : t.totalCompleted = t'.totalCompleted

theorem SameState.refl (t : OrderTracker) : SameState t t :=
  ⟨fun _ => rfl, fun _ => rfl, fun _ => rfl, fun _ => rfl, rfl, rfl⟩

theorem SameState.symm {t t' : OrderTracker} (h : SameState t t') : SameState t' t :=
  ⟨fun k => (h.orders k).symm, fun x => (h.byToken x).symm, fun x => (h.byMarket x).symm,
    fun x => (h.byGroup x).symm, h.tracked.symm, h.completed.symm⟩

theorem SameState.trans {t t' t'' : OrderTracker} (h : SameState t t') (h' : SameState t' t'') : SameState t t'' :=
  ⟨fun k => (h.orders k).trans (h'.orders k), fun x => (h.byToken x).trans (h'.byToken x),
    fun x => (h.byMarket x).trans (h'.byMarket x), fun x => (h.byGroup x).trans (h'.byGroup x),
    h.tracked.trans h'.tracked, h.completed.trans h'.completed⟩

/-- The indexes after a removal, read group by group. -/
private theorem keysAt_unfileIn_congr {index index' : Store String (Finset OrderId)}
    (h : ∀ x, keysAt index x = keysAt index' x) (y : Option String) (orderId : OrderId) (x : String) :
    keysAt (unfileIn y orderId index) x = keysAt (unfileIn y orderId index') x := by
  rw [keysAt_unfileIn, keysAt_unfileIn, h]

theorem SameState.remove {t t' : OrderTracker} (h : SameState t t') (orderId : OrderId) :
    SameState (t.remove orderId) (t'.remove orderId) := by
  have hlookup : t.orders.lookup orderId = t'.orders.lookup orderId := h.orders orderId
  cases hnow : t.orders.lookup orderId with
  | none =>
    rw [remove_of_untracked hnow, remove_of_untracked (hlookup.symm.trans hnow)]
    exact h
  | some order =>
    rw [remove_of_tracked hnow, remove_of_tracked (hlookup.symm.trans hnow)]
    exact {
      orders := fun k => lookup_erase_congr h.orders orderId k
      byToken := keysAt_unfileIn_congr h.byToken (some order.tokenId) orderId
      byMarket := keysAt_unfileIn_congr h.byMarket (some order.marketId) orderId
      byGroup := keysAt_unfileIn_congr h.byGroup order.groupId orderId
      tracked := h.tracked
      completed := congrArg (· + 1) h.completed }

theorem SameState.onFill {t t' : OrderTracker} (h : SameState t t') (orderId : OrderId) (fillSize : Decimal) :
    SameState (t.onFill orderId fillSize).2 (t'.onFill orderId fillSize).2 := by
  have hlookup : t.orders.lookup orderId = t'.orders.lookup orderId := h.orders orderId
  cases hnow : t.orders.lookup orderId with
  | none =>
    rw [onFill_of_untracked hnow, onFill_of_untracked (hlookup.symm.trans hnow)]
    exact h
  | some order =>
    rw [onFill_of_tracked hnow, onFill_of_tracked (hlookup.symm.trans hnow)]
    dsimp only
    split
    · exact h.remove orderId
    · exact { h with orders := fun k => lookup_insert_congr h.orders orderId _ k }

end OrderTracker

end PolyBot.Execution
