import PolyBot.General.KeyedStore
import PolyBot.Types

namespace PolyBot
open General.KeyedStore

abbrev Uuid := ℕ

inductive OrderState where
  | CreatedLocal
  | Signed
  | Submitted
  | Acked
  | PartiallyFilled
  | Filled
  | CancelPending
  | Cancelled
  | Expired
  | Rejected
  | Unknown
  deriving DecidableEq, Repr

namespace OrderState

def canTransitionTo : OrderState → OrderState → Bool
  | .CreatedLocal, .Signed => true
  | .Signed, .Submitted => true
  | .Submitted, .Acked => true
  | .Submitted, .Rejected => true
  | .Acked, .PartiallyFilled => true
  | .Acked, .Filled => true
  | .Acked, .CancelPending => true
  | .PartiallyFilled, .Filled => true
  | .PartiallyFilled, .CancelPending => true
  | .CancelPending, .Cancelled => true
  | .CancelPending, .Filled => true
  | .Acked, .Cancelled => true
  | .PartiallyFilled, .Cancelled => true
  | _, .Unknown => true
  | _, .Expired => true
  | _, .Rejected => true
  | _, _ => false

def isTerminal : OrderState → Bool
  | .Filled | .Cancelled | .Expired | .Rejected => true
  | _ => false

def isActive : OrderState → Bool
  | .Acked | .PartiallyFilled | .CancelPending => true
  | _ => false

end OrderState

structure TrackedOrder where
  orderId : Option OrderId
  localId : Uuid
  state : OrderState
  tokenId : TokenId
  side : Side
  price : Decimal
  originalSize : Decimal
  filledSize : Decimal
  remainingSize : Decimal
  createdAt : Timestamp
  lastUpdate : Timestamp
  strategyId : Option String
  deriving DecidableEq, Repr

namespace TrackedOrder

def new (localId : Uuid) (tokenId : TokenId) (side : Side) (price size : Decimal) (strategyId : Option String)
    (now : Timestamp) : TrackedOrder :=
  ⟨none, localId, .CreatedLocal, tokenId, side, price, size, 0, size, now, now, strategyId⟩

def remainingNotional (o : TrackedOrder) : Decimal := o.remainingSize * o.price

def applyFill (o : TrackedOrder) (fillSize : Decimal) (now : Timestamp) : TrackedOrder :=
  let filledSize := o.filledSize + fillSize
  let remainingSize := o.originalSize - filledSize
  { o with
    filledSize := filledSize
    remainingSize := remainingSize
    lastUpdate := now
    state :=
      if remainingSize ≤ 0 then .Filled
      else if o.state = .Acked then .PartiallyFilled
      else o.state }

end TrackedOrder

inductive OrderError where
  | unknownLocalId (localId : Uuid)
  | invalidTransition (oldState newState : OrderState)
  deriving DecidableEq, Repr

/-- Orders under two indexes, each holding its own copy of the order. -/
structure OpenOrders where
  byOrderId : Store OrderId TrackedOrder
  byLocalId : Store Uuid TrackedOrder
  totalCreated : ℕ
  totalFilled : ℕ
  totalCancelled : ℕ
  totalRejected : ℕ

structure OrderStats where
  totalCreated : ℕ
  totalFilled : ℕ
  totalCancelled : ℕ
  totalRejected : ℕ
  activeCount : ℕ
  deriving DecidableEq, Repr

namespace OpenOrders

def new : OpenOrders := ⟨∅, ∅, 0, 0, 0, 0⟩

def add (os : OpenOrders) (order : TrackedOrder) : OpenOrders :=
  { os with byLocalId := os.byLocalId.insert order.localId order, totalCreated := os.totalCreated + 1 }

def getByOrderId (os : OpenOrders) (orderId : OrderId) : Option TrackedOrder := os.byOrderId.lookup orderId
def getByLocalId (os : OpenOrders) (localId : Uuid) : Option TrackedOrder := os.byLocalId.lookup localId

def linkOrderId (os : OpenOrders) (localId : Uuid) (orderId : OrderId) (now : Timestamp) :
    Except OrderError OpenOrders :=
  match os.getByLocalId localId with
  | none => .error (.unknownLocalId localId)
  | some order =>
    let order' := { order with orderId := some orderId, lastUpdate := now }
    .ok { os with
      byLocalId := os.byLocalId.insert localId order'
      byOrderId := os.byOrderId.insert orderId order' }

/-- The copy under the exchange id, if the order has one, receives the same change. -/
def mirror (os : OpenOrders) (orderId : Option OrderId) (g : TrackedOrder → TrackedOrder) :
    Store OrderId TrackedOrder :=
  match orderId with
  | none => os.byOrderId
  | some id => modify id g os.byOrderId

/-- Returns the state the order left. -/
def transition (os : OpenOrders) (localId : Uuid) (newState : OrderState) (now : Timestamp) :
    Except OrderError (OrderState × OpenOrders) :=
  match os.getByLocalId localId with
  | none => .error (.unknownLocalId localId)
  | some order =>
    if order.state.canTransitionTo newState then
      .ok (order.state, { os with
        byLocalId := os.byLocalId.insert localId { order with state := newState, lastUpdate := now }
        byOrderId := os.mirror order.orderId fun byId => { byId with state := newState, lastUpdate := now }
        totalFilled := os.totalFilled + if newState = .Filled then 1 else 0
        totalCancelled := os.totalCancelled + if newState = .Cancelled then 1 else 0
        totalRejected := os.totalRejected + if newState = .Rejected then 1 else 0 })
    else .error (.invalidTransition order.state newState)

/-- Returns the size that remains. -/
def applyFill (os : OpenOrders) (localId : Uuid) (fillSize : Decimal) (now : Timestamp) :
    Except OrderError (Decimal × OpenOrders) :=
  match os.getByLocalId localId with
  | none => .error (.unknownLocalId localId)
  | some order =>
    let order' := order.applyFill fillSize now
    .ok (order'.remainingSize, { os with
      byLocalId := os.byLocalId.insert localId order'
      byOrderId := os.mirror order.orderId fun byId => { byId with
        filledSize := order'.filledSize
        remainingSize := order'.remainingSize
        state := order'.state
        lastUpdate := order'.lastUpdate }
      totalFilled := os.totalFilled + if order'.remainingSize ≤ 0 then 1 else 0 })

def activeOrders (os : OpenOrders) : List TrackedOrder := (values os.byLocalId).filter (·.state.isActive)

def allOpen (os : OpenOrders) : List TrackedOrder := os.activeOrders

def activeCount (os : OpenOrders) : ℕ := os.activeOrders.length

def stats (os : OpenOrders) : OrderStats :=
  ⟨os.totalCreated, os.totalFilled, os.totalCancelled, os.totalRejected, os.activeCount⟩

def remove (os : OpenOrders) (localId : Uuid) : OpenOrders :=
  match os.getByLocalId localId with
  | none => os
  | some order => { os with
      byLocalId := os.byLocalId.erase localId
      byOrderId := match order.orderId with
        | none => os.byOrderId
        | some orderId => os.byOrderId.erase orderId }

def removeTerminal (os : OpenOrders) : OpenOrders :=
  (((values os.byLocalId).filter (·.state.isTerminal)).map (·.localId)).foldl remove os

def totalReservedNotional (os : OpenOrders) : Decimal := (os.activeOrders.map (·.remainingNotional)).sum

end OpenOrders

end PolyBot
