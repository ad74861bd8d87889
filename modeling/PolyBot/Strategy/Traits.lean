import PolyBot.Types

namespace PolyBot

inductive Urgency where
  | Immediate
  | Normal
  | Passive
  deriving DecidableEq, Repr

structure OrderIntent where
  marketId : ConditionId
  tokenId : TokenId
  side : Side
  price : Decimal
  size : Decimal
  urgency : Urgency
  strategyName : String
  groupId : Option String
  priority : ℕ
  tickSize : Decimal
  deriving DecidableEq, Repr

namespace OrderIntent

def new (marketId : ConditionId) (tokenId : TokenId) (side : Side) (price size : Decimal) (urgency : Urgency)
    (strategyName : String) : OrderIntent :=
  ⟨marketId, tokenId, side, price, size, urgency, strategyName, none, 50, 0⟩

def withGroup (i : OrderIntent) (groupId : String) : OrderIntent := { i with groupId := some groupId }
def withPriority (i : OrderIntent) (priority : ℕ) : OrderIntent := { i with priority := priority }
def withTickSize (i : OrderIntent) (tickSize : Decimal) : OrderIntent := { i with tickSize := tickSize }
def notional (i : OrderIntent) : Decimal := i.price * i.size
def isGrouped (i : OrderIntent) : Bool := i.groupId.isSome

end OrderIntent

end PolyBot
