import PolyBot.Strategy.Traits
import Mathlib.Tactic.Linarith

namespace PolyBot

def roundUpToTick (price tickSize : Decimal) : Decimal :=
  if tickSize = 0 then price else ⌈price / tickSize⌉ * tickSize

def roundDownToTick (price tickSize : Decimal) : Decimal :=
  if tickSize = 0 then price else ⌊price / tickSize⌋ * tickSize

theorem le_roundUpToTick {tickSize : Decimal} (htick : 0 ≤ tickSize) (price : Decimal) :
    price ≤ roundUpToTick price tickSize := by
  unfold roundUpToTick
  split_ifs with hzero
  · exact le_rfl
  · have hpos : 0 < tickSize := lt_of_le_of_ne htick (Ne.symm hzero)
    rw [← div_le_iff₀ hpos]
    exact Int.le_ceil _

theorem roundUpToTick_lt_add {tickSize : Decimal} (htick : 0 < tickSize) (price : Decimal) :
    roundUpToTick price tickSize < price + tickSize := by
  have hceil := Int.ceil_lt_add_one (price / tickSize)
  rw [← sub_lt_iff_lt_add, lt_div_iff₀ htick, sub_one_mul] at hceil
  rw [roundUpToTick, if_neg htick.ne']
  linarith

theorem roundDownToTick_le {tickSize : Decimal} (htick : 0 < tickSize) (price : Decimal) :
    roundDownToTick price tickSize ≤ price := by
  rw [roundDownToTick, if_neg htick.ne', ← le_div_iff₀ htick]
  exact Int.floor_le _

theorem roundDownToTick_mono {tickSize : Decimal} (htick : 0 < tickSize) {price price' : Decimal}
    (hle : price ≤ price') : roundDownToTick price tickSize ≤ roundDownToTick price' tickSize := by
  rw [roundDownToTick, roundDownToTick, if_neg htick.ne', if_neg htick.ne']
  have hfloor : ⌊price / tickSize⌋ ≤ ⌊price' / tickSize⌋ :=
    Int.floor_le_floor (div_le_div_of_nonneg_right hle htick.le)
  exact mul_le_mul_of_nonneg_right (by exact_mod_cast hfloor) htick.le

inductive PartialFillAction where
  | UnwindFilled
  | CancelRemainder
  | KeepRemainder
  deriving DecidableEq, Repr

structure OrderParams where
  tokenId : TokenId
  side : Side
  price : Decimal
  size : Decimal
  orderType : OrderType
  expiration : ℕ
  onPartialFill : PartialFillAction
  strategyName : String
  groupId : Option String
  deriving DecidableEq, Repr

structure IntentRef where
  tokenId : TokenId
  side : Side
  price : Decimal
  size : Decimal
  urgency : Urgency
  strategyName : String
  groupId : Option String
  tickSize : Decimal
  deriving DecidableEq, Repr

def IntentRef.fromIntent (i : OrderIntent) : IntentRef :=
  ⟨i.tokenId, i.side, i.price, i.size, i.urgency, i.strategyName, i.groupId, i.tickSize⟩

/-- A policy turns an intent, at a wall-clock second, into an order. -/
structure ExecutionPolicy where
  toOrderParams : ℕ → IntentRef → OrderParams
  onPartialFill : IntentRef → Decimal → PartialFillAction

/-- Unix seconds at which an order expires; zero means never. -/
def expiresAt (expirationSecs nowSecs : ℕ) : ℕ := if 0 < expirationSecs then nowSecs + expirationSecs else 0

structure TakerPolicy where
  expirationSecs : ℕ
  unwindGroupedPartials : Bool
  deriving DecidableEq, Repr

namespace TakerPolicy

def new : TakerPolicy := ⟨60, true⟩

def onPartialFill (t : TakerPolicy) (intent : IntentRef) (_ : Decimal) : PartialFillAction :=
  if intent.groupId.isSome && t.unwindGroupedPartials then .UnwindFilled else .CancelRemainder

def toOrderParams (t : TakerPolicy) (nowSecs : ℕ) (intent : IntentRef) : OrderParams where
  tokenId := intent.tokenId
  side := intent.side
  price := roundUpToTick intent.price intent.tickSize
  size := intent.size
  orderType := match intent.urgency with
    | .Immediate => .FOK
    | .Normal => .FAK
    | .Passive => .FAK
  expiration := expiresAt t.expirationSecs nowSecs
  onPartialFill := t.onPartialFill intent 0
  strategyName := intent.strategyName
  groupId := intent.groupId

end TakerPolicy

structure MakerPolicy where
  priceOffsetCents : Decimal
  expirationSecs : ℕ
  deriving DecidableEq, Repr

namespace MakerPolicy

def new : MakerPolicy := ⟨0, 0⟩

def withPriceOffset (m : MakerPolicy) (cents : Decimal) : MakerPolicy := { m with priceOffsetCents := cents }

def applyPriceOffset (m : MakerPolicy) (price : Decimal) (side : Side) (tickSize : Decimal) : Decimal :=
  let offset := m.priceOffsetCents / 100
  match side with
  | .Buy => roundDownToTick (price + offset) tickSize
  | .Sell => roundUpToTick (price - offset) tickSize

def toOrderParams (m : MakerPolicy) (nowSecs : ℕ) (intent : IntentRef) : OrderParams where
  tokenId := intent.tokenId
  side := intent.side
  price := m.applyPriceOffset intent.price intent.side intent.tickSize
  size := intent.size
  orderType := .GTC
  expiration := expiresAt m.expirationSecs nowSecs
  onPartialFill := .KeepRemainder
  strategyName := intent.strategyName
  groupId := intent.groupId

def onPartialFill (_ : MakerPolicy) (_ : IntentRef) (_ : Decimal) : PartialFillAction := .KeepRemainder

end MakerPolicy

/-- Taker for urgent intents, maker for passive ones. Every way to build one unwinds grouped partials. -/
structure DualPolicy where
  taker : TakerPolicy
  maker : MakerPolicy
  taker_unwinds : taker.unwindGroupedPartials = true

namespace DualPolicy

def new : DualPolicy := ⟨TakerPolicy.new, MakerPolicy.new, rfl⟩

def withMakerOffset (d : DualPolicy) (priceOffsetCents : Decimal) : DualPolicy :=
  { d with maker := d.maker.withPriceOffset priceOffsetCents }

def toOrderParams (d : DualPolicy) (nowSecs : ℕ) (intent : IntentRef) : OrderParams :=
  match intent.urgency with
  | .Immediate | .Normal => d.taker.toOrderParams nowSecs intent
  | .Passive => d.maker.toOrderParams nowSecs intent

def onPartialFill (d : DualPolicy) (intent : IntentRef) (filledSize : Decimal) : PartialFillAction :=
  match intent.urgency with
  | .Immediate | .Normal => d.taker.onPartialFill intent filledSize
  | .Passive => d.maker.onPartialFill intent filledSize

def policy (d : DualPolicy) : ExecutionPolicy := ⟨d.toOrderParams, d.onPartialFill⟩

theorem toOrderParams_size (d : DualPolicy) (nowSecs : ℕ) (intent : IntentRef) :
    (d.toOrderParams nowSecs intent).size = intent.size := by
  unfold toOrderParams
  split <;> rfl

def partialFillAction : Urgency → Option String → PartialFillAction
  | .Passive, _ => .KeepRemainder
  | _, some _ => .UnwindFilled
  | _, none => .CancelRemainder

/-- Only grouped taker orders ask to be unwound. -/
theorem toOrderParams_onPartialFill (d : DualPolicy) (nowSecs : ℕ) (intent : IntentRef) :
    (d.toOrderParams nowSecs intent).onPartialFill = partialFillAction intent.urgency intent.groupId := by
  unfold toOrderParams
  cases intent.urgency <;> cases hgroup : intent.groupId <;>
    simp [TakerPolicy.toOrderParams, TakerPolicy.onPartialFill, MakerPolicy.toOrderParams, hgroup, d.taker_unwinds,
      partialFillAction]

end DualPolicy

end PolyBot
