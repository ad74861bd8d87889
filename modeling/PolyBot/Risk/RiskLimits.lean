import PolyBot.Ledger.Ledger
import Mathlib.Algebra.Order.AbsoluteValue.Basic

namespace PolyBot

def MAX_DAILY_LOSS_USD : Decimal := 500
def MAX_OPEN_ORDERS : ℕ := 10
def MAX_BET_SIZE_USD : Decimal := 5000
def MIN_BET_SIZE_USD : Decimal := 10

inductive LimitViolation where
  | DailyLossExceeded (currentLoss limit : Decimal)
  | MaxOpenOrdersExceeded (current limit : ℕ)
  | MaxPositionExceeded (tokenId : TokenId) (currentExposure limit : Decimal)
  | OrderSizeTooLarge (size limit : Decimal)
  | OrderSizeTooSmall (size minimum : Decimal)
  | InsufficientCash (needed available : Decimal)
  deriving DecidableEq, Repr

structure RiskLimitsConfig where
  maxDailyLoss : Decimal
  maxOpenOrders : ℕ
  maxPositionExposure : Decimal
  maxOrderSize : Decimal
  minOrderSize : Decimal
  deriving DecidableEq, Repr

def RiskLimitsConfig.default : RiskLimitsConfig :=
  ⟨MAX_DAILY_LOSS_USD, MAX_OPEN_ORDERS, MAX_BET_SIZE_USD, MAX_BET_SIZE_USD, MIN_BET_SIZE_USD⟩

def Ledger.openOrdersCount (l : Ledger) : ℕ := l.orders.activeCount % 2 ^ 32

structure RiskLimits where
  config : RiskLimitsConfig
  dailyRealizedPnl : Decimal
  dailyStartBalance : Decimal
  tradingHalted : Bool
  haltReason : Option LimitViolation

namespace RiskLimits

def withConfig (config : RiskLimitsConfig) : RiskLimits := ⟨config, 0, 0, false, none⟩

def setDailyStartBalance (r : RiskLimits) (balance : Decimal) : RiskLimits :=
  { r with dailyStartBalance := balance, dailyRealizedPnl := 0 }

def haltTrading (r : RiskLimits) (reason : LimitViolation) : RiskLimits :=
  { r with tradingHalted := true, haltReason := some reason }

/-- Adds to the realized profit of the day and checks it together with the unrealized one. -/
def recordRealizedPnl (r : RiskLimits) (pnl currentUnrealized : Decimal) : RiskLimits :=
  let r' := { r with dailyRealizedPnl := r.dailyRealizedPnl + pnl }
  let total := r'.dailyRealizedPnl + currentUnrealized
  if total < -r.config.maxDailyLoss then r'.haltTrading (.DailyLossExceeded (-total) r.config.maxDailyLoss) else r'

def isTradingAllowed (r : RiskLimits) : Bool := !r.tradingHalted

def resetDaily (r : RiskLimits) (startingBalance : Decimal) : RiskLimits :=
  { r.setDailyStartBalance startingBalance with tradingHalted := false, haltReason := none }

/-- The exposure of a position after an order, as the check estimates it. -/
def newExposure (position : Position) (side : Side) (orderValue : Decimal) : Decimal :=
  let currentExposure := |position.shares| * position.avgCost
  match side with
  | .Buy => currentExposure + orderValue
  | .Sell => if 0 < position.shares then max (currentExposure - orderValue) 0 else currentExposure + orderValue

/-- The check of a proposed order. Only the filled position counts towards its exposure. -/
def checkOrder (r : RiskLimits) (tokenId : TokenId) (side : Side) (price size : Decimal) (l : Ledger) :
    Except LimitViolation Unit :=
  let orderValue := price * size
  let exposure := newExposure (l.getPosition tokenId) side orderValue
  if r.config.maxOrderSize < orderValue then .error (.OrderSizeTooLarge orderValue r.config.maxOrderSize)
  else if orderValue < r.config.minOrderSize then .error (.OrderSizeTooSmall orderValue r.config.minOrderSize)
  else if r.config.maxOpenOrders ≤ l.openOrdersCount then
    .error (.MaxOpenOrdersExceeded l.openOrdersCount r.config.maxOpenOrders)
  else if side = .Buy ∧ l.cash.available < orderValue then .error (.InsufficientCash orderValue l.cash.available)
  else if r.config.maxPositionExposure < exposure then
    .error (.MaxPositionExceeded tokenId exposure r.config.maxPositionExposure)
  else .ok ()

end RiskLimits

end PolyBot
