import PolyBot.General.DecimalText
import PolyBot.Ledger.Positions

/-! The trade notifications of the user websocket and the fills made of them. -/

namespace PolyBot.Websocket
open General.DecimalText

inductive TradeSide where
  | Buy
  | Sell
  | Unknown
  deriving DecidableEq, Repr

inductive TraderSide where
  | Taker
  | Maker
  | Unknown (name : String)
  deriving DecidableEq, Repr

inductive TradeStatusType where
  | Matched
  | Mined
  | Confirmed
  | Retrying
  | Failed
  | Unknown (name : String)
  deriving DecidableEq, Repr

def TradeSide.text : TradeSide → String
  | .Buy => "BUY"
  | .Sell => "SELL"
  | .Unknown => "UNKNOWN"

def TraderSide.debug : TraderSide → String
  | .Taker => "Taker"
  | .Maker => "Maker"
  | .Unknown name => "Unknown(" ++ name.quote ++ ")"

def TradeStatusType.debug : TradeStatusType → String
  | .Matched => "Matched"
  | .Mined => "Mined"
  | .Confirmed => "Confirmed"
  | .Retrying => "Retrying"
  | .Failed => "Failed"
  | .Unknown name => "Unknown(" ++ name.quote ++ ")"

structure TradeMessage where
  id : String
  takerOrderId : Option OrderId
  assetId : ℕ
  side : TradeSide
  size : ScaledDecimal
  price : ScaledDecimal
  feeRateBps : Option ScaledDecimal
  status : TradeStatusType
  traderSide : Option TraderSide
  deriving DecidableEq, Repr

structure TradeNotification where
  id : String
  takerOrderId : OrderId
  assetId : TokenId
  side : String
  size : String
  price : String
  feeRateBps : String
  status : String
  traderSide : String
  deriving DecidableEq, Repr

/-- What is passed on of a trade, absent fields as empty texts. -/
def TradeMessage.notification (trade : TradeMessage) : TradeNotification where
  id := trade.id
  takerOrderId := trade.takerOrderId.getD ""
  assetId := toString trade.assetId
  side := trade.side.text
  size := trade.size.text
  price := trade.price.text
  feeRateBps := (trade.feeRateBps.map (·.text)).getD ""
  status := trade.status.debug
  traderSide := (trade.traderSide.map (·.debug)).getD ""

/-- Only the characters that raise to letters of the names compared with are raised: the ASCII letters, the long s and
the dotless i. -/
def toUppercase (s : String) : String :=
  .ofList (s.toList.map fun c => if c = 'ſ' then 'S' else if c = 'ı' then 'I' else c.toUpper)

/-- Why a notification makes no fill; the decimal library's own words are left out. -/
inductive FillError where
  | unknownSide (side : String)
  | invalidPrice
  | invalidSize
  deriving DecidableEq, Repr

namespace TradeNotification

def takerSide (n : TradeNotification) : Option Side :=
  if toUppercase n.side = "BUY" then some .Buy else if toUppercase n.side = "SELL" then some .Sell else none

/-- The side of this wallet: the other one when it was the maker. -/
def walletSide (n : TradeNotification) (takerSide : Side) : Side :=
  if toUppercase n.traderSide = "MAKER" then takerSide.opposite else takerSide

/-- A fee rate that is no whole number counts as zero. -/
def feeBps (n : TradeNotification) : ℤ := (parseI64 n.feeRateBps).getD 0

def toFill (n : TradeNotification) : Except FillError Fill :=
  match n.takerSide with
  | none => .error (.unknownSide n.side)
  | some takerSide =>
    match ScaledDecimal.fromStr n.price with
    | none => .error .invalidPrice
    | some price =>
      match ScaledDecimal.fromStr n.size with
      | none => .error .invalidSize
      | some size => .ok {
          fillId := n.id
          orderId := n.takerOrderId
          tokenId := n.assetId
          side := n.walletSide takerSide
          price := price.value
          size := size.value
          fee := Decimal.roundDp 4 (price.value * size.value) * (n.feeBps / 10 ^ 4)
          expectedPrice := none
          slippageCost := 0 }

end TradeNotification

def TradeSide.side? : TradeSide → Option Side
  | .Buy => some .Buy
  | .Sell => some .Sell
  | .Unknown => none

namespace TradeMessage

def feeBps (trade : TradeMessage) : ℤ :=
  match trade.feeRateBps with
  | some d => if d.scale = 0 ∧ -2 ^ 63 ≤ d.mantissa ∧ d.mantissa < 2 ^ 63 then d.mantissa else 0
  | none => 0

def fillOf (trade : TradeMessage) (takerSide : Side) : Fill where
  fillId := trade.id
  orderId := trade.takerOrderId.getD ""
  tokenId := toString trade.assetId
  side := if trade.traderSide = some .Maker then takerSide.opposite else takerSide
  price := trade.price.value
  size := trade.size.value
  fee := Decimal.roundDp 4 (trade.price.value * trade.size.value) * (trade.feeBps / 10 ^ 4)
  expectedPrice := none
  slippageCost := 0

theorem takerSide_notification (trade : TradeMessage) : trade.notification.takerSide = trade.side.side? := by
  have hread : ∀ side : TradeSide, (if toUppercase side.text = "BUY" then some Side.Buy
      else if toUppercase side.text = "SELL" then some .Sell else none) = side.side? := by
    intro side
    cases side <;> decide
  exact hread trade.side

/-- Of the names of a role only the maker's reads as one. -/
theorem toUppercase_debug_eq_iff (role : TraderSide) : toUppercase role.debug = "MAKER" ↔ role = .Maker := by
  cases role with
  | Taker => decide
  | Maker => decide
  | Unknown name =>
    refine iff_of_false ?_ nofun
    intro h
    have hchars := congrArg String.toList h
    rw [TraderSide.debug, toUppercase, String.toList_ofList] at hchars
    simp at hchars

theorem walletSide_notification (trade : TradeMessage) (takerSide : Side) :
    trade.notification.walletSide takerSide =
      if trade.traderSide = some .Maker then takerSide.opposite else takerSide := by
  unfold TradeNotification.walletSide notification
  cases trade.traderSide with
  | none => rfl
  | some role =>
    simp only [Option.map_some, Option.getD_some, toUppercase_debug_eq_iff, Option.some.injEq]

theorem feeBps_notification (trade : TradeMessage) : trade.notification.feeBps = trade.feeBps := by
  unfold TradeNotification.feeBps feeBps notification
  cases trade.feeRateBps with
  | none => rfl
  | some d =>
    simp only [Option.map_some, Option.getD_some, ScaledDecimal.parseI64_text]
    split <;> rfl

/-- The texts lose nothing but fee rates with a fractional part: prices and sizes are read back as they were. -/
theorem toFill_notification (trade : TradeMessage) : trade.notification.toFill =
    match trade.side.side? with
    | none => .error (.unknownSide trade.side.text)
    | some takerSide => .ok (trade.fillOf takerSide) := by
  have hprice : ScaledDecimal.fromStr trade.notification.price = some trade.price := trade.price.fromStr_text
  have hsize : ScaledDecimal.fromStr trade.notification.size = some trade.size := trade.size.fromStr_text
  unfold TradeNotification.toFill
  rw [takerSide_notification, hprice, hsize]
  cases trade.side.side? with
  | none => rfl
  | some takerSide =>
    simp only [walletSide_notification, feeBps_notification]
    rfl

end TradeMessage

end PolyBot.Websocket
