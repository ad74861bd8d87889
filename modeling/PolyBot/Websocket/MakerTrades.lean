import PolyBot.Websocket.User

/-! Trades in which this wallet rested on the book, with the list of makers that the exchange sends along. -/

namespace PolyBot.Websocket.MakerTrades
open General.DecimalText

/-- An entry of the list: the part of the trade that one resting order took. -/
structure MakerOrder where
  orderId : OrderId
  owner : String
  assetId : ℕ
  side : Side
  price : ScaledDecimal
  matchedAmount : ScaledDecimal
  deriving DecidableEq, Repr

/-- A trade as the exchange sends it; its other fields are those of the taker. -/
structure TradeEvent where
  trade : TradeMessage
  makerOrders : List MakerOrder
  deriving DecidableEq, Repr

structure Terms where
  orderId : OrderId
  tokenId : TokenId
  side : Side
  price : Decimal
  size : Decimal
  deriving DecidableEq, Repr

def termsOf (f : Fill) : Terms := ⟨f.orderId, f.tokenId, f.side, f.price, f.size⟩

def MakerOrder.terms (entry : MakerOrder) : Terms :=
  ⟨entry.orderId, toString entry.assetId, entry.side, entry.price.value, entry.matchedAmount.value⟩

namespace TradeEvent

def bookedFills (event : TradeEvent) : List Fill :=
  match event.trade.notification.toFill with
  | .ok fill => [fill]
  | .error _ => []

def ownOrders (event : TradeEvent) (owner : String) : List MakerOrder := event.makerOrders.filter (·.owner = owner)

/-- The fills booked for the trade are the executions of the wallet's own orders. -/
def BookedAsOwn (event : TradeEvent) (owner : String) : Prop :=
  (event.bookedFills.map termsOf).Perm ((event.ownOrders owner).map MakerOrder.terms)

/-- A maker order that says of itself what the trade says of the taker, on the other side. -/
structure Mirrors (entry : MakerOrder) (trade : TradeMessage) (takerSide : Side) : Prop where
  orderId : entry.orderId = trade.takerOrderId.getD ""
  assetId : entry.assetId = trade.assetId
  side : entry.side = takerSide.opposite
  price : entry.price.value = trade.price.value
  matchedAmount : entry.matchedAmount.value = trade.size.value

end TradeEvent

open TradeEvent

private theorem terms_eq_termsOf_iff {entry : MakerOrder} {trade : TradeMessage} {takerSide : Side}
    (hmaker : trade.traderSide = some .Maker) :
    termsOf (trade.fillOf takerSide) = entry.terms ↔ Mirrors entry trade takerSide := by
  rw [termsOf, MakerOrder.terms, TradeMessage.fillOf, Terms.mk.injEq, if_pos hmaker]
  constructor
  · rintro ⟨horder, htoken, hside, hprice, hsize⟩
    exact ⟨horder.symm, (ScaledDecimal.toString_nat_inj htoken).symm, hside.symm, hprice.symm, hsize.symm⟩
  · intro h
    exact ⟨h.orderId.symm, by rw [h.assetId], h.side.symm, h.price.symm, h.matchedAmount.symm⟩

/-- A trade in which the wallet is a maker is booked right exactly if it has one order of the wallet, and that order
repeats what the trade says of the taker; or if it has none and the exchange names no side. -/
theorem booked_as_own_iff (event : TradeEvent) (owner : String) (hmaker : event.trade.traderSide = some .Maker) :
    event.BookedAsOwn owner ↔
      (event.trade.side = .Unknown ∧ event.ownOrders owner = []) ∨
        ∃ takerSide entry, event.trade.side.side? = some takerSide ∧ event.ownOrders owner = [entry] ∧
          Mirrors entry event.trade takerSide := by
  have hbooked : event.bookedFills.map termsOf =
      (event.trade.side.side?.map fun takerSide => termsOf (event.trade.fillOf takerSide)).toList := by
    rw [bookedFills, TradeMessage.toFill_notification]
    cases event.trade.side.side? <;> rfl
  rw [BookedAsOwn, hbooked]
  cases hside : event.trade.side.side? with
  | none =>
    have hunknown : event.trade.side = .Unknown := by
      cases h : event.trade.side <;> rw [h] at hside <;> first | rfl | cases hside
    rw [Option.map_none, Option.toList_none, List.nil_perm, List.map_eq_nil_iff]
    simp [hunknown]
  | some takerSide =>
    have hknown : event.trade.side ≠ .Unknown := by
      intro h
      rw [h] at hside
      cases hside
    rw [Option.map_some, Option.toList_some, List.singleton_perm]
    constructor
    · intro h
      obtain ⟨entry, hown, hterms⟩ := List.map_eq_singleton_iff.mp h.symm
      exact .inr ⟨takerSide, entry, rfl, hown, (terms_eq_termsOf_iff hmaker).mp hterms.symm⟩
    · rintro (⟨h, -⟩ | ⟨side, entry, hsome, hown, hmirrors⟩)
      · exact absurd h hknown
      · rw [← Option.some.inj hsome] at hmirrors
        rw [hown, List.map_singleton, (terms_eq_termsOf_iff hmaker).mpr hmirrors]

private def purchase : TradeMessage :=
  ⟨"t", some "taker", 1, .Buy, .ofParts 10 0, .ofParts 89 2, none, .Matched, some .Maker⟩

/-- One order of this wallet takes all of it, under the id that the taker's order has. -/
theorem booked_as_own_mirrored :
    BookedAsOwn ⟨purchase, [⟨"taker", "me", 1, .Sell, .ofParts 890 3, .ofParts 10 0⟩]⟩ "me" :=
  (booked_as_own_iff _ "me" rfl).mpr (.inr ⟨.Buy, _, rfl, rfl, rfl, rfl, rfl, by decide +kernel, rfl⟩)

/-- One order of this wallet takes a part, and one of a third the rest. -/
def twoMakers : TradeEvent :=
  ⟨purchase, [⟨"mine", "me", 2, .Buy, .ofParts 11 2, .ofParts 4 0⟩,
    ⟨"other", "you", 1, .Sell, .ofParts 89 2, .ofParts 6 0⟩]⟩

/-- The wallet buys 4 of the other token and is booked a sale of 10. -/
theorem maker_booked_as_taker :
    twoMakers.trade.traderSide = some .Maker ∧ ¬twoMakers.BookedAsOwn "me" := by
  refine ⟨rfl, ?_⟩
  rw [BookedAsOwn, bookedFills, TradeMessage.toFill_notification]
  intro hperm
  have horder := congrArg Terms.orderId (List.singleton_perm_singleton.mp hperm)
  revert horder
  decide

end PolyBot.Websocket.MakerTrades
