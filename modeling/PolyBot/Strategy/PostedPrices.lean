import PolyBot.Strategy.MakerEdge
import PolyBot.Strategy.OrderTicks

/-! The price of an order against the book it is meant for: a taker's still crosses, a maker's does not. -/

namespace PolyBot

/-- A price on the tick, less than a tick from the one intended and no less aggressive: an order at the best price of
the other side still crosses it. -/
structure StaysMarketable (tickSize : Decimal) (side : Side) (price posted : Decimal) : Prop where
  on_tick : OnTick tickSize posted
  near : |posted - price| < tickSize
  buys : side = .Buy → price ≤ posted
  sells : side = .Sell → posted ≤ price

theorem roundUpToTick_eq_iff {tickSize : Decimal} (htick : 0 < tickSize) (price : Decimal) :
    roundUpToTick price tickSize = price ↔ OnTick tickSize price := by
  constructor
  · intro hkept
    rw [← hkept]
    exact onTick_roundUpToTick htick.ne' price
  · rintro ⟨k, rfl⟩
    rw [roundUpToTick, if_neg htick.ne', mul_div_cancel_right₀ _ htick.ne', Int.ceil_intCast]

namespace TakerPolicy

/-- The taker rounds up whatever the side: a purchase stays marketable, and a sale does if its price is on the tick. -/
theorem stays_marketable_iff (t : TakerPolicy) (nowSecs : ℕ) {intent : IntentRef} (htick : 0 < intent.tickSize) :
    StaysMarketable intent.tickSize intent.side intent.price (t.toOrderParams nowSecs intent).price ↔
      intent.side = .Buy ∨ OnTick intent.tickSize intent.price := by
  have hposted : (t.toOrderParams nowSecs intent).price = roundUpToTick intent.price intent.tickSize := rfl
  have hup := le_roundUpToTick htick.le intent.price
  have hnear := roundUpToTick_lt_add htick intent.price
  rw [hposted]
  constructor
  · intro h
    cases hside : intent.side with
    | Buy => exact .inl rfl
    | Sell => exact .inr ((roundUpToTick_eq_iff htick intent.price).mp (le_antisymm (h.sells hside) hup))
  · intro h
    refine ⟨onTick_roundUpToTick htick.ne' _, ?_, fun _ => hup, fun hsell => ?_⟩
    · rw [abs_of_nonneg (sub_nonneg.mpr hup)]
      linarith
    · rcases h with hbuy | hgrid
      · cases hsell.symm.trans hbuy
      · exact ((roundUpToTick_eq_iff htick intent.price).mpr hgrid).le

private def offTick (side : Side) : IntentRef :=
  ⟨"yes", side, 4567 / 10000, 5, .Normal, "contrarian", none, 1 / 100⟩

/-- Bought at 0.4567, with ticks of a cent. -/
theorem purchase_stays_marketable :
    StaysMarketable (offTick .Buy).tickSize (offTick .Buy).side (offTick .Buy).price
      (new.toOrderParams 0 (offTick .Buy)).price :=
  (new.stays_marketable_iff 0 (by norm_num [offTick])).mpr (.inl rfl)

/-- Sold at a best bid of 0.4567, the order asks 0.46. -/
theorem sale_is_not_marketable :
    0 < (offTick .Sell).tickSize ∧
      ¬StaysMarketable (offTick .Sell).tickSize (offTick .Sell).side (offTick .Sell).price
        (new.toOrderParams 0 (offTick .Sell)).price := by
  refine ⟨by norm_num [offTick], fun h => ?_⟩
  have hposted : (new.toOrderParams 0 (offTick .Sell)).price = 46 / 100 := by decide +kernel
  have hbelow := h.sells rfl
  rw [hposted] at hbelow
  norm_num [offTick] at hbelow

end TakerPolicy

/-- A price on the tick and below the ask that is no lower than the bid and the tick under the ask, cut down to the
tick. -/
structure RestsBelowAsk (tickSize bestAsk bestBid posted : Decimal) : Prop where
  on_tick : OnTick tickSize posted
  below_ask : posted < bestAsk
  bid : roundDownToTick bestBid tickSize ≤ posted
  ask : roundDownToTick (bestAsk - tickSize) tickSize ≤ posted

namespace MakerPolicy

/-- An offset of less than a tick does not move a maker price. -/
theorem posted_makerPrice (m : MakerPolicy) (nowSecs : ℕ) {intent : IntentRef} {bestAsk bestBid : Decimal}
    (hside : intent.side = .Buy)
    (hprice : intent.price = MakerRebateArbStrategy.makerPrice bestAsk bestBid intent.tickSize)
    (htick : 0 < intent.tickSize) (hoffset : 0 ≤ m.priceOffsetCents / 100)
    (hless : m.priceOffsetCents / 100 < intent.tickSize) :
    (m.toOrderParams nowSecs intent).price =
      roundDownToTick (max (bestAsk - intent.tickSize) bestBid) intent.tickSize := by
  have hnone : wholeTicks m.priceOffsetCents intent.tickSize = 0 := by
    have hfloor : ⌊m.priceOffsetCents / 100 / intent.tickSize⌋ = 0 :=
      Int.floor_eq_zero_iff.mpr ⟨div_nonneg hoffset htick.le, (div_lt_one htick).mpr hless⟩
    rw [wholeTicks, hfloor, Int.cast_zero, zero_mul]
  have hposted : (m.toOrderParams nowSecs intent).price =
      roundDownToTick (intent.price + m.priceOffsetCents / 100) intent.tickSize := by
    change m.applyPriceOffset intent.price intent.side intent.tickSize = _
    rw [hside]
    rfl
  rw [hposted, hprice, MakerRebateArbStrategy.roundDownToTick_makerPrice_add htick, hnone, add_zero]
  rfl

/-- A purchase at the maker price of a book never crosses it, whatever offset below a tick the policy adds. -/
theorem never_crosses (m : MakerPolicy) (nowSecs : ℕ) {intent : IntentRef} {bestAsk bestBid : Decimal}
    (hside : intent.side = .Buy)
    (hprice : intent.price = MakerRebateArbStrategy.makerPrice bestAsk bestBid intent.tickSize)
    (htick : 0 < intent.tickSize) (hspread : bestBid < bestAsk) (hoffset : 0 ≤ m.priceOffsetCents / 100)
    (hless : m.priceOffsetCents / 100 < intent.tickSize) :
    RestsBelowAsk intent.tickSize bestAsk bestBid (m.toOrderParams nowSecs intent).price := by
  rw [m.posted_makerPrice nowSecs hside hprice htick hoffset hless]
  have hbelow := roundDownToTick_le htick (max (bestAsk - intent.tickSize) bestBid)
  refine ⟨onTick_roundDownToTick htick.ne' _, hbelow.trans_lt (max_lt (by linarith) hspread), ?_, ?_⟩
  · exact roundDownToTick_mono htick (le_max_right _ _)
  · exact roundDownToTick_mono htick (le_max_left _ _)

private def joinedBid : IntentRef :=
  ⟨"yes", .Buy, MakerRebateArbStrategy.makerPrice (4788 / 10000) (4721 / 10000) (1 / 100), 5, .Passive,
    "MakerRebateArbStrategy", none, 1 / 100⟩

/-- Under an ask of 0.4788 and over a bid of 0.4721, with an offset of half a cent. -/
theorem sub_tick_quotes_not_crossed :
    RestsBelowAsk joinedBid.tickSize (4788 / 10000) (4721 / 10000)
      ((new.withPriceOffset (1 / 2)).toOrderParams 0 joinedBid).price :=
  (new.withPriceOffset (1 / 2)).never_crosses 0 rfl rfl (by norm_num [joinedBid]) (by norm_num)
    (by norm_num [new, withPriceOffset]) (by norm_num [new, withPriceOffset, joinedBid])

end MakerPolicy

end PolyBot
