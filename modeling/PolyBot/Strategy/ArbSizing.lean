import PolyBot.Ledger.Ledger
import PolyBot.State.OrderBook
import PolyBot.Strategy.Traits

/-! What the two arbitrage strategies share: the view they evaluate in and the size of their trades. -/

namespace PolyBot

def EXCHANGE_MIN_ORDER_USDC : Decimal := 1

structure StrategyContext where
  books : OrderBookState
  ledger : Ledger
  now : Instant

namespace StrategyContext

def availableCash (ctx : StrategyContext) : Decimal := ctx.ledger.cash.available
def position (ctx : StrategyContext) (tokenId : TokenId) : Position := ctx.ledger.getPosition tokenId

variable (parse : String → Option Decimal)

def bestBid (ctx : StrategyContext) (tokenId : TokenId) : Option Decimal := ctx.books.bestBid parse tokenId
def bestAsk (ctx : StrategyContext) (tokenId : TokenId) : Option Decimal := ctx.books.bestAsk parse tokenId
def midPrice (ctx : StrategyContext) (tokenId : TokenId) : Option Decimal := ctx.books.midPrice parse tokenId

end StrategyContext

def Instant.elapsedSecs (earlier now : Instant) : ℕ := earlier.elapsed now / Duration.fromSecs 1

def Instant.elapsedMillis (earlier now : Instant) : ℕ := earlier.elapsed now / Duration.fromMillis 1

theorem Decimal.truncDp_two_le {x : Decimal} (h : 0 ≤ x) : truncDp 2 x ≤ x := by
  rw [truncDp, if_pos h, div_le_iff₀ (by norm_num)]
  exact Int.floor_le _

structure SizingLimits where
  maxPositionSize : Decimal
  minPositionSize : Decimal
  maxBetUsd : Decimal
  maxTotalExposure : Decimal
  deriving DecidableEq, Repr

namespace SizingLimits

def affordable (usd combined : Decimal) : Decimal := if 0 < combined then usd / combined else 0

def tradeSize (lim : SizingLimits) (maxByBook currentExposure availableCash combined : Decimal) : Decimal :=
  let maxByExposure := (lim.maxTotalExposure - currentExposure) / 2
  let capped := min (min (min (min maxByBook lim.maxPositionSize) maxByExposure)
    (affordable availableCash combined)) (affordable lim.maxBetUsd combined)
  Decimal.truncDp 2 (max capped 0)

/-- The least size at which the cheaper leg meets the exchange minimum. -/
def effectiveMin (lim : SizingLimits) (yesPrice noPrice : Decimal) : Decimal :=
  let cheaper := min yesPrice noPrice
  let minByExchange := if 0 < cheaper then (⌈EXCHANGE_MIN_ORDER_USDC / cheaper⌉ : Decimal) else 1
  max minByExchange lim.minPositionSize

private theorem truncDp_two_of_nonneg {x : Decimal} (h : 0 ≤ x) : ∃ s : ℕ, Decimal.truncDp 2 x = s / 100 := by
  have hfloor : 0 ≤ ⌊x * 10 ^ 2⌋ := Int.floor_nonneg.mpr (by positivity)
  refine ⟨⌊x * 10 ^ 2⌋.toNat, ?_⟩
  have hcast : ((⌊x * 10 ^ 2⌋.toNat : ℕ) : Decimal) = (⌊x * 10 ^ 2⌋ : ℤ) := by
    rw [← Int.cast_natCast, Int.toNat_of_nonneg hfloor]
  rw [Decimal.truncDp, if_pos h, hcast]
  norm_num

/-- A trade size is a whole number of hundredths. -/
theorem tradeSize_eq_natCast_div (lim : SizingLimits) (maxByBook currentExposure availableCash combined : Decimal) :
    ∃ s : ℕ, lim.tradeSize maxByBook currentExposure availableCash combined = s / 100 :=
  truncDp_two_of_nonneg (le_max_right _ _)

/-- A positive trade size is within each of the five caps. -/
theorem tradeSize_le {lim : SizingLimits} {maxByBook currentExposure availableCash combined : Decimal}
    (hpos : 0 < lim.tradeSize maxByBook currentExposure availableCash combined) :
    lim.tradeSize maxByBook currentExposure availableCash combined ≤
      min (min (min (min maxByBook lim.maxPositionSize) ((lim.maxTotalExposure - currentExposure) / 2))
        (affordable availableCash combined)) (affordable lim.maxBetUsd combined) := by
  have htrunc := Decimal.truncDp_two_le (le_max_right (min (min (min (min maxByBook lim.maxPositionSize)
    ((lim.maxTotalExposure - currentExposure) / 2)) (affordable availableCash combined))
    (affordable lim.maxBetUsd combined)) 0)
  rcases le_max_iff.mp htrunc with hle | hle
  · exact hle
  · exact absurd hpos (not_lt.mpr hle)

/-- A positive size that `usd` can afford costs no more than `usd`. -/
theorem mul_le_of_le_affordable {usd combined size : Decimal} (hpos : 0 < size) (h : size ≤ affordable usd combined) :
    0 < combined ∧ combined * size ≤ usd := by
  unfold affordable at h
  split_ifs at h with hcombined
  · rw [le_div_iff₀ hcombined] at h
    exact ⟨hcombined, (mul_comm combined size).trans_le h⟩
  · exact absurd hpos (not_lt.mpr h)

theorem one_le_effectiveMin (lim : SizingLimits) (yesPrice noPrice : Decimal) :
    1 ≤ lim.effectiveMin yesPrice noPrice := by
  unfold effectiveMin
  apply le_max_of_le_left
  split
  · rename_i hpos
    have hceil : 0 < ⌈EXCHANGE_MIN_ORDER_USDC / min yesPrice noPrice⌉ := Int.ceil_pos.mpr (div_pos one_pos hpos)
    exact_mod_cast hceil
  · exact le_refl 1

/-- A trade of `size` at the two prices is what the limits allow on books of `depth` with the given exposure and
cash. -/
structure Admits (lim : SizingLimits) (depth exposure cash yesPrice noPrice size : Decimal) : Prop where
  size_eq : size = lim.tradeSize depth exposure cash (yesPrice + noPrice)
  least_le : lim.effectiveMin yesPrice noPrice ≤ size
  within : exposure + (yesPrice + noPrice) * size ≤ lim.maxTotalExposure

namespace Admits
variable {lim : SizingLimits} {depth exposure cash yesPrice noPrice size : Decimal}

theorem exists_hundredths (h : lim.Admits depth exposure cash yesPrice noPrice size) : ∃ k : ℕ, size = k / 100 := by
  rw [h.size_eq]
  exact lim.tradeSize_eq_natCast_div _ _ _ _

theorem size_pos (h : lim.Admits depth exposure cash yesPrice noPrice size) : 0 < size :=
  one_pos.trans_le ((lim.one_le_effectiveMin yesPrice noPrice).trans h.least_le)

/-- The size is within each cap. -/
theorem size_le (h : lim.Admits depth exposure cash yesPrice noPrice size) :
    (((size ≤ depth ∧ size ≤ lim.maxPositionSize) ∧ size ≤ (lim.maxTotalExposure - exposure) / 2) ∧
      size ≤ affordable cash (yesPrice + noPrice)) ∧ size ≤ affordable lim.maxBetUsd (yesPrice + noPrice) := by
  have hpos := h.size_pos
  rw [h.size_eq] at hpos ⊢
  have hle := tradeSize_le hpos
  simpa only [le_min_iff] using hle

theorem le_depth (h : lim.Admits depth exposure cash yesPrice noPrice size) : size ≤ depth := h.size_le.1.1.1.1

theorem le_maxPositionSize (h : lim.Admits depth exposure cash yesPrice noPrice size) :
    size ≤ lim.maxPositionSize :=
  h.size_le.1.1.1.2

theorem cost_le_cash (h : lim.Admits depth exposure cash yesPrice noPrice size) :
    0 < yesPrice + noPrice ∧ (yesPrice + noPrice) * size ≤ cash :=
  mul_le_of_le_affordable h.size_pos h.size_le.1.2

theorem cost_le_maxBetUsd (h : lim.Admits depth exposure cash yesPrice noPrice size) :
    (yesPrice + noPrice) * size ≤ lim.maxBetUsd :=
  (mul_le_of_le_affordable h.size_pos h.size_le.2).2

theorem cost_pos (h : lim.Admits depth exposure cash yesPrice noPrice size) : 0 < (yesPrice + noPrice) * size :=
  mul_pos h.cost_le_cash.1 h.size_pos

/-- The cheaper leg, and so either leg, is worth the exchange minimum. -/
theorem min_le_notional (h : lim.Admits depth exposure cash yesPrice noPrice size) (hyes : 0 < yesPrice)
    (hno : 0 < noPrice) :
    EXCHANGE_MIN_ORDER_USDC ≤ yesPrice * size ∧ EXCHANGE_MIN_ORDER_USDC ≤ noPrice * size := by
  have hcheaper : 0 < min yesPrice noPrice := lt_min hyes hno
  have hceil : EXCHANGE_MIN_ORDER_USDC / min yesPrice noPrice ≤ size := by
    refine (Int.le_ceil _).trans (le_trans ?_ h.least_le)
    unfold effectiveMin
    simp only [hcheaper, if_true]
    exact le_max_left _ _
  have hmin : EXCHANGE_MIN_ORDER_USDC ≤ min yesPrice noPrice * size := by
    rw [div_le_iff₀ hcheaper] at hceil
    exact hceil.trans_eq (mul_comm _ _)
  have hsize := h.size_pos.le
  exact ⟨hmin.trans (mul_le_mul_of_nonneg_right (min_le_left _ _) hsize),
    hmin.trans (mul_le_mul_of_nonneg_right (min_le_right _ _) hsize)⟩

end Admits

end SizingLimits

end PolyBot
