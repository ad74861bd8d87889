import PolyBot.Execution.ExchangeRules

/-! How far the submitted size is from the one asked for, and what is left when it is quantized again. -/

namespace PolyBot

def centLot (cents : ℕ) : Decimal := (100 / Nat.gcd cents 100 : ℕ) / 100

/-- The size sent for `size` at `price` is a number of lots, within one lot of `size` and above it only where whole lots
below would not come to a dollar; quantizing it again changes nothing. -/
structure WithinOneLot (lot price size : Decimal) : Prop where
  multiple : ∃ lots : ℤ, quantizeSizeForUsdcPrecision price size = lots * lot
  above : size - lot < quantizeSizeForUsdcPrecision price size
  below : quantizeSizeForUsdcPrecision price size ≤ size + lot
  exceeds : size < quantizeSizeForUsdcPrecision price size → price * (⌊size / lot⌋ * lot) < 1
  idempotent : quantizeSizeForUsdcPrecision price (quantizeSizeForUsdcPrecision price size) =
    quantizeSizeForUsdcPrecision price size

/-- The whole lots of a size that is worth a dollar, or the one more that makes it a dollar. -/
theorem quantize_of_dollar {price size : Decimal} (hprice : 0 < price) (hdollar : 1 ≤ price * size) :
    quantizeSizeForUsdcPrecision price size =
      (max (wholeLots price size) (dollarLots price) : ℤ) * lotSize price := by
  have hsize : 0 < size := pos_of_mul_pos_right (lt_of_lt_of_le one_pos hdollar) hprice.le
  have hsuffices := (oneLotSuffices_iff price size).mp (oneLotSuffices_of_dollar hprice hdollar)
  rw [quantize_eq_lots hprice hsize]
  congr 2
  split <;> omega

/-- As many lots as a dollar takes are sent as they are. -/
theorem quantize_of_lots {price : Decimal} (hprice : 0 < price) {lots : ℤ} (hdollar : dollarLots price ≤ lots) :
    quantizeSizeForUsdcPrecision price (lots * lotSize price) = lots * lotSize price := by
  have hlots : wholeLots price (lots * lotSize price) = lots := by
    rw [wholeLots, mul_div_cancel_right₀ _ (lotSize_pos price).ne', Int.floor_intCast]
  rw [quantize_of_dollar hprice ((dollar_le_lots_iff hprice lots).mpr hdollar), hlots, max_eq_left hdollar]

theorem withinOneLot_lotSize {price size : Decimal} (hprice : 0 < price) (hdollar : 1 ≤ price * size) :
    WithinOneLot (lotSize price) price size := by
  have hsent := quantize_of_dollar hprice hdollar
  have hlot := lotSize_pos price
  have hnext := lt_flooredSize_add price size
  have hfloor := flooredSize_le price size
  have hfloored : flooredSize price size = wholeLots price size * lotSize price := rfl
  have hsuffices := (oneLotSuffices_iff price size).mp (oneLotSuffices_of_dollar hprice hdollar)
  have hleast : flooredSize price size ≤ quantizeSizeForUsdcPrecision price size := by
    rw [hsent, hfloored]
    exact mul_le_mul_of_nonneg_right (by exact_mod_cast le_max_left _ _) hlot.le
  have hmost : quantizeSizeForUsdcPrecision price size ≤ flooredSize price size + lotSize price := by
    have hlots : ((max (wholeLots price size) (dollarLots price) : ℤ) : Decimal) ≤ wholeLots price size + 1 := by
      exact_mod_cast max_le (by omega) hsuffices
    rw [hsent, hfloored, ← add_one_mul]
    exact mul_le_mul_of_nonneg_right hlots hlot.le
  refine ⟨⟨_, hsent⟩, by linarith, by linarith, fun hexceeds => ?_, ?_⟩
  · by_contra hworth
    have hkept : dollarLots price ≤ wholeLots price size := (dollar_le_lots_iff hprice _).mp (not_lt.mp hworth)
    rw [hsent, max_eq_left hkept, ← hfloored] at hexceeds
    exact hexceeds.not_ge hfloor
  · rw [hsent]
    exact quantize_of_lots hprice (le_max_right _ _)

/-- The quantizer's lot at a price in whole cents; a price that does not fit counts as one cent. -/
theorem lotSize_of_wholeCents {cents : ℕ} (hpos : 0 < cents) :
    lotSize (cents / 100) = if cents < 2 ^ 63 then centLot cents else 1 := by
  have hcents := priceCents_of_wholeCents (c := cents) (by exact_mod_cast hpos)
  rw [Int.toNat_natCast, Int.cast_natCast] at hcents
  rw [lotSize, lotHundredths, gcdU64_eq_gcd, hcents]
  by_cases hfits : cents < 2 ^ 63
  · rw [if_pos hfits, if_pos (by exact_mod_cast hfits), centLot]
  · rw [if_neg hfits, if_neg (by exact_mod_cast hfits)]
    norm_num

/-- A size worth a dollar or more is sent within one lot of it, the lot being that of the price in cents as long as
these fit in 64 bits, and a whole share otherwise. -/
theorem submitted_within_one_lot {cents : ℕ} (hpos : 0 < cents) {size : Decimal}
    (hdollar : 1 ≤ (cents / 100 : Decimal) * size) :
    WithinOneLot (if cents < 2 ^ 63 then centLot cents else 1) (cents / 100) size := by
  have hprice : (0 : Decimal) < cents / 100 := div_pos (by exact_mod_cast hpos) (by norm_num)
  rw [← lotSize_of_wholeCents hpos]
  exact withinOneLot_lotSize hprice hdollar

/-- 1.12 shares at 90 cents. -/
theorem bumped_size_within_one_lot :
    WithinOneLot (if 90 < 2 ^ 63 then centLot 90 else 1) ((90 : ℕ) / 100) (112 / 100) :=
  submitted_within_one_lot (by decide) (by norm_num)

/-- At a price of `2 ^ 63` cents, where the lot is a quarter of a share, half a share is sent as a whole one. -/
theorem huge_price_sends_whole_share :
    0 < 2 ^ 63 ∧ 1 ≤ ((2 ^ 63 : ℕ) / 100 : Decimal) * (1 / 2) ∧
      ¬WithinOneLot (centLot (2 ^ 63)) ((2 ^ 63 : ℕ) / 100) (1 / 2) := by
  refine ⟨by norm_num, by norm_num, fun h => ?_⟩
  have hsent : quantizeSizeForUsdcPrecision ((2 ^ 63 : ℕ) / 100) (1 / 2) = 1 := by decide +kernel
  have hlot : centLot (2 ^ 63) = 1 / 4 := by decide +kernel
  have hbelow := h.below
  rw [hsent, hlot] at hbelow
  norm_num at hbelow

end PolyBot
