import PolyBot.General.LotRounding
import PolyBot.Types
import Mathlib.Tactic.Linarith

namespace PolyBot
open General.LotRounding

/-- One iteration is `(a, b) := (b, a % b)`; `fuel` bounds the iterations. -/
def gcdLoop : ℕ → ℕ → ℕ → ℕ
  | 0, a, _ => a
  | fuel + 1, a, b => if b = 0 then a else gcdLoop fuel b (a % b)

/-- The second argument falls in every iteration, so `b + 1` of them are enough. -/
def gcdU64 (a b : ℕ) : ℕ := gcdLoop (b + 1) a b

theorem gcdLoop_eq_gcd {fuel a b : ℕ} (h : b < fuel) : gcdLoop fuel a b = Nat.gcd a b := by
  induction fuel generalizing a b with
  | zero => omega
  | succ fuel ih =>
    unfold gcdLoop
    split
    · rename_i hzero
      rw [hzero, Nat.gcd_zero_right]
    · rename_i hne
      have hlt : a % b < b := Nat.mod_lt a (Nat.pos_of_ne_zero hne)
      rw [ih (by omega), Nat.gcd_comm a b, Nat.gcd_rec b a, Nat.gcd_comm]

/-- The loop ends and computes the greatest common divisor. -/
theorem gcdU64_eq_gcd (a b : ℕ) : gcdU64 a b = Nat.gcd a b := gcdLoop_eq_gcd (Nat.lt_succ_self b)

/-- The price in whole cents, at least one; one as well when it does not fit in 64 bits. -/
def priceCents (price : Decimal) : ℕ :=
  let rounded := Decimal.round (price * 100)
  (max (if -2 ^ 63 ≤ rounded ∧ rounded < 2 ^ 63 then rounded else 1) 1).toNat

def lotHundredths (price : Decimal) : ℕ := 100 / gcdU64 (priceCents price) 100

def lotSize (price : Decimal) : Decimal := lotHundredths price / 100

def flooredSize (price size : Decimal) : Decimal := ⌊size / lotSize price⌋ * lotSize price

/-- The submitted size: whole lots, one more when the notional would stay below one dollar. -/
def quantizeSizeForUsdcPrecision (price size : Decimal) : Decimal :=
  if price = 0 ∨ size = 0 then size
  else if price * flooredSize price size < 1 then flooredSize price size + lotSize price
  else flooredSize price size

theorem lotHundredths_pos (price : Decimal) : 0 < lotHundredths price := by
  have hdvd : gcdU64 (priceCents price) 100 ∣ 100 := by
    rw [gcdU64_eq_gcd]
    exact Nat.gcd_dvd_right _ _
  exact Nat.div_pos (Nat.le_of_dvd (by decide) hdvd) (Nat.pos_of_dvd_of_pos hdvd (by decide))

theorem lotSize_pos (price : Decimal) : 0 < lotSize price := by
  have hlot : (0 : Decimal) < lotHundredths price := by exact_mod_cast lotHundredths_pos price
  exact div_pos hlot (by norm_num)

theorem flooredSize_le (price size : Decimal) : flooredSize price size ≤ size := by
  have hlot := lotSize_pos price
  have hfloor := Int.floor_le (size / lotSize price)
  rwa [le_div_iff₀ hlot] at hfloor

theorem lt_flooredSize_add (price size : Decimal) : size < flooredSize price size + lotSize price := by
  have hlot := lotSize_pos price
  have hfloor := Int.lt_floor_add_one (size / lotSize price)
  rw [div_lt_iff₀ hlot, add_mul, one_mul] at hfloor
  exact hfloor

/-- The submitted size passes the requested one exactly when the minimum notional adds a lot. -/
theorem quantize_le_iff {price size : Decimal} (hprice : price ≠ 0) (hsize : size ≠ 0) :
    quantizeSizeForUsdcPrecision price size ≤ size ↔ 1 ≤ price * flooredSize price size := by
  rw [quantizeSizeForUsdcPrecision, if_neg (not_or.mpr ⟨hprice, hsize⟩)]
  split
  · rename_i hbump
    exact iff_of_false (not_le.mpr (lt_flooredSize_add price size)) (not_le.mpr hbump)
  · rename_i hkeep
    exact iff_of_true (flooredSize_le price size) (not_lt.mp hkeep)

def lotOf (price : Decimal) : ℕ := if price = 0 then 1 else lotHundredths price

def Bumped (price size : Decimal) : Prop := price ≠ 0 ∧ price * flooredSize price size < 1

instance (price size : Decimal) : Decidable (Bumped price size) := inferInstanceAs (Decidable (_ ∧ _))

theorem lotOf_pos (price : Decimal) : 0 < lotOf price := by
  unfold lotOf
  split
  · decide
  · exact lotHundredths_pos price

theorem flooredSize_hundredths (price : Decimal) (s : ℕ) :
    flooredSize price (s / 100) = (floorTo (lotHundredths price) s : ℕ) / 100 := by
  have hlot : (lotHundredths price : Decimal) ≠ 0 := by exact_mod_cast (lotHundredths_pos price).ne'
  have hdiv : (s : Decimal) / 100 / lotSize price = s / lotHundredths price := by
    rw [lotSize]
    field_simp
  rw [flooredSize, hdiv, Rat.floor_natCast_div_natCast, ← Int.natCast_ediv, Int.cast_natCast, lotSize, floorTo,
    Nat.cast_mul, mul_div_assoc]

/-- On whole hundredths the quantizer is whole-lot rounding of natural numbers. -/
theorem quantize_hundredths (price : Decimal) {s : ℕ} (hs : 0 < s) :
    quantizeSizeForUsdcPrecision price (s / 100) =
      ((floorTo (lotOf price) s + if Bumped price (s / 100) then lotOf price else 0 : ℕ) : Decimal) / 100 := by
  have hsize : (s : Decimal) / 100 ≠ 0 := by
    have hpos : (0 : Decimal) < s := by exact_mod_cast hs
    exact (div_pos hpos (by norm_num)).ne'
  by_cases hprice : price = 0
  · have hkeep : ¬Bumped price (s / 100) := fun h => h.1 hprice
    rw [quantizeSizeForUsdcPrecision, if_pos (.inl hprice), if_neg hkeep, lotOf, if_pos hprice, floorTo]
    simp
  · rw [quantizeSizeForUsdcPrecision, if_neg (not_or.mpr ⟨hprice, hsize⟩), lotOf, if_neg hprice]
    by_cases hbump : price * flooredSize price (s / 100) < 1
    · have hb : Bumped price (s / 100) := ⟨hprice, hbump⟩
      rw [if_pos hbump, if_pos hb, flooredSize_hundredths, lotSize]
      push_cast
      ring
    · have hb : ¬Bumped price (s / 100) := fun h => hbump h.2
      rw [if_neg hbump, if_neg hb, flooredSize_hundredths, add_zero]

example : quantizeSizeForUsdcPrecision (51 / 100) (555 / 100) = 5 := by decide +kernel
example : quantizeSizeForUsdcPrecision (90 / 100) (112 / 100) = 120 / 100 := by decide +kernel

end PolyBot
