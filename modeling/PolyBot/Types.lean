import Mathlib.Data.Rat.Floor
import Mathlib.Algebra.Order.Floor.Ring

namespace PolyBot

/-- Prices, sizes and cash are exact rationals; the 28 digits kept by the source's decimals are not modelled. -/
abbrev Decimal := ℚ

/-- The largest representable decimal, `2 ^ 96 - 1`. -/
def Decimal.max : Decimal := 79228162514264337593543950335

/-- Rounding to the nearest integer, ties to even. -/
def Decimal.round (x : Decimal) : ℤ :=
  if x - ⌊x⌋ < 1 / 2 then ⌊x⌋
  else if 1 / 2 < x - ⌊x⌋ then ⌊x⌋ + 1
  else if ⌊x⌋ % 2 = 0 then ⌊x⌋
  else ⌊x⌋ + 1

def Decimal.roundDp (dp : ℕ) (x : Decimal) : Decimal := (x * 10 ^ dp).round / 10 ^ dp

/-- Rounding toward zero to `dp` fractional digits. -/
def Decimal.truncDp (dp : ℕ) (x : Decimal) : Decimal :=
  if 0 ≤ x then (⌊x * 10 ^ dp⌋ : ℤ) / 10 ^ dp else (⌈x * 10 ^ dp⌉ : ℤ) / 10 ^ dp

/-- Rounding away from zero to `dp` fractional digits. -/
def Decimal.awayDp (dp : ℕ) (x : Decimal) : Decimal :=
  if 0 ≤ x then (⌈x * 10 ^ dp⌉ : ℤ) / 10 ^ dp else (⌊x * 10 ^ dp⌋ : ℤ) / 10 ^ dp

/-- Readings of the monotonic clock, in nanoseconds. -/
abbrev Instant := ℕ

abbrev Duration := ℕ

def Duration.fromMillis (n : ℕ) : Duration := n * 1000000
def Duration.fromSecs (n : ℕ) : Duration := n * 1000000000

/-- Time since `earlier`, zero when `earlier` is not in the past. -/
def Instant.elapsed (earlier now : Instant) : Duration := now - earlier

/-- Readings of the wall clock, in nanoseconds since the epoch. -/
abbrev Timestamp := ℤ

abbrev ConditionId := String
abbrev TokenId := String
abbrev OrderId := String

inductive Side where
  | Buy
  | Sell
  deriving DecidableEq, Repr

def Side.opposite : Side → Side
  | .Buy => .Sell
  | .Sell => .Buy

inductive OrderType where
  | FAK
  | GTC
  | FOK
  deriving DecidableEq, Repr

end PolyBot
