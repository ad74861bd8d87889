import Mathlib.Data.List.DropRight
import Mathlib.Data.Nat.GCD.Basic
import PolyBot.General.CheckedDivision
import PolyBot.General.DecimalText

/-! The interval that the time frame of the configuration names, and the rounding of the current time to it by which
discovery finds the markets. -/

namespace PolyBot
open General.CheckedDivision General.DecimalText

def isWhitespace (c : Char) : Bool :=
  c.toNat ∈ [0x20, 0x85, 0xA0, 0x1680, 0x2028, 0x2029, 0x202F, 0x205F, 0x3000] ∨
    0x09 ≤ c.toNat ∧ c.toNat ≤ 0x0D ∨ 0x2000 ≤ c.toNat ∧ c.toNat ≤ 0x200A

/-- The number and the unit of a time frame. Lower case is that of ASCII: no other letter lowers to a letter of a
unit. A number that is missing or exceeds 64 bits is read as 15. -/
def splitTimeframe (tf : String) : ℕ × String :=
  let tf := ((tf.toList.dropWhile isWhitespace).rdropWhile isWhitespace).map Char.toLower
  (((readNat (tf.takeWhile Char.isDigit)).filter (· < 2 ^ 64)).getD 15, .ofList (tf.dropWhile Char.isDigit))

/-- Products wrap around at 64 bits. -/
def timeframeToSecs (tf : String) : ℕ :=
  let (n, unit) := splitTimeframe tf
  if unit = "s" then n
  else if unit = "m" ∨ unit = "min" then n * 60 % 2 ^ 64
  else if unit = "h" ∨ unit = "hr" then n * 3600 % 2 ^ 64
  else if unit = "d" ∨ unit = "day" then n * 86400 % 2 ^ 64
  else 900

/-- The time frames of no seconds: the number is zero, or so large a multiple of a power of two that its product with
the seconds of the unit wraps around to zero. -/
def ZeroTimeframe (tf : String) : Prop :=
  let (n, unit) := splitTimeframe tf
  if unit = "s" then n = 0
  else if unit = "m" ∨ unit = "min" then 2 ^ 62 ∣ n
  else if unit = "h" ∨ unit = "hr" then 2 ^ 60 ∣ n
  else if unit = "d" ∨ unit = "day" then 2 ^ 57 ∣ n
  else False

def currentInterval (now intervalSecs : ℕ) : ℕ := now / intervalSecs * intervalSecs

def currentIntervalChecked (now intervalSecs : ℕ) : Option ℕ := (divide now intervalSecs).map (· * intervalSecs)

/-- A product wraps around to zero if the one factor has the powers of two that the other lacks. -/
theorem wrapped_eq_zero_iff (n j k : ℕ) {odd : ℕ} (hodd : Nat.Coprime 2 odd) :
    n * (2 ^ k * odd) % 2 ^ (j + k) = 0 ↔ 2 ^ j ∣ n := by
  rw [← Nat.dvd_iff_mod_eq_zero, pow_add, mul_left_comm, mul_comm (2 ^ k),
    Nat.mul_dvd_mul_iff_right (Nat.two_pow_pos k)]
  exact Nat.Coprime.dvd_mul_right (Nat.Coprime.pow_left j hodd)

theorem timeframeToSecs_eq_zero_iff (tf : String) : timeframeToSecs tf = 0 ↔ ZeroTimeframe tf := by
  rw [timeframeToSecs, ZeroTimeframe]
  obtain ⟨n, unit⟩ := splitTimeframe tf
  have hminutes : n * 60 % 2 ^ 64 = 0 ↔ 2 ^ 62 ∣ n := wrapped_eq_zero_iff n 62 2 (show Nat.Coprime 2 15 by decide)
  have hhours : n * 3600 % 2 ^ 64 = 0 ↔ 2 ^ 60 ∣ n := wrapped_eq_zero_iff n 60 4 (show Nat.Coprime 2 225 by decide)
  have hdays : n * 86400 % 2 ^ 64 = 0 ↔ 2 ^ 57 ∣ n := wrapped_eq_zero_iff n 57 7 (show Nat.Coprime 2 675 by decide)
  dsimp only
  split_ifs
  · rfl
  · exact hminutes
  · exact hhours
  · exact hdays
  · exact iff_of_false (by norm_num) id

/-- Discovery divides by zero exactly at the time frames of no seconds. -/
theorem exactly_currentIntervalChecked (now : ℕ) (tf : String) :
    Exactly (currentIntervalChecked now (timeframeToSecs tf)) (currentInterval now (timeframeToSecs tf))
      (¬ZeroTimeframe tf) :=
  ((Exactly.divide now _).map _).congr (not_congr (timeframeToSecs_eq_zero_iff tf))

end PolyBot
