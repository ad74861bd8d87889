import Mathlib.Tactic.FieldSimp
import PolyBot.General.GainsAndLosses
import PolyBot.Strategy.TbtDivergence

/-! The momentum as the share of the gains in all price changes of its window. -/

namespace PolyBot.TbtDivergenceStrategy
open General.GainsAndLosses

def priceChanges (prices : List Decimal) (period : ℕ) : List Decimal :=
  (List.zipWith (fun newer older => newer - older) prices (prices.drop 1)).take period

theorem computeRsi_eq_none_iff {prices : List Decimal} {period : ℕ} :
    computeRsi prices period = none ↔ prices.length < period + 1 := by
  rw [computeRsi]
  split
  · rename_i hshort
    exact iff_of_true rfl hshort
  · rename_i hlong
    refine iff_of_false ?_ hlong
    dsimp only
    split <;> exact nofun

private theorem loss_eq_max (c : Decimal) : (if 0 < c then 0 else |c|) = max (-c) 0 := by
  split
  · rename_i hgain
    rw [max_eq_right (neg_nonpos.mpr hgain.le)]
  · rename_i hloss
    rw [abs_of_nonpos (not_lt.mp hloss), max_eq_left (neg_nonneg.mpr (not_lt.mp hloss))]

private theorem gain_eq_max (c : Decimal) : (if 0 < c then c else 0) = max c 0 := by
  split
  · rename_i hgain
    rw [max_eq_left hgain.le]
  · rename_i hloss
    rw [max_eq_right (not_lt.mp hloss)]

/-- The averages are over the same number of changes, which their quotient forgets. -/
theorem rsi_of_averages {gain loss : Decimal} (hgain : 0 ≤ gain) (hloss : 0 ≤ loss) {period : ℕ}
    (hperiod : 1 ≤ period) :
    (if loss / period = 0 then some (100 : Decimal)
      else some (100 - 100 / (1 + gain / period / (loss / period)))) = some (100 * share gain loss) := by
  have hpos : (0 : Decimal) < period := by exact_mod_cast hperiod
  by_cases hzero : loss = 0
  · rw [hzero, zero_div, if_pos rfl, share, if_pos rfl, mul_one]
  · have hlosses : 0 < loss := hloss.lt_of_ne' hzero
    have hsum : gain + loss ≠ 0 := (add_pos_of_nonneg_of_pos hgain hlosses).ne'
    rw [if_neg (div_ne_zero hzero hpos.ne'), share, if_neg hzero, div_div_div_cancel_right₀ hpos.ne']
    congr 1
    have hratio : 1 + gain / loss = (gain + loss) / loss := by
      rw [add_div, div_self hzero, add_comm]
    rw [hratio]
    field_simp
    ring

theorem computeRsi_eq_strength {prices : List Decimal} {period : ℕ} (hperiod : 1 ≤ period)
    (hlong : period < prices.length) :
    computeRsi prices period = some (100 * strength (priceChanges prices period)) := by
  rw [computeRsi, if_neg (by omega)]
  simp only [gain_eq_max, loss_eq_max]
  exact rsi_of_averages (gains_nonneg (priceChanges prices period)) (losses_nonneg (priceChanges prices period)) hperiod

/-- The changes of the window are those of the prices in it. -/
theorem priceChanges_take (prices : List Decimal) (period : ℕ) :
    priceChanges (prices.take (period + 1)) period = priceChanges prices period := by
  rw [priceChanges, priceChanges, List.take_zipWith, List.take_zipWith, List.take_take, List.drop_take, List.take_take,
    min_eq_left (Nat.le_succ period), Nat.add_sub_cancel, min_self]

theorem computeRsi_take {prices : List Decimal} {period : ℕ} (hperiod : 1 ≤ period) :
    computeRsi (prices.take (period + 1)) period = computeRsi prices period := by
  by_cases hlong : period < prices.length
  · have htaken : period < (prices.take (period + 1)).length := by
      rw [List.length_take]
      omega
    rw [computeRsi_eq_strength hperiod htaken, computeRsi_eq_strength hperiod hlong, priceChanges_take]
  · rw [List.take_of_length_le (by omega)]

theorem priceChanges_map (f : Decimal → Decimal) (k : Decimal) (hf : ∀ x y, f x - f y = k * (x - y))
    (prices : List Decimal) (period : ℕ) :
    priceChanges (prices.map f) period = (priceChanges prices period).map (k * ·) := by
  rw [priceChanges, priceChanges, ← List.map_drop, List.zipWith_map, List.map_take, List.map_zipWith]
  simp only [hf]

/-- Prices that are shifted, or scaled by a positive factor, have the same momentum. -/
theorem computeRsi_map (f : Decimal → Decimal) {k : Decimal} (hk : 0 < k) (hf : ∀ x y, f x - f y = k * (x - y))
    {prices : List Decimal} {period : ℕ} (hperiod : 1 ≤ period) :
    computeRsi (prices.map f) period = computeRsi prices period := by
  by_cases hlong : period < prices.length
  · rw [computeRsi_eq_strength hperiod (by rwa [List.length_map]), computeRsi_eq_strength hperiod hlong,
      priceChanges_map f k hf, strength_map_mul hk]
  · rw [computeRsi_eq_none_iff.mpr (by rw [List.length_map]; omega), computeRsi_eq_none_iff.mpr (by omega)]

/-- Only the first change sees the newest price. -/
theorem priceChanges_cons (newest previous : Decimal) (older : List Decimal) (n : ℕ) :
    priceChanges (newest :: previous :: older) (n + 1) =
      (newest - previous) :: priceChanges (previous :: older) n := rfl

theorem computeRsi_newest {newest newest' : Decimal} (hle : newest ≤ newest') {older : List Decimal} {period : ℕ}
    (hperiod : 1 ≤ period) {rsi rsi' : Decimal} (h : computeRsi (newest :: older) period = some rsi)
    (h' : computeRsi (newest' :: older) period = some rsi') : rsi ≤ rsi' := by
  have hlong : ∀ price, period < (price :: older).length := fun price => by
    by_contra hshort
    rw [List.length_cons] at hshort
    rw [computeRsi_eq_none_iff.mpr (by rw [List.length_cons]; omega)] at h
    cases h
  rw [computeRsi_eq_strength hperiod (hlong newest), Option.some.injEq] at h
  rw [computeRsi_eq_strength hperiod (hlong newest'), Option.some.injEq] at h'
  obtain ⟨n, rfl⟩ := Nat.exists_eq_add_of_le' hperiod
  cases older with
  | nil =>
    have hshort := hlong newest
    rw [List.length_singleton] at hshort
    omega
  | cons previous older =>
    rw [priceChanges_cons] at h h'
    have hstrength := strength_cons_le (sub_le_sub_right hle previous) (priceChanges (previous :: older) n)
    linarith

/-- The momentum of a window of prices as a number, if there are enough prices. -/
structure MomentumOf (prices : List Decimal) (period : ℕ) (rsi : Decimal) : Prop where
  nonneg : 0 ≤ rsi
  le_hundred : rsi ≤ 100
  eq_hundred_iff : rsi = 100 ↔ ∀ c ∈ priceChanges prices period, 0 ≤ c
  eq_zero_iff : rsi = 0 ↔ (∃ c ∈ priceChanges prices period, c < 0) ∧ ∀ c ∈ priceChanges prices period, c ≤ 0

theorem momentumOf_computeRsi {prices : List Decimal} {period : ℕ} (hperiod : 1 ≤ period) {rsi : Decimal}
    (h : computeRsi prices period = some rsi) : MomentumOf prices period rsi := by
  have hlong : period < prices.length := by
    by_contra hshort
    rw [computeRsi_eq_none_iff.mpr (by omega)] at h
    cases h
  rw [computeRsi_eq_strength hperiod hlong, Option.some.injEq] at h
  have hnonneg := strength_nonneg (priceChanges prices period)
  have hle := strength_le_one (priceChanges prices period)
  refine ⟨by linarith, by linarith, ?_, ?_⟩
  · rw [← strength_eq_one_iff, ← h]
    constructor <;> intro heq <;> linarith
  · rw [← strength_eq_zero_iff, ← h]
    constructor <;> intro heq <;> linarith

/-- There is a momentum if there are enough prices. It is read off the window alone, from 0 for falls without a rise to
100 for no fall, grows with the newest price and does not see a shift or a change of scale. -/
theorem computeRsi_momentum (period : ℕ) (hperiod : 1 ≤ period) (prices : List Decimal) :
    (computeRsi prices period = none ↔ prices.length < period + 1) ∧
      (∀ prices', prices'.take (period + 1) = prices.take (period + 1) →
        computeRsi prices' period = computeRsi prices period) ∧
      (∀ rsi, computeRsi prices period = some rsi → MomentumOf prices period rsi) ∧
      (∀ newest newest' older rsi rsi', newest ≤ newest' → computeRsi (newest :: older) period = some rsi →
        computeRsi (newest' :: older) period = some rsi' → rsi ≤ rsi') ∧
      (∀ c, computeRsi (prices.map (· + c)) period = computeRsi prices period) ∧
      ∀ k, 0 < k → computeRsi (prices.map (k * ·)) period = computeRsi prices period := by
  refine ⟨computeRsi_eq_none_iff, fun prices' hsame => ?_, fun rsi h => momentumOf_computeRsi hperiod h, ?_, ?_, ?_⟩
  · rw [← computeRsi_take hperiod, hsame, computeRsi_take hperiod]
  · exact fun newest newest' older rsi rsi' hle h h' => computeRsi_newest hle hperiod h h'
  · exact fun c => computeRsi_map (· + c) zero_lt_one (fun x y => by ring) hperiod
  · exact fun k hk => computeRsi_map (k * ·) hk (fun x y => by ring) hperiod

/-- Up by six cents and down by two: three quarters of all changes are gains. -/
theorem three_quarters_gained :
    computeRsi [56 / 100, 50 / 100, 52 / 100] 2 = some 75 ∧
      MomentumOf [56 / 100, 50 / 100, 52 / 100] 2 75 := by
  have hrsi : computeRsi [56 / 100, 50 / 100, 52 / 100] 2 = some 75 := by decide +kernel
  exact ⟨hrsi, (computeRsi_momentum 2 (by omega) [56 / 100, 50 / 100, 52 / 100]).2.2.1 75 hrsi⟩

end PolyBot.TbtDivergenceStrategy
