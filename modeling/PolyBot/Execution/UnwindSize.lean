import PolyBot.Execution.Legs

/-! The size an unwind is submitted with, against the excess it closes. -/

namespace PolyBot.Execution.UnwindSize
open OrderExecutor

def submittedUnwind (d : DualPolicy) (nowSecs : ℕ) (leg : Leg) (excess : Decimal) : Decimal :=
  (d.policy.orderParams nowSecs (unwindIntent leg.2 excess)).size

private theorem lotSize_of_coprime {price : Decimal} (h : lotHundredths price = 100) : lotSize price = 1 := by
  rw [lotSize, h]
  norm_num

/-- At a price whose lot is one whole share the notional test is one on the whole shares of the size. -/
private theorem quantize_le_iff_of_unit_lot {price size : Decimal} (hlot : lotHundredths price = 100) (hprice : 0 < price)
    (hsize : 0 < size) {n : ℤ} (hn : ∀ k : ℤ, 1 ≤ price * k ↔ n ≤ k) :
    quantizeSizeForUsdcPrecision price size ≤ size ↔ (n : Decimal) ≤ size := by
  have hfloor : flooredSize price size = ⌊size⌋ := by
    rw [flooredSize, lotSize_of_coprime hlot, div_one, mul_one]
  rw [quantize_le_iff hprice.ne' hsize.ne', hfloor, hn, Int.le_floor]

private theorem one_le_cent_mul_iff (k : ℤ) : (1 : Decimal) ≤ 1 / 100 * k ↔ 100 ≤ k := by
  constructor
  · intro h
    have hk : (100 : Decimal) ≤ k := by linarith
    exact_mod_cast hk
  · intro h
    have hk : (100 : Decimal) ≤ k := by exact_mod_cast h
    linarith

private theorem one_le_ninetyNine_mul_iff (k : ℤ) : (1 : Decimal) ≤ 99 / 100 * k ↔ 2 ≤ k := by
  constructor
  · intro h
    by_contra hlt
    have hk : (k : Decimal) ≤ 1 := by exact_mod_cast (show k ≤ 1 by omega)
    linarith
  · intro h
    have hk : (2 : Decimal) ≤ k := by exact_mod_cast h
    linarith

private theorem submitted_sell {d : DualPolicy} {nowSecs : ℕ} {leg : Leg} (h : leg.2.side = .Buy) (excess : Decimal) :
    submittedUnwind d nowSecs leg excess = quantizeSizeForUsdcPrecision (1 / 100) excess := by
  have hprice : (unwindIntent leg.2 excess).price = 1 / 100 := by
    simp only [unwindIntent, OrderIntent.new, h, Side.opposite]
  exact congrArg (quantizeSizeForUsdcPrecision · excess) hprice

private theorem submitted_buy {d : DualPolicy} {nowSecs : ℕ} {leg : Leg} (h : leg.2.side = .Sell) (excess : Decimal) :
    submittedUnwind d nowSecs leg excess = quantizeSizeForUsdcPrecision (99 / 100) excess := by
  have hprice : (unwindIntent leg.2 excess).price = 99 / 100 := by
    simp only [unwindIntent, OrderIntent.new, h, Side.opposite]
  exact congrArg (quantizeSizeForUsdcPrecision · excess) hprice

/-- The unwind of a leg's excess, which is planned, is submitted with no more than the excess exactly when
the excess is a hundred shares of a bought leg or two of a sold one. -/
theorem unwind_within_excess_iff (d : DualPolicy) (nowSecs : ℕ) (legs : List Leg) (leg : Leg) (hleg : leg ∈ legs)
    (hgrouped : firstIsGrouped (intentsOf legs) = true) (hexcess : 0 < batchExcess legs leg) :
    unwindIntent leg.2 (batchExcess legs leg) ∈ plannedUnwinds (intentsOf legs) (resultsOf legs) ∧
      (submittedUnwind d nowSecs leg (batchExcess legs leg) ≤ batchExcess legs leg ↔
        (leg.2.side = .Buy ∧ 100 ≤ batchExcess legs leg) ∨ (leg.2.side = .Sell ∧ 2 ≤ batchExcess legs leg)) := by
  refine ⟨mem_plannedUnwinds.mpr ⟨hgrouped, leg, hleg, hexcess, rfl⟩, ?_⟩
  cases hside : leg.2.side with
  | Buy =>
    rw [submitted_sell hside, quantize_le_iff_of_unit_lot (by decide +kernel) (by norm_num) hexcess one_le_cent_mul_iff]
    simp
  | Sell =>
    rw [submitted_buy hside,
      quantize_le_iff_of_unit_lot (by decide +kernel) (by norm_num) hexcess one_le_ninetyNine_mul_iff]
    simp

private def boughtLeg (tokenId : TokenId) : OrderIntent :=
  ((OrderIntent.new "m1" tokenId .Buy (45 / 100) 10 .Immediate "MathArbStrategy").withGroup "arb-1").withPriority 100

private def bought (tokenId : TokenId) (size : Decimal) : Leg :=
  acceptedLeg DualPolicy.new.policy 0 (boughtLeg tokenId) (.taking "x" size)

private def uneven : List Leg := [bought "yes" 10, bought "no" 5]

/-- Ten and five bought shares: the excess of five is closed by selling six. -/
theorem unwind_of_five_sells_six :
    batchExcess uneven (bought "yes" 10) = 5 ∧
      unwindIntent (boughtLeg "yes") 5 ∈ plannedUnwinds (intentsOf uneven) (resultsOf uneven) ∧
      submittedUnwind DualPolicy.new 0 (bought "yes" 10) 5 = 6 ∧
      ¬submittedUnwind DualPolicy.new 0 (bought "yes" 10) 5 ≤ 5 := by
  refine ⟨by decide +kernel, by decide +kernel, by decide +kernel, by decide +kernel⟩

private def unevenByHundred : List Leg :=
  [acceptedLeg DualPolicy.new.policy 0 { boughtLeg "yes" with size := 150 } (.taking "x" 150),
    acceptedLeg DualPolicy.new.policy 0 { boughtLeg "no" with size := 150 } (.taking "x" 50)]

/-- A hundred shares in excess are closed without passing the excess. -/
theorem unwind_of_hundred_is_within :
    submittedUnwind DualPolicy.new 0 (unevenByHundred.head (by decide))
      (batchExcess unevenByHundred (unevenByHundred.head (by decide))) ≤
        batchExcess unevenByHundred (unevenByHundred.head (by decide)) := by
  refine (unwind_within_excess_iff DualPolicy.new 0 unevenByHundred _ (List.head_mem _) (by decide +kernel)
    (by decide +kernel)).2.mpr (.inl ⟨rfl, by decide +kernel⟩)

end PolyBot.Execution.UnwindSize
