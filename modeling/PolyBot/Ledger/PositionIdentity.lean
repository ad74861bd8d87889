import PolyBot.Ledger.Positions
import Mathlib.Algebra.Group.Prod
import Mathlib.Tactic.FieldSimp
import Mathlib.Tactic.Linarith
import Mathlib.Tactic.Ring

/-! The accounting identity of positions. Price rounding of the source's decimals is not modelled:
the identity is one of exact rationals. -/

namespace PolyBot.Ledger.PositionIdentity
open General.AdditiveRuns Position

private theorem abs_mul_signum (x : Decimal) : |x| * signum x = x := by
  rw [signum]
  split
  · rename_i hzero
    simp [hzero]
  · split
    · rename_i hneg
      rw [abs_of_neg hneg]
      ring
    · rename_i hzero hneg
      rw [abs_of_nonneg (not_lt.mp hneg), mul_one]

private theorem signum_mul_abs_of_opposite {x y : Decimal} (hx : x ≠ 0)
    (h : decide (0 < x) ≠ decide (0 < y)) : |y| * signum x = -y := by
  rw [signum]
  rw [if_neg hx]
  by_cases hpos : 0 < x
  · have hy : y ≤ 0 := by
      by_contra hlt
      exact h (by simp [hpos, not_le.mp hlt])
    rw [if_neg (not_lt.mpr hpos.le), abs_of_nonpos hy, mul_one]
  · have hneg : x < 0 := lt_of_le_of_ne (not_lt.mp hpos) hx
    have hy : 0 < y := by
      by_contra hle
      exact h (by simp [hpos, hle])
    rw [if_pos hneg, abs_of_pos hy]
    ring

/-- What is left of the old position after the opposite fill decides which side `min` takes. -/
private theorem closing_le {x y : Decimal} (h : decide (0 < x) ≠ decide (0 < y))
    (hflip : ¬((0 < x ∧ x + y < 0) ∨ (x < 0 ∧ 0 < x + y))) (hx : x ≠ 0) : |y| ≤ |x| := by
  by_cases hpos : 0 < x
  · have hy : y ≤ 0 := by
      by_contra hlt
      exact h (by simp [hpos, not_le.mp hlt])
    have hsum : 0 ≤ x + y := by
      by_contra hlt
      exact hflip (.inl ⟨hpos, not_le.mp hlt⟩)
    rw [abs_of_nonpos hy, abs_of_pos hpos]
    linarith
  · have hneg : x < 0 := lt_of_le_of_ne (not_lt.mp hpos) hx
    have hy : 0 < y := by
      by_contra hle
      exact h (by simp [hpos, hle])
    have hsum : x + y ≤ 0 := by
      by_contra hlt
      exact hflip (.inr ⟨hneg, not_le.mp hlt⟩)
    rw [abs_of_pos hy, abs_of_neg hneg]
    linarith

private theorem flip_le {x y : Decimal} (hflip : (0 < x ∧ x + y < 0) ∨ (x < 0 ∧ 0 < x + y)) : |x| ≤ |y| := by
  rcases hflip with ⟨hx, hsum⟩ | ⟨hx, hsum⟩
  · have hy : y < 0 := by linarith
    rw [abs_of_pos hx, abs_of_neg hy]
    linarith
  · have hy : 0 < y := by linarith
    rw [abs_of_neg hx, abs_of_pos hy]
    linarith

/-- The value of a position at cost: what it has realized less what its open shares cost. -/
def settled (p : Position) : Decimal := p.realizedPnl - p.shares * p.avgCost

/-- Opening moves the price of the new shares out of the settled value. -/
theorem settled_openWith (p : Position) (f : Fill) (h : p.shares = 0) :
    settled (p.openWith f) = settled p - f.price * f.signedSize := by
  simp only [settled, openWith, h]
  ring

theorem settled_addWith (p : Position) (f : Fill) (hopen : p.shares ≠ 0)
    (hsame : decide (0 < p.shares) = decide (0 < f.signedSize)) :
    settled (p.addWith f) = settled p - f.price * f.signedSize := by
  have hcost : (p.shares + f.signedSize) * (p.addWith f).avgCost =
      p.avgCost * p.shares + f.price * f.signedSize := by
    by_cases hpos : 0 < p.shares
    · have hfill : 0 < f.signedSize := by simpa [hpos] using hsame
      have hsum : 0 < p.shares + f.signedSize := add_pos hpos hfill
      simp only [addWith, abs_of_pos hpos, abs_of_pos hfill, abs_of_pos hsum, if_pos hsum]
      field_simp
    · have hneg : p.shares < 0 := lt_of_le_of_ne (not_lt.mp hpos) hopen
      have hfill : f.signedSize ≤ 0 := by simpa [hpos] using hsame
      have hsum : p.shares + f.signedSize < 0 := by linarith
      have hsum' : 0 < -(p.shares + f.signedSize) := by linarith
      have hne : p.shares + f.signedSize ≠ 0 := hsum.ne
      simp only [addWith, abs_of_neg hneg, abs_of_nonpos hfill, abs_of_neg hsum, if_pos hsum']
      rw [div_neg, mul_neg, mul_div_cancel₀ _ hne]
      ring
  have hshares : (p.addWith f).shares = p.shares + f.signedSize := rfl
  have hrealized : (p.addWith f).realizedPnl = p.realizedPnl := rfl
  rw [settled, settled, hshares, hrealized, hcost]
  ring

theorem settled_reduceWith (p : Position) (f : Fill) (hopen : p.shares ≠ 0)
    (hopp : decide (0 < p.shares) ≠ decide (0 < f.signedSize)) :
    settled (p.reduceWith f) = settled p - f.price * f.signedSize := by
  by_cases hclose : p.shares + f.signedSize = 0
  · have hfill : f.signedSize = -p.shares := by linarith
    have hclosing : min |f.signedSize| |p.shares| * signum p.shares = p.shares := by
      rw [hfill, abs_neg, min_self, abs_mul_signum]
    simp only [settled, reduceWith, if_pos hclose, mul_assoc, hclosing]
    rw [hfill]
    ring
  · by_cases hflip : (0 < p.shares ∧ p.shares + f.signedSize < 0) ∨ (p.shares < 0 ∧ 0 < p.shares + f.signedSize)
    · have hclosing : min |f.signedSize| |p.shares| * signum p.shares = p.shares := by
        rw [min_eq_right (flip_le hflip), abs_mul_signum]
      simp only [settled, reduceWith, if_neg hclose, if_pos hflip, mul_assoc, hclosing]
      ring
    · have hclosing : min |f.signedSize| |p.shares| * signum p.shares = -f.signedSize := by
        rw [min_eq_left (closing_le hopp hflip hopen), signum_mul_abs_of_opposite hopen hopp]
      simp only [settled, reduceWith, if_neg hclose, if_neg hflip, mul_assoc, hclosing]
      ring

theorem settled_applyFill (p : Position) (f : Fill) :
    settled (p.applyFill f) = settled p - f.price * f.signedSize := by
  rw [applyFill]
  split
  · rename_i hflat
    exact settled_openWith (p.trackCosts f) f hflat
  · rename_i hopen
    split
    · rename_i hsame
      exact settled_addWith (p.trackCosts f) f hopen hsame
    · rename_i hopp
      exact settled_reduceWith (p.trackCosts f) f hopen hopp

private theorem reduceWith_shares (p : Position) (f : Fill) :
    (p.reduceWith f).shares = p.shares + f.signedSize := by
  by_cases hclose : p.shares + f.signedSize = 0
  · simp only [reduceWith, if_pos hclose]
    exact hclose.symm
  · by_cases hflip : (0 < p.shares ∧ p.shares + f.signedSize < 0) ∨ (p.shares < 0 ∧ 0 < p.shares + f.signedSize)
    · simp only [reduceWith, if_neg hclose, if_pos hflip]
    · simp only [reduceWith, if_neg hclose, if_neg hflip]

private theorem reduceWith_costs (p : Position) (f : Fill) :
    (p.reduceWith f).totalFees = p.totalFees ∧ (p.reduceWith f).totalSlippageCost = p.totalSlippageCost ∧
      (p.reduceWith f).fillCount = p.fillCount := by
  by_cases hclose : p.shares + f.signedSize = 0
  · simp only [reduceWith, if_pos hclose, and_self]
  · by_cases hflip : (0 < p.shares ∧ p.shares + f.signedSize < 0) ∨ (p.shares < 0 ∧ 0 < p.shares + f.signedSize)
    · simp only [reduceWith, if_neg hclose, if_pos hflip, and_self]
    · simp only [reduceWith, if_neg hclose, if_neg hflip, and_self]

theorem shares_applyFill (p : Position) (f : Fill) : (p.applyFill f).shares = p.shares + f.signedSize := by
  rw [applyFill]
  split
  · rfl
  · split
    · rfl
    · exact reduceWith_shares (p.trackCosts f) f

/-- No branch touches the running fees, slippage or fill count beyond the common part. -/
theorem costs_applyFill (p : Position) (f : Fill) :
    (p.applyFill f).totalFees = p.totalFees + f.fee ∧
      (p.applyFill f).totalSlippageCost = p.totalSlippageCost + f.slippageCost ∧
      (p.applyFill f).fillCount = p.fillCount + 1 := by
  rw [applyFill]
  split
  · exact ⟨rfl, rfl, rfl⟩
  · split
    · exact ⟨rfl, rfl, rfl⟩
    · exact reduceWith_costs (p.trackCosts f) f

/-- The five totals of a position that depend on its fills additively. -/
abbrev Totals := Decimal × Decimal × Decimal × Decimal × ℕ

def totals (p : Position) : Totals := (p.shares, settled p, p.totalFees, p.totalSlippageCost, p.fillCount)

def fillTotals (f : Fill) : Totals := (f.signedSize, -(f.price * f.signedSize), f.fee, f.slippageCost, 1)

theorem totals_applyFill (p : Position) (f : Fill) : totals (p.applyFill f) = totals p + fillTotals f := by
  obtain ⟨hfees, hslip, hcount⟩ := costs_applyFill p f
  simp only [totals, fillTotals, Prod.mk_add_mk, shares_applyFill, settled_applyFill, hfees, hslip, hcount,
    sub_eq_add_neg]

/-- One fill adds to the totals of its own token and to no other. -/
theorem positions_accumulate (t : TokenId) :
    Accumulates Positions.applyFill (fun ps => totals (ps.get t))
      (fun f => if f.tokenId = t then fillTotals f else 0) := by
  intro ps f
  dsimp only
  split
  · rename_i htoken
    subst htoken
    rw [Positions.get_applyFill_self, totals_applyFill]
  · rename_i htoken
    rw [Positions.get_applyFill_ne ps f htoken, add_zero]

def fillsOf (t : TokenId) (fills : List Fill) : List Fill := fills.filter (·.tokenId = t)

def notionalOn (side : Side) (fills : List Fill) : Decimal :=
  ((fills.filter (·.side = side)).map Fill.notional).sum

private theorem sum_selected (t : TokenId) (fills : List Fill) :
    (fills.map fun f => if f.tokenId = t then fillTotals f else 0).sum = ((fillsOf t fills).map fillTotals).sum := by
  induction fills with
  | nil => rfl
  | cons f fills ih =>
    by_cases h : f.tokenId = t
    · simp [fillsOf, h, ih]
    · simp [fillsOf, h, ih]

private theorem sum_fillTotals_fst (fills : List Fill) :
    (fills.map fillTotals).sum.1 = (fills.map Fill.signedSize).sum := by
  induction fills with
  | nil => rfl
  | cons f fills ih => rw [List.map_cons, List.sum_cons, Prod.fst_add, ih, List.map_cons, List.sum_cons, fillTotals]

/-- What fills move out of the settled value is what was bought less what was sold. -/
theorem sum_settledFlow (fills : List Fill) :
    (fills.map fun f => -(f.price * f.signedSize)).sum = notionalOn .Sell fills - notionalOn .Buy fills := by
  induction fills with
  | nil => simp [notionalOn]
  | cons f fills ih =>
    rw [List.map_cons, List.sum_cons, ih]
    cases hside : f.side with
    | Buy | Sell =>
      simp only [notionalOn, Fill.signedSize, Fill.notional, hside, List.filter_cons, decide_true,
        reduceCtorEq, decide_false, Bool.false_eq_true, if_true, if_false, List.map_cons, List.sum_cons]
      ring

private theorem sum_fillTotals_settled (fills : List Fill) :
    (fills.map fillTotals).sum.2.1 = notionalOn .Sell fills - notionalOn .Buy fills := by
  rw [← sum_settledFlow]
  induction fills with
  | nil => rfl
  | cons f fills ih =>
    rw [List.map_cons, List.sum_cons, Prod.snd_add, Prod.fst_add, ih, List.map_cons, List.sum_cons, fillTotals]

/-- The totals of a token after any fills of any tokens, from no positions. -/
theorem totals_run (t : TokenId) (fills : List Fill) :
    totals ((fills.foldl Positions.applyFill Positions.new).get t) = ((fillsOf t fills).map fillTotals).sum := by
  have hrun := (positions_accumulate t).foldl Positions.new fills
  have hstart : totals (Positions.new.get t) = 0 := by
    rw [Positions.get_new]
    simp [totals, settled, Position.new]
  rw [hrun, hstart, zero_add, sum_selected]

/-- From no positions, the shares of a token are the sum of its signed sizes and its settled value is
its sell notionals less its buy notionals; reordering the fills changes none of the five totals. The
average cost and the realized profit alone do depend on the order. -/
theorem position_accounting_identity (t : TokenId) (fills fills' : List Fill) (hperm : fills.Perm fills') :
    let p := (fills.foldl Positions.applyFill Positions.new).get t
    let p' := (fills'.foldl Positions.applyFill Positions.new).get t
    p.shares = ((fillsOf t fills).map Fill.signedSize).sum ∧
      p.realizedPnl - p.shares * p.avgCost = notionalOn .Sell (fillsOf t fills) - notionalOn .Buy (fillsOf t fills) ∧
      p'.shares = p.shares ∧ p'.totalFees = p.totalFees ∧ p'.totalSlippageCost = p.totalSlippageCost ∧
      p'.fillCount = p.fillCount ∧
      p'.realizedPnl - p'.shares * p'.avgCost = p.realizedPnl - p.shares * p.avgCost := by
  intro p p'
  have hrun : totals p = ((fillsOf t fills).map fillTotals).sum := totals_run t fills
  have hsame : totals p' = totals p := ((positions_accumulate t).foldl_perm Positions.new hperm).symm
  have hshares : p.shares = ((fillsOf t fills).map Fill.signedSize).sum :=
    (congrArg Prod.fst hrun).trans (sum_fillTotals_fst _)
  have hsettled : settled p = notionalOn .Sell (fillsOf t fills) - notionalOn .Buy (fillsOf t fills) :=
    (congrArg (·.2.1) hrun).trans (sum_fillTotals_settled _)
  simp only [totals, Prod.mk.injEq] at hsame
  obtain ⟨hs, hv, hf, hl, hc⟩ := hsame
  exact ⟨hshares, hsettled, hs, hf, hl, hc, hv⟩

private def witnessFill (side : Side) (price size : Decimal) : Fill := ⟨"f", "o", "yes", side, price, size, 1, none, 0⟩

/-- Ten shares bought, then a sale that flips through zero and a purchase that flips back, against the
same purchase before the sale. -/
theorem flip_through_zero_identity :
    let fills := [witnessFill .Buy (1 / 2) 10, witnessFill .Sell (3 / 5) 25, witnessFill .Buy (1 / 4) 20]
    let fills' := [witnessFill .Buy (1 / 2) 10, witnessFill .Buy (1 / 4) 20, witnessFill .Sell (3 / 5) 25]
    let p := (fills.foldl Positions.applyFill Positions.new).get "yes"
    let p' := (fills'.foldl Positions.applyFill Positions.new).get "yes"
    p'.realizedPnl ≠ p.realizedPnl ∧
      p'.realizedPnl - p'.shares * p'.avgCost = p.realizedPnl - p.shares * p.avgCost := by
  refine ⟨by decide +kernel, ?_⟩
  exact (position_accounting_identity "yes" _ _ ((List.Perm.swap _ _ _).cons _)).2.2.2.2.2.2

end PolyBot.Ledger.PositionIdentity
