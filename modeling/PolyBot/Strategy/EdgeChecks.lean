import Mathlib.Algebra.Order.Field.Basic
import Mathlib.Tactic.GCongr
import Mathlib.Tactic.Linarith
import PolyBot.General.DecimalText
import PolyBot.Strategy.EdgeCalculator

/-! What the edge calculator lets through: an opportunity that costs less is no less profitable, and none that is
profitable is stopped by the quick check. -/

namespace PolyBot

structure BookSnapshot.CheaperThan (parse : String → Option Decimal) (cheaper book : BookSnapshot) : Prop where
  bid : cheaper.bestBid parse = book.bestBid parse
  depth : cheaper.askDepth parse = book.askDepth parse
  ask : ∃ low high, cheaper.bestAsk parse = some low ∧ book.bestAsk parse = some high ∧ low ≤ high

theorem BookSnapshot.CheaperThan.ask_le {parse : String → Option Decimal} {cheaper book : BookSnapshot}
    (h : cheaper.CheaperThan parse book) : (cheaper.bestAsk parse).getD 1 ≤ (book.bestAsk parse).getD 1 := by
  obtain ⟨low, high, hlow, hhigh, hle⟩ := h.ask
  rw [hlow, hhigh]
  exact hle

theorem BookSnapshot.CheaperThan.spread_le {parse : String → Option Decimal} {cheaper book : BookSnapshot}
    (h : cheaper.CheaperThan parse book) (fallback : Decimal) :
    (cheaper.spread parse).getD fallback ≤ (book.spread parse).getD fallback := by
  obtain ⟨low, high, hlow, hhigh, hle⟩ := h.ask
  rw [spread, spread, h.bid, hlow, hhigh]
  cases book.bestBid parse with
  | none => exact le_rfl
  | some bid => exact sub_le_sub_right hle bid

def BookSnapshot.NonnegAsk (parse : String → Option Decimal) (book : BookSnapshot) : Prop :=
  ∀ ask, book.bestAsk parse = some ask → 0 ≤ ask

theorem BookSnapshot.NonnegAsk.le_getD {parse : String → Option Decimal} {book : BookSnapshot}
    (h : book.NonnegAsk parse) : 0 ≤ (book.bestAsk parse).getD 1 := by
  cases hask : book.bestAsk parse with
  | none => exact zero_le_one
  | some ask => exact h ask hask

namespace EdgeConfig
variable (parse : String → Option Decimal) {c : EdgeConfig} {yesBook noBook : BookSnapshot}

/-- The asks of both tokens together; a token without one counts as a dollar. -/
def combinedAsk (yesBook noBook : BookSnapshot) : Decimal :=
  (yesBook.bestAsk parse).getD 1 + (noBook.bestAsk parse).getD 1

def slippageAtTop (yesBook noBook : BookSnapshot) : Decimal := if minDepth parse yesBook noBook = 0 then 1 / 10 else 0

variable {parse}

theorem estimateSlippage_of_le {intendedSize : Decimal} (h : intendedSize ≤ minDepth parse yesBook noBook) :
    c.estimateSlippage parse yesBook noBook intendedSize = slippageAtTop parse yesBook noBook := by
  rw [estimateSlippage, slippageAtTop]
  rw [if_neg (not_lt.mpr h)]

/-- An opportunity is profitable if the books can fill it and the edge covers the least edge and all costs. -/
theorem isProfitable_iff {feeRateBps : ℕ} {intendedSize : Decimal} :
    (c.calculate parse yesBook noBook feeRateBps intendedSize).isProfitable = true ↔
      intendedSize ≤ minDepth parse yesBook noBook ∧ c.minEdge ≤ 1 - combinedAsk parse yesBook noBook ∧
        c.calculateFees feeRateBps (combinedAsk parse yesBook noBook) + slippageAtTop parse yesBook noBook +
            c.partialFillMargin parse yesBook noBook + spreadPenalty parse yesBook noBook ≤
          1 - combinedAsk parse yesBook noBook := by
  have hread : (c.calculate parse yesBook noBook feeRateBps intendedSize).isProfitable = true ↔
      max (c.calculateFees feeRateBps (combinedAsk parse yesBook noBook) +
            c.estimateSlippage parse yesBook noBook intendedSize + c.partialFillMargin parse yesBook noBook +
            spreadPenalty parse yesBook noBook) c.minEdge ≤ 1 - combinedAsk parse yesBook noBook ∧
        intendedSize ≤ minDepth parse yesBook noBook := decide_eq_true_iff
  rw [hread, and_comm]
  refine and_congr_right fun hfits => ?_
  rw [estimateSlippage_of_le hfits, max_le_iff, and_comm]

theorem spreadPenalty_eq : spreadPenalty parse yesBook noBook =
    max (averageSpread parse (1 / 10) yesBook noBook - 5 / 100) 0 * (1 / 2) := by
  rw [spreadPenalty]
  split
  · rename_i hwide
    rw [max_eq_left (sub_nonneg.mpr hwide.le)]
  · rename_i htight
    rw [max_eq_right (sub_nonpos.mpr (not_lt.mp htight)), zero_mul]

theorem calculateFees_mono_cost (feeRateBps : ℕ) {low high : Decimal} (h : low ≤ high) :
    c.calculateFees feeRateBps low ≤ c.calculateFees feeRateBps high := by
  unfold calculateFees
  split
  · exact le_rfl
  · exact mul_le_mul_of_nonneg_left h (div_nonneg (Nat.cast_nonneg _) (by norm_num))

theorem calculateFees_mono_rate {low high : ℕ} (h : low ≤ high) {combinedCost : Decimal} (hcost : 0 ≤ combinedCost) :
    c.calculateFees low combinedCost ≤ c.calculateFees high combinedCost := by
  unfold calculateFees
  split
  · exact le_rfl
  · have hrate : (low : Decimal) ≤ high := by exact_mod_cast h
    exact mul_le_mul_of_nonneg_right (div_le_div_of_nonneg_right hrate (by norm_num)) hcost

section Cheaper
variable {cheaperYes cheaperNo : BookSnapshot}

/-- The edge grows and the costs shrink when the asks fall. -/
theorem isProfitable_of_cheaper (hask : combinedAsk parse cheaperYes cheaperNo ≤ combinedAsk parse yesBook noBook)
    (hspread : averageSpread parse (1 / 10) cheaperYes cheaperNo ≤ averageSpread parse (1 / 10) yesBook noBook)
    (hdepth : minDepth parse cheaperYes cheaperNo = minDepth parse yesBook noBook) {feeRateBps : ℕ}
    {intendedSize : Decimal} (h : (c.calculate parse yesBook noBook feeRateBps intendedSize).isProfitable = true) :
    (c.calculate parse cheaperYes cheaperNo feeRateBps intendedSize).isProfitable = true := by
  obtain ⟨hfits, hmin, hcosts⟩ := isProfitable_iff.mp h
  have hslippage : slippageAtTop parse cheaperYes cheaperNo = slippageAtTop parse yesBook noBook := by
    rw [slippageAtTop, slippageAtTop, hdepth]
  have hmargin : c.partialFillMargin parse cheaperYes cheaperNo = c.partialFillMargin parse yesBook noBook := by
    rw [partialFillMargin, partialFillMargin, hdepth]
  have hfees := c.calculateFees_mono_cost feeRateBps hask
  have hpenalty : spreadPenalty parse cheaperYes cheaperNo ≤ spreadPenalty parse yesBook noBook := by
    rw [spreadPenalty_eq, spreadPenalty_eq]
    gcongr
  refine isProfitable_iff.mpr ⟨hdepth ▸ hfits, by linarith, ?_⟩
  rw [hslippage, hmargin]
  linarith

theorem combinedAsk_mono (hyes : (cheaperYes.bestAsk parse).getD 1 ≤ (yesBook.bestAsk parse).getD 1)
    (hno : (cheaperNo.bestAsk parse).getD 1 ≤ (noBook.bestAsk parse).getD 1) :
    combinedAsk parse cheaperYes cheaperNo ≤ combinedAsk parse yesBook noBook := add_le_add hyes hno

theorem averageSpread_mono {fallback : Decimal}
    (hyes : (cheaperYes.spread parse).getD fallback ≤ (yesBook.spread parse).getD fallback)
    (hno : (cheaperNo.spread parse).getD fallback ≤ (noBook.spread parse).getD fallback) :
    averageSpread parse fallback cheaperYes cheaperNo ≤ averageSpread parse fallback yesBook noBook :=
  div_le_div_of_nonneg_right (add_le_add hyes hno) zero_le_two

theorem isProfitable_of_cheaper_yes (hcheaper : cheaperYes.CheaperThan parse yesBook) {feeRateBps : ℕ}
    {intendedSize : Decimal} (h : (c.calculate parse yesBook noBook feeRateBps intendedSize).isProfitable = true) :
    (c.calculate parse cheaperYes noBook feeRateBps intendedSize).isProfitable = true := by
  refine isProfitable_of_cheaper ?_ ?_ ?_ h
  · exact combinedAsk_mono hcheaper.ask_le le_rfl
  · exact averageSpread_mono (hcheaper.spread_le _) le_rfl
  · rw [minDepth, minDepth, hcheaper.depth]

theorem isProfitable_of_cheaper_no (hcheaper : cheaperNo.CheaperThan parse noBook) {feeRateBps : ℕ}
    {intendedSize : Decimal} (h : (c.calculate parse yesBook noBook feeRateBps intendedSize).isProfitable = true) :
    (c.calculate parse yesBook cheaperNo feeRateBps intendedSize).isProfitable = true := by
  refine isProfitable_of_cheaper ?_ ?_ ?_ h
  · exact combinedAsk_mono le_rfl hcheaper.ask_le
  · exact averageSpread_mono le_rfl (hcheaper.spread_le _)
  · rw [minDepth, minDepth, hcheaper.depth]

end Cheaper

theorem isProfitable_of_lower_rate (hyes : yesBook.NonnegAsk parse) (hno : noBook.NonnegAsk parse) {lower rate : ℕ}
    (hle : lower ≤ rate) {intendedSize : Decimal}
    (h : (c.calculate parse yesBook noBook rate intendedSize).isProfitable = true) :
    (c.calculate parse yesBook noBook lower intendedSize).isProfitable = true := by
  obtain ⟨hfits, hmin, hcosts⟩ := isProfitable_iff.mp h
  have hcombined : 0 ≤ combinedAsk parse yesBook noBook := add_nonneg hyes.le_getD hno.le_getD
  have hfees := c.calculateFees_mono_rate hle hcombined
  exact isProfitable_iff.mpr ⟨hfits, hmin, by linarith⟩

/-- A size that fits brings no slippage of its own, so a smaller one costs the same. -/
theorem isProfitable_of_smaller_size {feeRateBps : ℕ} {smaller size : Decimal} (hle : smaller ≤ size)
    (h : (c.calculate parse yesBook noBook feeRateBps size).isProfitable = true) :
    (c.calculate parse yesBook noBook feeRateBps smaller).isProfitable = true := by
  obtain ⟨hfits, hmin, hcosts⟩ := isProfitable_iff.mp h
  exact isProfitable_iff.mpr ⟨hle.trans hfits, hmin, hcosts⟩

variable (parse c yesBook noBook)

/-- What is profitable stays so at a lower ask for either token, a lower fee and a smaller size. -/
theorem isProfitable_antitone (feeRateBps : ℕ) (intendedSize : Decimal) (hyes : yesBook.NonnegAsk parse)
    (hno : noBook.NonnegAsk parse)
    (h : (c.calculate parse yesBook noBook feeRateBps intendedSize).isProfitable = true) :
    (∀ cheaper : BookSnapshot, cheaper.CheaperThan parse yesBook →
        (c.calculate parse cheaper noBook feeRateBps intendedSize).isProfitable = true) ∧
      (∀ cheaper : BookSnapshot, cheaper.CheaperThan parse noBook →
        (c.calculate parse yesBook cheaper feeRateBps intendedSize).isProfitable = true) ∧
      (∀ lower ≤ feeRateBps, (c.calculate parse yesBook noBook lower intendedSize).isProfitable = true) ∧
      ∀ smaller ≤ intendedSize, (c.calculate parse yesBook noBook feeRateBps smaller).isProfitable = true := by
  refine ⟨fun cheaper hcheaper => ?_, fun cheaper hcheaper => ?_, fun lower hle => ?_, fun smaller hle => ?_⟩
  · exact isProfitable_of_cheaper_yes hcheaper h
  · exact isProfitable_of_cheaper_no hcheaper h
  · exact isProfitable_of_lower_rate hyes hno hle h
  · exact isProfitable_of_smaller_size hle h

private def parseCents (s : String) : Option Decimal := (General.DecimalText.ScaledDecimal.fromStr s).map (·.value)

private def bookAt (token ask : String) : BookSnapshot := ⟨token, "m", [⟨"0.33", "200"⟩], [⟨ask, "200"⟩], none, none⟩

private theorem nonnegAsk_bookAt {token ask : String} {price : Decimal} (h : parseCents ask = some price)
    (hprice : 0 ≤ price) : (bookAt token ask).NonnegAsk parseCents := by
  intro ask' hask
  have hbest : (bookAt token ask).bestAsk parseCents = some price := h
  rw [hbest, Option.some.injEq] at hask
  exact hask ▸ hprice

/-- At 0.40 and 0.50, with a fee of a percent and a hundred shares of each. -/
theorem profitable_below_ninety_cents :
    (taker.calculate parseCents (bookAt "yes" "0.35") (bookAt "no" "0.50") 100 100).isProfitable = true ∧
      (taker.calculate parseCents (bookAt "yes" "0.40") (bookAt "no" "0.50") 20 100).isProfitable = true ∧
      (taker.calculate parseCents (bookAt "yes" "0.40") (bookAt "no" "0.50") 100 5).isProfitable = true := by
  have hyes : parseCents "0.40" = some (40 / 100) := by decide +kernel
  have hno : parseCents "0.50" = some (50 / 100) := by decide +kernel
  have hlow : parseCents "0.35" = some (35 / 100) := by decide +kernel
  obtain ⟨hcheaper, -, hrate, hsize⟩ :=
    isProfitable_antitone parseCents taker (bookAt "yes" "0.40") (bookAt "no" "0.50") 100 100
      (nonnegAsk_bookAt hyes (by norm_num)) (nonnegAsk_bookAt hno (by norm_num)) (by decide +kernel)
  refine ⟨hcheaper _ ⟨rfl, rfl, 35 / 100, 40 / 100, hlow, hyes, by norm_num⟩, hrate 20 (by omega), ?_⟩
  exact hsize 5 (by norm_num)

variable {parse c yesBook noBook}

/-- A book without an ask counts as a dollar, which leaves no edge. -/
theorem bestAsk_isSome_of_isProfitable (hmin : 0 < c.minEdge) (hyes : yesBook.NonnegAsk parse)
    (hno : noBook.NonnegAsk parse) {feeRateBps : ℕ} {intendedSize : Decimal}
    (h : (c.calculate parse yesBook noBook feeRateBps intendedSize).isProfitable = true) :
    (∃ yesAsk, yesBook.bestAsk parse = some yesAsk) ∧ ∃ noAsk, noBook.bestAsk parse = some noAsk := by
  have hedge : c.minEdge ≤ 1 - ((yesBook.bestAsk parse).getD 1 + (noBook.bestAsk parse).getD 1) :=
    (isProfitable_iff.mp h).2.1
  constructor
  · cases hask : yesBook.bestAsk parse with
    | some yesAsk => exact ⟨yesAsk, rfl⟩
    | none =>
      rw [hask, Option.getD_none] at hedge
      linarith [hno.le_getD]
  · cases hask : noBook.bestAsk parse with
    | some noAsk => exact ⟨noAsk, rfl⟩
    | none =>
      rw [hask, Option.getD_none] at hedge
      linarith [hyes.le_getD]

/-- The quick check lets every profitable opportunity through, with the asks and the edge of the full calculation. -/
theorem quickCheck_of_isProfitable {books : OrderBookState} {yesToken noToken : TokenId}
    (hyesBook : books.getBook yesToken = some yesBook) (hnoBook : books.getBook noToken = some noBook)
    (hmin : 0 < c.minEdge) (hyes : yesBook.NonnegAsk parse) (hno : noBook.NonnegAsk parse) {feeRateBps : ℕ}
    {intendedSize : Decimal}
    (h : (c.calculate parse yesBook noBook feeRateBps intendedSize).isProfitable = true) :
    ∃ yesAsk noAsk, yesBook.bestAsk parse = some yesAsk ∧ noBook.bestAsk parse = some noAsk ∧
      c.quickCheck parse books yesToken noToken =
        some (yesAsk, noAsk, (c.calculate parse yesBook noBook feeRateBps intendedSize).actualEdge) := by
  obtain ⟨⟨yesAsk, hyesAsk⟩, noAsk, hnoAsk⟩ := bestAsk_isSome_of_isProfitable hmin hyes hno h
  have hedge : (c.calculate parse yesBook noBook feeRateBps intendedSize).actualEdge = 1 - (yesAsk + noAsk) := by
    rw [calculate, hyesAsk, hnoAsk]
    rfl
  have hleast : c.minEdge ≤ 1 - (yesAsk + noAsk) := by
    have hcombined := (isProfitable_iff.mp h).2.1
    rwa [combinedAsk, hyesAsk, hnoAsk] at hcombined
  refine ⟨yesAsk, noAsk, hyesAsk, hnoAsk, ?_⟩
  rw [quickCheck, OrderBookState.bestAsk_of_getBook parse hyesBook, OrderBookState.bestAsk_of_getBook parse hnoBook,
    hyesAsk, hnoAsk, hedge]
  dsimp only
  rw [if_neg (by linarith), if_neg (not_lt.mpr hleast)]

/-- The quick check passes the same two books with an edge of ten cents. -/
theorem quickCheck_ninety_cents :
    taker.quickCheck parseCents
        ((AList.insert "yes" (bookAt "yes" "0.40") ∅ : OrderBookState).insert "no" (bookAt "no" "0.50")) "yes" "no" =
      some (40 / 100, 50 / 100, 10 / 100) := by
  have hyes : parseCents "0.40" = some (40 / 100) := by decide +kernel
  have hno : parseCents "0.50" = some (50 / 100) := by decide +kernel
  have hyesBook : OrderBookState.getBook ((AList.insert "yes" (bookAt "yes" "0.40") ∅ : OrderBookState).insert "no"
      (bookAt "no" "0.50")) "yes" = some (bookAt "yes" "0.40") := by
    decide +kernel
  have hnoBook : OrderBookState.getBook ((AList.insert "yes" (bookAt "yes" "0.40") ∅ : OrderBookState).insert "no"
      (bookAt "no" "0.50")) "no" = some (bookAt "no" "0.50") := by
    decide +kernel
  have hprofitable : (taker.calculate parseCents (bookAt "yes" "0.40") (bookAt "no" "0.50") 100 100).isProfitable =
      true := by
    decide +kernel
  have hedge : (taker.calculate parseCents (bookAt "yes" "0.40") (bookAt "no" "0.50") 100 100).actualEdge =
      10 / 100 := by
    decide +kernel
  obtain ⟨yesAsk, noAsk, hyesAsk, hnoAsk, hquick⟩ :=
    quickCheck_of_isProfitable hyesBook hnoBook (by norm_num [taker, DEFAULT_MIN_EDGE])
      (nonnegAsk_bookAt hyes (by norm_num)) (nonnegAsk_bookAt hno (by norm_num)) hprofitable
  obtain rfl : 40 / 100 = yesAsk := Option.some.inj (hyes.symm.trans hyesAsk)
  obtain rfl : 50 / 100 = noAsk := Option.some.inj (hno.symm.trans hnoAsk)
  rw [hquick, hedge]

end EdgeConfig

end PolyBot
