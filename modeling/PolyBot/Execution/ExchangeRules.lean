import PolyBot.Execution.Quantizer
import Mathlib.Data.Int.GCD
import Mathlib.RingTheory.Coprime.Lemmas
import Mathlib.Tactic.FieldSimp

/-! The exchange's rules for the notional of an order: whole cents, and at least a dollar. -/

namespace PolyBot

def WholeCents (amount : Decimal) : Prop := ∃ cents : ℤ, amount = cents / 100

def MeetsExchangeRules (price size : Decimal) : Prop :=
  (1 ≤ price * size → WholeCents (price * quantizeSizeForUsdcPrecision price size) ∧
    1 ≤ price * quantizeSizeForUsdcPrecision price size) ∧
  1 ≤ price * quantizeSizeForUsdcPrecision price size

def dollarLots (price : Decimal) : ℤ := ⌈1 / (price * lotSize price)⌉

def wholeLots (price size : Decimal) : ℤ := ⌊size / lotSize price⌋

/-- The size is short of a dollar by no more than the one lot that is added. -/
def OneLotSuffices (price size : Decimal) : Prop := (dollarLots price - 1) * lotSize price ≤ size

/-- The lots that go into a size of a dollar or more cancel the fraction of a cent in `price`. -/
def LotsCancelSubCents (price size : Decimal) : Prop :=
  (price.den : ℤ) ∣ lotHundredths price * max (wholeLots price size) (dollarLots price)

instance (price size : Decimal) : Decidable (OneLotSuffices price size) := inferInstanceAs (Decidable (_ ≤ _))
instance (price size : Decimal) : Decidable (LotsCancelSubCents price size) := inferInstanceAs (Decidable (_ ∣ _))

theorem isInt_mul_iff (q : ℚ) (k : ℤ) : (∃ c : ℤ, q * k = c) ↔ (q.den : ℤ) ∣ k := by
  have hden : (q.den : ℚ) ≠ 0 := by exact_mod_cast q.den_ne_zero
  have hcoprime : IsCoprime (q.den : ℤ) q.num := by
    rw [Int.isCoprime_iff_gcd_eq_one, Int.gcd_comm]
    exact q.reduced
  constructor
  · rintro ⟨c, hc⟩
    refine hcoprime.dvd_of_dvd_mul_left ⟨c, ?_⟩
    rw [← Rat.num_div_den q] at hc
    field_simp at hc
    exact_mod_cast hc
  · rintro ⟨c, rfl⟩
    refine ⟨q.num * c, ?_⟩
    nth_rewrite 1 [← Rat.num_div_den q]
    push_cast
    field_simp

/-- A number of lots costs whole cents when it cancels the denominator of the price. -/
theorem wholeCents_lots_iff (price : Decimal) (n : ℤ) :
    WholeCents (price * (n * lotSize price)) ↔ (price.den : ℤ) ∣ lotHundredths price * n := by
  rw [← isInt_mul_iff]
  refine exists_congr fun c => ?_
  rw [lotSize]
  push_cast
  constructor
  · intro h
    linarith
  · intro h
    linarith

theorem dollar_le_lots_iff {price : Decimal} (hprice : 0 < price) (n : ℤ) :
    1 ≤ price * (n * lotSize price) ↔ dollarLots price ≤ n := by
  have hpos : 0 < price * lotSize price := mul_pos hprice (lotSize_pos price)
  rw [dollarLots, Int.ceil_le, div_le_iff₀ hpos, mul_left_comm]

/-- The submitted size in lots. -/
theorem quantize_eq_lots {price size : Decimal} (hprice : 0 < price) (hsize : 0 < size) :
    quantizeSizeForUsdcPrecision price size =
      ((if wholeLots price size < dollarLots price then wholeLots price size + 1 else wholeLots price size : ℤ) :
        Decimal) * lotSize price := by
  have hfloored : flooredSize price size = wholeLots price size * lotSize price := rfl
  rw [quantizeSizeForUsdcPrecision, if_neg (not_or.mpr ⟨hprice.ne', hsize.ne'⟩), hfloored]
  by_cases hshort : wholeLots price size < dollarLots price
  · rw [if_pos hshort, if_pos (not_le.mp fun h => hshort.not_ge ((dollar_le_lots_iff hprice _).mp h))]
    push_cast
    ring
  · rw [if_neg hshort, if_neg (not_lt.mpr ((dollar_le_lots_iff hprice _).mpr (not_lt.mp hshort)))]

theorem oneLotSuffices_iff (price size : Decimal) :
    OneLotSuffices price size ↔ dollarLots price ≤ wholeLots price size + 1 := by
  have hlot := lotSize_pos price
  rw [OneLotSuffices, ← le_div_iff₀ hlot, ← sub_le_iff_le_add, wholeLots, Int.le_floor]
  push_cast
  rfl

/-- One lot is enough for every size that is worth a dollar. -/
theorem oneLotSuffices_of_dollar {price size : Decimal} (hprice : 0 < price) (hdollar : 1 ≤ price * size) :
    OneLotSuffices price size := by
  have hlot := lotSize_pos price
  have hnext : 1 ≤ price * ((wholeLots price size + 1 : ℤ) * lotSize price) := by
    have hlt := lt_flooredSize_add price size
    have heq : ((wholeLots price size + 1 : ℤ) : Decimal) * lotSize price = flooredSize price size + lotSize price := by
      rw [flooredSize, wholeLots]
      push_cast
      ring
    rw [heq]
    exact hdollar.trans (mul_le_mul_of_nonneg_left hlt.le hprice.le)
  exact (oneLotSuffices_iff price size).mpr ((dollar_le_lots_iff hprice _).mp hnext)

theorem quantize_worth_dollar_iff {price size : Decimal} (hprice : 0 < price) (hsize : 0 < size) :
    1 ≤ price * quantizeSizeForUsdcPrecision price size ↔ OneLotSuffices price size := by
  rw [quantize_eq_lots hprice hsize, dollar_le_lots_iff hprice, oneLotSuffices_iff]
  split <;> omega

theorem quantize_wholeCents_iff {price size : Decimal} (hprice : 0 < price) (hsize : 0 < size)
    (hsuffices : OneLotSuffices price size) :
    WholeCents (price * quantizeSizeForUsdcPrecision price size) ↔ LotsCancelSubCents price size := by
  have hlots : (if wholeLots price size < dollarLots price then wholeLots price size + 1 else wholeLots price size) =
      max (wholeLots price size) (dollarLots price) := by
    rw [oneLotSuffices_iff] at hsuffices
    split <;> omega
  rw [quantize_eq_lots hprice hsize, hlots, wholeCents_lots_iff, LotsCancelSubCents]

/-- The rules are met exactly when one lot makes up what is missing to a dollar and, for a size worth a dollar, the
lots cancel the fraction of a cent in the price. -/
theorem meetsExchangeRules_iff {price size : Decimal} (hprice : 0 < price) (hsize : 0 < size) :
    MeetsExchangeRules price size ↔
      OneLotSuffices price size ∧ (1 ≤ price * size → LotsCancelSubCents price size) := by
  rw [MeetsExchangeRules, quantize_worth_dollar_iff hprice hsize, and_comm]
  refine and_congr_right fun hsuffices => ?_
  rw [quantize_wholeCents_iff hprice hsize hsuffices]
  exact forall_congr' fun _ => and_iff_left hsuffices

theorem half_dollar_meets_rules : MeetsExchangeRules (1 / 2) (555 / 100) :=
  (meetsExchangeRules_iff (by norm_num) (by norm_num)).mpr (by decide +kernel)

/-- Five shares at a cent are sent as six cents' worth, and five at 50.5 cents as two dollars 52 and a half cents. -/
theorem rules_broken : ¬MeetsExchangeRules (1 / 100) 5 ∧ ¬MeetsExchangeRules (505 / 1000) 5 := by
  constructor
  · intro h
    have hsent : quantizeSizeForUsdcPrecision (1 / 100) 5 = 6 := by decide +kernel
    have hworth := h.2
    rw [hsent] at hworth
    norm_num at hworth
  · intro h
    have hsent : quantizeSizeForUsdcPrecision (505 / 1000) 5 = 5 := by decide +kernel
    obtain ⟨c, hc⟩ := (h.1 (by norm_num)).1
    rw [hsent] at hc
    have htwice : ((2 * c : ℤ) : Decimal) = (505 : ℤ) := by
      push_cast
      linarith
    have hint : 2 * c = 505 := by exact_mod_cast htwice
    omega

theorem priceCents_of_wholeCents {c : ℤ} (hpos : 0 < c) :
    priceCents (c / 100) = if c < 2 ^ 63 then c.toNat else 1 := by
  have hmul : (c : Decimal) / 100 * 100 = c := div_mul_cancel₀ _ (by norm_num)
  have hround : Decimal.round ((c : Decimal) / 100 * 100) = c := by
    rw [hmul, Decimal.round, Int.floor_intCast, sub_self, if_pos (by norm_num)]
  simp only [priceCents, hround]
  split <;> split <;> omega

/-- A price in whole cents has no fraction of a cent to cancel. -/
theorem lotsCancelSubCents_of_wholeCents {price : Decimal} (hprice : 0 < price) (hcents : WholeCents price)
    (size : Decimal) : LotsCancelSubCents price size := by
  obtain ⟨c, rfl⟩ := hcents
  have hpos : 0 < c := by
    have h : (0 : Decimal) < c := by linarith
    exact_mod_cast h
  have hprices := priceCents_of_wholeCents hpos
  obtain ⟨g, hg⟩ : ∃ g, g = Nat.gcd (priceCents (c / 100)) 100 := ⟨_, rfl⟩
  obtain ⟨k, hk⟩ : g ∣ 100 := hg ▸ Nat.gcd_dvd_right _ _
  have hgpos : 0 < g := Nat.pos_of_ne_zero (by rintro rfl; omega)
  have hlots : lotHundredths (c / 100) = k := by
    rw [lotHundredths, gcdU64_eq_gcd, ← hg, hk, Nat.mul_div_cancel_left k hgpos]
  obtain ⟨m, hm⟩ : (g : ℤ) ∣ c := by
    split at hprices
    · have hdvd : g ∣ c.toNat := hprices ▸ hg ▸ Nat.gcd_dvd_left _ _
      rwa [← Int.natCast_dvd_natCast, Int.toNat_of_nonneg hpos.le] at hdvd
    · rw [hprices, Nat.gcd_one_left] at hg
      exact hg ▸ one_dvd c
  have hcents : ((c : ℤ) : Decimal) / 100 * ((lotHundredths (c / 100) : ℤ) : Decimal) = m := by
    have hhundred : (100 : Decimal) = g * k := by exact_mod_cast hk
    have hg0 : (g : Decimal) ≠ 0 := by exact_mod_cast hgpos.ne'
    have hk0 : (k : Decimal) ≠ 0 := by
      rintro h
      rw [h, mul_zero] at hhundred
      norm_num at hhundred
    rw [hlots, hm, hhundred]
    push_cast
    field_simp
  exact dvd_mul_of_dvd_left ((isInt_mul_iff _ _).mp ⟨m, hcents⟩) _

end PolyBot
