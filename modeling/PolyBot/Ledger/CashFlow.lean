import PolyBot.General.AdditiveRuns
import PolyBot.Ledger.PositionIdentity
import PolyBot.Ledger.Runs

/-! What a fill does to the cash total. A purchase is drawn from the reserved cell alone, so it is paid
in full only when its notional was reserved. -/

namespace PolyBot.Ledger.CashFlow
open General.AdditiveRuns PositionIdentity

/-- The cash a fill is worth: its notional with the sign of the side, less its fee. -/
def cashFlow (f : Fill) : Decimal :=
  match f.side with
  | .Buy => -f.notional - f.fee
  | .Sell => f.notional - f.fee

def Covered (cash : CashBalance) (f : Fill) : Prop := f.side = .Sell ∨ f.notional ≤ cash.reserved

structure WellFormed (f : Fill) : Prop where
  price_pos : 0 < f.price
  size_pos : 0 < f.size
  fee_nonneg : 0 ≤ f.fee

theorem WellFormed.notional_pos {f : Fill} (h : WellFormed f) : 0 < f.notional := mul_pos h.price_pos h.size_pos

theorem total_settle_iff {cash : CashBalance} {f : Fill} (h : WellFormed f) :
    (settle cash f).total = cash.total + cashFlow f ↔ Covered cash f := by
  cases hside : f.side with
  | Sell =>
    simp only [settle, cashFlow, Covered, hside, true_or, iff_true]
    rw [CashBalance.total_deductFee, CashBalance.total_settleSell, max_eq_left h.fee_nonneg,
      max_eq_left h.notional_pos.le]
    ring
  | Buy =>
    simp only [settle, cashFlow, Covered, hside, reduceCtorEq, false_or]
    rw [CashBalance.total_deductFee, max_eq_left h.fee_nonneg, ← CashBalance.total_settleBuy_iff h.notional_pos]
    constructor <;> intro heq <;> linarith

theorem total_book_iff (l : Ledger) {f : Fill} (h : WellFormed f) :
    (l.book f).cash.total = l.cash.total + cashFlow f ↔ Covered l.cash f :=
  total_settle_iff (f := l.resolve f) ⟨h.price_pos, h.size_pos, h.fee_nonneg⟩

def stepFlow (l : Ledger) (op : LedgerOp) : Decimal := ((accepted l op).map cashFlow).sum

def StepCovered (l : Ledger) (op : LedgerOp) : Prop := ∀ f ∈ accepted l op, Covered l.cash f

theorem total_apply_iff (l : Ledger) {op : LedgerOp} (hinside : op.movesCashIn = false)
    (hfills : ∀ f, op.fill? = some f → WellFormed f) :
    (op.apply l).cash.total = l.cash.total + stepFlow l op ↔ StepCovered l op := by
  cases hop : op.fill? with
  | none =>
    simp [stepFlow, StepCovered, accepted_of_fill?_none hop, total_apply hinside hop]
  | some f =>
    cases op with
    | processFill g =>
      cases hop
      by_cases hseen : f.fillId ∈ l.seenFillIds
      · simp [stepFlow, StepCovered, accepted, hseen, LedgerOp.apply, processFill_of_seen hseen]
      · have hflow : cashFlow (l.resolve f) = cashFlow f := rfl
        have hcovered : Covered l.cash (l.resolve f) = Covered l.cash f := rfl
        simp only [stepFlow, StepCovered, accepted, if_neg hseen, LedgerOp.apply, processFill_of_new hseen,
          List.map_singleton, List.sum_singleton, List.mem_singleton, forall_eq, hflow, hcovered]
        exact total_book_iff l (hfills f rfl)
    | _ => cases hop

private theorem total_stepFlow (l : Ledger) (ops : List LedgerOp) :
    total LedgerOp.apply stepFlow l ops = ((acceptedFills l ops).map cashFlow).sum := by
  induction ops generalizing l with
  | nil => rfl
  | cons op ops ih => rw [total, ih, acceptedFills, List.map_append, List.sum_append, stepFlow]

/-- The sum of what every fill is worth, side by side: a purchase costs, a sale brings in, and both are charged. -/
theorem sum_by_side {worth bought sold charged : Fill → Decimal}
    (hworth : ∀ f, worth f = (match f.side with | .Buy => -bought f | .Sell => sold f) - charged f)
    (fills : List Fill) :
    (fills.map worth).sum = -((fills.filter (·.side = .Buy)).map bought).sum +
      ((fills.filter (·.side = .Sell)).map sold).sum - (fills.map charged).sum := by
  induction fills with
  | nil => simp
  | cons f fills ih =>
    rw [List.map_cons, List.sum_cons, ih, hworth, List.map_cons, List.sum_cons]
    cases hside : f.side with
    | Buy | Sell =>
      simp only [hside, List.filter_cons, decide_true, reduceCtorEq, decide_false, Bool.false_eq_true, if_true,
        if_false, List.map_cons, List.sum_cons]
      ring

theorem sum_cashFlow (fills : List Fill) :
    (fills.map cashFlow).sum =
      -notionalOn .Buy fills + notionalOn .Sell fills - (fills.map fun f => f.fee).sum := by
  refine sum_by_side (fun f => ?_) fills
  unfold cashFlow
  cases f.side <;> rfl

def expectedTotal (initialCash : Decimal) (ops : List LedgerOp) : Decimal :=
  let fills := acceptedFills (Ledger.new initialCash) ops
  initialCash - notionalOn .Buy fills + notionalOn .Sell fills - (fills.map fun f => f.fee).sum

private theorem expectedTotal_eq (initialCash : Decimal) (ops : List LedgerOp) :
    expectedTotal initialCash ops =
      (Ledger.new initialCash).cash.total + total LedgerOp.apply stepFlow (Ledger.new initialCash) ops := by
  rw [total_stepFlow, sum_cashFlow]
  simp only [expectedTotal, Ledger.new, CashBalance.new, CashBalance.total]
  ring

/-- In any ledger a fill with a new id moves the cash total by its cash flow exactly when it sells or its
notional was reserved. In a run without deposits, withdrawals and syncs the total is the initial cash with
every accepted fill counted, after each of its steps, exactly when every purchase it accepts was reserved
when it arrived. -/
theorem cash_follows_fills_iff (l : Ledger) (f : Fill) (hnew : f.fillId ∉ l.seenFillIds) (hf : WellFormed f)
    (initialCash : Decimal) (ops : List LedgerOp) (hinside : ∀ op ∈ ops, op.movesCashIn = false)
    (hfills : ∀ op ∈ ops, ∀ g, op.fill? = some g → WellFormed g) :
    ((l.processFill f).cash.total = l.cash.total + cashFlow f ↔ f.side = .Sell ∨ f.notional ≤ l.cash.reserved) ∧
      ((∀ p, p <+: ops → (run (Ledger.new initialCash) p).cash.total = expectedTotal initialCash p) ↔
        Throughout LedgerOp.apply StepCovered (Ledger.new initialCash) ops) := by
  refine ⟨?_, ?_⟩
  · rw [processFill_of_new hnew]
    exact total_book_iff l hf
  · have hsteps : Throughout LedgerOp.apply
        (fun l op => (op.apply l).cash.total = l.cash.total + stepFlow l op ↔ StepCovered l op)
        (Ledger.new initialCash) ops :=
      .of_forall_mem fun l op hop => total_apply_iff l (hinside op hop) (hfills op hop)
    simp only [expectedTotal_eq]
    exact prefixes_exact_iff (fun l : Ledger => l.cash.total) hsteps

private def purchase : Fill := ⟨"f1", "o1", "yes", .Buy, 1 / 2, 100, 0, none, 0⟩

private theorem purchase_wellFormed : WellFormed purchase := ⟨by decide +kernel, by decide +kernel, by decide +kernel⟩

/-- A purchase reserved beforehand is paid in full. -/
theorem reserved_purchase_follows :
    (run (Ledger.new 1000) [.reserve 50, .processFill purchase]).cash.total =
      expectedTotal 1000 [.reserve 50, .processFill purchase] := by
  refine (cash_follows_fills_iff (Ledger.new 1000) purchase (by simp [Ledger.new]) purchase_wellFormed 1000
    [.reserve 50, .processFill purchase] ?_ ?_).2.mpr ?_ _ (List.prefix_refl _)
  · intro op hop
    simp only [List.mem_cons, List.not_mem_nil, or_false] at hop
    rcases hop with rfl | rfl <;> rfl
  · intro op hop g hg
    simp only [List.mem_cons, List.not_mem_nil, or_false] at hop
    rcases hop with rfl | rfl
    · cases hg
    · cases hg
      exact purchase_wellFormed
  · refine ⟨by simp [StepCovered, accepted], ?_, trivial⟩
    intro g hg
    right
    have hgf : g.notional = 50 := by
      have hmem : g ∈ [(LedgerOp.apply (Ledger.new 1000) (.reserve 50)).resolve purchase] := hg
      rw [List.mem_singleton.mp hmem]
      decide +kernel
    rw [hgf]
    decide +kernel

/-- A hundred shares bought at one half with nothing reserved leave the cash untouched. -/
theorem unreserved_purchase_is_free :
    purchase.fillId ∉ (Ledger.new 1000).seenFillIds ∧ WellFormed purchase ∧ purchase.side = .Buy ∧
      ((Ledger.new 1000).processFill purchase).cash.total ≠
        (Ledger.new 1000).cash.total - purchase.price * purchase.size - purchase.fee := by
  refine ⟨by simp [Ledger.new], purchase_wellFormed, rfl, by decide +kernel⟩

end PolyBot.Ledger.CashFlow
