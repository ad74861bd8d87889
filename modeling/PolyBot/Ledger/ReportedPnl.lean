import PolyBot.Ledger.CashFlow
import PolyBot.Ledger.CashRuns
import PolyBot.Ledger.MarkToMarket

/-! The profit that the API reports, and the books: the cash, what the open positions cost, and what the fills were
charged. -/

namespace PolyBot
open General.KeyedStore General.AdditiveRuns

namespace Positions

def totalFees (ps : Positions) : Decimal := ((values ps).map (·.totalFees)).sum
def totalSlippageCost (ps : Positions) : Decimal := ((values ps).map (·.totalSlippageCost)).sum

def openCost (ps : Positions) : Decimal := ((values ps).map fun p => p.shares * p.avgCost).sum

end Positions

namespace Ledger.ReportedPnl
open CashFlow MarkToMarket PositionIdentity

structure PnlInfo where
  realized : Decimal
  unrealized : Decimal
  total : Decimal
  totalFees : Decimal
  totalSlippageCost : Decimal
  net : Decimal

def pnlInfo (l : Ledger) : PnlInfo :=
  let realized := l.positions.totalRealizedPnl
  let unrealized := l.positions.totalUnrealizedPnl
  let fees := l.positions.totalFees
  let slippage := l.positions.totalSlippageCost
  let total := realized + unrealized
  ⟨realized, unrealized, total, fees, slippage, total - fees - slippage⟩

section Sums
variable {g : Position → Decimal} {worth : Fill → Decimal}

def sumOf (g : Position → Decimal) (ps : Positions) : Decimal := ((values ps).map g).sum

theorem sumOf_applyFill (hnew : ∀ t, g (Position.new t) = 0) (hfill : ∀ p f, g (p.applyFill f) = g p + worth f)
    (ps : Positions) (f : Fill) : sumOf g (ps.applyFill f) = sumOf g ps + worth f := by
  have hold : ((ps.lookup f.tokenId).map g).getD 0 = g (ps.get f.tokenId) := by
    rw [Positions.get]
    cases ps.lookup f.tokenId with
    | none => exact (hnew f.tokenId).symm
    | some p => rfl
  rw [sumOf, Positions.applyFill, sum_values_insert, hold, hfill, sumOf]
  ring

theorem sumOf_markAllToMarket (hmark : ∀ p price, g (p.markToMarket price) = g p) (ps : Positions)
    (prices : List (TokenId × Decimal)) : sumOf g (ps.markAllToMarket prices) = sumOf g ps := by
  rw [Positions.markAllToMarket]
  induction prices generalizing ps with
  | nil => rfl
  | cons tp prices ih => exact (ih _).trans (sum_values_modify g (fun p => hmark p tp.2) tp.1 ps)

theorem sumOf_forceClose (ps : Positions) (t : TokenId) :
    sumOf g (ps.forceClose t) = sumOf g ps + (((ps.lookup t).map fun p => g p.forceClose - g p).getD 0) := by
  rw [sumOf, Positions.forceClose, General.KeyedStore.modify]
  cases hlookup : ps.lookup t with
  | none => exact (add_zero _).symm
  | some p =>
    dsimp only
    rw [sum_values_insert, hlookup, sumOf, Option.map_some, Option.getD_some, Option.map_some, Option.getD_some]
    ring

def closedBy (g : Position → Decimal) (l : Ledger) : LedgerOp → Decimal
  | .forceClose t => ((l.positions.lookup t).map fun p => g p.forceClose - g p).getD 0
  | _ => 0

theorem closedBy_of_ne {l : Ledger} {op : LedgerOp} (h : ∀ t, op ≠ .forceClose t) : closedBy g l op = 0 := by
  unfold closedBy
  split
  · exact absurd rfl (h _)
  · rfl

/-- A share of the positions that fills add to and marking passes leave changes by what the accepted fill is worth, and
by what a position had of it that is closed by force. -/
theorem sumOf_apply (hnew : ∀ t, g (Position.new t) = 0) (hfill : ∀ p f, g (p.applyFill f) = g p + worth f)
    (hmark : ∀ p price, g (p.markToMarket price) = g p) (l : Ledger) (op : LedgerOp) :
    sumOf g (op.apply l).positions = sumOf g l.positions + ((accepted l op).map worth).sum + closedBy g l op := by
  cases op with
  | processFill f =>
    by_cases hseen : f.fillId ∈ l.seenFillIds
    · simp [LedgerOp.apply, processFill_of_seen hseen, accepted, hseen, closedBy]
    · have hbook : ((LedgerOp.processFill f).apply l).positions = l.positions.applyFill (l.resolve f) := by
        rw [LedgerOp.apply, processFill_of_new hseen, book]
      rw [hbook, sumOf_applyFill hnew hfill]
      simp [accepted, hseen, closedBy]
  | linkOrderId localId orderId now | transition localId newState now | applyOrderFill localId fillSize now =>
    dsimp only [LedgerOp.apply]
    split <;> simp [accepted, closedBy]
  | applyServerCancel orderId now =>
    simp [LedgerOp.apply, positions_applyServerCancel, accepted, closedBy]
  | markAllToMarket prices =>
    rw [LedgerOp.apply, sumOf_markAllToMarket hmark]
    simp [accepted, closedBy]
  | forceClose t =>
    rw [LedgerOp.apply, sumOf_forceClose]
    simp [accepted, closedBy]
  | _ => simp [LedgerOp.apply, accepted, syncCash, closedBy]

/-- What nothing but fills changes, over a run. -/
theorem sumOf_run (hnew : ∀ t, g (Position.new t) = 0) (hfill : ∀ p f, g (p.applyFill f) = g p + worth f)
    (hmark : ∀ p price, g (p.markToMarket price) = g p) (hclose : ∀ p, g p.forceClose = g p) (l : Ledger)
    (ops : List LedgerOp) :
    sumOf g (run l ops).positions = sumOf g l.positions + ((acceptedFills l ops).map worth).sum := by
  induction ops generalizing l with
  | nil => exact (add_zero _).symm
  | cons op ops ih =>
    have hkept : closedBy g l op = 0 := by
      unfold closedBy
      split
      · cases l.positions.lookup _ <;> simp [hclose]
      · rfl
    have hstep := sumOf_apply hnew hfill hmark l op
    rw [hkept, add_zero] at hstep
    rw [acceptedFills, List.map_append, List.sum_append, ← add_assoc, ← hstep]
    exact ih (op.apply l)

end Sums

def booked (p : Position) : Decimal := settled p - p.totalFees

theorem booked_applyFill (p : Position) (f : Fill) : booked (p.applyFill f) = booked p + cashFlow f := by
  rw [booked, settled_applyFill, (costs_applyFill p f).1, booked, cashFlow, Fill.signedSize, Fill.notional]
  cases f.side <;> ring

theorem booked_markToMarket (p : Position) (price : Decimal) : booked (p.markToMarket price) = booked p := by
  rw [Position.markToMarket]
  split <;> rfl

/-- The cash less what the fills left of it. -/
def imbalance (l : Ledger) : Decimal := l.cash.total - sumOf booked l.positions

/-- The reported net profit is what the cash grew by, the cost of the open positions and their unrealized profit, less
the slippage, which the prices of the fills already have in them. -/
def Reconciles (initialCash : Decimal) (l : Ledger) : Prop :=
  (pnlInfo l).net = l.cash.total - initialCash + l.positions.openCost + (pnlInfo l).unrealized -
    (pnlInfo l).totalSlippageCost

theorem reconciles_iff {initialCash : Decimal} {l : Ledger} : Reconciles initialCash l ↔ imbalance l = initialCash := by
  have hbooked : l.positions.totalRealizedPnl =
      sumOf booked l.positions + l.positions.openCost + l.positions.totalFees := by
    rw [sumOf, Positions.openCost, Positions.totalFees, ← List.sum_map_add, ← List.sum_map_add,
      Positions.totalRealizedPnl]
    refine congrArg List.sum (List.map_congr_left fun p _ => ?_)
    simp only [booked, settled]
    ring
  rw [Reconciles, imbalance]
  dsimp only [pnlInfo]
  rw [hbooked]
  constructor <;> intro h <;> linarith

theorem imbalance_new (initialCash : Decimal) : imbalance (.new initialCash) = initialCash := by
  simp [imbalance, sumOf, Ledger.new, CashBalance.new, CashBalance.total, values, Positions.new]

/-- The operations that keep the books. A purchase must find its notional reserved, a position that is closed by force
must have cost nothing, and cash from outside must change nothing. -/
def KeepsBooks (l : Ledger) : LedgerOp → Prop
  | .processFill f => f.fillId ∈ l.seenFillIds ∨ Covered l.cash f
  | .forceClose t => (l.positions.get t).shares * (l.positions.get t).avgCost = 0
  | .deposit amount => amount ≤ 0
  | .withdraw amount => amount ≤ 0 ∨ l.cash.available < amount
  | .syncCash balance => balance = l.cash.total
  | .syncFromExchange exchangeTotal threshold =>
    let drift := max (exchangeTotal - l.cash.reserved) 0 - l.cash.available
    drift = 0 ∨ |drift| ≤ threshold
  | _ => True

theorem keepsBooks_iff_stepCovered {l : Ledger} {op : LedgerOp} (hinside : op.movesCashIn = false)
    (hclose : ∀ t, op ≠ .forceClose t) : KeepsBooks l op ↔ StepCovered l op := by
  cases op with
  | processFill f =>
    by_cases hseen : f.fillId ∈ l.seenFillIds
    · simp [KeepsBooks, StepCovered, accepted, hseen]
    · have hresolve : Covered l.cash (l.resolve f) ↔ Covered l.cash f := Iff.rfl
      simp [KeepsBooks, StepCovered, accepted, hseen, hresolve]
  | forceClose t => exact absurd rfl (hclose t)
  | deposit | withdraw | syncCash | syncFromExchange => cases hinside
  | _ => simp [KeepsBooks, StepCovered, accepted]

theorem closedBy_booked (l : Ledger) (t : TokenId) :
    closedBy booked l (.forceClose t) = (l.positions.get t).shares * (l.positions.get t).avgCost := by
  rw [closedBy, Positions.get]
  cases l.positions.lookup t with
  | none => simp [Position.new]
  | some p =>
    simp only [Option.map_some, Option.getD_some, booked, settled, Position.forceClose]
    ring

theorem imbalance_apply (l : Ledger) (op : LedgerOp) :
    imbalance (op.apply l) =
      imbalance l + ((op.apply l).cash.total - (l.cash.total + stepFlow l op)) - closedBy booked l op := by
  have hsum := sumOf_apply (fun _ => by simp [booked, settled, Position.new]) booked_applyFill booked_markToMarket l op
  rw [imbalance, hsum, imbalance, stepFlow]
  ring

/-- Cash from outside comes without fills. -/
theorem imbalance_of_outside {l : Ledger} {op : LedgerOp} (h : op.movesCashIn = true) :
    imbalance (op.apply l) = imbalance l ↔ (op.apply l).cash.total = l.cash.total := by
  rw [imbalance_apply]
  cases op with
  | deposit | withdraw | syncCash | syncFromExchange =>
    simp only [stepFlow, accepted, List.map_nil, List.sum_nil, closedBy]
    constructor <;> intro h <;> linarith
  | _ => cases h

theorem total_deposit_iff {c : CashBalance} {amount : Decimal} :
    (c.deposit amount).total = c.total ↔ amount ≤ 0 := by
  rw [CashBalance.deposit]
  split
  · rename_i hnone
    exact iff_of_true rfl hnone
  · rename_i hsome
    refine iff_of_false (fun h => hsome ?_) hsome
    simp only [CashBalance.total] at h
    linarith

theorem total_withdraw_iff {c : CashBalance} {amount : Decimal} :
    (c.discard (c.withdraw amount)).total = c.total ↔ amount ≤ 0 ∨ c.available < amount := by
  rw [CashBalance.withdraw]
  split
  · rename_i hnone
    exact iff_of_true rfl (.inl hnone)
  · rename_i hsome
    split
    · rename_i hpoor
      exact iff_of_true rfl (.inr hpoor)
    · rename_i hpays
      refine iff_of_false (fun h => hsome ?_) (not_or.mpr ⟨hsome, hpays⟩)
      simp only [CashBalance.discard, CashBalance.total] at h
      linarith

theorem total_syncFromExchange_iff {c : CashBalance} {exchangeTotal threshold : Decimal} :
    (c.syncFromExchange exchangeTotal threshold).2.total = c.total ↔
      max (exchangeTotal - c.reserved) 0 - c.available = 0 ∨
        |max (exchangeTotal - c.reserved) 0 - c.available| ≤ threshold := by
  simp only [CashBalance.syncFromExchange]
  split
  · rename_i hdrift
    rw [or_iff_left (not_le.mpr hdrift)]
    simp only [CashBalance.total]
    constructor <;> intro h <;> linarith
  · rename_i hnone
    exact iff_of_true rfl (.inr (not_lt.mp hnone))

theorem imbalance_apply_iff {l : Ledger} {op : LedgerOp} (hfills : ∀ f, op.fill? = some f → WellFormed f) :
    imbalance (op.apply l) = imbalance l ↔ KeepsBooks l op := by
  cases op with
  | deposit amount => exact (imbalance_of_outside rfl).trans total_deposit_iff
  | withdraw amount => exact (imbalance_of_outside rfl).trans total_withdraw_iff
  | syncCash balance =>
    rw [imbalance_of_outside rfl, LedgerOp.apply, KeepsBooks, syncCash, CashBalance.reset, CashBalance.total, add_zero]
  | syncFromExchange exchangeTotal threshold => exact (imbalance_of_outside rfl).trans total_syncFromExchange_iff
  | forceClose t =>
    rw [imbalance_apply, closedBy_booked, KeepsBooks]
    simp only [LedgerOp.apply, stepFlow, accepted, List.map_nil, List.sum_nil]
    constructor <;> intro h <;> linarith
  | _ =>
    rw [imbalance_apply, closedBy_of_ne (fun _ h => by cases h), keepsBooks_iff_stepCovered rfl (fun _ h => by cases h),
      ← total_apply_iff l rfl hfills]
    constructor <;> intro h <;> linarith

/-- Marking leaves the running fees and the slippage. -/
theorem costs_markToMarket (p : Position) (price : Decimal) :
    (p.markToMarket price).totalFees = p.totalFees ∧
      (p.markToMarket price).totalSlippageCost = p.totalSlippageCost := by
  rw [Position.markToMarket]
  split <;> exact ⟨rfl, rfl⟩

/-- The fees and the slippage that the positions report are those of the fills accepted. -/
theorem costs_run (initialCash : Decimal) (ops : List LedgerOp) :
    (pnlInfo (run (.new initialCash) ops)).totalFees =
        ((acceptedFills (.new initialCash) ops).map (·.fee)).sum ∧
      (pnlInfo (run (.new initialCash) ops)).totalSlippageCost =
        ((acceptedFills (.new initialCash) ops).map (·.slippageCost)).sum := by
  have hfees := sumOf_run (g := (·.totalFees)) (fun _ => rfl) (fun p f => (costs_applyFill p f).1)
    (fun p price => (costs_markToMarket p price).1) (fun _ => rfl) (.new initialCash) ops
  have hslippage := sumOf_run (g := (·.totalSlippageCost)) (fun _ => rfl) (fun p f => (costs_applyFill p f).2.1)
    (fun p price => (costs_markToMarket p price).2) (fun _ => rfl) (.new initialCash) ops
  exact ⟨hfees.trans (zero_add _), hslippage.trans (zero_add _)⟩

/-- Over every run of the ledger's operations the reported fees and slippage are those of the fills accepted, and after
each of its steps the reported net profit is that of the books less the slippage exactly if every step keeps the
books. -/
theorem net_reconciles_iff (initialCash : Decimal) (ops : List LedgerOp)
    (hfills : ∀ op ∈ ops, ∀ f, op.fill? = some f → WellFormed f) :
    (∀ p, p <+: ops → (pnlInfo (run (.new initialCash) p)).totalFees =
        ((acceptedFills (.new initialCash) p).map (·.fee)).sum ∧
      (pnlInfo (run (.new initialCash) p)).totalSlippageCost =
        ((acceptedFills (.new initialCash) p).map (·.slippageCost)).sum) ∧
    ((∀ p, p <+: ops → Reconciles initialCash (run (.new initialCash) p)) ↔
      Throughout LedgerOp.apply KeepsBooks (.new initialCash) ops) := by
  refine ⟨fun p _ => costs_run initialCash p, ?_⟩
  have hstart := imbalance_new initialCash
  have hprefixes : (∀ p, p <+: ops → Reconciles initialCash (run (.new initialCash) p)) ↔
      Throughout LedgerOp.apply (fun l op => imbalance (op.apply l) = initialCash) (.new initialCash) ops := by
    have hall : (∀ p, p <+: ops → imbalance (p.foldl LedgerOp.apply (.new initialCash)) = initialCash) ↔ _ :=
      forall_prefix_iff (Q := fun l => imbalance l = initialCash)
    rw [and_iff_right hstart] at hall
    exact (forall₂_congr fun _ _ => reconciles_iff).trans hall
  have hok : Throughout LedgerOp.apply (fun _ op => ∀ f, op.fill? = some f → WellFormed f) (.new initialCash) ops :=
    .of_forall_mem fun _ op hop => hfills op hop
  rw [hprefixes]
  refine throughout_congr_of (fun l => imbalance l = initialCash) (fun _ _ _ _ h => h) (fun l op hbooks hwell => ?_)
    hstart hok
  rw [← imbalance_apply_iff hwell, hbooks]

private def bought : Fill := ⟨"f1", "o1", "yes", .Buy, 1 / 2, 100, 1, some (12 / 25), 0⟩

private theorem bought_wellFormed : WellFormed bought := ⟨by decide +kernel, by decide +kernel, by decide +kernel⟩

private def reservedPurchase : List LedgerOp := [.reserve 50, .processFill bought, .markAllToMarket [("yes", 3 / 5)]]

/-- A hundred shares bought at 0.50 for a limit of 0.48, with a fee of 1, and marked at 0.60: the cash and the shares
are worth 9 more than before, and a net profit of 7 is reported. -/
theorem reserved_purchase_reconciles :
    Reconciles 1000 (run (.new 1000) reservedPurchase) ∧ (pnlInfo (run (.new 1000) reservedPurchase)).net = 7 := by
  have hall := net_reconciles_iff 1000 reservedPurchase (by
    intro op hop f hf
    simp only [reservedPurchase, List.mem_cons, List.not_mem_nil, or_false] at hop
    rcases hop with rfl | rfl | rfl
    · cases hf
    · cases hf
      exact bought_wellFormed
    · cases hf)
  have hkeeps : Throughout LedgerOp.apply KeepsBooks (.new 1000) reservedPurchase :=
    ⟨trivial, .inr (.inr (by decide +kernel)), trivial, trivial⟩
  exact ⟨hall.2.mpr hkeeps _ (List.prefix_refl _), by decide +kernel⟩

end Ledger.ReportedPnl

end PolyBot
