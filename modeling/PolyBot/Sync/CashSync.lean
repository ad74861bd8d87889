import PolyBot.General.AdditiveRuns
import PolyBot.Ledger.Runs

/-! The cash sync: a balance that the exchange computes, travels, and is applied to a ledger that has moved on. -/

namespace PolyBot.Sync
open Ledger General.AdditiveRuns

/-- Drift up to a cent is left alone. -/
def threshold : Decimal := 1 / 100

/-- The balance is in raw units of six decimals. -/
def exchangeTotal (balance : Decimal) : Decimal := balance / 1000000

def syncCash (l : Ledger) (balance : Decimal) : Ledger :=
  (LedgerOp.syncFromExchange (exchangeTotal balance) threshold).apply l

namespace CashSync

/-- The sync task waits for one answer at a time. -/
inductive Event where
  | balanceComputed (balance : Decimal)
  | exchangeExecutes (fillId : String)
  | ledgerOp (op : LedgerOp)
  | answerApplied
  | requestFailed

/-- `executed` lists the fills the exchange has executed since it computed the answer that is under way; `late` is
what those of them that the ledger has processed changed in its total. -/
structure State where
  ledger : Ledger
  answer : Option Decimal
  executed : List String
  late : List Decimal

namespace State

def start (l : Ledger) : State := ⟨l, none, [], []⟩

/-- The fill of an operation that the exchange executed after it computed the answer, if the ledger accepts it. -/
def isLate (s : State) (op : LedgerOp) : Bool :=
  match op.fill? with
  | some f => f.fillId ∈ s.executed ∧ f.fillId ∉ s.ledger.seenFillIds
  | none => false

def step (s : State) : Event → State
  | .balanceComputed balance => if s.answer.isSome then s else { s with answer := some balance }
  | .exchangeExecutes fillId => if s.answer.isSome then { s with executed := fillId :: s.executed } else s
  | .ledgerOp op =>
    let ledger := op.apply s.ledger
    { s with
      ledger := ledger
      late := if s.isLate op then s.late ++ [ledger.cash.total - s.ledger.cash.total] else s.late }
  | .answerApplied =>
    match s.answer with
    | some balance => .start (syncCash s.ledger balance)
    | none => s
  | .requestFailed => .start s.ledger

end State

/-- An answer that is applied leaves what the late fills changed in the total: either the total stays as it is, or it
becomes the answer with the late fills added. -/
def KeepsLateFills (s : State) (event : Event) : Prop :=
  match event, s.answer with
  | .answerApplied, some balance =>
    s.late ≠ [] → (s.step event).ledger.cash.total = s.ledger.cash.total ∨
      (s.step event).ledger.cash.total = exchangeTotal balance + s.late.sum
  | _, _ => True

def drift (l : Ledger) (balance : Decimal) : Decimal :=
  max (exchangeTotal balance - l.cash.reserved) 0 - l.cash.available

/-- An answer that is applied after late fills is within the threshold, or the late fills together changed no more
than an answer below the reserved cash is raised by. -/
def DriftIsSmall (s : State) (event : Event) : Prop :=
  match event, s.answer with
  | .answerApplied, some balance =>
    s.late ≠ [] → |drift s.ledger balance| ≤ threshold ∨
      s.late.sum = max (s.ledger.cash.reserved - exchangeTotal balance) 0
  | _, _ => True

theorem total_syncCash_of_small {l : Ledger} {balance : Decimal} (h : |drift l balance| ≤ threshold) :
    (syncCash l balance).cash.total = l.cash.total := by
  have hnot : ¬threshold < |max (exchangeTotal balance - l.cash.reserved) 0 - l.cash.available| := not_lt.mpr h
  simp only [syncCash, LedgerOp.apply, CashBalance.syncFromExchange, if_neg hnot]

/-- A large drift is overwritten: the total forgets what the ledger knew, except for the reserved cash. -/
theorem total_syncCash_of_large {l : Ledger} {balance : Decimal} (h : ¬|drift l balance| ≤ threshold) :
    (syncCash l balance).cash.total = exchangeTotal balance + max (l.cash.reserved - exchangeTotal balance) 0 ∧
      (syncCash l balance).cash.total ≠ l.cash.total := by
  have hlarge : threshold < |max (exchangeTotal balance - l.cash.reserved) 0 - l.cash.available| := not_le.mp h
  simp only [syncCash, LedgerOp.apply, CashBalance.syncFromExchange, if_pos hlarge, CashBalance.total]
  constructor
  · rcases le_total (exchangeTotal balance) l.cash.reserved with hle | hle
    · rw [max_eq_right (sub_nonpos.mpr hle), max_eq_left (sub_nonneg.mpr hle)]
      ring
    · rw [max_eq_left (sub_nonneg.mpr hle), max_eq_right (sub_nonpos.mpr hle)]
      ring
  · intro heq
    rw [add_left_inj] at heq
    rw [heq, sub_self, abs_zero] at hlarge
    exact absurd hlarge (by decide +kernel)

theorem keepsLateFills_iff (s : State) (event : Event) : KeepsLateFills s event ↔ DriftIsSmall s event := by
  cases event with
  | answerApplied =>
    cases hanswer : s.answer with
    | none => simp [KeepsLateFills, DriftIsSmall, hanswer]
    | some balance =>
      have hstep : (s.step .answerApplied).ledger = syncCash s.ledger balance := by
        simp only [State.step, hanswer]
        rfl
      simp only [KeepsLateFills, DriftIsSmall, hanswer, hstep]
      refine imp_congr_right fun _ => ?_
      by_cases hsmall : |drift s.ledger balance| ≤ threshold
      · exact iff_of_true (.inl (total_syncCash_of_small hsmall)) (.inl hsmall)
      · obtain ⟨htotal, hchanged⟩ := total_syncCash_of_large hsmall
        rw [or_iff_right hchanged, or_iff_right hsmall, htotal, add_right_inj]
        exact eq_comm
  | _ => exact Iff.rfl

/-- In every interleaving the applied answers keep the late fills exactly if each finds a small drift, or late fills
that cancel out. -/
theorem answers_keep_late_fills_iff (l : Ledger) (events : List Event) :
    Throughout State.step KeepsLateFills (.start l) events ↔ Throughout State.step DriftIsSmall (.start l) events :=
  throughout_congr (fun _ => True) (fun _ _ _ _ => trivial) (fun s event _ => keepsLateFills_iff s event) trivial

private def sale : Fill := ⟨"t1", "o1", "yes", .Sell, 1 / 2, 20, 0, none, 0⟩

/-- A sale of ten dollars is executed and processed between the answer and its application. -/
private def saleInFlight : List Event :=
  [.balanceComputed 100000000, .exchangeExecutes "t1", .ledgerOp (.processFill sale), .answerApplied]

/-- The ten dollars are gone from the total once the answer is applied. -/
theorem sale_in_flight_is_lost :
    ((saleInFlight.take 3).foldl State.step (.start (.new 100))).ledger.cash.total = 110 ∧
      (saleInFlight.foldl State.step (.start (.new 100))).ledger.cash.total = 100 ∧
      ¬Throughout State.step KeepsLateFills (.start (.new 100)) saleInFlight := by
  have hbefore : ((saleInFlight.take 3).foldl State.step (.start (.new 100))).ledger.cash.total = 110 := by
    decide +kernel
  have hafter : (saleInFlight.foldl State.step (.start (.new 100))).ledger.cash.total = 100 := by decide +kernel
  refine ⟨hbefore, hafter, ?_⟩
  rintro ⟨-, -, -, hkeeps, -⟩
  rcases hkeeps (by decide +kernel) with hsame | hadded
  · exact absurd (hafter.symm.trans (hsame.trans hbefore)) (by decide +kernel)
  · exact absurd hadded (by decide +kernel)

end CashSync

end PolyBot.Sync
