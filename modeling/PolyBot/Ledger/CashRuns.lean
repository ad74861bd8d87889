import PolyBot.General.AdditiveRuns
import PolyBot.Ledger.Cash

/-! Runs of the calls on a cash balance. The calls are written as programs over the two cells, in which an
error keeps every write made before it. -/

namespace PolyBot.CashRuns
open General.AdditiveRuns

abbrev CashM := ExceptT CashError (StateM CashBalance)

namespace CashM

def setAvailable (available : Decimal) : CashM Unit := modify fun c => { c with available := available }
def setReserved (reserved : Decimal) : CashM Unit := modify fun c => { c with reserved := reserved }

def reserve (amount : Decimal) : CashM Unit := do
  if amount ≤ 0 then throw .cannotReserve
  let c ← get
  if c.available < amount then throw (.insufficientFunds amount c.available)
  setAvailable (c.available - amount)
  setReserved (c.reserved + amount)

def release (amount : Decimal) : CashM Decimal := do
  if amount ≤ 0 then return 0
  let c ← get
  let actualRelease := min amount c.reserved
  setReserved (c.reserved - actualRelease)
  setAvailable (c.available + actualRelease)
  return actualRelease

def settleBuy (amount : Decimal) : CashM Decimal := do
  if amount ≤ 0 then throw .cannotSettle
  let c ← get
  if c.reserved < amount then
    setReserved 0
    return c.reserved
  setReserved (c.reserved - amount)
  return amount

def settleSell (proceeds : Decimal) : CashM Unit := do
  if proceeds ≤ 0 then return
  setAvailable ((← get).available + proceeds)

def deposit (amount : Decimal) : CashM Unit := do
  if amount ≤ 0 then return
  setAvailable ((← get).available + amount)

def withdraw (amount : Decimal) : CashM Decimal := do
  if amount ≤ 0 then throw .cannotWithdraw
  let c ← get
  if c.available < amount then throw (.insufficientForWithdrawal amount c.available)
  setAvailable (c.available - amount)
  return amount

def deductFee (fee : Decimal) : CashM Unit := do
  if fee ≤ 0 then return
  setAvailable ((← get).available - fee)

def syncFromExchange (exchangeTotal threshold : Decimal) : CashM (Option Decimal) := do
  let c ← get
  let exchangeAvailable := max (exchangeTotal - c.reserved) 0
  let drift := exchangeAvailable - c.available
  if threshold < |drift| then
    setAvailable exchangeAvailable
    return some drift
  else return none

/-- The outcome of a call whose effect is known: an error leaves the balance as it was. -/
def outcome {α : Type} (c : CashBalance) : Except CashError (α × CashBalance) → Except CashError α × CashBalance
  | .ok (a, c') => (.ok a, c')
  | .error e => (.error e, c)

theorem get_bind {α : Type} (f : CashBalance → CashM α) (c : CashBalance) : (get >>= f) c = f c c := rfl

theorem reserve_eq (amount : Decimal) (c : CashBalance) :
    reserve amount c = outcome c ((c.reserve amount).map fun c' => ((), c')) := by
  by_cases hneg : amount ≤ 0
  · simp only [reserve, CashBalance.reserve, hneg, if_true]
    rfl
  · by_cases hpoor : c.available < amount
    · simp only [reserve, CashBalance.reserve, hneg, if_false, get_bind, hpoor, if_true]
      rfl
    · simp only [reserve, CashBalance.reserve, hneg, if_false, get_bind, hpoor]
      rfl

theorem release_eq (amount : Decimal) (c : CashBalance) : release amount c = outcome c (.ok (c.release amount)) := by
  by_cases hneg : amount ≤ 0
  · simp only [release, CashBalance.release, hneg, if_true]
    rfl
  · simp only [release, CashBalance.release, hneg, if_false]
    rfl

theorem settleBuy_eq (amount : Decimal) (c : CashBalance) : settleBuy amount c = outcome c (c.settleBuy amount) := by
  by_cases hneg : amount ≤ 0
  · simp only [settleBuy, CashBalance.settleBuy, hneg, if_true]
    rfl
  · by_cases hshort : c.reserved < amount
    · simp only [settleBuy, CashBalance.settleBuy, hneg, if_false, get_bind, hshort, if_true]
      rfl
    · simp only [settleBuy, CashBalance.settleBuy, hneg, if_false, get_bind, hshort]
      rfl

theorem settleSell_eq (proceeds : Decimal) (c : CashBalance) :
    settleSell proceeds c = outcome c (.ok ((), c.settleSell proceeds)) := by
  by_cases hneg : proceeds ≤ 0
  · simp only [settleSell, CashBalance.settleSell, hneg, if_true]
    rfl
  · simp only [settleSell, CashBalance.settleSell, hneg, if_false]
    rfl

theorem deposit_eq (amount : Decimal) (c : CashBalance) :
    deposit amount c = outcome c (.ok ((), c.deposit amount)) := by
  by_cases hneg : amount ≤ 0
  · simp only [deposit, CashBalance.deposit, hneg, if_true]
    rfl
  · simp only [deposit, CashBalance.deposit, hneg, if_false]
    rfl

theorem withdraw_eq (amount : Decimal) (c : CashBalance) : withdraw amount c = outcome c (c.withdraw amount) := by
  by_cases hneg : amount ≤ 0
  · simp only [withdraw, CashBalance.withdraw, hneg, if_true]
    rfl
  · by_cases hpoor : c.available < amount
    · simp only [withdraw, CashBalance.withdraw, hneg, if_false, get_bind, hpoor, if_true]
      rfl
    · simp only [withdraw, CashBalance.withdraw, hneg, if_false, get_bind, hpoor]
      rfl

theorem deductFee_eq (fee : Decimal) (c : CashBalance) : deductFee fee c = outcome c (.ok ((), c.deductFee fee)) := by
  by_cases hneg : fee ≤ 0
  · simp only [deductFee, CashBalance.deductFee, hneg, if_true]
    rfl
  · simp only [deductFee, CashBalance.deductFee, hneg, if_false]
    rfl

theorem syncFromExchange_eq (exchangeTotal threshold : Decimal) (c : CashBalance) :
    syncFromExchange exchangeTotal threshold c = outcome c (.ok (c.syncFromExchange exchangeTotal threshold)) := by
  by_cases hdrift : threshold < |max (exchangeTotal - c.reserved) 0 - c.available|
  · simp only [syncFromExchange, CashBalance.syncFromExchange, get_bind, hdrift, if_true]
    rfl
  · simp only [syncFromExchange, CashBalance.syncFromExchange, get_bind, hdrift, if_false]
    rfl

end CashM

inductive Returned where
  | nothing
  | amount (a : Decimal)
  | drift (d : Option Decimal)
  deriving DecidableEq, Repr

inductive CashOp where
  | reserve (amount : Decimal)
  | release (amount : Decimal)
  | settleBuy (amount : Decimal)
  | settleSell (proceeds : Decimal)
  | deposit (amount : Decimal)
  | withdraw (amount : Decimal)
  | deductFee (fee : Decimal)
  | syncFromExchange (exchangeTotal threshold : Decimal)
  deriving DecidableEq, Repr

namespace CashOp

def call : CashOp → CashM Returned
  | reserve amount => do CashM.reserve amount; return .nothing
  | release amount => return .amount (← CashM.release amount)
  | settleBuy amount => return .amount (← CashM.settleBuy amount)
  | settleSell proceeds => do CashM.settleSell proceeds; return .nothing
  | deposit amount => do CashM.deposit amount; return .nothing
  | withdraw amount => return .amount (← CashM.withdraw amount)
  | deductFee fee => do CashM.deductFee fee; return .nothing
  | syncFromExchange exchangeTotal threshold => return .drift (← CashM.syncFromExchange exchangeTotal threshold)

def result (c : CashBalance) (op : CashOp) : Except CashError Returned := (op.call c).1
def apply (c : CashBalance) (op : CashOp) : CashBalance := (op.call c).2

def effect (c : CashBalance) : CashOp → Except CashError (Returned × CashBalance)
  | reserve amount => (c.reserve amount).map fun c' => (.nothing, c')
  | release amount => .ok (.amount (c.release amount).1, (c.release amount).2)
  | settleBuy amount => (c.settleBuy amount).map fun r => (.amount r.1, r.2)
  | settleSell proceeds => .ok (.nothing, c.settleSell proceeds)
  | deposit amount => .ok (.nothing, c.deposit amount)
  | withdraw amount => (c.withdraw amount).map fun r => (.amount r.1, r.2)
  | deductFee fee => .ok (.nothing, c.deductFee fee)
  | syncFromExchange exchangeTotal threshold =>
    .ok (.drift (c.syncFromExchange exchangeTotal threshold).1, (c.syncFromExchange exchangeTotal threshold).2)

theorem bind_outcome {α : Type} {m : CashM α} {c : CashBalance} {e : Except CashError (α × CashBalance)}
    (h : m c = CashM.outcome c e) (g : α → Returned) :
    (do return g (← m) : CashM Returned) c = CashM.outcome c (e.map fun r => (g r.1, r.2)) := by
  change ExceptT.bindCont (fun a => (return g a : CashM Returned)) (m c).1 (m c).2 = _
  rw [h]
  cases e <;> rfl

/-- The programs over the cells compute the functions of the balance. -/
theorem call_eq (op : CashOp) (c : CashBalance) : op.call c = CashM.outcome c (op.effect c) := by
  cases op with
  | reserve amount =>
    refine (bind_outcome (CashM.reserve_eq amount c) fun _ => .nothing).trans ?_
    rw [effect]
    cases c.reserve amount <;> rfl
  | release amount => exact bind_outcome (CashM.release_eq amount c) .amount
  | settleBuy amount => exact bind_outcome (CashM.settleBuy_eq amount c) .amount
  | settleSell proceeds => exact bind_outcome (CashM.settleSell_eq proceeds c) fun _ => .nothing
  | deposit amount => exact bind_outcome (CashM.deposit_eq amount c) fun _ => .nothing
  | withdraw amount => exact bind_outcome (CashM.withdraw_eq amount c) .amount
  | deductFee fee => exact bind_outcome (CashM.deductFee_eq fee c) fun _ => .nothing
  | syncFromExchange exchangeTotal threshold =>
    exact bind_outcome (CashM.syncFromExchange_eq exchangeTotal threshold c) .drift

def movesWithin : CashOp → Bool
  | reserve _ | release _ => true
  | _ => false

theorem apply_of_ok {c c' : CashBalance} {op : CashOp} {r : Returned} (h : op.effect c = .ok (r, c')) :
    op.apply c = c' ∧ op.result c = .ok r := by
  rw [apply, result, call_eq, h]
  exact ⟨rfl, rfl⟩

theorem apply_of_error {c : CashBalance} {op : CashOp} {e : CashError} (h : op.effect c = .error e) :
    op.apply c = c ∧ op.result c = .error e := by
  rw [apply, result, call_eq, h]
  exact ⟨rfl, rfl⟩

/-- A call that returns an error changes neither cell. -/
theorem apply_eq_of_error {c : CashBalance} {op : CashOp} {e : CashError} (h : op.result c = .error e) :
    op.apply c = c := by
  cases heffect : op.effect c with
  | error e' => exact (apply_of_error heffect).1
  | ok r =>
    rw [(apply_of_ok heffect).2] at h
    cases h

end CashOp

abbrev Entry := CashOp × Except CashError Returned

def acceptedIn : Entry → Option Decimal
  | (.settleSell proceeds, _) => if 0 < proceeds then some proceeds else none
  | (.deposit amount, _) => if 0 < amount then some amount else none
  | _ => none

def drawn : Entry → Option Decimal
  | (.settleBuy _, .ok (.amount a)) => some a
  | (.withdraw _, .ok (.amount a)) => some a
  | _ => none

def feePaid : Entry → Option Decimal
  | (.deductFee fee, _) => if 0 < fee then some fee else none
  | _ => none

def corrected : Entry → Option Decimal
  | (.syncFromExchange _ _, .ok (.drift d)) => d
  | _ => none

def sumOf (part : Entry → Option Decimal) (log : List Entry) : Decimal := (log.filterMap part).sum

theorem sumOf_cons (part : Entry → Option Decimal) (e : Entry) (log : List Entry) :
    sumOf part (e :: log) = (part e).getD 0 + sumOf part log := by
  unfold sumOf
  cases h : part e with
  | none => simp [h]
  | some a => simp [h]

def run (c : CashBalance) (ops : List CashOp) : CashBalance := ops.foldl CashOp.apply c

def calls : CashBalance → List CashOp → List Entry
  | _, [] => []
  | c, op :: ops => (op, op.result c) :: calls (op.apply c) ops

theorem total_apply_of_movesWithin (c : CashBalance) {op : CashOp} (h : op.movesWithin = true) :
    (op.apply c).total = c.total := by
  cases op with
  | reserve amount =>
    have htry := c.total_tryReserve amount
    unfold CashBalance.tryReserve at htry
    cases hreserve : c.reserve amount with
    | error e => rw [(CashOp.apply_of_error (by rw [CashOp.effect, hreserve]; rfl)).1]
    | ok c' =>
      rw [hreserve] at htry
      rw [(CashOp.apply_of_ok (by rw [CashOp.effect, hreserve]; rfl)).1]
      exact htry
  | release amount =>
    rw [(CashOp.apply_of_ok rfl).1]
    exact c.total_release amount
  | _ => cases h

theorem total_settleBuy {c : CashBalance} {amount : Decimal} {r : Decimal × CashBalance}
    (h : c.settleBuy amount = .ok r) : r.2.total = c.total - r.1 := by
  unfold CashBalance.settleBuy at h
  split at h
  · cases h
  · split at h
    · cases h
      simp [CashBalance.total]
    · cases h
      simp only [CashBalance.total]
      ring

theorem total_withdraw {c : CashBalance} {amount : Decimal} {r : Decimal × CashBalance}
    (h : c.withdraw amount = .ok r) : r.2.total = c.total - r.1 := by
  unfold CashBalance.withdraw at h
  split at h
  · cases h
  · split at h
    · cases h
    · cases h
      simp only [CashBalance.total]
      ring

/-- A call that returns what it draws lowers the total by what it returns, and by nothing when it fails. -/
theorem total_of_drawn {c : CashBalance} {op : CashOp} {e : Except CashError (Decimal × CashBalance)}
    (heffect : op.effect c = e.map fun r => (.amount r.1, r.2)) (htotal : ∀ r, e = .ok r → r.2.total = c.total - r.1)
    (hok : ∀ a, drawn (op, .ok (.amount a)) = some a) (herror : ∀ err, drawn (op, .error err) = none) :
    (op.apply c).total = c.total - (drawn (op, op.result c)).getD 0 := by
  cases e with
  | error err =>
    obtain ⟨happly, hresult⟩ := CashOp.apply_of_error heffect
    rw [happly, hresult, herror, Option.getD_none, sub_zero]
  | ok r =>
    obtain ⟨happly, hresult⟩ := CashOp.apply_of_ok heffect
    rw [happly, hresult, hok, Option.getD_some]
    exact htotal r rfl

theorem total_syncFromExchange (c : CashBalance) (exchangeTotal threshold : Decimal) :
    (c.syncFromExchange exchangeTotal threshold).2.total =
      c.total + (c.syncFromExchange exchangeTotal threshold).1.getD 0 := by
  simp only [CashBalance.syncFromExchange]
  split
  · simp only [CashBalance.total, Option.getD_some]
    ring
  · exact (add_zero _).symm

/-- What one call adds to the total. -/
theorem total_apply (c : CashBalance) (op : CashOp) :
    let entry : Entry := (op, op.result c)
    (op.apply c).total = c.total + (acceptedIn entry).getD 0 - (drawn entry).getD 0 - (feePaid entry).getD 0 +
      (corrected entry).getD 0 := by
  intro entry
  cases op with
  | reserve amount =>
    rw [total_apply_of_movesWithin c rfl]
    simp [entry, acceptedIn, drawn, feePaid, corrected]
  | release amount =>
    rw [total_apply_of_movesWithin c rfl]
    simp [entry, acceptedIn, drawn, feePaid, corrected]
  | settleBuy amount =>
    rw [total_of_drawn rfl (fun r => total_settleBuy) (fun _ => rfl) fun _ => rfl]
    simp [entry, acceptedIn, feePaid, corrected]
  | withdraw amount =>
    rw [total_of_drawn rfl (fun r => total_withdraw) (fun _ => rfl) fun _ => rfl]
    simp [entry, acceptedIn, feePaid, corrected]
  | settleSell proceeds =>
    rw [(CashOp.apply_of_ok rfl).1]
    by_cases hpos : 0 < proceeds
    · rw [CashBalance.total_settleSell, max_eq_left hpos.le]
      simp [entry, acceptedIn, drawn, feePaid, corrected, hpos]
    · rw [CashBalance.settleSell, if_pos (not_lt.mp hpos)]
      simp [entry, acceptedIn, drawn, feePaid, corrected, hpos]
  | deposit amount =>
    rw [(CashOp.apply_of_ok rfl).1]
    by_cases hpos : 0 < amount
    · have htotal : (c.deposit amount).total = c.total + max amount 0 := c.total_settleSell amount
      rw [htotal, max_eq_left hpos.le]
      simp [entry, acceptedIn, drawn, feePaid, corrected, hpos]
    · rw [CashBalance.deposit, if_pos (not_lt.mp hpos)]
      simp [entry, acceptedIn, drawn, feePaid, corrected, hpos]
  | deductFee fee =>
    rw [(CashOp.apply_of_ok rfl).1]
    by_cases hpos : 0 < fee
    · rw [CashBalance.total_deductFee, max_eq_left hpos.le]
      simp [entry, acceptedIn, drawn, feePaid, corrected, hpos]
    · rw [CashBalance.deductFee, if_pos (not_lt.mp hpos)]
      simp [entry, acceptedIn, drawn, feePaid, corrected, hpos]
  | syncFromExchange exchangeTotal threshold =>
    have heffect : (CashOp.syncFromExchange exchangeTotal threshold).effect c =
        .ok (.drift (c.syncFromExchange exchangeTotal threshold).1,
          (c.syncFromExchange exchangeTotal threshold).2) := rfl
    obtain ⟨happly, hresult⟩ := CashOp.apply_of_ok heffect
    rw [happly, total_syncFromExchange]
    simp [entry, hresult, acceptedIn, drawn, feePaid, corrected]

/-- The calls that may take the available cash below zero. -/
def CashOp.chargesFee : CashOp → Bool
  | .deductFee _ => true
  | _ => false

/-- Both cells stay non-negative, but for the available cash when a fee is charged. -/
theorem nonneg_apply {c : CashBalance} (h : 0 ≤ c.reserved) (op : CashOp) :
    0 ≤ (op.apply c).reserved ∧ (0 ≤ c.available → op.chargesFee = false → 0 ≤ (op.apply c).available) := by
  cases heffect : op.effect c with
  | error e =>
    rw [(CashOp.apply_of_error heffect).1]
    exact ⟨h, fun havailable _ => havailable⟩
  | ok r =>
    rw [(CashOp.apply_of_ok heffect).1]
    cases op with
    | reserve amount =>
      simp only [CashOp.effect, CashBalance.reserve] at heffect
      split_ifs at heffect with hneg hpoor
      · cases heffect
      · cases heffect
      · cases heffect
        exact ⟨by simp only; linarith, fun _ _ => by simp only; linarith⟩
    | release amount =>
      cases heffect
      rw [CashBalance.release]
      split_ifs with hneg
      · exact ⟨h, fun havailable _ => havailable⟩
      · have hmin : 0 ≤ min amount c.reserved := le_min (not_le.mp hneg).le h
        exact ⟨sub_nonneg.mpr (min_le_right _ _), fun havailable _ => add_nonneg havailable hmin⟩
    | settleBuy amount =>
      simp only [CashOp.effect, CashBalance.settleBuy] at heffect
      split_ifs at heffect with hneg hshort
      · cases heffect
      · cases heffect
        exact ⟨le_refl 0, fun havailable _ => havailable⟩
      · cases heffect
        exact ⟨sub_nonneg.mpr (not_lt.mp hshort), fun havailable _ => havailable⟩
    | settleSell proceeds =>
      cases heffect
      rw [CashBalance.settleSell]
      split_ifs with hneg
      · exact ⟨h, fun havailable _ => havailable⟩
      · exact ⟨h, fun havailable _ => add_nonneg havailable (not_le.mp hneg).le⟩
    | deposit amount =>
      cases heffect
      rw [CashBalance.deposit]
      split_ifs with hneg
      · exact ⟨h, fun havailable _ => havailable⟩
      · exact ⟨h, fun havailable _ => add_nonneg havailable (not_le.mp hneg).le⟩
    | withdraw amount =>
      simp only [CashOp.effect, CashBalance.withdraw] at heffect
      split_ifs at heffect with hneg hpoor
      · cases heffect
      · cases heffect
      · cases heffect
        exact ⟨h, fun _ _ => sub_nonneg.mpr (not_lt.mp hpoor)⟩
    | deductFee fee =>
      cases heffect
      refine ⟨?_, fun _ hfee => absurd hfee Bool.noConfusion⟩
      rw [CashBalance.reserved_deductFee]
      exact h
    | syncFromExchange exchangeTotal threshold =>
      cases heffect
      simp only [CashBalance.syncFromExchange]
      split
      · exact ⟨h, fun _ _ => le_max_right _ _⟩
      · exact ⟨h, fun havailable _ => havailable⟩

theorem reserved_nonneg_run {c : CashBalance} (h : 0 ≤ c.reserved) (ops : List CashOp) : 0 ≤ (run c ops).reserved := by
  induction ops generalizing c with
  | nil => exact h
  | cons op ops ih => exact ih (nonneg_apply h op).1

/-- The total follows the log of a run. -/
theorem total_run (c : CashBalance) (ops : List CashOp) :
    (run c ops).total = c.total + sumOf acceptedIn (calls c ops) - sumOf drawn (calls c ops) -
      sumOf feePaid (calls c ops) + sumOf corrected (calls c ops) := by
  induction ops generalizing c with
  | nil => simp [run, calls, sumOf]
  | cons op ops ih =>
    have hstep := total_apply c op
    have hrest := ih (op.apply c)
    simp only [calls, sumOf_cons]
    rw [run, List.foldl_cons, ← run, hrest, hstep]
    ring

/-- A run that ends with negative available cash has a last state in which it was not, and the call made there
charged a fee. -/
theorem fee_of_available_neg {c : CashBalance} {ops : List CashOp} (hreserved : 0 ≤ c.reserved)
    (havailable : 0 ≤ c.available) (hneg : (run c ops).available < 0) :
    ∃ before fee after, ops = before ++ .deductFee fee :: after ∧ 0 < fee ∧ 0 ≤ (run c before).available ∧
      ∀ r, r <+: after → (run c (before ++ .deductFee fee :: r)).available < 0 := by
  obtain ⟨before, op, after, rfl, hlast, hbelow⟩ :=
    exists_last_of_not (Q := fun c : CashBalance => 0 ≤ c.available) havailable (not_le.mpr hneg)
  have hstep : (op.apply (run c before)).available < 0 := by
    have hone := hbelow [] List.nil_prefix
    rw [List.foldl_append] at hone
    exact not_le.mp hone
  have hkeep := (nonneg_apply (reserved_nonneg_run hreserved before) op).2 hlast
  have hfee : op.chargesFee = true := by
    by_contra hno
    exact absurd (hkeep (Bool.eq_false_of_not_eq_true hno)) (not_le.mpr hstep)
  cases op with
  | deductFee fee =>
    refine ⟨before, fee, after, rfl, ?_, hlast, fun r hr => not_le.mp (hbelow r hr)⟩
    by_contra hzero
    rw [(CashOp.apply_of_ok rfl).1, CashBalance.deductFee, if_pos (not_lt.mp hzero)] at hstep
    exact absurd hlast (not_le.mpr hstep)
  | _ => cases hfee

/-- In every run from a non-negative balance, with any arguments, the reserved cash is never negative, the total is
what was put in less what the calls returned and charged, reserving and releasing keep it, a call that fails changes
nothing, and the available cash is negative only after a fee charged since it last was not. -/
theorem cash_is_conserved (initial : Decimal) (ops : List CashOp) (hinitial : 0 ≤ initial) :
    let c := run (.new initial) ops
    let log := calls (.new initial) ops
    0 ≤ c.reserved ∧
      c.total = initial + sumOf acceptedIn log - sumOf drawn log - sumOf feePaid log + sumOf corrected log ∧
      (∀ op : CashOp, op.movesWithin = true → (op.apply c).total = c.total) ∧
      (∀ (op : CashOp) (e : CashError), op.result c = .error e → op.apply c = c) ∧
      (c.available < 0 → ∃ before fee after, ops = before ++ .deductFee fee :: after ∧ 0 < fee ∧
        0 ≤ (run (.new initial) before).available ∧
        ∀ r, r <+: after → (run (.new initial) (before ++ .deductFee fee :: r)).available < 0) := by
  intro c log
  have hstart : (CashBalance.new initial).total = initial := add_zero initial
  refine ⟨reserved_nonneg_run le_rfl ops, ?_, fun _ h => total_apply_of_movesWithin c h,
    fun _ _ h => CashOp.apply_eq_of_error h, fee_of_available_neg le_rfl hinitial⟩
  have hrun := total_run (.new initial) ops
  rwa [hstart] at hrun

/-- A purchase settles less than it asks for, a withdrawal fails, and a fee leaves a debt. -/
theorem debt_after_fee :
    let ops : List CashOp := [.reserve 60, .settleBuy 80, .withdraw 100, .deductFee 50, .syncFromExchange 10 50]
    let c := run (.new 100) ops
    c = ⟨-10, 0⟩ ∧ (∃ before fee after, ops = before ++ .deductFee fee :: after ∧ 0 < fee ∧
        0 ≤ (run (.new 100) before).available ∧
        ∀ r, r <+: after → (run (.new 100) (before ++ .deductFee fee :: r)).available < 0) := by
  intro ops c
  have hc : c = ⟨-10, 0⟩ := by decide +kernel
  refine ⟨hc, (cash_is_conserved 100 ops (by decide +kernel)).2.2.2.2 ?_⟩
  have hneg : c.available < 0 := by rw [hc]; decide +kernel
  exact hneg

end PolyBot.CashRuns
