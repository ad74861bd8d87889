import PolyBot.Types
import Mathlib.Tactic.Linarith

namespace PolyBot

structure CashBalance where
  available : Decimal
  reserved : Decimal
  deriving DecidableEq, Repr

inductive CashError where
  | cannotReserve
  | cannotSettle
  | cannotWithdraw
  | insufficientFunds (need have_ : Decimal)
  | insufficientForWithdrawal (need have_ : Decimal)
  deriving DecidableEq, Repr

namespace CashBalance

def new (initial : Decimal) : CashBalance := ⟨initial, 0⟩

def total (c : CashBalance) : Decimal := c.available + c.reserved

def reserve (c : CashBalance) (amount : Decimal) : Except CashError CashBalance :=
  if amount ≤ 0 then .error .cannotReserve
  else if c.available < amount then .error (.insufficientFunds amount c.available)
  else .ok { c with available := c.available - amount, reserved := c.reserved + amount }

def release (c : CashBalance) (amount : Decimal) : Decimal × CashBalance :=
  if amount ≤ 0 then (0, c)
  else
    let actualRelease := min amount c.reserved
    (actualRelease, { c with reserved := c.reserved - actualRelease, available := c.available + actualRelease })

/-- Returns the amount drawn, which is less than `amount` when less was reserved. -/
def settleBuy (c : CashBalance) (amount : Decimal) : Except CashError (Decimal × CashBalance) :=
  if amount ≤ 0 then .error .cannotSettle
  else if c.reserved < amount then .ok (c.reserved, { c with reserved := 0 })
  else .ok (amount, { c with reserved := c.reserved - amount })

def settleSell (c : CashBalance) (proceeds : Decimal) : CashBalance :=
  if proceeds ≤ 0 then c else { c with available := c.available + proceeds }

def deposit (c : CashBalance) (amount : Decimal) : CashBalance :=
  if amount ≤ 0 then c else { c with available := c.available + amount }

def withdraw (c : CashBalance) (amount : Decimal) : Except CashError (Decimal × CashBalance) :=
  if amount ≤ 0 then .error .cannotWithdraw
  else if c.available < amount then .error (.insufficientForWithdrawal amount c.available)
  else .ok (amount, { c with available := c.available - amount })

/-- May leave the available cash negative. -/
def deductFee (c : CashBalance) (fee : Decimal) : CashBalance :=
  if fee ≤ 0 then c else { c with available := c.available - fee }

def canAfford (c : CashBalance) (amount : Decimal) : Bool := amount ≤ c.available

/-- Returns the drift that was corrected, if it passed the threshold. -/
def syncFromExchange (c : CashBalance) (exchangeTotal threshold : Decimal) : Option Decimal × CashBalance :=
  let exchangeAvailable := max (exchangeTotal - c.reserved) 0
  let drift := exchangeAvailable - c.available
  if threshold < |drift| then (some drift, { c with available := exchangeAvailable }) else (none, c)

def reset (_ : CashBalance) (initial : Decimal) : CashBalance := ⟨initial, 0⟩

/-- The balance after a call whose result the caller throws away; an error changed nothing. -/
def discard (c : CashBalance) : Except CashError (Decimal × CashBalance) → CashBalance
  | .ok (_, c') => c'
  | .error _ => c

def tryReserve (c : CashBalance) (amount : Decimal) : CashBalance :=
  match c.reserve amount with
  | .ok c' => c'
  | .error _ => c

theorem total_tryReserve (c : CashBalance) (amount : Decimal) : (c.tryReserve amount).total = c.total := by
  rw [tryReserve, reserve]
  by_cases hneg : amount ≤ 0
  · simp only [if_pos hneg]
  · by_cases hpoor : c.available < amount
    · simp only [if_neg hneg, if_pos hpoor]
    · simp only [if_neg hneg, if_neg hpoor, total]
      ring

theorem total_release (c : CashBalance) (amount : Decimal) : (c.release amount).2.total = c.total := by
  rw [release]
  split
  · rfl
  · simp only [total]
    ring

theorem total_settleSell (c : CashBalance) (proceeds : Decimal) :
    (c.settleSell proceeds).total = c.total + max proceeds 0 := by
  rw [settleSell]
  split
  · rename_i hneg
    rw [max_eq_right hneg, add_zero]
  · rename_i hpos
    rw [max_eq_left (not_le.mp hpos).le]
    simp only [total]
    ring

theorem total_deductFee (c : CashBalance) (fee : Decimal) : (c.deductFee fee).total = c.total - max fee 0 := by
  rw [deductFee]
  split
  · rename_i hneg
    rw [max_eq_right hneg, sub_zero]
  · rename_i hpos
    rw [max_eq_left (not_le.mp hpos).le]
    simp only [total]
    ring

theorem reserved_settleSell (c : CashBalance) (proceeds : Decimal) :
    (c.settleSell proceeds).reserved = c.reserved := by
  rw [settleSell]
  split <;> rfl

theorem reserved_deductFee (c : CashBalance) (fee : Decimal) : (c.deductFee fee).reserved = c.reserved := by
  rw [deductFee]
  split <;> rfl

/-- A settlement of nothing is an error, which changes nothing. -/
theorem settleBuy_of_nonpos (c : CashBalance) {amount : Decimal} (h : amount ≤ 0) : c.discard (c.settleBuy amount) = c := by
  rw [settleBuy, if_pos h, discard]

/-- With nothing reserved there is nothing to draw from. -/
theorem reserved_settleBuy_of_zero {c : CashBalance} (h : c.reserved = 0) (amount : Decimal) :
    (c.discard (c.settleBuy amount)).reserved = 0 := by
  by_cases hneg : amount ≤ 0
  · rw [c.settleBuy_of_nonpos hneg, h]
  · rw [settleBuy, if_neg hneg, if_pos (h ▸ not_le.mp hneg), discard]

theorem discard_settleBuy_of_zero {c : CashBalance} (h : c.reserved = 0) (amount : Decimal) :
    c.discard (c.settleBuy amount) = c := by
  by_cases hneg : amount ≤ 0
  · exact c.settleBuy_of_nonpos hneg
  · rw [settleBuy, if_neg hneg, if_pos (h ▸ not_le.mp hneg), discard, ← h]

/-- A purchase draws on the reserved cell alone. -/
theorem available_settleBuy (c : CashBalance) (amount : Decimal) :
    (c.discard (c.settleBuy amount)).available = c.available := by
  rw [settleBuy]
  split_ifs <;> rfl

theorem discard_withdraw {c : CashBalance} {amount : Decimal} (h : 0 ≤ amount) (hpays : amount ≤ c.available) :
    c.discard (c.withdraw amount) = { c with available := c.available - amount } := by
  rw [withdraw]
  rcases h.eq_or_lt with rfl | hpos
  · rw [if_pos le_rfl, discard, sub_zero]
  · rw [if_neg (not_le.mpr hpos), if_neg (not_lt.mpr hpays), discard]

theorem settleSell_of_nonneg (c : CashBalance) {proceeds : Decimal} (h : 0 ≤ proceeds) :
    c.settleSell proceeds = { c with available := c.available + proceeds } := by
  rw [settleSell]
  rcases h.eq_or_lt with rfl | hpos
  · rw [if_pos le_rfl, add_zero]
  · rw [if_neg (not_le.mpr hpos)]

theorem deductFee_of_nonneg (c : CashBalance) {fee : Decimal} (h : 0 ≤ fee) :
    c.deductFee fee = { c with available := c.available - fee } := by
  rw [deductFee]
  rcases h.eq_or_lt with rfl | hpos
  · rw [if_pos le_rfl, sub_zero]
  · rw [if_neg (not_le.mpr hpos)]

/-- A purchase is paid in full exactly when its notional was reserved. -/
theorem total_settleBuy_iff {c : CashBalance} {amount : Decimal} (h : 0 < amount) :
    (c.discard (c.settleBuy amount)).total = c.total - amount ↔ amount ≤ c.reserved := by
  rw [settleBuy]
  rw [if_neg (not_le.mpr h)]
  by_cases hshort : c.reserved < amount
  · rw [if_pos hshort]
    simp only [discard, total]
    constructor
    · intro heq
      linarith
    · intro hle
      exact absurd hshort (not_lt.mpr hle)
  · rw [if_neg hshort]
    simp only [discard, total]
    refine iff_of_true ?_ (not_lt.mp hshort)
    ring

end CashBalance

end PolyBot
