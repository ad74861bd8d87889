import Mathlib.Data.List.DropRight
import PolyBot.General.Latch
import PolyBot.Risk.RiskLimits

/-! The operations of the risk limits over whole runs: the profit of the day, and the halt. -/

namespace PolyBot.RiskLimits
open General.Latch

inductive LimitOp where
  | recordRealizedPnl (pnl currentUnrealized : Decimal)
  | setDailyStartBalance (balance : Decimal)
  | resetDaily (startingBalance : Decimal)

namespace LimitOp

def apply (r : RiskLimits) : LimitOp → RiskLimits
  | recordRealizedPnl pnl currentUnrealized => r.recordRealizedPnl pnl currentUnrealized
  | setDailyStartBalance balance => r.setDailyStartBalance balance
  | resetDaily startingBalance => r.resetDaily startingBalance

def pnl : LimitOp → Decimal
  | recordRealizedPnl pnl _ => pnl
  | setDailyStartBalance _ | resetDaily _ => 0

def startsDay : LimitOp → Bool
  | recordRealizedPnl _ _ => false
  | setDailyStartBalance _ | resetDaily _ => true

def resets : LimitOp → Bool
  | resetDaily _ => true
  | recordRealizedPnl _ _ | setDailyStartBalance _ => false

end LimitOp

open LimitOp

def run (config : RiskLimitsConfig) (ops : List LimitOp) : RiskLimits := ops.foldl LimitOp.apply (withConfig config)

def dayPnl (ops : List LimitOp) : Decimal := ((ops.rtakeWhile fun op => !op.startsDay).map pnl).sum

/-- The violation of a record that takes the day's profit, the unrealized one with it, below the daily limit. -/
def breach (config : RiskLimitsConfig) (before : List LimitOp) : LimitOp → Option LimitViolation
  | .recordRealizedPnl pnl currentUnrealized =>
    let total := dayPnl before + pnl + currentUnrealized
    if total < -config.maxDailyLoss then some (.DailyLossExceeded (-total) config.maxDailyLoss) else none
  | .setDailyStartBalance _ | .resetDaily _ => none

theorem dayPnl_concat (ops : List LimitOp) (op : LimitOp) :
    dayPnl (ops ++ [op]) = if op.startsDay then 0 else dayPnl ops + op.pnl := by
  rw [dayPnl, List.rtakeWhile_concat]
  cases op <;> simp [startsDay, dayPnl]

structure Follows (config : RiskLimitsConfig) (ops : List LimitOp) (r : RiskLimits) : Prop where
  config_eq : r.config = config
  pnl_eq : r.dailyRealizedPnl = dayPnl ops
  halted_eq : r.tradingHalted = r.haltReason.isSome

theorem run_concat (config : RiskLimitsConfig) (ops : List LimitOp) (op : LimitOp) :
    run config (ops ++ [op]) = op.apply (run config ops) := List.foldl_concat ..

theorem Follows.apply {config : RiskLimitsConfig} {ops : List LimitOp} {r : RiskLimits} (h : Follows config ops r)
    (op : LimitOp) : Follows config (ops ++ [op]) (op.apply r) := by
  cases op with
  | recordRealizedPnl pnl currentUnrealized =>
    have hpnl : r.dailyRealizedPnl + pnl = dayPnl (ops ++ [.recordRealizedPnl pnl currentUnrealized]) := by
      rw [dayPnl_concat, h.pnl_eq]
      rfl
    rw [LimitOp.apply, recordRealizedPnl]
    dsimp only
    split
    · exact ⟨h.config_eq, hpnl, rfl⟩
    · exact ⟨h.config_eq, hpnl, h.halted_eq⟩
  | setDailyStartBalance balance =>
    exact ⟨h.config_eq, by rw [dayPnl_concat]; rfl, h.halted_eq⟩
  | resetDaily startingBalance =>
    exact ⟨h.config_eq, by rw [dayPnl_concat]; rfl, rfl⟩

theorem follows_run (config : RiskLimitsConfig) (ops : List LimitOp) : Follows config ops (run config ops) := by
  induction ops using List.reverseRecOn with
  | nil => exact ⟨rfl, rfl, rfl⟩
  | append_singleton ops op ih =>
    rw [run_concat]
    exact ih.apply op

theorem haltReason_concat (config : RiskLimitsConfig) (ops : List LimitOp) (op : LimitOp) :
    (run config (ops ++ [op])).haltReason =
      if op.resets then none else (breach config ops op).or (run config ops).haltReason := by
  have h := follows_run config ops
  rw [run_concat]
  cases op with
  | recordRealizedPnl pnl currentUnrealized =>
    rw [LimitOp.apply, recordRealizedPnl, resets, breach, h.pnl_eq, h.config_eq]
    dsimp only
    split <;> rfl
  | setDailyStartBalance balance => rfl
  | resetDaily startingBalance => rfl

theorem latches_haltReason (config : RiskLimitsConfig) :
    Latches (fun ops => (run config ops).haltReason) (breach config) resets :=
  ⟨rfl, haltReason_concat config⟩

/-- Over every run of the limits the profit of the day is what was recorded since it began. Trading is halted exactly if
since the last reset a record took the profit of the day, the unrealized one with it, below the limit, and for the
last such record; a new starting balance does not lift the halt. The check of orders does not look at the halt. -/
theorem halts_for_last_breach (config : RiskLimitsConfig) (ops : List LimitOp) :
    (run config ops).dailyRealizedPnl = dayPnl ops ∧
      ((run config ops).isTradingAllowed = false ↔ ∃ reason, SetLast (breach config) resets ops reason) ∧
      (∀ reason, (run config ops).haltReason = some reason ↔ SetLast (breach config) resets ops reason) ∧
      ∀ tokenId side price size l,
        (run config ops).checkOrder tokenId side price size l =
          (withConfig config).checkOrder tokenId side price size l := by
  have h := follows_run config ops
  have hreason : ∀ reason, (run config ops).haltReason = some reason ↔ SetLast (breach config) resets ops reason :=
    fun _ => (latches_haltReason config).eq_some_iff
  refine ⟨h.pnl_eq, ?_, hreason, fun tokenId side price size l => ?_⟩
  · rw [isTradingAllowed, h.halted_eq, Bool.not_eq_false', Option.isSome_iff_exists]
    exact exists_congr hreason
  · rw [checkOrder, h.config_eq]
    rfl

end PolyBot.RiskLimits
