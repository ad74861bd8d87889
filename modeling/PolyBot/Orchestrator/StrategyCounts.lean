import Mathlib.Algebra.Order.Group.Nat
import Mathlib.Algebra.Order.Monoid.Prod
import Mathlib.Data.String.Basic
import PolyBot.General.AdditiveRuns
import PolyBot.Strategy.Subscriptions

/-! The evaluations that the router counts of each strategy, and the heartbeats that log the counts and reset them. -/

namespace PolyBot.Bot.StrategyCounts
open General.AdditiveRuns General.KeyedStore Subscriptions

def evaluationCounts (r : StrategyRouter) : List (String × ℕ × ℕ) :=
  (r.entries.filter fun e => e.2.enabled && e.2.isEnabled).map fun e => (e.1, e.2.evalCount, e.2.intentCount)

def resetEvaluationCounts (r : StrategyRouter) : StrategyRouter :=
  mapValues (fun _ reg => { reg with evalCount := 0, intentCount := 0 }) r

/-- The lines that a heartbeat logs, by name, and the router afterwards. -/
def logCounts (r : StrategyRouter) : List (String × ℕ × ℕ) × StrategyRouter :=
  let evalCounts := evaluationCounts r
  if evalCounts.isEmpty then ([], r)
  else (evalCounts.insertionSort fun a b => a.1 ≤ b.1, resetEvaluationCounts r)

inductive Event where
  | bookUpdate (marketId : ConditionId) (answer : String → List OrderIntent)
  | setStrategy (name : String) (enabled : Bool)
  | heartbeat

def handle (r : StrategyRouter) : Event → List (String × ℕ × ℕ) × StrategyRouter
  | .bookUpdate marketId answer => ([], (r.onBookUpdate answer marketId).2)
  | .setStrategy name enabled =>
    ([], match r.setEnabled name enabled with
      | .ok r' => r'
      | .error _ => r)
  | .heartbeat => logCounts r

def step (r : StrategyRouter) (e : Event) : StrategyRouter := (handle r e).2

def pending (name : String) (r : StrategyRouter) : ℕ × ℕ :=
  match r.lookup name with
  | none => 0
  | some reg => (reg.evalCount, reg.intentCount)

def evaluated (name : String) (r : StrategyRouter) : Event → ℕ × ℕ
  | .bookUpdate marketId answer =>
    match r.lookup name with
    | none => 0
    | some reg => if StrategyRouter.evaluates marketId reg then (1, (answer name).length) else 0
  | .setStrategy _ _ | .heartbeat => 0

def reported (name : String) (r : StrategyRouter) (e : Event) : ℕ × ℕ :=
  (((handle r e).1.filter (·.1 = name)).map (·.2)).sum

/-- What a heartbeat resets of a strategy without logging it: the counts of a strategy that is off, while another is
on. -/
def dropped (name : String) (r : StrategyRouter) : Event → ℕ × ℕ
  | .heartbeat => if evaluationCounts r ≠ [] ∧ r.isEnabled name = false then pending name r else 0
  | .bookUpdate _ _ | .setStrategy _ _ => 0

theorem evaluationCounts_eq_nil_iff {r : StrategyRouter} :
    evaluationCounts r = [] ↔ ∀ name, r.isEnabled name = false := by
  rw [evaluationCounts, List.map_eq_nil_iff, List.filter_eq_nil_iff]
  constructor
  · intro h name
    rw [StrategyRouter.isEnabled]
    split
    · rfl
    · rename_i reg hreg
      exact Bool.eq_false_iff.mpr (h ⟨name, reg⟩ (AList.mem_lookup_iff.mp hreg))
  · rintro h ⟨name, reg⟩ hmem
    have hoff := h name
    rw [StrategyRouter.isEnabled, AList.mem_lookup_iff.mpr hmem] at hoff
    exact Bool.eq_false_iff.mp hoff

/-- A heartbeat logs a line for every strategy that is on. -/
theorem logCounts_perm (r : StrategyRouter) : (logCounts r).1.Perm (evaluationCounts r) := by
  by_cases hempty : (evaluationCounts r).isEmpty
  · simp [logCounts, List.isEmpty_iff.mp hempty]
  · have hlines : (logCounts r).1 = (evaluationCounts r).insertionSort fun a b => a.1 ≤ b.1 := by
      simp only [logCounts, hempty, Bool.false_eq_true, if_false]
    rw [hlines]
    exact List.perm_insertionSort _ _

/-- The line of a strategy, if it is on. -/
theorem filter_evaluationCounts (name : String) (r : StrategyRouter) :
    ((evaluationCounts r).filter (·.1 = name)).map (·.2) = if r.isEnabled name then [pending name r] else [] := by
  have hlines : ((evaluationCounts r).filter (·.1 = name)).map (·.2) =
      ((r.entries.filter fun e => e.1 = name).filter fun e => e.2.enabled && e.2.isEnabled).map
        fun e => (e.2.evalCount, e.2.intentCount) := by
    rw [evaluationCounts, List.filter_map, List.map_map, List.filter_filter, List.filter_filter]
    simp only [Function.comp_def, Bool.and_comm]
  rw [hlines, filter_entries_key, StrategyRouter.isEnabled, pending]
  cases r.lookup name with
  | none => rfl
  | some reg => cases hon : (reg.enabled && reg.isEnabled) <;> simp [hon]

theorem reported_heartbeat (name : String) (r : StrategyRouter) :
    reported name r .heartbeat = if r.isEnabled name then pending name r else 0 := by
  have hperm := ((logCounts_perm r).filter (·.1 = name)).map (·.2)
  rw [reported, handle, hperm.sum_eq, filter_evaluationCounts]
  split <;> simp

theorem pending_resetEvaluationCounts (name : String) (r : StrategyRouter) :
    pending name (resetEvaluationCounts r) = 0 := by
  rw [pending, resetEvaluationCounts, lookup_mapValues]
  cases r.lookup name <;> rfl

theorem pending_onBookUpdate (name : String) (r : StrategyRouter) (marketId : ConditionId)
    (answer : String → List OrderIntent) :
    pending name (r.onBookUpdate answer marketId).2 =
      pending name r + evaluated name r (.bookUpdate marketId answer) := by
  rw [pending, StrategyRouter.onBookUpdate, lookup_mapValues, pending, evaluated]
  cases r.lookup name with
  | none => rfl
  | some reg =>
    dsimp only [Option.map_some]
    split <;> rfl

theorem pending_setEnabled {name other : String} {enabled : Bool} {r r' : StrategyRouter}
    (h : r.setEnabled other enabled = .ok r') : pending name r' = pending name r := by
  rw [StrategyRouter.setEnabled] at h
  split at h
  · cases h
  · rename_i reg hreg
    rw [← Except.ok.inj h, pending, pending]
    by_cases hname : name = other
    · rw [hname, AList.lookup_insert, hreg]
    · rw [AList.lookup_insert_ne hname]

/-- What is pending after an event, is logged or is dropped was pending before or is evaluated by it. -/
theorem pending_step (name : String) (r : StrategyRouter) (e : Event) :
    pending name (step r e) + (reported name r e + dropped name r e) = pending name r + evaluated name r e := by
  cases e with
  | bookUpdate marketId answer => exact pending_onBookUpdate name r marketId answer
  | setStrategy other enabled =>
    have hsame : pending name (step r (.setStrategy other enabled)) = pending name r := by
      rw [step, handle]
      split
      · rename_i h
        exact pending_setEnabled h
      · rfl
    rw [hsame]
    rfl
  | heartbeat =>
    rw [reported_heartbeat, dropped, evaluated, step, handle, logCounts]
    split
    · rename_i hempty
      have hoff := evaluationCounts_eq_nil_iff.mp (List.isEmpty_iff.mp hempty)
      simp [hoff, List.isEmpty_iff.mp hempty]
    · rename_i hsome
      rw [pending_resetEvaluationCounts]
      cases hon : r.isEnabled name <;> simp [List.isEmpty_iff.not.mp hsome]

def LosesCounts (name : String) (r : StrategyRouter) (e : Event) : Prop :=
  e = .heartbeat ∧ r.isEnabled name = false ∧ (∃ other, r.isEnabled other = true) ∧ pending name r ≠ 0

theorem dropped_eq_zero_iff (name : String) (r : StrategyRouter) (e : Event) :
    dropped name r e = 0 ↔ ¬LosesCounts name r e := by
  cases e with
  | bookUpdate | setStrategy => simp [dropped, LosesCounts]
  | heartbeat =>
    have hother : evaluationCounts r ≠ [] ↔ ∃ other, r.isEnabled other = true := by
      simp [Ne, evaluationCounts_eq_nil_iff]
    rw [dropped, LosesCounts, ← hother, ite_eq_right_iff]
    tauto

variable (name : String) (r : StrategyRouter) (events : List Event)

theorem pending_run :
    pending name (events.foldl step r) +
        (sumAlong step (reported name) r events + sumAlong step (dropped name) r events) =
      pending name r + sumAlong step (evaluated name) r events := by
  rw [← sumAlong_add]
  exact balance_run (pending_step name) r events

/-- Of every strategy the logged evaluations and intents are those that the router asked for, save for those still
counted, exactly if no heartbeat finds the strategy off, with counts, while another strategy is on. -/
theorem logs_evaluations_iff :
    pending name (events.foldl step r) + sumAlong step (reported name) r events =
        pending name r + sumAlong step (evaluated name) r events ↔
      Throughout step (fun r e => ¬LosesCounts name r e) r events := by
  have hrun := pending_run name r events
  rw [← add_assoc] at hrun
  rw [← hrun, left_eq_add, sumAlong_eq_zero_iff]
  simp only [dropped_eq_zero_iff]

end PolyBot.Bot.StrategyCounts
