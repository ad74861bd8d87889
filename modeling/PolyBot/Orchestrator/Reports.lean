import PolyBot.Orchestrator.LiveBot
import PolyBot.Risk.BreakerRuns

/-! What the steps of the bot report to the breaker, in the order in which they do. -/

namespace PolyBot.Bot
open OrderExecutor CircuitBreaker

inductive Report where
  | asked
  | submitted
  | answered (reply : Reply)
  | handled (result : ExecutionResult)
  | halted

structure TimedReport where
  now : Instant
  report : Report

namespace TimedReport

/-- Sending an order is not reported to the breaker. -/
def apply (cb : CircuitBreaker) (r : TimedReport) : CircuitBreaker :=
  match r.report with
  | .asked => (cb.isTradingAllowed r.now).2
  | .submitted => cb
  | .answered reply => cb.recordOrderResult (errorOf reply) r.now
  | .handled result => handleExecutionResult cb result r.now
  | .halted => cb.manualOpen r.now

def op? (r : TimedReport) : Option BreakerOp :=
  match r.report with
  | .asked => some .isTradingAllowed
  | .submitted => none
  | .answered reply => some (.recordOrderResult (errorOf reply))
  | .handled result =>
    match result.status with
    | .FullyFilled | .PartialFill => some (.recordOrderResult none)
    | .Rejected => some (.recordOrderResult (some .Expected))
    | .SubmissionFailed => some (.recordOrderResult (some .Retryable))
    | .Pending | .Cancelled | .CircuitOpen => none
  | .halted => some .manualOpen

theorem apply_eq (cb : CircuitBreaker) (r : TimedReport) :
    r.apply cb = (r.op?.map fun op => op.apply cb r.now).getD cb := by
  obtain ⟨now, report⟩ := r
  cases report with
  | handled result =>
    simp only [apply, op?, handleExecutionResult]
    cases result.status <;> rfl
  | _ => rfl

theorem apply_of_op?_none {r : TimedReport} (h : r.op? = none) (cb : CircuitBreaker) : r.apply cb = cb := by
  rw [apply_eq, h]
  rfl

theorem apply_of_op?_some {r : TimedReport} {op : BreakerOp} (h : r.op? = some op) (cb : CircuitBreaker) :
    r.apply cb = op.apply cb r.now := by
  rw [apply_eq, h]
  rfl

/-- The exchange accepted an order. Every order is answered once. -/
def accepts (r : TimedReport) : Bool :=
  match r.report with
  | .answered reply => errorOf reply = none
  | _ => false

def rejectsFatally (r : TimedReport) : Bool :=
  match r.report with
  | .answered reply => errorOf reply = some .Fatal
  | _ => false

theorem op?_eq_fatal_iff (r : TimedReport) :
    r.op? = some (.recordOrderResult (some .Fatal)) ↔ r.rejectsFatally = true := by
  obtain ⟨now, report⟩ := r
  cases report with
  | answered reply => simp [op?, rejectsFatally]
  | handled result => cases h : result.status <;> simp [op?, rejectsFatally, h]
  | _ => simp [op?, rejectsFatally]

theorem not_rejectsFatally_of_accepts {r : TimedReport} (h : r.accepts = true) : r.rejectsFatally = false := by
  obtain ⟨now, report⟩ := r
  cases report with
  | answered reply => simp_all [accepts, rejectsFatally]
  | _ => rfl

/-- The bot asks, records results and halts; it never resets the counters or forces the breaker closed. -/
theorem op?_cases (r : TimedReport) :
    r.op? = none ∨ r.op? = some .isTradingAllowed ∨ r.op? = some .manualOpen ∨
      ∃ error, r.op? = some (.recordOrderResult error) := by
  obtain ⟨now, report⟩ := r
  cases report with
  | asked => exact .inr (.inl rfl)
  | submitted => exact .inl rfl
  | answered reply => exact .inr (.inr (.inr ⟨_, rfl⟩))
  | handled result => cases h : result.status <;> simp [op?, h]
  | halted => exact .inr (.inr (.inl rfl))

theorem op?_ne {r : TimedReport} {op : BreakerOp} (h : r.op? = some op) : op ≠ .resetCounters ∧ op ≠ .forceClose := by
  rcases op?_cases r with hnone | hasked | hhalted | ⟨error, hrecord⟩
  · rw [h] at hnone
    cases hnone
  · obtain rfl := Option.some.inj (h.symm.trans hasked)
    exact ⟨nofun, nofun⟩
  · obtain rfl := Option.some.inj (h.symm.trans hhalted)
    exact ⟨nofun, nofun⟩
  · obtain rfl := Option.some.inj (h.symm.trans hrecord)
    exact ⟨nofun, nofun⟩

/-- Reports that are not successes neither count in a half-open breaker nor close it. -/
theorem apply_of_not_success {cb : CircuitBreaker} {r : TimedReport}
    (hop : r.op? ≠ some (.recordOrderResult none)) (hbefore : cb.state = .HalfOpen) :
    (r.apply cb).state ≠ .Closed ∧
      ((r.apply cb).state = .HalfOpen → (r.apply cb).halfOpenSuccesses = cb.halfOpenSuccesses) := by
  cases hreport : r.op? with
  | none =>
    rw [apply_of_op?_none hreport]
    exact ⟨by simp [hbefore], fun _ => rfl⟩
  | some op =>
    rw [hreport, ne_eq, Option.some.injEq] at hop
    obtain ⟨hreset, hforce⟩ := op?_ne hreport
    rw [apply_of_op?_some hreport]
    refine ⟨?_, halfOpenSuccesses_apply hreset hop hbefore⟩
    intro hafter
    cases moved_apply cb r.now op with
    | stays hsame _ _ _ =>
      rw [hsame.state, hbefore] at hafter
      cases hafter
    | opens _ _ _ hstate _ _ =>
      rw [hstate] at hafter
      cases hafter
    | timesOut _ hstate _ _ =>
      rw [hbefore] at hstate
      cases hstate
    | reconnects _ hstate _ _ =>
      rw [hbefore] at hstate
      cases hstate
    | closes _ hwhy =>
      rcases hwhy with heq | ⟨-, heq⟩
      · exact hforce heq
      · exact hop heq

end TimedReport

def passReports (ex : OrderExecutor) (now : Instant) (nowSecs : ℕ) (intent : OrderIntent) : List TimedReport :=
  match ex.passChecks now nowSecs intent with
  | (.refused _, _) => [⟨now, .asked⟩]
  | (.admitted _, _) => [⟨now, .asked⟩, ⟨now, .submitted⟩]

namespace Task

def reports (ex : OrderExecutor) (task : Task) : TaskEvent → List TimedReport
  | .leg (.start leg now nowSecs) =>
    match task.stage with
    | .legs legs =>
      match task.intents[leg]?, legs[leg]? with
      | some intent, some .idle => passReports ex now nowSecs intent
      | _, _ => []
    | _ => []
  | .leg (.answer leg now reply) =>
    match task.answered (.leg (.answer leg now reply)) with
    | some _ => [⟨now, .answered reply⟩]
    | none => []
  | .enterUnwinds _ => []
  | .startUnwind now nowSecs =>
    match task.stage with
    | .unwinds _ deadline none (unwind :: _) =>
      if deadline ≤ now then []
      else
        match ex.passChecks now nowSecs unwind with
        | (.refused _, _) => passReports ex now nowSecs unwind ++ [⟨now, .halted⟩]
        | (.admitted _, _) => passReports ex now nowSecs unwind
    | _ => []
  | .answerUnwind now reply =>
    match task.stage with
    | .unwinds _ _ (some params) (unwind :: _) =>
      if (ex.answer now unwind params reply).1.status = .FullyFilled then [⟨now, .answered reply⟩]
      else [⟨now, .answered reply⟩, ⟨now, .halted⟩]
    | _ => []
  | .timeOutUnwind =>
    match task.stage with
    | .unwinds _ deadline (some _) (_ :: _) => [⟨deadline, .halted⟩]
    | _ => []
  | .handleResults now =>
    match task.stage with
    | .unwinds results _ none [] => results.map fun result => ⟨now, .handled result⟩
    | _ => []

end Task

def applyReports (cb : CircuitBreaker) (reports : List TimedReport) : CircuitBreaker :=
  reports.foldl TimedReport.apply cb

theorem passChecks_breaker (ex : OrderExecutor) (now : Instant) (nowSecs : ℕ) (intent : OrderIntent) :
    (ex.passChecks now nowSecs intent).2.circuitBreaker = (ex.circuitBreaker.isTradingAllowed now).2 := by
  unfold passChecks
  dsimp only
  split
  · rfl
  · split <;> rfl

theorem applyReports_passReports (ex : OrderExecutor) (now : Instant) (nowSecs : ℕ) (intent : OrderIntent) :
    applyReports ex.circuitBreaker (passReports ex now nowSecs intent) =
      (ex.passChecks now nowSecs intent).2.circuitBreaker := by
  rw [passChecks_breaker]
  unfold passReports
  split <;> rfl

namespace Task

theorem reports_leg (ex : OrderExecutor) (task : Task) (event : BatchEvent) :
    (task.step ex (.leg event)).1.circuitBreaker = applyReports ex.circuitBreaker (task.reports ex (.leg event)) := by
  obtain ⟨intents, stage⟩ := task
  cases stage with
  | unwinds results deadline sent unwinds => cases event <;> rfl
  | finished => cases event <;> rfl
  | legs legs =>
    cases event with
    | start leg now nowSecs =>
      simp only [step, BatchState.step, reports]
      cases hintent : intents[leg]? with
      | none => rfl
      | some intent =>
        cases hleg : legs[leg]? with
        | none => rfl
        | some leg =>
          cases leg with
          | idle =>
            dsimp only
            rw [applyReports_passReports]
            split
            · rename_i hpass
              rw [hpass]
            · rename_i hpass
              rw [hpass]
          | inFlight params => rfl
          | done result => rfl
    | answer leg now reply =>
      simp only [step, BatchState.step, reports, answered]
      cases hintent : intents[leg]? with
      | none => rfl
      | some intent =>
        cases hleg : legs[leg]? with
        | none => rfl
        | some leg =>
          cases leg with
          | idle => rfl
          | inFlight params => exact congrArg (·.circuitBreaker) (answer_executor ex now intent params reply)
          | done result => rfl

theorem reports_startUnwind (ex : OrderExecutor) (task : Task) (now : Instant) (nowSecs : ℕ) :
    (task.step ex (.startUnwind now nowSecs)).1.circuitBreaker =
      applyReports ex.circuitBreaker (task.reports ex (.startUnwind now nowSecs)) := by
  obtain ⟨intents, stage⟩ := task
  match stage with
  | .legs _ => rfl
  | .finished => rfl
  | .unwinds _ _ (some _) _ => rfl
  | .unwinds _ _ none [] => rfl
  | .unwinds results deadline none (unwind :: unwinds) =>
    simp only [step, reports]
    split
    · rfl
    · have hpassed := applyReports_passReports ex now nowSecs unwind
      cases hpass : ex.passChecks now nowSecs unwind with
      | mk admission ex' =>
        rw [hpass] at hpassed
        cases admission with
        | refused result =>
          dsimp only at hpassed ⊢
          rw [applyReports, List.foldl_append]
          exact congrArg (CircuitBreaker.manualOpen · now) hpassed.symm
        | admitted params => exact hpassed.symm

theorem reports_answerUnwind (ex : OrderExecutor) (task : Task) (now : Instant) (reply : Reply) :
    (task.step ex (.answerUnwind now reply)).1.circuitBreaker =
      applyReports ex.circuitBreaker (task.reports ex (.answerUnwind now reply)) := by
  obtain ⟨intents, stage⟩ := task
  match stage with
  | .legs _ => rfl
  | .finished => rfl
  | .unwinds _ _ none _ => rfl
  | .unwinds _ _ (some _) [] => rfl
  | .unwinds results deadline (some params) (unwind :: unwinds) =>
    have hanswer := congrArg (·.circuitBreaker) (answer_executor ex now unwind params reply)
    simp only [step, reports]
    split
    · exact hanswer
    · exact congrArg (CircuitBreaker.manualOpen · now) hanswer

theorem reports_handleResults (ex : OrderExecutor) (task : Task) (now : Instant) :
    (task.step ex (.handleResults now)).1.circuitBreaker =
      applyReports ex.circuitBreaker (task.reports ex (.handleResults now)) := by
  obtain ⟨intents, stage⟩ := task
  match stage with
  | .legs _ => rfl
  | .finished => rfl
  | .unwinds _ _ (some _) _ => rfl
  | .unwinds _ _ none (_ :: _) => rfl
  | .unwinds results _ none [] =>
    simp only [step, reports, applyReports, List.foldl_map]
    rfl

/-- A step of a task does to the breaker what it reports. -/
theorem reports_step (ex : OrderExecutor) (task : Task) (event : TaskEvent) :
    (task.step ex event).1.circuitBreaker = applyReports ex.circuitBreaker (task.reports ex event) := by
  cases event with
  | leg event => exact reports_leg ex task event
  | enterUnwinds now =>
    simp only [step, reports]
    split
    · split <;> rfl
    · rfl
  | startUnwind now nowSecs => exact reports_startUnwind ex task now nowSecs
  | answerUnwind now reply => exact reports_answerUnwind ex task now reply
  | timeOutUnwind =>
    obtain ⟨intents, stage⟩ := task
    cases stage with
    | unwinds _ _ awaiting unwinds =>
      cases awaiting with
      | none => rfl
      | some _ => cases unwinds <;> rfl
    | _ => rfl
  | handleResults now => exact reports_handleResults ex task now

end Task

namespace LiveState

def reports (s : LiveState) : LiveEvent → List TimedReport
  | .processIntents _ now => [⟨now, .asked⟩]
  | .heartbeat _ now => [⟨now, .asked⟩]
  | .task i event _ =>
    match s.tasks[i]? with
    | none => []
    | some task => task.reports s.executor event
  | _ => []

def runReports : LiveState → List LiveEvent → List TimedReport
  | _, [] => []
  | s, event :: events => s.reports event ++ runReports (s.step event) events

theorem breaker_step (s : LiveState) (event : LiveEvent) :
    (s.step event).executor.circuitBreaker = applyReports s.executor.circuitBreaker (s.reports event) := by
  cases event with
  | task i event left =>
    simp only [step, trade, reports]
    cases htask : s.tasks[i]? with
    | none => rfl
    | some task => exact Task.reports_step s.executor task event
  | _ => rfl

/-- A run of the bot does to the breaker what its steps report. -/
theorem breaker_run (s : LiveState) (events : List LiveEvent) :
    (s.run events).executor.circuitBreaker = applyReports s.executor.circuitBreaker (s.runReports events) := by
  induction events generalizing s with
  | nil => rfl
  | cons event events ih =>
    rw [runReports, applyReports, List.foldl_append]
    have hstep := breaker_step s event
    rw [applyReports] at hstep
    rw [← hstep]
    exact ih (s.step event)

end LiveState

end PolyBot.Bot
