import PolyBot.Orchestrator.Execution

/-! A spawned batch, step by step. Between two of its steps anything else may use the executor. -/

namespace PolyBot.Bot
open OrderExecutor

/-- How far a spawned batch has come. The unwind loop sends one unwind at a time. -/
inductive TaskStage where
  | legs (legs : List LegState)
  | unwinds (results : List ExecutionResult) (deadline : Instant) (sent : Option OrderParams)
      (unwinds : List OrderIntent)
  | finished

structure Task where
  intents : List OrderIntent
  stage : TaskStage

inductive TaskEvent where
  | leg (event : BatchEvent)
  | enterUnwinds (now : Instant)
  | startUnwind (now : Instant) (nowSecs : ℕ)
  | answerUnwind (now : Instant) (reply : Reply)
  | timeOutUnwind
  | handleResults (now : Instant)

namespace Task

def spawn (intents : List OrderIntent) : Task := ⟨intents, .legs (intents.map fun _ => .idle)⟩

def answered (task : Task) : TaskEvent → Option (OrderParams × Reply)
  | .leg (.answer leg _ reply) =>
    match task.stage with
    | .legs legs =>
      match task.intents[leg]?, legs[leg]? with
      | some _, some (.inFlight params) => some (params, reply)
      | _, _ => none
    | _ => none
  | .answerUnwind _ reply =>
    match task.stage with
    | .unwinds _ _ (some params) (_ :: _) => some (params, reply)
    | _ => none
  | _ => none

def step (ex : OrderExecutor) (task : Task) : TaskEvent → OrderExecutor × Task
  | .leg event =>
    match task.stage with
    | .legs legs =>
      let s := BatchState.step task.intents ⟨ex, legs⟩ event
      (s.executor, { task with stage := .legs s.legs })
    | _ => (ex, task)
  | .enterUnwinds now =>
    match task.stage with
    | .legs legs =>
      match BatchState.results ⟨ex, legs⟩ with
      | some results =>
        (ex, { task with stage := .unwinds results (unwindDeadline now) none (plannedUnwinds task.intents results) })
      | none => (ex, task)
    | _ => (ex, task)
  | .startUnwind now nowSecs =>
    match task.stage with
    | .unwinds results deadline none (unwind :: unwinds) =>
      -- the deadline ends the loop
      if deadline ≤ now then (ex, { task with stage := .unwinds results deadline none [] })
      else
        match ex.passChecks now nowSecs unwind with
        | (.refused _, ex) => (ex.manualOpen now, { task with stage := .unwinds results deadline none unwinds })
        | (.admitted params, ex) =>
          (ex, { task with stage := .unwinds results deadline (some params) (unwind :: unwinds) })
    | _ => (ex, task)
  | .answerUnwind now reply =>
    match task.stage with
    | .unwinds results deadline (some params) (unwind :: unwinds) =>
      let (result, ex) := ex.answer now unwind params reply
      (if result.status = .FullyFilled then ex else ex.manualOpen now,
        { task with stage := .unwinds results deadline none unwinds })
    | _ => (ex, task)
  | .timeOutUnwind =>
    match task.stage with
    | .unwinds results deadline (some _) (_ :: unwinds) =>
      (ex.manualOpen deadline, { task with stage := .unwinds results deadline none unwinds })
    | _ => (ex, task)
  | .handleResults now =>
    match task.stage with
    | .unwinds results _ none [] => (handleResults now results ex, { task with stage := .finished })
    | _ => (ex, task)

end Task

def Task.run (ex : OrderExecutor) (task : Task) (events : List TaskEvent) : OrderExecutor × Task :=
  events.foldl (fun s event => s.2.step s.1 event) (ex, task)

def turnEvents (turn : UnwindTurn) : List TaskEvent :=
  [.startUnwind turn.start turn.startSecs,
    match turn.reply with
    | none => .timeOutUnwind
    | some (reply, answeredAt) => .answerUnwind answeredAt reply]

namespace Task

theorem run_cons (ex : OrderExecutor) (task : Task) (event : TaskEvent) (events : List TaskEvent) :
    task.run ex (event :: events) = (task.step ex event).2.run (task.step ex event).1 events := rfl

theorem run_append (ex : OrderExecutor) (task : Task) (events events' : List TaskEvent) :
    task.run ex (events ++ events') = (task.run ex events).2.run (task.run ex events).1 events' :=
  List.foldl_append ..

theorem run_legs (ex : OrderExecutor) (intents : List OrderIntent) (legs : List LegState) (schedule : List BatchEvent) :
    Task.run ex ⟨intents, .legs legs⟩ (schedule.map .leg) =
      let s := schedule.foldl (BatchState.step intents) ⟨ex, legs⟩
      (s.executor, ⟨intents, .legs s.legs⟩) := by
  induction schedule generalizing ex legs with
  | nil => rfl
  | cons event schedule ih => exact ih _ _

section Turn
variable (ex : OrderExecutor) (intents : List OrderIntent) (results : List ExecutionResult) (deadline : Instant)

/-- The second event of a turn does nothing when no unwind has been sent. -/
theorem run_turn_of_unsent {turn : UnwindTurn} {unwinds rest : List OrderIntent} {ex' : OrderExecutor}
    (hstart : Task.step ex ⟨intents, .unwinds results deadline none unwinds⟩ (.startUnwind turn.start turn.startSecs) =
      (ex', ⟨intents, .unwinds results deadline none rest⟩)) :
    Task.run ex ⟨intents, .unwinds results deadline none unwinds⟩ (turnEvents turn) =
      (ex', ⟨intents, .unwinds results deadline none rest⟩) := by
  rw [turnEvents, run_cons, hstart]
  cases turn.reply <;> rfl

theorem run_turn_nil (turn : UnwindTurn) :
    Task.run ex ⟨intents, .unwinds results deadline none []⟩ (turnEvents turn) =
      (ex, ⟨intents, .unwinds results deadline none []⟩) :=
  run_turn_of_unsent ex intents results deadline rfl

theorem run_turn_late {turn : UnwindTurn} (h : deadline ≤ turn.start) (unwind : OrderIntent)
    (unwinds : List OrderIntent) :
    Task.run ex ⟨intents, .unwinds results deadline none (unwind :: unwinds)⟩ (turnEvents turn) =
      (ex, ⟨intents, .unwinds results deadline none []⟩) := by
  refine run_turn_of_unsent ex intents results deadline ?_
  simp only [step, if_pos h]

theorem run_turn {turn : UnwindTurn} (h : turn.start < deadline) (unwind : OrderIntent) (unwinds : List OrderIntent) :
    Task.run ex ⟨intents, .unwinds results deadline none (unwind :: unwinds)⟩ (turnEvents turn) =
      ((ex.unwindOne deadline turn unwind).2, ⟨intents, .unwinds results deadline none unwinds⟩) := by
  cases hpass : ex.passChecks turn.start turn.startSecs unwind with
  | mk admission ex' =>
    cases admission with
    | refused result =>
      have hone : (ex.unwindOne deadline turn unwind).2 = ex'.manualOpen turn.start := by
        simp only [unwindOne, hpass]
      rw [hone]
      refine run_turn_of_unsent ex intents results deadline ?_
      simp only [step, if_neg (not_le.mpr h), hpass]
    | admitted params =>
      have hstart : Task.step ex ⟨intents, .unwinds results deadline none (unwind :: unwinds)⟩
          (.startUnwind turn.start turn.startSecs) =
            (ex', ⟨intents, .unwinds results deadline (some params) (unwind :: unwinds)⟩) := by
        simp only [step, if_neg (not_le.mpr h), hpass]
      rw [turnEvents, run_cons, hstart, unwindOne, hpass]
      cases turn.reply <;> rfl

end Turn

def loopEvents (turns : ℕ → UnwindTurn) (n : ℕ) : List TaskEvent :=
  (List.range n).flatMap fun i => turnEvents (turns i)

theorem loopEvents_succ (turns : ℕ → UnwindTurn) (n : ℕ) :
    loopEvents turns (n + 1) = turnEvents (turns 0) ++ loopEvents (fun i => turns (i + 1)) n := by
  simp only [loopEvents, List.range_succ_eq_map, List.flatMap_cons, List.flatMap_map]

/-- Without unwinds left the loop does nothing. -/
theorem run_loop_nil (ex : OrderExecutor) (intents : List OrderIntent) (results : List ExecutionResult)
    (deadline : Instant) (turns : ℕ → UnwindTurn) (n : ℕ) :
    Task.run ex ⟨intents, .unwinds results deadline none []⟩ (loopEvents turns n) =
      (ex, ⟨intents, .unwinds results deadline none []⟩) := by
  induction n generalizing turns with
  | zero => rfl
  | succ n ih =>
    rw [loopEvents_succ, run_append, run_turn_nil]
    exact ih _

theorem run_loop (ex : OrderExecutor) (intents : List OrderIntent) (results : List ExecutionResult)
    (deadline : Instant) (turns : ℕ → UnwindTurn) (unwinds : List OrderIntent) :
    Task.run ex ⟨intents, .unwinds results deadline none unwinds⟩ (loopEvents turns unwinds.length) =
      ((ex.runUnwinds deadline turns unwinds).2, ⟨intents, .unwinds results deadline none []⟩) := by
  induction unwinds generalizing ex turns with
  | nil => rfl
  | cons unwind unwinds ih =>
    rw [List.length_cons, loopEvents_succ, run_append]
    by_cases hlate : deadline ≤ (turns 0).start
    · rw [run_turn_late ex intents results deadline hlate, run_loop_nil]
      simp only [runUnwinds, if_pos hlate]
    · rw [run_turn ex intents results deadline (not_le.mp hlate), ih]
      simp only [runUnwinds, if_neg hlate]

/-- A task that nothing interrupts does what `executeIntents` does. -/
theorem run_eq_executeIntents {ex final : OrderExecutor} {intents : List OrderIntent} {schedule : List BatchEvent}
    {loopStart handledAt : Instant} {turns : ℕ → UnwindTurn} {results : List ExecutionResult}
    {outcomes : List UnwindOutcome}
    (h : executeIntents ex intents schedule loopStart turns handledAt = some (results, outcomes, final)) :
    (spawn intents).run ex (schedule.map .leg ++ .enterUnwinds loopStart ::
        (loopEvents turns (plannedUnwinds intents results).length ++ [.handleResults handledAt])) =
      (final, ⟨intents, .finished⟩) := by
  simp only [executeIntents_eq, executeBatch, Option.map_map, Option.map_eq_some_iff, Function.comp_apply,
    Prod.mk.injEq] at h
  obtain ⟨results, hresults, rfl, -, rfl⟩ := h
  set s := schedule.foldl (BatchState.step intents) (BatchState.begin ex intents)
  have hlegs : (spawn intents).run ex (schedule.map .leg) = (s.executor, ⟨intents, .legs s.legs⟩) :=
    run_legs ex intents _ schedule
  have henter : Task.step s.executor ⟨intents, .legs s.legs⟩ (.enterUnwinds loopStart) =
      (s.executor, ⟨intents, .unwinds results (unwindDeadline loopStart) none (plannedUnwinds intents results)⟩) := by
    simp only [step, hresults]
  rw [run_append, hlegs, run_cons, henter, run_append, run_loop]
  rfl

end Task

end PolyBot.Bot
