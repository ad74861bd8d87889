import PolyBot.Execution.Executor

namespace PolyBot.Bot
open OrderExecutor

def handleExecutionResult (cb : CircuitBreaker) (result : ExecutionResult) (now : Instant) : CircuitBreaker :=
  match result.status with
  | .FullyFilled => cb.recordOrderResult none now
  | .PartialFill => cb.recordOrderResult none now
  | .Pending => cb
  | .Rejected => cb.recordOrderResult (some .Expected) now
  | .Cancelled => cb
  | .SubmissionFailed => cb.recordOrderResult (some .Retryable) now
  | .CircuitOpen => cb

def handleResults (now : Instant) (results : List ExecutionResult) (ex : OrderExecutor) : OrderExecutor :=
  { ex with circuitBreaker := results.foldl (fun cb result => handleExecutionResult cb result now) ex.circuitBreaker }

def executeIntents (ex : OrderExecutor) (intents : List OrderIntent) (schedule : List BatchEvent)
    (loopStart : Instant) (turns : ℕ → UnwindTurn) (handledAt : Instant) :
    Option (List ExecutionResult × List UnwindOutcome × OrderExecutor) :=
  if firstIsGrouped intents then
    (ex.executeGrouped intents schedule loopStart turns).map fun (results, outcomes, ex) =>
      (results, outcomes, handleResults handledAt results ex)
  else
    (ex.executeBatch intents schedule).map fun (results, ex) => (results, [], handleResults handledAt results ex)

/-- Both paths are the grouped one: a batch that is not grouped plans no unwinds. -/
theorem executeIntents_eq (ex : OrderExecutor) (intents : List OrderIntent) (schedule : List BatchEvent)
    (loopStart : Instant) (turns : ℕ → UnwindTurn) (handledAt : Instant) :
    executeIntents ex intents schedule loopStart turns handledAt =
      (ex.executeBatch intents schedule).map fun (results, ex) =>
        let (outcomes, ex) := ex.runUnwinds (unwindDeadline loopStart) turns (plannedUnwinds intents results)
        (results, outcomes, handleResults handledAt results ex) := by
  unfold executeIntents executeGrouped
  by_cases h : firstIsGrouped intents
  · rw [if_pos h, Option.map_map]
    rfl
  · rw [if_neg h]
    simp only [plannedUnwinds, if_neg h, runUnwinds]

end PolyBot.Bot
