import PolyBot.Execution.Policy
import PolyBot.Execution.Quantizer
import PolyBot.Risk.CircuitBreaker
import PolyBot.Risk.RateLimiter

/-! Order execution. What the exchange answers, and when, is an argument of every step. -/

namespace PolyBot

inductive ExecutionStatus where
  | FullyFilled
  | PartialFill
  | Pending
  | Rejected
  | Cancelled
  | SubmissionFailed
  | CircuitOpen
  deriving DecidableEq, Repr

structure PostOrderResponse where
  success : Bool
  errorMsg : Option String
  orderId : OrderId
  takingAmount : Decimal
  taking_le_max : takingAmount ≤ Decimal.max
  deriving DecidableEq, Repr

def PostOrderResponse.taking (orderId : OrderId) (size : Decimal) : PostOrderResponse :=
  ⟨true, none, orderId, min size Decimal.max, min_le_right _ _⟩

abbrev Reply := Except String PostOrderResponse

structure ExecutionResult where
  intentTokenId : TokenId
  orderId : Option OrderId
  filled : Bool
  filledSize : Decimal
  requestedSize : Decimal
  status : ExecutionStatus
  error : Option String
  filled_le_max : filledSize ≤ Decimal.max
  deriving DecidableEq, Repr

theorem Decimal.zero_le_max : (0 : Decimal) ≤ Decimal.max := by decide +kernel

def ExecutionResult.refusal (intent : OrderIntent) (status : ExecutionStatus) (error : String) : ExecutionResult :=
  ⟨intent.tokenId, none, false, 0, intent.size, status, some error, Decimal.zero_le_max⟩

structure OrderExecutor where
  policy : ExecutionPolicy
  circuitBreaker : CircuitBreaker
  rateLimiter : RateLimiter

def ExecutionPolicy.orderParams (policy : ExecutionPolicy) (nowSecs : ℕ) (intent : OrderIntent) : OrderParams :=
  let params := policy.toOrderParams nowSecs (IntentRef.fromIntent intent)
  { params with size := quantizeSizeForUsdcPrecision params.price params.size }

inductive Admission where
  | refused (result : ExecutionResult)
  | admitted (params : OrderParams)

namespace OrderExecutor

def new (policy : ExecutionPolicy) (circuitBreaker : CircuitBreaker) : OrderExecutor :=
  ⟨policy, circuitBreaker, RateLimiter.forOrderSubmission⟩

def passChecks (ex : OrderExecutor) (now : Instant) (nowSecs : ℕ) (intent : OrderIntent) : Admission × OrderExecutor :=
  let (allowed, circuitBreaker) := ex.circuitBreaker.isTradingAllowed now
  let ex := { ex with circuitBreaker := circuitBreaker }
  if allowed = false then (.refused (.refusal intent .CircuitOpen "Circuit breaker open"), ex)
  else
    let (acquired, rateLimiter) := ex.rateLimiter.tryAcquire now
    let ex := { ex with rateLimiter := rateLimiter }
    if acquired = false then (.refused (.refusal intent .SubmissionFailed "Rate limit exceeded"), ex)
    else (.admitted (ex.policy.orderParams nowSecs intent), ex)

def recordOrderResult (ex : OrderExecutor) (error : Option ErrorType) (now : Instant) : OrderExecutor :=
  { ex with circuitBreaker := ex.circuitBreaker.recordOrderResult error now }

def acceptedStatus (params : OrderParams) (filledSize : Decimal) : ExecutionStatus :=
  if params.size ≤ filledSize then .FullyFilled
  else if 0 < filledSize then .PartialFill
  else if params.orderType = .FOK then .Cancelled
  else .Pending

def acceptedResult (params : OrderParams) (response : PostOrderResponse) : ExecutionResult :=
  let filledSize := min response.takingAmount params.size
  ⟨params.tokenId, some response.orderId, 0 < filledSize, filledSize, params.size,
    acceptedStatus params filledSize, none, (min_le_left _ _).trans response.taking_le_max⟩

def rejectedResult (params : OrderParams) (errorMsg : String) : ExecutionResult :=
  ⟨params.tokenId, none, false, 0, params.size, .Rejected, some errorMsg, Decimal.zero_le_max⟩

def processResponse (ex : OrderExecutor) (now : Instant) (params : OrderParams) (response : PostOrderResponse) :
    ExecutionResult × OrderExecutor :=
  if response.success then (acceptedResult params response, ex.recordOrderResult none now)
  else
    let errorMsg := response.errorMsg.getD ""
    (rejectedResult params errorMsg, ex.recordOrderResult (some (.fromErrorMsg errorMsg)) now)

def answer (ex : OrderExecutor) (now : Instant) (intent : OrderIntent) (params : OrderParams) :
    Reply → ExecutionResult × OrderExecutor
  | .ok response => ex.processResponse now params response
  | .error e => (.refusal intent .SubmissionFailed e, ex.recordOrderResult (some .Retryable) now)

/-- One intent from the checks to the result; `answeredAt` is the clock when the reply is in. -/
def execute (ex : OrderExecutor) (now : Instant) (nowSecs : ℕ) (intent : OrderIntent) (reply : Reply)
    (answeredAt : Instant) : ExecutionResult × OrderExecutor :=
  match ex.passChecks now nowSecs intent with
  | (.refused result, ex) => (result, ex)
  | (.admitted params, ex) => ex.answer answeredAt intent params reply

def manualOpen (ex : OrderExecutor) (now : Instant) : OrderExecutor :=
  { ex with circuitBreaker := ex.circuitBreaker.manualOpen now }

def Admits (ex : OrderExecutor) (now : Instant) : Prop :=
  (ex.circuitBreaker.isTradingAllowed now).1 = true ∧ (ex.rateLimiter.tryAcquire now).1 = true

def afterAdmission (ex : OrderExecutor) (now : Instant) : OrderExecutor :=
  { ex with
    circuitBreaker := (ex.circuitBreaker.isTradingAllowed now).2
    rateLimiter := (ex.rateLimiter.tryAcquire now).2 }

theorem passChecks_of_admits {ex : OrderExecutor} {now : Instant} (h : ex.Admits now) (nowSecs : ℕ)
    (intent : OrderIntent) :
    ex.passChecks now nowSecs intent = (.admitted (ex.policy.orderParams nowSecs intent), ex.afterAdmission now) := by
  obtain ⟨hallowed, hacquired⟩ := h
  simp [passChecks, hallowed, hacquired, afterAdmission]

theorem passChecks_of_not_admits {ex : OrderExecutor} {now : Instant} (h : ¬ex.Admits now) (nowSecs : ℕ)
    (intent : OrderIntent) : ∃ result ex', ex.passChecks now nowSecs intent = (.refused result, ex') := by
  unfold Admits at h
  cases hallowed : (ex.circuitBreaker.isTradingAllowed now).1 with
  | false => simp [passChecks, hallowed]
  | true =>
    cases hacquired : (ex.rateLimiter.tryAcquire now).1 with
    | false => simp [passChecks, hallowed, hacquired]
    | true => exact absurd ⟨hallowed, hacquired⟩ h

def errorOf : Reply → Option ErrorType
  | .ok response => if response.success then none else some (.fromErrorMsg (response.errorMsg.getD ""))
  | .error _ => some .Retryable

theorem answer_executor (ex : OrderExecutor) (now : Instant) (intent : OrderIntent) (params : OrderParams)
    (reply : Reply) : (ex.answer now intent params reply).2 = ex.recordOrderResult (errorOf reply) now := by
  cases reply with
  | error e => rfl
  | ok response =>
    unfold answer processResponse errorOf
    dsimp only
    split <;> rfl

def FillsWhole (params : OrderParams) (reply : Reply) : Prop :=
  ∃ response, reply = .ok response ∧ response.success = true ∧ params.size ≤ response.takingAmount

theorem answer_fullyFilled_iff (ex : OrderExecutor) (now : Instant) (intent : OrderIntent) (params : OrderParams)
    (reply : Reply) : (ex.answer now intent params reply).1.status = .FullyFilled ↔ FillsWhole params reply := by
  cases reply with
  | error e => simp [answer, ExecutionResult.refusal, FillsWhole]
  | ok response =>
    cases hsuccess : response.success with
    | false => simp [answer, processResponse, rejectedResult, FillsWhole, hsuccess]
    | true =>
      simp only [answer, processResponse, hsuccess, if_true, acceptedResult, acceptedStatus, FillsWhole,
        Except.ok.injEq, exists_eq_left', true_and]
      by_cases hwhole : params.size ≤ response.takingAmount
      · rw [if_pos (le_min hwhole (le_refl _))]
        exact iff_of_true rfl hwhole
      · have hmin : ¬params.size ≤ min response.takingAmount params.size := fun h => hwhole (h.trans (min_le_left _ _))
        rw [if_neg hmin]
        refine iff_of_false ?_ hwhole
        split
        · decide
        · split <;> decide

end OrderExecutor

inductive LegState where
  | idle
  | inFlight (params : OrderParams)
  | done (result : ExecutionResult)
  deriving DecidableEq, Repr

def LegState.isInFlight : LegState → Bool
  | .inFlight _ => true
  | _ => false

inductive BatchEvent where
  | start (leg : ℕ) (now : Instant) (nowSecs : ℕ)
  | answer (leg : ℕ) (now : Instant) (reply : Reply)

structure BatchState where
  executor : OrderExecutor
  legs : List LegState

namespace BatchState

def begin (ex : OrderExecutor) (intents : List OrderIntent) : BatchState := ⟨ex, intents.map fun _ => .idle⟩

/-- Events that do not fit the progress of their leg do nothing. -/
def step (intents : List OrderIntent) (s : BatchState) : BatchEvent → BatchState
  | .start leg now nowSecs =>
    match intents[leg]?, s.legs[leg]? with
    | some intent, some .idle =>
      match s.executor.passChecks now nowSecs intent with
      | (.refused result, ex) => ⟨ex, s.legs.set leg (.done result)⟩
      | (.admitted params, ex) => ⟨ex, s.legs.set leg (.inFlight params)⟩
    | _, _ => s
  | .answer leg now reply =>
    match intents[leg]?, s.legs[leg]? with
    | some intent, some (.inFlight params) =>
      let (result, ex) := s.executor.answer now intent params reply
      ⟨ex, s.legs.set leg (.done result)⟩
    | _, _ => s

def results (s : BatchState) : Option (List ExecutionResult) :=
  s.legs.mapM fun
    | .done result => some result
    | _ => none

end BatchState

namespace OrderExecutor

/-- All legs concurrently: `schedule` is the order in which they start and are answered. -/
def executeBatch (ex : OrderExecutor) (intents : List OrderIntent) (schedule : List BatchEvent) :
    Option (List ExecutionResult × OrderExecutor) :=
  let s := schedule.foldl (BatchState.step intents) (BatchState.begin ex intents)
  s.results.map fun results => (results, s.executor)

def minFilled (results : List ExecutionResult) : Decimal :=
  (results.map (·.filledSize)).foldl min Decimal.max

/-- The order that closes an excess, priced to fill against any counterparty. -/
def unwindIntent (original : OrderIntent) (excess : Decimal) : OrderIntent :=
  let unwindSide := original.side.opposite
  let limitPrice := match unwindSide with
    | .Sell => 1 / 100
    | .Buy => 99 / 100
  OrderIntent.new original.marketId original.tokenId unwindSide limitPrice excess .Immediate
    ("unwind:" ++ original.strategyName)

def unwindIntents (intents : List OrderIntent) (results : List ExecutionResult) : List OrderIntent :=
  (results.zip intents).filterMap fun (result, original) =>
    let excess := result.filledSize - minFilled results
    if excess ≤ 0 then none else some (unwindIntent original excess)

def firstIsGrouped (intents : List OrderIntent) : Bool := (intents.head?.bind (·.groupId)).isSome

def plannedUnwinds (intents : List OrderIntent) (results : List ExecutionResult) : List OrderIntent :=
  if firstIsGrouped intents then unwindIntents intents results else []

def PARTIAL_FILL_UNWIND_MS : ℕ := 500

/-- What surrounds one turn of the unwind loop: the clock at its start and the reply, if one comes before
the deadline does. -/
structure UnwindTurn where
  start : Instant
  startSecs : ℕ
  reply : Option (Reply × Instant)

inductive UnwindOutcome where
  | pastDeadline
  | refused (result : ExecutionResult)
  | submitted (params : OrderParams) (result : Option ExecutionResult)
  deriving DecidableEq, Repr

def UnwindOutcome.isSubmitted : UnwindOutcome → Bool
  | .submitted _ _ => true
  | _ => false

def unwindOne (ex : OrderExecutor) (deadline : Instant) (turn : UnwindTurn) (unwind : OrderIntent) :
    UnwindOutcome × OrderExecutor :=
  match ex.passChecks turn.start turn.startSecs unwind with
  | (.refused result, ex) => (.refused result, ex.manualOpen turn.start)
  | (.admitted params, ex) =>
    match turn.reply with
    | none => (.submitted params none, ex.manualOpen deadline)
    | some (reply, answeredAt) =>
      let (result, ex) := ex.answer answeredAt unwind params reply
      (.submitted params (some result), if result.status = .FullyFilled then ex else ex.manualOpen answeredAt)

/-- The unwind loop. A turn that begins at the deadline ends it. -/
def runUnwinds (ex : OrderExecutor) (deadline : Instant) (turns : ℕ → UnwindTurn) :
    List OrderIntent → List UnwindOutcome × OrderExecutor
  | [] => ([], ex)
  | unwind :: unwinds =>
    if deadline ≤ (turns 0).start then ((unwind :: unwinds).map fun _ => .pastDeadline, ex)
    else
      let (outcome, ex) := ex.unwindOne deadline (turns 0) unwind
      let (outcomes, ex) := ex.runUnwinds deadline (fun n => turns (n + 1)) unwinds
      (outcome :: outcomes, ex)

def unwindDeadline (now : Instant) : Instant := now + Duration.fromMillis PARTIAL_FILL_UNWIND_MS

/-- The legs, then the unwinds of what they left uneven; `loopStart` is the clock when the loop is entered. -/
def executeGrouped (ex : OrderExecutor) (intents : List OrderIntent) (schedule : List BatchEvent)
    (loopStart : Instant) (turns : ℕ → UnwindTurn) :
    Option (List ExecutionResult × List UnwindOutcome × OrderExecutor) :=
  (ex.executeBatch intents schedule).map fun (results, ex) =>
    let (outcomes, ex) := ex.runUnwinds (unwindDeadline loopStart) turns (plannedUnwinds intents results)
    (results, outcomes, ex)

end OrderExecutor

end PolyBot
