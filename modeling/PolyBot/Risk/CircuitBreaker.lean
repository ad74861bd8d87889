import PolyBot.Types

namespace PolyBot

inductive ErrorType where
  | Retryable
  | Fatal
  | Expected
  deriving DecidableEq, Repr

def ErrorType.fromErrorMsg (errorMsg : String) : ErrorType :=
  if errorMsg ∈ ["ORDER_DELAYED", "MARKET_NOT_READY"] then .Retryable
  else if errorMsg = "FOK_ORDER_NOT_FILLED_ERROR" then .Expected
  else if errorMsg ∈ ["INVALID_ORDER_MIN_TICK_SIZE", "INVALID_ORDER_MIN_SIZE", "INVALID_ORDER_DUPLICATED",
      "INVALID_ORDER_NOT_ENOUGH_BALANCE", "INVALID_ORDER_EXPIRATION", "INVALID_ORDER_ERROR", "EXECUTION_ERROR",
      "INVALID_SIGNATURE", "NONCE_ALREADY_USED"] then .Fatal
  else .Fatal

inductive CircuitState where
  | Closed
  | Open
  | HalfOpen
  deriving DecidableEq, Repr

inductive OpenReason where
  | FatalErrorThreshold (count : ℕ)
  | RejectRateExceeded (rate : ℚ)
  | WebSocketDisconnect
  | ReconciliationFailure (details : String)
  | ManualTrigger
  | DailyLossExceeded
  deriving DecidableEq, Repr

def CIRCUIT_BREAKER_THRESHOLD : ℕ := 5
def REJECT_RATE_THRESHOLD : ℚ := 1 / 5
def CIRCUIT_RESET_TIMEOUT : Duration := Duration.fromSecs 60

/-- The breaker; its rates are exact where the source uses floating point. -/
structure CircuitBreaker where
  state : CircuitState
  openReason : Option OpenReason
  openedAt : Option Instant
  fatalErrorCount : ℕ
  ordersSubmitted : ℕ
  ordersRejected : ℕ
  resetTimeout : Duration
  fatalThreshold : ℕ
  rejectRateThreshold : ℚ
  halfOpenSuccessRequired : ℕ
  halfOpenSuccesses : ℕ
  windowStart : Instant
  windowDuration : Duration
  deriving DecidableEq, Repr

namespace CircuitBreaker

def new (now : Instant) : CircuitBreaker where
  state := .Closed
  openReason := none
  openedAt := none
  fatalErrorCount := 0
  ordersSubmitted := 0
  ordersRejected := 0
  resetTimeout := CIRCUIT_RESET_TIMEOUT
  fatalThreshold := CIRCUIT_BREAKER_THRESHOLD
  rejectRateThreshold := REJECT_RATE_THRESHOLD
  halfOpenSuccessRequired := 3
  halfOpenSuccesses := 0
  windowStart := now
  windowDuration := Duration.fromSecs 60

def withThresholds (fatalThreshold : ℕ) (rejectRateThreshold : ℚ) (resetTimeout : Duration) (now : Instant) :
    CircuitBreaker :=
  { new now with
    fatalThreshold := fatalThreshold
    rejectRateThreshold := rejectRateThreshold
    resetTimeout := resetTimeout }

def resetCounters (cb : CircuitBreaker) (now : Instant) : CircuitBreaker :=
  { cb with
    fatalErrorCount := 0
    ordersSubmitted := 0
    ordersRejected := 0
    halfOpenSuccesses := 0
    windowStart := now }

/-- Opening an open breaker keeps the first reason and time. -/
def openFor (cb : CircuitBreaker) (reason : OpenReason) (now : Instant) : CircuitBreaker :=
  if cb.state = .Open then cb
  else { cb with state := .Open, openReason := some reason, openedAt := some now, halfOpenSuccesses := 0 }

def close (cb : CircuitBreaker) (now : Instant) : CircuitBreaker :=
  { cb with state := .Closed, openReason := none, openedAt := none }.resetCounters now

def transitionToHalfOpen (cb : CircuitBreaker) : CircuitBreaker :=
  { cb with state := .HalfOpen, halfOpenSuccesses := 0 }

def maybeTransitionToHalfOpen (cb : CircuitBreaker) (now : Instant) : CircuitBreaker :=
  if cb.state = .Open then
    match cb.openedAt with
    | none => cb
    | some openedAt => if cb.resetTimeout ≤ openedAt.elapsed now then cb.transitionToHalfOpen else cb
  else cb

/-- Asking may itself move the breaker to half open. -/
def isTradingAllowed (cb : CircuitBreaker) (now : Instant) : Bool × CircuitBreaker :=
  let cb' := cb.maybeTransitionToHalfOpen now
  (cb'.state = .Closed ∨ cb'.state = .HalfOpen, cb')

def maybeResetWindow (cb : CircuitBreaker) (now : Instant) : CircuitBreaker :=
  if cb.windowDuration ≤ cb.windowStart.elapsed now then
    { cb with windowStart := now, fatalErrorCount := 0, ordersSubmitted := 0, ordersRejected := 0 }
  else cb

def currentRejectRate (cb : CircuitBreaker) : ℚ :=
  if cb.ordersSubmitted = 0 then 0 else cb.ordersRejected / cb.ordersSubmitted

def checkRejectRate (cb : CircuitBreaker) (now : Instant) : CircuitBreaker :=
  if cb.rejectRateThreshold < cb.currentRejectRate then cb.openFor (.RejectRateExceeded cb.currentRejectRate) now
  else cb

def recordOrderSubmitted (cb : CircuitBreaker) (now : Instant) : CircuitBreaker :=
  let cb := cb.maybeResetWindow now
  { cb with ordersSubmitted := cb.ordersSubmitted + 1 }

def recordSuccess (cb : CircuitBreaker) (now : Instant) : CircuitBreaker :=
  if cb.state = .HalfOpen then
    let cb := { cb with halfOpenSuccesses := cb.halfOpenSuccesses + 1 }
    if cb.halfOpenSuccessRequired ≤ cb.halfOpenSuccesses then cb.close now else cb
  else cb

def recordFatal (cb : CircuitBreaker) (now : Instant) : CircuitBreaker :=
  let cb := { cb with ordersRejected := cb.ordersRejected + 1, fatalErrorCount := cb.fatalErrorCount + 1 }
  if cb.fatalThreshold ≤ cb.fatalErrorCount then cb.openFor (.FatalErrorThreshold cb.fatalErrorCount) now
  else cb.checkRejectRate now

def recordOrderResult (cb : CircuitBreaker) (error : Option ErrorType) (now : Instant) : CircuitBreaker :=
  let cb := cb.maybeResetWindow now
  match error with
  | none => cb.recordSuccess now
  | some .Fatal => cb.recordFatal now
  | some .Retryable => cb
  | some .Expected => cb

def recordWsDisconnect (cb : CircuitBreaker) (now : Instant) : CircuitBreaker := cb.openFor .WebSocketDisconnect now

def recordWsReconnect (cb : CircuitBreaker) : CircuitBreaker :=
  if cb.state = .Open ∧ cb.openReason = some .WebSocketDisconnect then cb.transitionToHalfOpen else cb

def recordReconciliationFailure (cb : CircuitBreaker) (details : String) (now : Instant) : CircuitBreaker :=
  cb.openFor (.ReconciliationFailure details) now

def recordDailyLossExceeded (cb : CircuitBreaker) (now : Instant) : CircuitBreaker := cb.openFor .DailyLossExceeded now
def manualOpen (cb : CircuitBreaker) (now : Instant) : CircuitBreaker := cb.openFor .ManualTrigger now
def forceClose (cb : CircuitBreaker) (now : Instant) : CircuitBreaker := cb.close now

structure Settings where
  resetTimeout : Duration
  fatalThreshold : ℕ
  rejectRateThreshold : ℚ
  halfOpenSuccessRequired : ℕ
  windowDuration : Duration
  deriving DecidableEq, Repr

def settings (cb : CircuitBreaker) : Settings :=
  ⟨cb.resetTimeout, cb.fatalThreshold, cb.rejectRateThreshold, cb.halfOpenSuccessRequired, cb.windowDuration⟩

theorem settings_openFor (cb : CircuitBreaker) (reason : OpenReason) (now : Instant) :
    (cb.openFor reason now).settings = cb.settings := by
  unfold openFor
  split <;> rfl

theorem settings_maybeResetWindow (cb : CircuitBreaker) (now : Instant) :
    (cb.maybeResetWindow now).settings = cb.settings := by
  unfold maybeResetWindow
  split <;> rfl

theorem settings_isTradingAllowed (cb : CircuitBreaker) (now : Instant) :
    (cb.isTradingAllowed now).2.settings = cb.settings := by
  dsimp only [isTradingAllowed, maybeTransitionToHalfOpen]
  split
  · split
    · rfl
    · split <;> rfl
  · rfl

theorem settings_recordOrderResult (cb : CircuitBreaker) (error : Option ErrorType) (now : Instant) :
    (cb.recordOrderResult error now).settings = cb.settings := by
  rw [← settings_maybeResetWindow cb now]
  unfold recordOrderResult
  generalize cb.maybeResetWindow now = cb'
  cases error with
  | none =>
    dsimp only [recordSuccess]
    split
    · split <;> rfl
    · rfl
  | some error =>
    cases error with
    | Fatal =>
      dsimp only [recordFatal, checkRejectRate]
      split
      · exact settings_openFor _ _ _
      · split
        · exact settings_openFor _ _ _
        · rfl
    | Retryable => rfl
    | Expected => rfl

theorem resetTimeout_openFor (cb : CircuitBreaker) (reason : OpenReason) (now : Instant) :
    (cb.openFor reason now).resetTimeout = cb.resetTimeout :=
  congrArg Settings.resetTimeout (settings_openFor cb reason now)

theorem resetTimeout_isTradingAllowed (cb : CircuitBreaker) (now : Instant) :
    (cb.isTradingAllowed now).2.resetTimeout = cb.resetTimeout :=
  congrArg Settings.resetTimeout (settings_isTradingAllowed cb now)

theorem resetTimeout_recordOrderResult (cb : CircuitBreaker) (error : Option ErrorType) (now : Instant) :
    (cb.recordOrderResult error now).resetTimeout = cb.resetTimeout :=
  congrArg Settings.resetTimeout (settings_recordOrderResult cb error now)

theorem state_maybeResetWindow (cb : CircuitBreaker) (now : Instant) : (cb.maybeResetWindow now).state = cb.state := by
  rw [maybeResetWindow]
  split <;> rfl

/-- A breaker that is not open lets trade, and asking does not change it. -/
theorem isTradingAllowed_of_not_open {cb : CircuitBreaker} (h : cb.state ≠ .Open) (now : Instant) :
    cb.isTradingAllowed now = (true, cb) := by
  have hkeep : cb.maybeTransitionToHalfOpen now = cb := if_neg h
  cases hstate : cb.state with
  | Closed => simp [isTradingAllowed, hkeep, hstate]
  | HalfOpen => simp [isTradingAllowed, hkeep, hstate]
  | Open => exact absurd hstate h

/-- Within the timeout of its opening a breaker refuses. -/
theorem isTradingAllowed_of_recently_opened {cb : CircuitBreaker} {openedAt now : Instant} (hstate : cb.state = .Open)
    (hopened : cb.openedAt = some openedAt) (hrecent : openedAt.elapsed now < cb.resetTimeout) :
    (cb.isTradingAllowed now).1 = false := by
  simp [isTradingAllowed, maybeTransitionToHalfOpen, hstate, hopened, not_le.mpr hrecent]

theorem not_open_of_isTradingAllowed {cb : CircuitBreaker} {now : Instant} (h : (cb.isTradingAllowed now).1 = true) :
    (cb.isTradingAllowed now).2.state ≠ .Open := by
  dsimp only [isTradingAllowed] at h ⊢
  rcases of_decide_eq_true h with hclosed | hhalf
  · rw [hclosed]
    decide
  · rw [hhalf]
    decide

def OpenedAt (cb : CircuitBreaker) (now : Instant) : Prop := cb.state = .Open ∧ cb.openedAt = some now

theorem openedAt_openFor {cb : CircuitBreaker} {now : Instant} (h : cb.state ≠ .Open ∨ cb.OpenedAt now)
    (reason : OpenReason) : (cb.openFor reason now).OpenedAt now := by
  rcases h with hnot | hopened
  · rw [openFor, if_neg hnot]
    exact ⟨rfl, rfl⟩
  · rw [openFor, if_pos hopened.1]
    exact hopened

theorem recordOrderResult_none_not_open {cb : CircuitBreaker} (h : cb.state ≠ .Open) (now : Instant) :
    (cb.recordOrderResult none now).state ≠ .Open := by
  rw [← state_maybeResetWindow cb now] at h
  unfold recordOrderResult
  generalize cb.maybeResetWindow now = cb' at h
  dsimp only
  rw [recordSuccess]
  split
  · rename_i hhalf
    dsimp only
    split
    · simp [close, resetCounters]
    · exact h
  · exact h

/-- A result recorded by a breaker that is not open leaves it so, or opens it then. -/
theorem recordOrderResult_state {cb : CircuitBreaker} (h : cb.state ≠ .Open) (error : Option ErrorType) (now : Instant) :
    (cb.recordOrderResult error now).state ≠ .Open ∨ (cb.recordOrderResult error now).OpenedAt now := by
  cases error with
  | none => exact .inl (recordOrderResult_none_not_open h now)
  | some error =>
    rw [← state_maybeResetWindow cb now] at h
    simp only [recordOrderResult]
    generalize cb.maybeResetWindow now = cb' at h
    cases error with
    | Fatal =>
      dsimp only [recordFatal, checkRejectRate]
      split
      · refine .inr (openedAt_openFor ?_ _)
        exact .inl h
      · split
        · refine .inr (openedAt_openFor ?_ _)
          exact .inl h
        · exact .inl h
    | Retryable => exact .inl h
    | Expected => exact .inl h

end CircuitBreaker

end PolyBot
