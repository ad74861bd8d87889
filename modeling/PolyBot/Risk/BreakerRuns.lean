import PolyBot.General.AdditiveRuns
import PolyBot.Risk.CircuitBreaker

/-! Timed runs of the breaker's operations, in whatever order its callers make them. -/

namespace PolyBot
open General.AdditiveRuns

inductive BreakerOp where
  | isTradingAllowed
  | recordOrderSubmitted
  | recordOrderResult (error : Option ErrorType)
  | recordWsDisconnect
  | recordWsReconnect
  | recordReconciliationFailure (details : String)
  | recordDailyLossExceeded
  | manualOpen
  | forceClose
  | resetCounters
  deriving DecidableEq, Repr

namespace CircuitBreaker

def fatalCause (cb : CircuitBreaker) : Option OpenReason :=
  let cb := { cb with ordersRejected := cb.ordersRejected + 1, fatalErrorCount := cb.fatalErrorCount + 1 }
  if cb.fatalThreshold ≤ cb.fatalErrorCount then some (.FatalErrorThreshold cb.fatalErrorCount)
  else if cb.rejectRateThreshold < cb.currentRejectRate then some (.RejectRateExceeded cb.currentRejectRate)
  else none

def TimedOut (cb : CircuitBreaker) (now : Instant) : Prop :=
  ∃ openedAt ∈ cb.openedAt, cb.resetTimeout ≤ openedAt.elapsed now

/-- What decides whether the breaker lets trade is the same in both. -/
structure SameLatch (cb cb' : CircuitBreaker) : Prop where
  state : cb'.state = cb.state
  openReason : cb'.openReason = cb.openReason
  openedAt : cb'.openedAt = cb.openedAt

end CircuitBreaker

namespace BreakerOp
open CircuitBreaker

def apply (cb : CircuitBreaker) (now : Instant) : BreakerOp → CircuitBreaker
  | isTradingAllowed => (cb.isTradingAllowed now).2
  | recordOrderSubmitted => cb.recordOrderSubmitted now
  | recordOrderResult error => cb.recordOrderResult error now
  | recordWsDisconnect => cb.recordWsDisconnect now
  | recordWsReconnect => cb.recordWsReconnect
  | recordReconciliationFailure details => cb.recordReconciliationFailure details now
  | recordDailyLossExceeded => cb.recordDailyLossExceeded now
  | manualOpen => cb.manualOpen now
  | forceClose => cb.forceClose now
  | resetCounters => cb.resetCounters now

def cause (cb : CircuitBreaker) (now : Instant) : BreakerOp → Option OpenReason
  | recordOrderResult (some .Fatal) => (cb.maybeResetWindow now).fatalCause
  | recordWsDisconnect => some .WebSocketDisconnect
  | recordReconciliationFailure details => some (.ReconciliationFailure details)
  | recordDailyLossExceeded => some .DailyLossExceeded
  | manualOpen => some .ManualTrigger
  | _ => none

inductive Moved (cb : CircuitBreaker) (now : Instant) (op : BreakerOp) (cb' : CircuitBreaker) : Prop
  | stays (hsame : SameLatch cb cb') (hcause : cb.state = .Open ∨ op.cause cb now = none) (hop : op ≠ .forceClose)
      (hreconnect : op = .recordWsReconnect → cb.state = .Open → cb.openReason ≠ some .WebSocketDisconnect)
  | opens (reason : OpenReason) (hnot : cb.state ≠ .Open) (hcause : op.cause cb now = some reason)
      (hstate : cb'.state = .Open) (hreason : cb'.openReason = some reason) (hopened : cb'.openedAt = some now)
  | timesOut (hop : op = .isTradingAllowed) (hstate : cb.state = .Open) (hout : cb.TimedOut now)
      (hhalf : cb' = cb.transitionToHalfOpen)
  | reconnects (hop : op = .recordWsReconnect) (hstate : cb.state = .Open)
      (hreason : cb.openReason = some .WebSocketDisconnect) (hhalf : cb' = cb.transitionToHalfOpen)
  | closes (hclosed : cb'.state = .Closed)
      (hwhy : op = .forceClose ∨ cb.state = .HalfOpen ∧ op = .recordOrderResult none)

end BreakerOp

namespace CircuitBreaker
open BreakerOp (Moved)

theorem sameLatch_maybeResetWindow (cb : CircuitBreaker) (now : Instant) : SameLatch cb (cb.maybeResetWindow now) := by
  unfold maybeResetWindow
  split <;> exact ⟨rfl, rfl, rfl⟩

theorem state_openFor (cb : CircuitBreaker) (reason : OpenReason) (now : Instant) :
    (cb.openFor reason now).state = .Open := by
  unfold openFor
  split
  · assumption
  · rfl

theorem openFor_of_open {cb : CircuitBreaker} (h : cb.state = .Open) (reason : OpenReason) (now : Instant) :
    cb.openFor reason now = cb := if_pos h

/-- Asking the breaker to open is either too late or opens it. -/
theorem moved_openFor {cb : CircuitBreaker} (cb' : CircuitBreaker) {now : Instant} {op : BreakerOp}
    {reason : OpenReason} (hsame : SameLatch cb cb') (hcause : op.cause cb now = some reason) :
    Moved cb now op (cb'.openFor reason now) := by
  have hop : op ≠ .forceClose := by
    rintro rfl
    cases hcause
  have hreconnect : op ≠ .recordWsReconnect := by
    rintro rfl
    cases hcause
  by_cases hopen : cb.state = .Open
  · rw [openFor_of_open (hsame.state.trans hopen)]
    exact .stays hsame (.inl hopen) hop fun h => absurd h hreconnect
  · have hnot : cb'.state ≠ .Open := fun h => hopen (hsame.state.symm.trans h)
    rw [openFor, if_neg hnot]
    exact .opens reason hopen hcause rfl rfl rfl

theorem moved_isTradingAllowed (cb : CircuitBreaker) (now : Instant) :
    Moved cb now .isTradingAllowed (cb.isTradingAllowed now).2 := by
  have hstays : Moved cb now .isTradingAllowed cb :=
    .stays ⟨rfl, rfl, rfl⟩ (.inr rfl) (by decide) fun h => by cases h
  simp only [isTradingAllowed, maybeTransitionToHalfOpen]
  split
  · rename_i hstate
    split
    · exact hstays
    · rename_i openedAt hopened
      split
      · rename_i hle
        exact .timesOut rfl hstate ⟨openedAt, hopened, hle⟩ rfl
      · exact hstays
  · exact hstays

theorem moved_recordFatal {cb cb' : CircuitBreaker} {now : Instant} {op : BreakerOp} (hsame : SameLatch cb cb')
    (hcause : op.cause cb now = cb'.fatalCause) (hop : op ≠ .forceClose) (hreconnect : op ≠ .recordWsReconnect) :
    Moved cb now op (cb'.recordFatal now) := by
  unfold fatalCause at hcause
  unfold recordFatal checkRejectRate
  dsimp only at hcause ⊢
  split at hcause
  · rename_i hle
    rw [if_pos hle]
    exact moved_openFor
      { cb' with ordersRejected := cb'.ordersRejected + 1, fatalErrorCount := cb'.fatalErrorCount + 1 }
      ⟨hsame.state, hsame.openReason, hsame.openedAt⟩ hcause
  · rename_i hle
    rw [if_neg hle]
    split at hcause
    · rename_i hlt
      rw [if_pos hlt]
      exact moved_openFor
        { cb' with ordersRejected := cb'.ordersRejected + 1, fatalErrorCount := cb'.fatalErrorCount + 1 }
        ⟨hsame.state, hsame.openReason, hsame.openedAt⟩ hcause
    · rename_i hlt
      rw [if_neg hlt]
      exact .stays ⟨hsame.state, hsame.openReason, hsame.openedAt⟩ (.inr hcause) hop fun h => absurd h hreconnect

theorem moved_recordOrderResult (cb : CircuitBreaker) (error : Option ErrorType) (now : Instant) :
    Moved cb now (.recordOrderResult error) (cb.recordOrderResult error now) := by
  have hsame := sameLatch_maybeResetWindow cb now
  unfold recordOrderResult
  cases error with
  | none =>
    dsimp only [recordSuccess]
    split
    · rename_i hhalf
      split
      · exact .closes rfl (.inr ⟨hsame.state.symm.trans hhalf, rfl⟩)
      · exact .stays ⟨hsame.state, hsame.openReason, hsame.openedAt⟩ (.inr rfl) (by decide) fun h => by cases h
    · exact .stays hsame (.inr rfl) (by decide) fun h => by cases h
  | some error =>
    cases error with
    | Fatal => exact moved_recordFatal hsame rfl (by decide) (by decide)
    | Retryable => exact .stays hsame (.inr rfl) (by decide) fun h => by cases h
    | Expected => exact .stays hsame (.inr rfl) (by decide) fun h => by cases h

theorem moved_recordWsReconnect (cb : CircuitBreaker) (now : Instant) :
    Moved cb now .recordWsReconnect cb.recordWsReconnect := by
  unfold recordWsReconnect
  split
  · rename_i h
    exact .reconnects rfl h.1 h.2 rfl
  · rename_i h
    exact .stays ⟨rfl, rfl, rfl⟩ (.inr rfl) (by decide) fun _ hopen hreason => h ⟨hopen, hreason⟩

/-- Every operation moves the latch in one of these ways. -/
theorem moved_apply (cb : CircuitBreaker) (now : Instant) (op : BreakerOp) : Moved cb now op (op.apply cb now) := by
  cases op with
  | isTradingAllowed => exact moved_isTradingAllowed cb now
  | recordOrderSubmitted =>
    have hsame := sameLatch_maybeResetWindow cb now
    exact .stays ⟨hsame.state, hsame.openReason, hsame.openedAt⟩ (.inr rfl) (by decide) fun h => by cases h
  | recordOrderResult error => exact moved_recordOrderResult cb error now
  | recordWsDisconnect => exact moved_openFor cb ⟨rfl, rfl, rfl⟩ rfl
  | recordWsReconnect => exact moved_recordWsReconnect cb now
  | recordReconciliationFailure details => exact moved_openFor cb ⟨rfl, rfl, rfl⟩ rfl
  | recordDailyLossExceeded => exact moved_openFor cb ⟨rfl, rfl, rfl⟩ rfl
  | manualOpen => exact moved_openFor cb ⟨rfl, rfl, rfl⟩ rfl
  | forceClose => exact .closes rfl (.inl rfl)
  | resetCounters => exact .stays ⟨rfl, rfl, rfl⟩ (.inr rfl) (by decide) fun h => by cases h

/-- No operation changes the configuration. -/
theorem settings_apply (cb : CircuitBreaker) (now : Instant) (op : BreakerOp) :
    (op.apply cb now).settings = cb.settings := by
  cases op with
  | isTradingAllowed => exact settings_isTradingAllowed cb now
  | recordOrderSubmitted => exact settings_maybeResetWindow cb now
  | recordOrderResult error => exact settings_recordOrderResult cb error now
  | recordWsReconnect =>
    dsimp only [BreakerOp.apply, recordWsReconnect]
    split <;> rfl
  | forceClose => rfl
  | resetCounters => rfl
  | _ => exact settings_openFor cb _ now

theorem resetTimeout_apply (cb : CircuitBreaker) (now : Instant) (op : BreakerOp) :
    (op.apply cb now).resetTimeout = cb.resetTimeout :=
  congrArg Settings.resetTimeout (settings_apply cb now op)

theorem halfOpenSuccesses_maybeResetWindow (cb : CircuitBreaker) (now : Instant) :
    (cb.maybeResetWindow now).halfOpenSuccesses = cb.halfOpenSuccesses := by
  unfold maybeResetWindow
  split <;> rfl

/-- A success brings a half-open breaker one closer to closing, and the last one required closes it. -/
theorem recordOrderResult_none_of_halfOpen {cb : CircuitBreaker} (h : cb.state = .HalfOpen) (now : Instant) :
    (cb.halfOpenSuccessRequired ≤ cb.halfOpenSuccesses + 1 ∧ (cb.recordOrderResult none now).state = .Closed) ∨
      (cb.halfOpenSuccesses + 1 < cb.halfOpenSuccessRequired ∧
        (cb.recordOrderResult none now).state = .HalfOpen ∧
        (cb.recordOrderResult none now).halfOpenSuccesses = cb.halfOpenSuccesses + 1) := by
  have hcounts := halfOpenSuccesses_maybeResetWindow cb now
  have hrequired : (cb.maybeResetWindow now).halfOpenSuccessRequired = cb.halfOpenSuccessRequired :=
    congrArg Settings.halfOpenSuccessRequired (settings_maybeResetWindow cb now)
  simp only [recordOrderResult, recordSuccess, state_maybeResetWindow, h, if_true, hcounts, hrequired]
  by_cases hlast : cb.halfOpenSuccessRequired ≤ cb.halfOpenSuccesses + 1
  · rw [if_pos hlast]
    exact .inl ⟨hlast, rfl⟩
  · rw [if_neg hlast]
    exact .inr ⟨not_le.mp hlast, rfl, rfl⟩

/-- In a half-open breaker only successes are counted. -/
theorem halfOpenSuccesses_apply {cb : CircuitBreaker} {now : Instant} {op : BreakerOp} (hop : op ≠ .resetCounters)
    (hsuccess : op ≠ .recordOrderResult none) (hbefore : cb.state = .HalfOpen)
    (hafter : (op.apply cb now).state = .HalfOpen) :
    (op.apply cb now).halfOpenSuccesses = cb.halfOpenSuccesses := by
  have hnot : cb.state ≠ .Open := by simp [hbefore]
  have hwindow := halfOpenSuccesses_maybeResetWindow cb now
  cases op with
  | isTradingAllowed => simp [BreakerOp.apply, isTradingAllowed_of_not_open hnot]
  | recordOrderSubmitted => exact hwindow
  | recordOrderResult error =>
    cases error with
    | none => exact absurd rfl hsuccess
    | some error =>
      cases error with
      | Fatal =>
        simp only [BreakerOp.apply, recordOrderResult, recordFatal, checkRejectRate] at hafter ⊢
        split at hafter
        · rw [state_openFor] at hafter
          cases hafter
        · rename_i hfew
          rw [if_neg hfew]
          split at hafter
          · rw [state_openFor] at hafter
            cases hafter
          · rename_i hlow
            rw [if_neg hlow]
            exact hwindow
      | Retryable => exact hwindow
      | Expected => exact hwindow
  | recordWsReconnect => simp [BreakerOp.apply, recordWsReconnect, hbefore]
  | forceClose => cases hafter
  | resetCounters => exact absurd rfl hop
  | _ =>
    simp only [BreakerOp.apply, recordWsDisconnect, recordReconciliationFailure, recordDailyLossExceeded, manualOpen,
      state_openFor] at hafter
    cases hafter

/-- A breaker refuses exactly while it is open and not timed out. -/
theorem isTradingAllowed_eq_false_iff (cb : CircuitBreaker) (now : Instant) :
    (cb.isTradingAllowed now).1 = false ↔ cb.state = .Open ∧ ¬cb.TimedOut now := by
  by_cases hopen : cb.state = .Open
  · cases hopened : cb.openedAt with
    | none => simp [isTradingAllowed, maybeTransitionToHalfOpen, hopen, hopened, TimedOut]
    | some openedAt =>
      by_cases hle : cb.resetTimeout ≤ openedAt.elapsed now
      · simp [isTradingAllowed, maybeTransitionToHalfOpen, hopen, hopened, hle, TimedOut, transitionToHalfOpen]
      · simp [isTradingAllowed, maybeTransitionToHalfOpen, hopen, hopened, hle, TimedOut]
  · rw [isTradingAllowed_of_not_open hopen]
    simp [hopen]

/-- Time only runs out. -/
theorem TimedOut.mono {cb : CircuitBreaker} {now later : Instant} (h : cb.TimedOut now) (hle : now ≤ later) :
    cb.TimedOut later := by
  obtain ⟨openedAt, hopened, hout⟩ := h
  exact ⟨openedAt, hopened, hout.trans (Nat.sub_le_sub_right hle openedAt)⟩

end CircuitBreaker

/-- A call of the breaker, by the time since the call before it. -/
structure TimedCall where
  delay : Duration
  op : BreakerOp
  deriving DecidableEq, Repr

structure Cause where
  time : Instant
  reason : OpenReason
  dropped : Bool
  deriving DecidableEq, Repr

/-- A breaker on its clock, with the causes recorded since it was last closed and whether a halt is in force. -/
structure BreakerRun where
  now : Instant
  breaker : CircuitBreaker
  causes : List Cause
  halted : Bool

/-- A manual trigger and an exceeded daily loss are halts. -/
def BreakerOp.halts : BreakerOp → Bool
  | .manualOpen | .recordDailyLossExceeded => true
  | _ => false

namespace BreakerRun

def start (now : Instant) (cb : CircuitBreaker) : BreakerRun := ⟨now, cb, [], false⟩

def record (s : BreakerRun) (now : Instant) (op : BreakerOp) : List Cause :=
  (op.cause s.breaker now).toList.map (fun reason => ⟨now, reason, s.breaker.state = .Open⟩) ++ s.causes

def step (s : BreakerRun) (call : TimedCall) : BreakerRun :=
  let now := s.now + call.delay
  let breaker := call.op.apply s.breaker now
  { now := now
    breaker := breaker
    causes := if breaker.state = .Closed then [] else s.record now call.op
    halted := call.op ≠ .forceClose ∧ (s.halted ∨ call.op.halts) }

def run (s : BreakerRun) (calls : List TimedCall) : BreakerRun := calls.foldl step s

end BreakerRun

end PolyBot
