import PolyBot.General.AdditiveRuns
import PolyBot.Orchestrator.Reports

/-! Whether the breaker opens on the rate of rejected orders, over the runs of the bot. -/

namespace PolyBot.Bot.RejectRate
open CircuitBreaker TimedReport General.AdditiveRuns

def isSubmitted (r : TimedReport) : Bool :=
  match r.report with
  | .submitted => true
  | _ => false

/-- A result is recorded after the window of the breaker is over, which starts the next window. -/
def startsWindow (cb : CircuitBreaker) (r : TimedReport) : Bool :=
  match r.op? with
  | some (.recordOrderResult _) => cb.windowDuration ≤ cb.windowStart.elapsed r.now
  | _ => false

/-- A breaker, with the orders sent and the fatal rejections since its window started. Closing starts a window. -/
structure Monitor where
  breaker : CircuitBreaker
  submitted : ℕ
  fatal : ℕ

namespace Monitor

def start (cb : CircuitBreaker) : Monitor := ⟨cb, 0, 0⟩

def rate (m : Monitor) : ℚ := m.fatal / m.submitted

def step (m : Monitor) (r : TimedReport) : Monitor :=
  let breaker := r.apply m.breaker
  if m.breaker.state = .HalfOpen ∧ breaker.state = .Closed then ⟨breaker, 0, 0⟩
  else if startsWindow m.breaker r then ⟨breaker, (isSubmitted r).toNat, r.rejectsFatally.toNat⟩
  else ⟨breaker, m.submitted + (isSubmitted r).toNat, m.fatal + r.rejectsFatally.toNat⟩

end Monitor

/-- After a fatal rejection a rate above the threshold finds the breaker open. -/
def TripsOnRate (m : Monitor) (r : TimedReport) : Prop :=
  r.rejectsFatally = true → m.breaker.rejectRateThreshold < (m.step r).rate → (m.step r).breaker.state = .Open

instance (m : Monitor) (r : TimedReport) : Decidable (TripsOnRate m r) := inferInstanceAs (Decidable (_ → _ → _))

/-- A fatal rejection that brings the rate above the threshold finds the breaker open already, or is as many as the
fatal threshold (a negative rate threshold aside). -/
def OpensOtherwise (m : Monitor) (r : TimedReport) : Prop :=
  r.rejectsFatally = true → m.breaker.rejectRateThreshold < (m.step r).rate →
    m.breaker.state = .Open ∨ m.breaker.fatalThreshold ≤ (m.step r).fatal ∨ m.breaker.rejectRateThreshold < 0

structure CountsNoOrder (cb : CircuitBreaker) (fatal : ℕ) : Prop where
  ordersSubmitted : cb.ordersSubmitted = 0
  fatalErrorCount : cb.fatalErrorCount = fatal

section Counters
variable {cb : CircuitBreaker} {fatal : ℕ}

theorem CountsNoOrder.openFor (h : CountsNoOrder cb fatal) (reason : OpenReason) (now : Instant) :
    CountsNoOrder (cb.openFor reason now) fatal := by
  unfold CircuitBreaker.openFor
  split
  · exact h
  · exact ⟨h.ordersSubmitted, h.fatalErrorCount⟩

theorem CountsNoOrder.isTradingAllowed (h : CountsNoOrder cb fatal) (now : Instant) :
    CountsNoOrder (cb.isTradingAllowed now).2 fatal := by
  dsimp only [CircuitBreaker.isTradingAllowed, maybeTransitionToHalfOpen]
  split
  · split
    · exact h
    · split
      · exact ⟨h.ordersSubmitted, h.fatalErrorCount⟩
      · exact h
  · exact h

theorem CountsNoOrder.maybeResetWindow (h : CountsNoOrder cb fatal) (now : Instant) :
    CountsNoOrder (cb.maybeResetWindow now) (if cb.windowDuration ≤ cb.windowStart.elapsed now then 0 else fatal) := by
  unfold CircuitBreaker.maybeResetWindow
  split
  · exact ⟨rfl, rfl⟩
  · exact h

theorem CountsNoOrder.recordSuccess (h : CountsNoOrder cb fatal) (now : Instant) :
    CountsNoOrder (cb.recordSuccess now)
      (if cb.state = .HalfOpen ∧ (cb.recordSuccess now).state = .Closed then 0 else fatal) := by
  unfold CircuitBreaker.recordSuccess
  split
  · rename_i hhalf
    dsimp only
    split
    · rw [if_pos ⟨hhalf, rfl⟩]
      exact ⟨rfl, rfl⟩
    · rw [if_neg (by simp [hhalf])]
      exact ⟨h.ordersSubmitted, h.fatalErrorCount⟩
  · rename_i hhalf
    rw [if_neg (by simp [hhalf])]
    exact h

theorem CountsNoOrder.recordFatal (h : CountsNoOrder cb fatal) (now : Instant) :
    CountsNoOrder (cb.recordFatal now) (fatal + 1) := by
  have hcounted : CountsNoOrder { cb with
      ordersRejected := cb.ordersRejected + 1, fatalErrorCount := cb.fatalErrorCount + 1 } (fatal + 1) :=
    ⟨h.ordersSubmitted, congrArg (· + 1) h.fatalErrorCount⟩
  unfold CircuitBreaker.recordFatal checkRejectRate
  dsimp only
  split
  · exact hcounted.openFor _ _
  · split
    · exact hcounted.openFor _ _
    · exact hcounted

/-- Without a count of orders the rate that is checked is zero. -/
theorem state_recordFatal_eq_open_iff (h : CountsNoOrder cb fatal) (now : Instant) :
    (cb.recordFatal now).state = .Open ↔
      cb.state = .Open ∨ cb.fatalThreshold ≤ fatal + 1 ∨ cb.rejectRateThreshold < 0 := by
  simp only [CircuitBreaker.recordFatal, checkRejectRate, currentRejectRate, h.ordersSubmitted, if_true,
    h.fatalErrorCount]
  split
  · rename_i hmany
    simp [state_openFor, hmany]
  · rename_i hfew
    split
    · rename_i hnegative
      simp [state_openFor, hnegative]
    · rename_i hrate
      simp [hfew, hrate]

end Counters

def fatalBefore (m : Monitor) (r : TimedReport) : ℕ := if startsWindow m.breaker r then 0 else m.fatal

theorem step_of_closes {m : Monitor} {r : TimedReport}
    (h : m.breaker.state = .HalfOpen ∧ (r.apply m.breaker).state = .Closed) : m.step r = ⟨r.apply m.breaker, 0, 0⟩ :=
  if_pos h

theorem step_of_not_closes {m : Monitor} {r : TimedReport}
    (h : ¬(m.breaker.state = .HalfOpen ∧ (r.apply m.breaker).state = .Closed)) :
    (m.step r).breaker = r.apply m.breaker ∧ (m.step r).fatal = fatalBefore m r + r.rejectsFatally.toNat := by
  unfold Monitor.step fatalBefore
  dsimp only
  rw [if_neg h]
  split
  · exact ⟨rfl, (Nat.zero_add _).symm⟩
  · exact ⟨rfl, rfl⟩

theorem not_closes_of_op?_ne {r : TimedReport} (h : r.op? ≠ some (.recordOrderResult none)) (cb : CircuitBreaker) :
    ¬(cb.state = .HalfOpen ∧ (r.apply cb).state = .Closed) := by
  rintro ⟨hhalf, hclosed⟩
  exact (apply_of_not_success h hhalf).1 hclosed

section Step
variable {m : Monitor} {r : TimedReport}

/-- A record rolls the window first. -/
theorem countsNoOrder_rolled (h : CountsNoOrder m.breaker m.fatal) {error : Option ErrorType}
    (hop : r.op? = some (.recordOrderResult error)) :
    CountsNoOrder (m.breaker.maybeResetWindow r.now) (fatalBefore m r) := by
  have hrolled := h.maybeResetWindow r.now
  unfold fatalBefore startsWindow
  rw [hop]
  simpa using hrolled

theorem countsNoOrder_success (h : CountsNoOrder m.breaker m.fatal) (hop : r.op? = some (.recordOrderResult none)) :
    CountsNoOrder (m.step r).breaker (m.step r).fatal := by
  have hsuccess := (countsNoOrder_rolled h hop).recordSuccess r.now
  have hbreaker : r.apply m.breaker = (m.breaker.maybeResetWindow r.now).recordSuccess r.now :=
    apply_of_op?_some hop m.breaker
  have hnot : r.rejectsFatally = false := by
    rw [← Bool.not_eq_true, ← op?_eq_fatal_iff, hop]
    nofun
  rw [state_maybeResetWindow, ← hbreaker] at hsuccess
  by_cases hcloses : m.breaker.state = .HalfOpen ∧ (r.apply m.breaker).state = .Closed
  · rw [step_of_closes hcloses]
    rwa [if_pos hcloses] at hsuccess
  · obtain ⟨hstep, hfatal⟩ := step_of_not_closes hcloses
    rw [hstep, hfatal, hnot]
    rwa [if_neg hcloses] at hsuccess

/-- The step lemma: the breaker goes on counting the fatal rejections of the window, and no order. -/
theorem countsNoOrder_step (h : CountsNoOrder m.breaker m.fatal) (r : TimedReport) :
    CountsNoOrder (m.step r).breaker (m.step r).fatal := by
  by_cases hsuccess : r.op? = some (.recordOrderResult none)
  · exact countsNoOrder_success h hsuccess
  obtain ⟨hstep, hfatal⟩ := step_of_not_closes (not_closes_of_op?_ne hsuccess m.breaker)
  rw [hstep, hfatal]
  have hrejects := op?_eq_fatal_iff r
  rcases op?_cases r with hop | hop | hop | ⟨error, hop⟩
  · have hnot : r.rejectsFatally = false := by simpa [hop] using hrejects
    rw [apply_of_op?_none hop, hnot, fatalBefore, startsWindow, hop]
    exact h
  · have hnot : r.rejectsFatally = false := by simpa [hop] using hrejects
    rw [apply_of_op?_some hop, hnot, fatalBefore, startsWindow, hop]
    exact h.isTradingAllowed _
  · have hnot : r.rejectsFatally = false := by simpa [hop] using hrejects
    rw [apply_of_op?_some hop, hnot, fatalBefore, startsWindow, hop]
    exact h.openFor _ _
  · have hrolled := countsNoOrder_rolled h hop
    rw [apply_of_op?_some hop]
    rw [hop, Option.some.injEq, BreakerOp.recordOrderResult.injEq] at hrejects
    cases error with
    | none => exact absurd hop hsuccess
    | some error =>
      cases error with
      | Fatal =>
        rw [hrejects.mp rfl]
        exact hrolled.recordFatal _
      | Retryable | Expected =>
        have hnot : r.rejectsFatally = false := by simpa using hrejects
        rw [hnot]
        exact hrolled

/-- A fatal rejection leaves the breaker open in these cases only. -/
theorem open_after_fatal_iff (h : CountsNoOrder m.breaker m.fatal) (hfatal : r.rejectsFatally = true) :
    (m.step r).breaker.state = .Open ↔
      m.breaker.state = .Open ∨ m.breaker.fatalThreshold ≤ (m.step r).fatal ∨ m.breaker.rejectRateThreshold < 0 := by
  have hop := (op?_eq_fatal_iff r).mpr hfatal
  have hsuccess : r.op? ≠ some (.recordOrderResult none) := by
    rw [hop]
    nofun
  have hmany : (m.breaker.maybeResetWindow r.now).fatalThreshold = m.breaker.fatalThreshold :=
    congrArg Settings.fatalThreshold (settings_maybeResetWindow m.breaker r.now)
  have hrate : (m.breaker.maybeResetWindow r.now).rejectRateThreshold = m.breaker.rejectRateThreshold :=
    congrArg Settings.rejectRateThreshold (settings_maybeResetWindow m.breaker r.now)
  obtain ⟨hstep, hcount⟩ := step_of_not_closes (not_closes_of_op?_ne hsuccess m.breaker)
  rw [hstep, hcount, hfatal, apply_of_op?_some hop]
  have hiff := state_recordFatal_eq_open_iff (countsNoOrder_rolled h hop) r.now
  rwa [state_maybeResetWindow, hmany, hrate] at hiff

end Step

/-- In every run of the bot a rate of fatal rejections above the threshold opens the breaker exactly when it is open
for another reason already or the fatal threshold is reached: the orders sent are never counted. -/
theorem rate_trips_iff (policy : ExecutionPolicy) (fatalThreshold : ℕ) (rejectRateThreshold : ℚ)
    (resetTimeout : Duration) (now : Instant) (initialCash : Decimal) (balance : Option Decimal)
    (recentFills : List Fill) (events : List LiveEvent) :
    let cb := CircuitBreaker.withThresholds fatalThreshold rejectRateThreshold resetTimeout now
    let reports := (LiveState.start (.new policy cb) initialCash balance recentFills).runReports events
    Throughout Monitor.step TripsOnRate (.start cb) reports ↔
      Throughout Monitor.step OpensOtherwise (.start cb) reports := by
  intro cb reports
  refine throughout_congr (fun m => CountsNoOrder m.breaker m.fatal) ?_ ?_ ⟨rfl, rfl⟩
  · intro m r h _
    exact countsNoOrder_step h r
  · intro m r h
    unfold TripsOnRate OpensOtherwise
    constructor
    · intro htrips hfatal hrate
      exact (open_after_fatal_iff h hfatal).mp (htrips hfatal hrate)
    · intro hopens hfatal hrate
      exact (open_after_fatal_iff h hfatal).mpr (hopens hfatal hrate)

private def takerOrder : OrderIntent := OrderIntent.new "m1" "yes" .Buy (1 / 2) 10 .Immediate "TboTrendStrategy"

private def badSignature : Reply := .ok ⟨false, some "INVALID_SIGNATURE", "", 0, Decimal.zero_le_max⟩

private def oneRejected : List LiveEvent :=
  [.processIntents [takerOrder] 0, .task 0 (.leg (.start 0 0 0)) 0, .task 0 (.leg (.answer 0 0 badSignature)) 0]

private def calmBot : LiveState := .start (.new DualPolicy.new.policy (.new 0)) 100 none []

/-- Every order of the window was rejected, and the breaker is closed. -/
theorem one_of_one_rejected_stays_closed :
    (calmBot.run oneRejected).executor.circuitBreaker.state = .Closed ∧
      ¬Throughout Monitor.step TripsOnRate (.start (.new 0)) (calmBot.runReports oneRejected) := by
  decide +kernel

end PolyBot.Bot.RejectRate
