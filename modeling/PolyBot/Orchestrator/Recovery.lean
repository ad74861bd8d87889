import PolyBot.General.AdditiveRuns
import PolyBot.Orchestrator.Reports

/-! How a half-open breaker closes again, over the runs of the bot. -/

namespace PolyBot.Bot.Recovery
open CircuitBreaker BreakerOp TimedReport General.AdditiveRuns

def handlesFill (r : TimedReport) : Bool :=
  match r.report with
  | .handled result => result.status = .FullyFilled ∨ result.status = .PartialFill
  | _ => false

/-- A breaker, and what has been answered since it last became half open. -/
structure Monitor where
  breaker : CircuitBreaker
  accepted : ℕ
  fatal : Bool

namespace Monitor

def start (cb : CircuitBreaker) : Monitor := ⟨cb, 0, false⟩

def step (m : Monitor) (r : TimedReport) : Monitor :=
  let breaker := r.apply m.breaker
  if breaker.state = .HalfOpen ∧ m.breaker.state ≠ .HalfOpen then ⟨breaker, 0, false⟩
  else ⟨breaker, m.accepted + (accepts r).toNat, m.fatal || rejectsFatally r⟩

end Monitor

/-- A half-open breaker counts no order twice, and it closes only after the required number of accepted orders
without a fatal rejection among them. -/
def RecoversCleanly (m : Monitor) (r : TimedReport) : Prop :=
  ((m.step r).breaker.state = .HalfOpen → (m.step r).breaker.halfOpenSuccesses ≤ (m.step r).accepted) ∧
    (m.breaker.state = .HalfOpen → (m.step r).breaker.state = .Closed →
      m.breaker.halfOpenSuccessRequired ≤ (m.step r).accepted ∧ (m.step r).fatal = false)

instance (m : Monitor) (r : TimedReport) : Decidable (RecoversCleanly m r) :=
  inferInstanceAs (Decidable (_ ∧ _))

/-- While the breaker is half open no result with a fill is handled, and when an accepted order completes the count
there has been no fatal rejection. -/
def ReportsOnce (m : Monitor) (r : TimedReport) : Prop :=
  m.breaker.state = .HalfOpen → handlesFill r = false ∧
    (accepts r = true → m.breaker.halfOpenSuccessRequired ≤ m.breaker.halfOpenSuccesses + 1 → m.fatal = false)

def CountsAccepted (m : Monitor) : Prop :=
  0 < m.breaker.halfOpenSuccessRequired ∧
    (m.breaker.state = .HalfOpen → m.breaker.halfOpenSuccesses = m.accepted ∧
      m.breaker.halfOpenSuccesses < m.breaker.halfOpenSuccessRequired)

/-- Successes are recorded for accepted orders, and again for results with a fill. -/
theorem op?_eq_success_iff (r : TimedReport) :
    r.op? = some (.recordOrderResult none) ↔ accepts r = true ∨ handlesFill r = true := by
  obtain ⟨now, report⟩ := r
  cases report with
  | answered reply => simp [TimedReport.op?, accepts, handlesFill]
  | handled result => cases h : result.status <;> simp [TimedReport.op?, accepts, handlesFill, h]
  | _ => simp [TimedReport.op?, accepts, handlesFill]

theorem required_apply (cb : CircuitBreaker) (r : TimedReport) :
    (r.apply cb).halfOpenSuccessRequired = cb.halfOpenSuccessRequired := by
  cases hop : r.op? with
  | none => rw [apply_of_op?_none hop]
  | some op =>
    rw [apply_of_op?_some hop]
    exact congrArg Settings.halfOpenSuccessRequired (settings_apply cb r.now op)

/-- A breaker becomes half open with nothing counted. -/
theorem successes_of_becomes_halfOpen {cb : CircuitBreaker} {r : TimedReport} (hbefore : cb.state ≠ .HalfOpen)
    (hafter : (r.apply cb).state = .HalfOpen) : (r.apply cb).halfOpenSuccesses = 0 := by
  cases hop : r.op? with
  | none =>
    rw [apply_of_op?_none hop] at hafter
    exact absurd hafter hbefore
  | some op =>
    rw [apply_of_op?_some hop] at hafter ⊢
    cases moved_apply cb r.now op with
    | stays hsame _ _ _ => exact absurd (hsame.state.symm.trans hafter) hbefore
    | opens _ _ _ hstate _ _ =>
      rw [hstate] at hafter
      cases hafter
    | timesOut _ _ _ hhalf =>
      rw [hhalf]
      rfl
    | reconnects _ _ _ hhalf =>
      rw [hhalf]
      rfl
    | closes hclosed _ =>
      rw [hclosed] at hafter
      cases hafter

section HalfOpen
variable {cb : CircuitBreaker} {r : TimedReport}

/-- A success closes or counts. -/
theorem apply_of_success (hop : r.op? = some (.recordOrderResult none)) (hbefore : cb.state = .HalfOpen) :
    (cb.halfOpenSuccessRequired ≤ cb.halfOpenSuccesses + 1 ∧ (r.apply cb).state = .Closed) ∨
      (cb.halfOpenSuccesses + 1 < cb.halfOpenSuccessRequired ∧ (r.apply cb).state = .HalfOpen ∧
        (r.apply cb).halfOpenSuccesses = cb.halfOpenSuccesses + 1) := by
  rw [apply_of_op?_some hop]
  exact recordOrderResult_none_of_halfOpen hbefore r.now

end HalfOpen

theorem not_accepts_of_handlesFill {r : TimedReport} (h : handlesFill r = true) : accepts r = false := by
  obtain ⟨now, report⟩ := r
  cases report with
  | answered reply => cases h
  | _ => rfl

section Step
variable {m : Monitor} {r : TimedReport}

theorem step_of_halfOpen (h : m.breaker.state = .HalfOpen) :
    m.step r = ⟨r.apply m.breaker, m.accepted + (accepts r).toNat, m.fatal || rejectsFatally r⟩ := by
  simp [Monitor.step, h]

theorem step_breaker (m : Monitor) (r : TimedReport) : (m.step r).breaker = r.apply m.breaker := by
  unfold Monitor.step
  dsimp only
  split <;> rfl

/-- What a clean half-open breaker does on a report that is made once. -/
theorem recoversCleanly_of_reportsOnce (h : CountsAccepted m) (hbefore : m.breaker.state = .HalfOpen)
    (honce : ReportsOnce m r) : RecoversCleanly m r := by
  obtain ⟨hcount, hfew⟩ := h.2 hbefore
  obtain ⟨hfill, hfatal⟩ := honce hbefore
  rw [RecoversCleanly, step_of_halfOpen hbefore]
  by_cases haccepts : accepts r = true
  · rw [haccepts, not_rejectsFatally_of_accepts haccepts]
    dsimp only [Bool.toNat_true]
    rcases apply_of_success ((op?_eq_success_iff r).mpr (.inl haccepts)) hbefore with
      ⟨hlast, hclosed⟩ | ⟨-, hhalf, hsuccesses⟩
    · rw [hclosed]
      refine ⟨nofun, fun _ _ => ⟨?_, ?_⟩⟩
      · omega
      · rw [hfatal haccepts hlast]
        rfl
    · rw [hhalf, hsuccesses]
      exact ⟨fun _ => by omega, nofun⟩
  · have hop : r.op? ≠ some (.recordOrderResult none) := by
      rw [ne_eq, op?_eq_success_iff, hfill]
      simpa using haccepts
    obtain ⟨hclosed, hsuccesses⟩ := apply_of_not_success hop hbefore
    refine ⟨fun hhalf => ?_, fun _ h' => absurd h' hclosed⟩
    dsimp only at hhalf ⊢
    rw [hsuccesses hhalf]
    omega

theorem reportsOnce_of_recoversCleanly (h : CountsAccepted m) (hclean : RecoversCleanly m r) : ReportsOnce m r := by
  intro hbefore
  obtain ⟨hcount, hfew⟩ := h.2 hbefore
  rw [RecoversCleanly, step_of_halfOpen hbefore] at hclean
  obtain ⟨hcounted, hclosing⟩ := hclean
  dsimp only at hcounted hclosing
  constructor
  · by_contra hfill
    rw [Bool.not_eq_false] at hfill
    rw [not_accepts_of_handlesFill hfill] at hcounted hclosing
    rcases apply_of_success ((op?_eq_success_iff r).mpr (.inr hfill)) hbefore with
      ⟨-, hclosed⟩ | ⟨-, hhalf, hsuccesses⟩
    · have hrequired := (hclosing hbefore hclosed).1
      simp at hrequired
      omega
    · have hle := hcounted hhalf
      rw [hsuccesses] at hle
      simp at hle
      omega
  · intro haccepts hlast
    rcases apply_of_success ((op?_eq_success_iff r).mpr (.inl haccepts)) hbefore with ⟨-, hclosed⟩ | ⟨hnot, -, -⟩
    · have hfatal := (hclosing hbefore hclosed).2
      exact (Bool.or_eq_false_iff.mp hfatal).1
    · omega

theorem recoversCleanly_iff (h : CountsAccepted m) : RecoversCleanly m r ↔ ReportsOnce m r := by
  by_cases hbefore : m.breaker.state = .HalfOpen
  · exact ⟨reportsOnce_of_recoversCleanly h, recoversCleanly_of_reportsOnce h hbefore⟩
  · refine iff_of_true ⟨fun hafter => ?_, fun h' => absurd h' hbefore⟩ fun h' => absurd h' hbefore
    rw [step_breaker] at hafter ⊢
    rw [successes_of_becomes_halfOpen hbefore hafter]
    exact Nat.zero_le _

theorem countsAccepted_step (h : CountsAccepted m) (hclean : RecoversCleanly m r) : CountsAccepted (m.step r) := by
  unfold CountsAccepted
  rw [step_breaker, required_apply]
  refine ⟨h.1, fun hafter => ?_⟩
  by_cases hbefore : m.breaker.state = .HalfOpen
  · obtain ⟨hcount, hfew⟩ := h.2 hbefore
    have honce := (reportsOnce_of_recoversCleanly h hclean hbefore).1
    rw [step_of_halfOpen hbefore]
    cases haccepts : accepts r with
    | true =>
      rcases apply_of_success ((op?_eq_success_iff r).mpr (.inl haccepts)) hbefore with
        ⟨-, hclosed⟩ | ⟨hnot, -, hsuccesses⟩
      · rw [hclosed] at hafter
        cases hafter
      · rw [hsuccesses]
        exact ⟨congrArg (· + 1) hcount, hnot⟩
    | false =>
      have hop : r.op? ≠ some (.recordOrderResult none) := by
        rw [ne_eq, op?_eq_success_iff, honce, haccepts]
        decide
      rw [(apply_of_not_success hop hbefore).2 hafter]
      exact ⟨hcount, hfew⟩
  · rw [successes_of_becomes_halfOpen hbefore hafter, Monitor.step, if_pos ⟨hafter, hbefore⟩]
    exact ⟨rfl, h.1⟩

end Step

/-- In every run of the bot the breaker recovers cleanly exactly if, while it is half open, no result with a fill is
handled and no fatal rejection comes before the order that closes it. -/
theorem breaker_recovers_cleanly_iff (policy : ExecutionPolicy) (fatalThreshold : ℕ) (rejectRateThreshold : ℚ)
    (resetTimeout : Duration) (now : Instant) (initialCash : Decimal) (balance : Option Decimal)
    (recentFills : List Fill) (events : List LiveEvent) :
    let cb := CircuitBreaker.withThresholds fatalThreshold rejectRateThreshold resetTimeout now
    let reports := (LiveState.start (.new policy cb) initialCash balance recentFills).runReports events
    Throughout Monitor.step RecoversCleanly (.start cb) reports ↔
      Throughout Monitor.step ReportsOnce (.start cb) reports := by
  intro cb reports
  refine throughout_congr CountsAccepted ?_ ?_ ?_
  · intro m r h hclean
    exact countsAccepted_step h hclean
  · intro m r h
    exact recoversCleanly_iff h
  · refine ⟨Nat.succ_pos 2, fun hhalf => ?_⟩
    cases hhalf

private def takerOrder : OrderIntent := OrderIntent.new "m1" "yes" .Buy (1 / 2) 10 .Immediate "TboTrendStrategy"

private def badSignature : Reply := .ok ⟨false, some "INVALID_SIGNATURE", "", 0, Decimal.zero_le_max⟩

private def rejectedBatch : List LiveEvent :=
  .processIntents (.replicate 5 takerOrder) 0 ::
    ((List.range 5).map fun leg => .task 0 (.leg (.start leg 0 0)) 0) ++
    ((List.range 5).map fun leg => .task 0 (.leg (.answer leg 0 badSignature)) 0)

private def filledOrder (i : ℕ) : List LiveEvent :=
  let now := Duration.fromSecs 60
  [.processIntents [takerOrder] now,
    .task i (.leg (.start 0 now 60)) 0,
    .task i (.leg (.answer 0 now (.ok (.taking "x" 10)))) 0,
    .task i (.enterUnwinds now) 0,
    .task i (.handleResults now) 0]

private def calmBot : LiveState := .start (.new DualPolicy.new.policy (.new 0)) 100 none []

/-- Two filled orders close a breaker that wants three. -/
theorem two_orders_close_breaker :
    (calmBot.run (rejectedBatch ++ filledOrder 1)).executor.circuitBreaker.state = .HalfOpen ∧
      (calmBot.run (rejectedBatch ++ filledOrder 1 ++ filledOrder 2)).executor.circuitBreaker.state = .Closed ∧
      ¬Throughout Monitor.step RecoversCleanly (.start (.new 0))
        (calmBot.runReports (rejectedBatch ++ filledOrder 1 ++ filledOrder 2)) := by
  decide +kernel

end PolyBot.Bot.Recovery
