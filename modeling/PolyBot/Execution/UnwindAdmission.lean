import PolyBot.General.AdditiveRuns
import PolyBot.Execution.Executor

/-! Whether the unwinds of a grouped batch reach the exchange. The legs and the unwinds share one breaker
and one limiter. -/

namespace PolyBot.Execution.UnwindAdmission
open OrderExecutor General.AdditiveRuns

/-- The event moves its leg, and a leg that starts passes the checks. -/
def Admitted (intents : List OrderIntent) (s : BatchState) : BatchEvent → Prop
  | .start leg now _ => leg < intents.length ∧ s.legs[leg]? = some .idle ∧ s.executor.Admits now
  | .answer leg _ _ => leg < intents.length ∧ s.legs[leg]?.any LegState.isInFlight = true

def observe (cb : CircuitBreaker) : BatchEvent → CircuitBreaker
  | .start _ now _ => (cb.isTradingAllowed now).2
  | .answer _ now reply => cb.recordOrderResult (errorOf reply) now

def acquire (rl : RateLimiter) : BatchEvent → RateLimiter
  | .start _ now _ => (rl.tryAcquire now).2
  | .answer _ _ _ => rl

def afterLegs (ex : OrderExecutor) (schedule : List BatchEvent) : OrderExecutor :=
  ⟨ex.policy, schedule.foldl observe ex.circuitBreaker, schedule.foldl acquire ex.rateLimiter⟩

theorem step_executor {intents : List OrderIntent} {s : BatchState} {event : BatchEvent}
    (h : Admitted intents s event) : (s.step intents event).executor = afterLegs s.executor [event] := by
  cases event with
  | start leg now nowSecs =>
    obtain ⟨hlt, hleg, hadmits⟩ := h
    have hintent : intents[leg]? = some intents[leg] := List.getElem?_eq_getElem hlt
    simp only [BatchState.step, hintent, hleg, passChecks_of_admits hadmits]
    rfl
  | answer leg now reply =>
    obtain ⟨hlt, hflying⟩ := h
    have hintent : intents[leg]? = some intents[leg] := List.getElem?_eq_getElem hlt
    obtain ⟨l, hleg, hl⟩ := (Option.any_eq_true _ _).mp hflying
    cases l with
    | idle => cases hl
    | done result => cases hl
    | inFlight params =>
      simp only [BatchState.step, hintent, hleg, answer_executor]
      rfl

theorem foldl_step_executor {intents : List OrderIntent} {s : BatchState} {schedule : List BatchEvent}
    (h : Throughout (BatchState.step intents) (Admitted intents) s schedule) :
    (schedule.foldl (BatchState.step intents) s).executor = afterLegs s.executor schedule := by
  induction schedule generalizing s with
  | nil => rfl
  | cons event schedule ih =>
    obtain ⟨hevent, hrest⟩ := h
    rw [List.foldl_cons, ih hrest, step_executor hevent]
    rfl

theorem resetTimeout_afterLegs (ex : OrderExecutor) (schedule : List BatchEvent) :
    (afterLegs ex schedule).circuitBreaker.resetTimeout = ex.circuitBreaker.resetTimeout := by
  change (schedule.foldl observe ex.circuitBreaker).resetTimeout = _
  generalize ex.circuitBreaker = cb
  induction schedule generalizing cb with
  | nil => rfl
  | cons event schedule ih =>
    rw [List.foldl_cons, ih]
    cases event with
    | start _ now _ => exact cb.resetTimeout_isTradingAllowed now
    | answer _ now reply => exact cb.resetTimeout_recordOrderResult _ now

def Submits (policy : ExecutionPolicy) (unwind : OrderIntent) (outcome : UnwindOutcome) : Prop :=
  ∃ nowSecs result, outcome = .submitted (policy.orderParams nowSecs unwind) result

def AnsweredInFull (params : OrderParams) (turn : UnwindTurn) : Prop :=
  ∃ reply answeredAt, turn.reply = some (reply, answeredAt) ∧ FillsWhole params reply

structure Chronological (loopStart : Instant) (turns : ℕ → UnwindTurn) : Prop where
  entered : loopStart ≤ (turns 0).start
  answered : ∀ i reply answeredAt, (turns i).reply = some (reply, answeredAt) →
    (turns i).start ≤ answeredAt ∧ answeredAt ≤ (turns (i + 1)).start
  timedOut : ∀ i, (turns i).reply = none → unwindDeadline loopStart ≤ (turns (i + 1)).start

def later (turns : ℕ → UnwindTurn) : ℕ → UnwindTurn := fun i => turns (i + 1)

theorem Chronological.later {loopStart : Instant} {turns : ℕ → UnwindTurn} (h : Chronological loopStart turns) :
    Chronological loopStart (later turns) where
  entered := by
    cases hreply : (turns 0).reply with
    | none => exact (Nat.le_add_right _ _).trans (h.timedOut 0 hreply)
    | some answer =>
      obtain ⟨hstart, hnext⟩ := h.answered 0 answer.1 answer.2 hreply
      exact h.entered.trans (hstart.trans hnext)
  answered i := h.answered (i + 1)
  timedOut i := h.timedOut (i + 1)

def HasRoom (rl : RateLimiter) (starts : List Instant) : Prop :=
  Throughout (fun rl now => (RateLimiter.tryAcquire rl now).2) (fun rl now => (rl.tryAcquire now).1 = true) rl starts

/-- Nothing stops the unwinds: the breaker lets the first one trade, every turn begins before the deadline, the
limiter has room for all, and the exchange fills each whole before the next one starts. -/
structure Unblocked (ex : OrderExecutor) (loopStart : Instant) (turns : ℕ → UnwindTurn) (unwinds : List OrderIntent) :
    Prop where
  trading : (ex.circuitBreaker.isTradingAllowed (turns 0).start).1 = true
  inTime : ∀ i < unwinds.length, (turns i).start < unwindDeadline loopStart
  room : HasRoom ex.rateLimiter ((List.range unwinds.length).map fun i => (turns i).start)
  filled : ∀ i unwind, unwinds[i]? = some unwind → i + 1 < unwinds.length →
    AnsweredInFull (ex.policy.orderParams (turns i).startSecs unwind) (turns i)

theorem unwindOne_submits {ex : OrderExecutor} {turn : UnwindTurn} (h : ex.Admits turn.start) (deadline : Instant)
    (unwind : OrderIntent) : Submits ex.policy unwind (ex.unwindOne deadline turn unwind).1 := by
  simp only [unwindOne, passChecks_of_admits h]
  split
  · exact ⟨turn.startSecs, none, rfl⟩
  · exact ⟨turn.startSecs, _, rfl⟩

theorem unwindOne_not_submits {ex : OrderExecutor} {turn : UnwindTurn} (h : ¬ex.Admits turn.start) (deadline : Instant)
    (policy : ExecutionPolicy) (unwind : OrderIntent) :
    ¬Submits policy unwind (ex.unwindOne deadline turn unwind).1 := by
  obtain ⟨result, ex', hrefused⟩ := passChecks_of_not_admits h turn.startSecs unwind
  rintro ⟨nowSecs, answer, heq⟩
  simp [unwindOne, hrefused] at heq

theorem answeredInFull_some {params : OrderParams} {turn : UnwindTurn} {reply : Reply} {answeredAt : Instant}
    (h : turn.reply = some (reply, answeredAt)) : AnsweredInFull params turn ↔ FillsWhole params reply := by
  simp [AnsweredInFull, h]

theorem errorOf_of_fillsWhole {params : OrderParams} {reply : Reply} (h : FillsWhole params reply) :
    errorOf reply = none := by
  obtain ⟨response, rfl, hsuccess, -⟩ := h
  simp [errorOf, hsuccess]

section Turn
variable {ex : OrderExecutor} {turn : UnwindTurn} {reply : Reply} {answeredAt : Instant}

theorem unwindOne_timedOut (h : ex.Admits turn.start) (hreply : turn.reply = none) (deadline : Instant)
    (unwind : OrderIntent) :
    (ex.unwindOne deadline turn unwind).2 = (ex.afterAdmission turn.start).manualOpen deadline := by
  simp only [unwindOne, passChecks_of_admits h, hreply]

theorem unwindOne_filled (h : ex.Admits turn.start) (hreply : turn.reply = some (reply, answeredAt))
    (deadline : Instant) {unwind : OrderIntent}
    (hwhole : FillsWhole (ex.policy.orderParams turn.startSecs unwind) reply) :
    (ex.unwindOne deadline turn unwind).2 = (ex.afterAdmission turn.start).recordOrderResult none answeredAt := by
  simp only [unwindOne, passChecks_of_admits h, hreply]
  rw [if_pos ((answer_fullyFilled_iff _ _ _ _ _).mpr hwhole), answer_executor, errorOf_of_fillsWhole hwhole]

theorem unwindOne_unfilled (h : ex.Admits turn.start) (hreply : turn.reply = some (reply, answeredAt))
    (deadline : Instant) {unwind : OrderIntent}
    (hnot : ¬FillsWhole (ex.policy.orderParams turn.startSecs unwind) reply) :
    (ex.unwindOne deadline turn unwind).2 =
      ((ex.afterAdmission turn.start).recordOrderResult (errorOf reply) answeredAt).manualOpen answeredAt := by
  simp only [unwindOne, passChecks_of_admits h, hreply]
  rw [if_neg (mt (answer_fullyFilled_iff _ _ _ _ _).mp hnot), answer_executor]

/-- What an admitted turn leaves behind. Only the answer that the whole order filled keeps the breaker from
opening; any other answer leaves it opened at its time. -/
structure AfterTurn (ex : OrderExecutor) (turn : UnwindTurn) (params : OrderParams) (ex' : OrderExecutor) : Prop where
  policy : ex'.policy = ex.policy
  rateLimiter : ex'.rateLimiter = (ex.rateLimiter.tryAcquire turn.start).2
  resetTimeout : ex'.circuitBreaker.resetTimeout = ex.circuitBreaker.resetTimeout
  filled : AnsweredInFull params turn → ex'.circuitBreaker.state ≠ .Open
  unfilled : ¬AnsweredInFull params turn → ∀ reply answeredAt, turn.reply = some (reply, answeredAt) →
    ex'.circuitBreaker.OpenedAt answeredAt

theorem unwindOne_afterTurn (h : ex.Admits turn.start) (deadline : Instant) (unwind : OrderIntent) :
    AfterTurn ex turn (ex.policy.orderParams turn.startSecs unwind) (ex.unwindOne deadline turn unwind).2 := by
  have htimeout : (ex.afterAdmission turn.start).circuitBreaker.resetTimeout = ex.circuitBreaker.resetTimeout :=
    ex.circuitBreaker.resetTimeout_isTradingAllowed turn.start
  have hnot : (ex.afterAdmission turn.start).circuitBreaker.state ≠ .Open :=
    CircuitBreaker.not_open_of_isTradingAllowed h.1
  cases hreply : turn.reply with
  | none =>
    rw [unwindOne_timedOut h hreply]
    refine ⟨rfl, rfl, (CircuitBreaker.resetTimeout_openFor _ _ _).trans htimeout, ?_, ?_⟩
    · rintro ⟨reply, answeredAt, hsome, -⟩
      simp [hreply] at hsome
    · intro _ reply answeredAt hsome
      simp [hreply] at hsome
  | some answer =>
    obtain ⟨reply, answeredAt⟩ := answer
    by_cases hwhole : FillsWhole (ex.policy.orderParams turn.startSecs unwind) reply
    · rw [unwindOne_filled h hreply deadline hwhole]
      refine ⟨rfl, rfl, (CircuitBreaker.resetTimeout_recordOrderResult _ _ _).trans htimeout, ?_, ?_⟩
      · intro _
        exact CircuitBreaker.recordOrderResult_none_not_open hnot answeredAt
      · intro hunfilled
        exact absurd ((answeredInFull_some hreply).mpr hwhole) hunfilled
    · rw [unwindOne_unfilled h hreply deadline hwhole]
      have hrecorded := CircuitBreaker.resetTimeout_recordOrderResult
        (ex.afterAdmission turn.start).circuitBreaker (errorOf reply) answeredAt
      refine ⟨rfl, rfl, (CircuitBreaker.resetTimeout_openFor _ _ _).trans (hrecorded.trans htimeout), ?_, ?_⟩
      · intro hfilled
        exact absurd ((answeredInFull_some hreply).mp hfilled) hwhole
      · intro _ reply' answeredAt' hsome
        obtain ⟨rfl, rfl⟩ : reply = reply' ∧ answeredAt = answeredAt' := by
          simpa [hreply] using hsome
        exact CircuitBreaker.openedAt_openFor (CircuitBreaker.recordOrderResult_state hnot _ _) _

end Turn

section Loop
variable {ex ex' : OrderExecutor} {loopStart : Instant} {turns : ℕ → UnwindTurn} {unwind : OrderIntent}
  {unwinds : List OrderIntent}

/-- A breaker that opened inside the loop still refuses a turn that begins before the deadline. -/
theorem trading_after_turn_iff {params : OrderParams} (hclock : Chronological loopStart turns)
    (htimeout : Duration.fromMillis PARTIAL_FILL_UNWIND_MS ≤ ex.circuitBreaker.resetTimeout)
    (hafter : AfterTurn ex (turns 0) params ex') (hbefore : (turns 1).start < unwindDeadline loopStart) :
    (ex'.circuitBreaker.isTradingAllowed (turns 1).start).1 = true ↔ AnsweredInFull params (turns 0) := by
  constructor
  · intro hallowed
    by_contra hunfilled
    cases hreply : (turns 0).reply with
    | none => exact absurd (hclock.timedOut 0 hreply) (not_le.mpr hbefore)
    | some answer =>
      obtain ⟨hstart, hnext⟩ := hclock.answered 0 answer.1 answer.2 hreply
      obtain ⟨hopen, hopenedAt⟩ := hafter.unfilled hunfilled answer.1 answer.2 hreply
      have hrecent : answer.2.elapsed (turns 1).start < ex'.circuitBreaker.resetTimeout := by
        have hentered : loopStart ≤ answer.2 := hclock.entered.trans hstart
        have hwithin : (turns 1).start < answer.2 + Duration.fromMillis PARTIAL_FILL_UNWIND_MS :=
          hbefore.trans_le (Nat.add_le_add_right hentered _)
        rw [hafter.resetTimeout]
        exact (Nat.sub_lt_left_of_lt_add hnext hwithin).trans_le htimeout
      rw [CircuitBreaker.isTradingAllowed_of_recently_opened hopen hopenedAt hrecent] at hallowed
      cases hallowed
  · intro hfilled
    rw [CircuitBreaker.isTradingAllowed_of_not_open (hafter.filled hfilled)]

theorem hasRoom_cons_iff (rl : RateLimiter) (n : ℕ) :
    HasRoom rl ((List.range (n + 1)).map fun i => (turns i).start) ↔
      (rl.tryAcquire (turns 0).start).1 = true ∧
        HasRoom (rl.tryAcquire (turns 0).start).2 ((List.range n).map fun i => (later turns i).start) := by
  rw [List.range_succ_eq_map, List.map_cons, List.map_map]
  rfl

/-- When nothing stops a loop of more than one turn, nothing stops its rest. -/
theorem Unblocked.tail (h : Unblocked ex loopStart turns (unwind :: unwinds)) (hclock : Chronological loopStart turns)
    (htimeout : Duration.fromMillis PARTIAL_FILL_UNWIND_MS ≤ ex.circuitBreaker.resetTimeout)
    (hafter : AfterTurn ex (turns 0) (ex.policy.orderParams (turns 0).startSecs unwind) ex') (hne : unwinds ≠ []) :
    Unblocked ex' loopStart (later turns) unwinds := by
  have hlength : 1 < (unwind :: unwinds).length := by
    simpa [List.length_pos_iff] using hne
  constructor
  · exact (trading_after_turn_iff hclock htimeout hafter (h.inTime 1 hlength)).mpr (h.filled 0 unwind rfl hlength)
  · intro i hi
    exact h.inTime (i + 1) (by simpa using hi)
  · have hroom := h.room
    rw [List.length_cons, hasRoom_cons_iff] at hroom
    rw [hafter.rateLimiter]
    exact hroom.2
  · intro i unwind' hget hi
    rw [hafter.policy]
    exact h.filled (i + 1) unwind' hget (by simpa using hi)

/-- After an admitted turn nothing stops the loop if nothing stops its rest. -/
theorem Unblocked.cons (h : unwinds = [] ∨ Unblocked ex' loopStart (later turns) unwinds)
    (hclock : Chronological loopStart turns)
    (htimeout : Duration.fromMillis PARTIAL_FILL_UNWIND_MS ≤ ex.circuitBreaker.resetTimeout)
    (hbefore : (turns 0).start < unwindDeadline loopStart) (hadmits : ex.Admits (turns 0).start)
    (hafter : AfterTurn ex (turns 0) (ex.policy.orderParams (turns 0).startSecs unwind) ex') :
    Unblocked ex loopStart turns (unwind :: unwinds) := by
  have hrest : ∀ i, i < unwinds.length → Unblocked ex' loopStart (later turns) unwinds := by
    intro i hi
    rcases h with rfl | h
    · cases hi
    · exact h
  constructor
  · exact hadmits.1
  · intro i hi
    cases i with
    | zero => exact hbefore
    | succ i =>
      have hi' : i < unwinds.length := by simpa using hi
      exact (hrest i hi').inTime i hi'
  · rw [List.length_cons, hasRoom_cons_iff]
    refine ⟨hadmits.2, ?_⟩
    rcases h with rfl | h
    · trivial
    · exact hafter.rateLimiter ▸ h.room
  · intro i unwind' hget hi
    have hi' : i < unwinds.length := by simpa using hi
    have h' := hrest i hi'
    cases i with
    | zero =>
      obtain rfl : unwind = unwind' := by simpa using hget
      exact (trading_after_turn_iff hclock htimeout hafter (h'.inTime 0 hi')).mp h'.trading
    | succ i => exact hafter.policy ▸ h'.filled i unwind' hget hi'

/-- Past an admitted turn, what is left to ask is whether the remaining unwinds are unblocked. -/
theorem unblocked_cons_iff (hclock : Chronological loopStart turns)
    (htimeout : Duration.fromMillis PARTIAL_FILL_UNWIND_MS ≤ ex.circuitBreaker.resetTimeout)
    (hbefore : (turns 0).start < unwindDeadline loopStart) (hadmits : ex.Admits (turns 0).start)
    (hafter : AfterTurn ex (turns 0) (ex.policy.orderParams (turns 0).startSecs unwind) ex') :
    Unblocked ex loopStart turns (unwind :: unwinds) ↔
      unwinds = [] ∨ Unblocked ex' loopStart (later turns) unwinds := by
  constructor
  · intro h
    by_cases hne : unwinds = []
    · exact .inl hne
    · exact .inr (h.tail hclock htimeout hafter hne)
  · intro h
    exact .cons h hclock htimeout hbefore hadmits hafter

theorem runUnwinds_submits_iff (hclock : Chronological loopStart turns)
    (htimeout : Duration.fromMillis PARTIAL_FILL_UNWIND_MS ≤ ex.circuitBreaker.resetTimeout) :
    List.Forall₂ (Submits ex.policy) unwinds (ex.runUnwinds (unwindDeadline loopStart) turns unwinds).1 ↔
      unwinds = [] ∨ Unblocked ex loopStart turns unwinds := by
  induction unwinds generalizing ex turns with
  | nil => simp [runUnwinds]
  | cons unwind unwinds ih =>
    simp only [List.cons_ne_nil, false_or]
    by_cases hbefore : (turns 0).start < unwindDeadline loopStart
    · simp only [runUnwinds, if_neg (not_le.mpr hbefore), List.forall₂_cons]
      by_cases hadmits : ex.Admits (turns 0).start
      · have hafter := unwindOne_afterTurn hadmits (unwindDeadline loopStart) unwind
        have hrest := ih hclock.later (hafter.resetTimeout ▸ htimeout)
        rw [hafter.policy] at hrest
        rw [unblocked_cons_iff hclock htimeout hbefore hadmits hafter]
        exact ⟨fun h => hrest.mp h.2, fun h => ⟨unwindOne_submits hadmits _ _, hrest.mpr h⟩⟩
      · refine iff_of_false ?_ ?_
        · rintro ⟨hfirst, -⟩
          exact unwindOne_not_submits hadmits _ _ _ hfirst
        · intro h
          have hroom := h.room
          rw [List.length_cons, hasRoom_cons_iff] at hroom
          exact hadmits ⟨h.trading, hroom.1⟩
    · simp only [runUnwinds, if_pos (not_lt.mp hbefore)]
      refine iff_of_false ?_ ?_
      · intro h
        obtain ⟨⟨nowSecs, result, heq⟩, -⟩ := List.forall₂_cons.mp h
        cases heq
      · intro h
        exact hbefore (h.inTime 0 (by simp))

end Loop

/-- Every excess of a grouped batch is submitted for closing exactly when nothing stops the unwinds. -/
theorem unwinds_submitted_iff {ex final : OrderExecutor} {intents : List OrderIntent} {schedule : List BatchEvent}
    {loopStart : Instant} {turns : ℕ → UnwindTurn} {results : List ExecutionResult} {outcomes : List UnwindOutcome}
    (hgrouped : firstIsGrouped intents = true)
    (hrun : ex.executeGrouped intents schedule loopStart turns = some (results, outcomes, final))
    (hadmitted : Throughout (BatchState.step intents) (Admitted intents) (BatchState.begin ex intents) schedule)
    (htimeout : Duration.fromMillis PARTIAL_FILL_UNWIND_MS ≤ ex.circuitBreaker.resetTimeout)
    (hclock : Chronological loopStart turns) :
    List.Forall₂ (Submits ex.policy) (unwindIntents intents results) outcomes ↔
      unwindIntents intents results = [] ∨
        Unblocked (afterLegs ex schedule) loopStart turns (unwindIntents intents results) := by
  have hlegs : (schedule.foldl (BatchState.step intents) (BatchState.begin ex intents)).executor =
      afterLegs ex schedule := foldl_step_executor hadmitted
  simp only [executeGrouped, executeBatch, Option.map_map, Option.map_eq_some_iff, Function.comp_apply,
    Prod.mk.injEq, hlegs] at hrun
  obtain ⟨_, -, rfl, rfl, -⟩ := hrun
  rw [plannedUnwinds, if_pos hgrouped]
  exact runUnwinds_submits_iff hclock ((resetTimeout_afterLegs ex schedule).symm ▸ htimeout)

private def arbLeg (tokenId : TokenId) : OrderIntent :=
  (OrderIntent.new "m1" tokenId .Buy (1 / 2) 10 .Immediate "MathArbStrategy").withGroup "arb-1"

private def took (size : Decimal) : Reply := .ok (.taking "x" size)

private def noBalance : Reply :=
  .ok ⟨false, some "INVALID_ORDER_NOT_ENOUGH_BALANCE", "", 0, Decimal.zero_le_max⟩

/-- Two legs start at once; the first fills whole, the second is rejected. -/
private def lopsided : List BatchEvent :=
  [.start 0 0 0, .start 1 0 0, .answer 0 0 (took 10), .answer 1 0 noBalance]

private def promptTurns (i : ℕ) : UnwindTurn :=
  ⟨Duration.fromMillis i, 0, some (took 10, Duration.fromMillis i)⟩

private theorem promptTurns_chronological : Chronological 0 promptTurns where
  entered := le_refl 0
  answered := by
    intro i reply answeredAt hreply
    obtain ⟨-, rfl⟩ : took 10 = reply ∧ Duration.fromMillis i = answeredAt := by
      simpa [promptTurns] using hreply
    exact ⟨le_refl _, Nat.mul_le_mul_right _ (Nat.le_succ i)⟩
  timedOut := by
    intro i hreply
    cases hreply

/-- A batch with a calm breaker meets every hypothesis. -/
theorem calm_batch_submits_iff : ∃ results outcomes final,
    (OrderExecutor.new DualPolicy.new.policy (.new 0)).executeGrouped [arbLeg "yes", arbLeg "no"] lopsided 0
        promptTurns = some (results, outcomes, final) ∧
      (List.Forall₂ (Submits DualPolicy.new.policy) (unwindIntents [arbLeg "yes", arbLeg "no"] results) outcomes ↔
        unwindIntents [arbLeg "yes", arbLeg "no"] results = [] ∨
          Unblocked (afterLegs (.new DualPolicy.new.policy (.new 0)) lopsided) 0 promptTurns
            (unwindIntents [arbLeg "yes", arbLeg "no"] results)) := by
  obtain ⟨⟨results, outcomes, final⟩, hrun⟩ := Option.isSome_iff_exists.mp (show
    ((OrderExecutor.new DualPolicy.new.policy (.new 0)).executeGrouped [arbLeg "yes", arbLeg "no"] lopsided 0
      promptTurns).isSome = true by decide +kernel)
  refine ⟨results, outcomes, final, hrun, unwinds_submitted_iff ?_ hrun ?_ ?_ promptTurns_chronological⟩
  · decide +kernel
  · refine ⟨⟨by decide, by decide +kernel, ?_⟩, ⟨by decide, by decide +kernel, ?_⟩,
      ⟨by decide, by decide +kernel⟩, ⟨by decide, by decide +kernel⟩, trivial⟩
    · unfold Admits
      decide +kernel
    · unfold Admits
      decide +kernel
  · decide +kernel

private def strained : CircuitBreaker :=
  (List.replicate 4 .Fatal).foldl (fun cb e => cb.recordOrderResult (some e) 0) (.new 0)

private def refusedUnwind (tokenId : TokenId) : UnwindOutcome :=
  .refused (.refusal (unwindIntent (arbLeg tokenId) 10) .CircuitOpen "Circuit breaker open")

/-- The rejection of one leg opens the breaker before the unwind of the other. With a calm breaker and two
excess legs, the first unwind fills 10 of the 11 it asks for and the second one is refused. -/
theorem tripped_breaker_refuses_unwind :
    ((OrderExecutor.new DualPolicy.new.policy strained).executeGrouped [arbLeg "yes", arbLeg "no"] lopsided 0
        promptTurns).map (fun run => (run.1.map (·.status), run.2.1)) =
      some ([.FullyFilled, .Rejected], [refusedUnwind "yes"]) ∧
    ((OrderExecutor.new DualPolicy.new.policy (.new 0)).executeGrouped [arbLeg "a", arbLeg "b", arbLeg "c"]
        [.start 0 0 0, .start 1 0 0, .start 2 0 0, .answer 0 0 (took 10),
          .answer 1 0 (took 10), .answer 2 0 noBalance] 0
        promptTurns).map (fun run => (run.1.map (·.status), run.2.1.map UnwindOutcome.isSubmitted, run.2.1[1]?)) =
      some ([.FullyFilled, .FullyFilled, .Rejected], [true, false], some (refusedUnwind "b")) := by
  decide +kernel

end PolyBot.Execution.UnwindAdmission
