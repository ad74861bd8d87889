import PolyBot.Risk.BreakerRuns

/-! What the breaker's cells say together: its latch, its record of the current opening and its probe count. -/

namespace PolyBot
open General.AdditiveRuns

structure CircuitBreakerStats where
  state : CircuitState
  fatalErrorCount : ℕ
  ordersSubmitted : ℕ
  ordersRejected : ℕ
  rejectRate : ℚ
  openReason : Option OpenReason
  deriving DecidableEq, Repr

def CircuitBreaker.stats (cb : CircuitBreaker) : CircuitBreakerStats where
  state := cb.state
  fatalErrorCount := cb.fatalErrorCount
  ordersSubmitted := cb.ordersSubmitted
  ordersRejected := cb.ordersRejected
  rejectRate := cb.currentRejectRate
  openReason := cb.openReason

inductive BreakerQuery where
  | isTradingAllowed
  | state
  | openReason
  | stats
  deriving DecidableEq, Repr

inductive BreakerAnswer where
  | allowed (answer : Bool)
  | state (answer : CircuitState)
  | openReason (answer : Option OpenReason)
  | stats (answer : CircuitBreakerStats)
  deriving DecidableEq, Repr

def BreakerQuery.ask (cb : CircuitBreaker) (now : Instant) : BreakerQuery → BreakerAnswer × CircuitBreaker
  | isTradingAllowed => (.allowed (cb.isTradingAllowed now).1, (cb.isTradingAllowed now).2)
  | state => (.state cb.state, cb)
  | openReason => (.openReason cb.openReason, cb)
  | stats => (.stats cb.stats, cb)

inductive BreakerCall where
  | operation (op : BreakerOp)
  | query (q : BreakerQuery)
  deriving DecidableEq, Repr

def BreakerCall.perform (cb : CircuitBreaker) (now : Instant) : BreakerCall → CircuitBreaker
  | operation op => op.apply cb now
  | query q => (q.ask cb now).2

def BreakerCall.cause (cb : CircuitBreaker) (now : Instant) : BreakerCall → Option OpenReason
  | operation op => op.cause cb now
  | query _ => none

structure ClockedBreaker where
  now : Instant
  breaker : CircuitBreaker
  deriving DecidableEq, Repr

/-- A call is given with the time since the call before it. -/
def ClockedBreaker.step (s : ClockedBreaker) (call : Duration × BreakerCall) : ClockedBreaker :=
  ⟨s.now + call.1, call.2.perform s.breaker (s.now + call.1)⟩

def ClockedBreaker.run (s : ClockedBreaker) (calls : List (Duration × BreakerCall)) : ClockedBreaker :=
  calls.foldl step s

namespace CircuitBreaker

structure WellFormed (cb : CircuitBreaker) : Prop where
  opened : cb.state = .Open → (∃ reason, cb.openReason = some reason) ∧ ∃ time, cb.openedAt = some time
  closed : cb.state = .Closed → cb.openReason = none ∧ cb.openedAt = none
  probing : cb.state = .HalfOpen → cb.halfOpenSuccesses < cb.halfOpenSuccessRequired

structure Sound (cb : CircuitBreaker) : Prop extends WellFormed cb where
  required : 0 < cb.halfOpenSuccessRequired

theorem sound_withThresholds (fatalThreshold : ℕ) (rejectRateThreshold : ℚ) (resetTimeout : Duration) (now : Instant) :
    Sound (withThresholds fatalThreshold rejectRateThreshold resetTimeout now) where
  opened := fun h => by cases h
  closed := fun _ => ⟨rfl, rfl⟩
  probing := fun h => by cases h
  required := Nat.zero_lt_succ 2

theorem sound_new (now : Instant) : Sound (new now) :=
  sound_withThresholds CIRCUIT_BREAKER_THRESHOLD REJECT_RATE_THRESHOLD CIRCUIT_RESET_TIMEOUT now

theorem sound_transitionToHalfOpen {cb : CircuitBreaker} (h : 0 < cb.halfOpenSuccessRequired) :
    Sound cb.transitionToHalfOpen where
  opened := fun hopen => by cases hopen
  closed := fun hclosed => by cases hclosed
  probing := fun _ => h
  required := h

theorem state_transitionToHalfOpen_ne (cb : CircuitBreaker) : cb.transitionToHalfOpen.state ≠ .Open :=
  fun h => by cases h

theorem halfOpenSuccessRequired_apply (cb : CircuitBreaker) (now : Instant) (op : BreakerOp) :
    (op.apply cb now).halfOpenSuccessRequired = cb.halfOpenSuccessRequired :=
  congrArg Settings.halfOpenSuccessRequired (settings_apply cb now op)

/-- The operations that close the breaker drop the record of its opening. -/
theorem record_of_closes {cb : CircuitBreaker} {now : Instant} {op : BreakerOp}
    (hclosed : (op.apply cb now).state = .Closed)
    (hwhy : op = .forceClose ∨ cb.state = .HalfOpen ∧ op = .recordOrderResult none) :
    (op.apply cb now).openReason = none ∧ (op.apply cb now).openedAt = none := by
  rcases hwhy with rfl | ⟨hhalf, rfl⟩
  · exact ⟨rfl, rfl⟩
  · simp only [BreakerOp.apply, recordOrderResult, recordSuccess, state_maybeResetWindow, hhalf, if_true] at hclosed ⊢
    split at hclosed
    · rename_i hlast
      rw [if_pos hlast]
      exact ⟨rfl, rfl⟩
    · cases hclosed

/-- A breaker that stays half open has counted fewer successes than it asks for. -/
theorem probing_apply {cb : CircuitBreaker} (h : Sound cb) (now : Instant) (op : BreakerOp)
    (hbefore : cb.state = .HalfOpen) (hafter : (op.apply cb now).state = .HalfOpen) :
    (op.apply cb now).halfOpenSuccesses < cb.halfOpenSuccessRequired := by
  by_cases hreset : op = .resetCounters
  · subst hreset
    exact h.required
  · by_cases hsuccess : op = .recordOrderResult none
    · subst hsuccess
      rcases recordOrderResult_none_of_halfOpen hbefore now with ⟨-, hclosed⟩ | ⟨hfew, -, hcount⟩
      · exact absurd (hafter.symm.trans hclosed) (by decide)
      · exact hcount.trans_lt hfew
    · rw [halfOpenSuccesses_apply hreset hsuccess hbefore hafter]
      exact h.probing hbefore

theorem sound_apply {cb : CircuitBreaker} (h : Sound cb) (now : Instant) (op : BreakerOp) :
    Sound (op.apply cb now) := by
  have hrequired := halfOpenSuccessRequired_apply cb now op
  have hpos : 0 < (op.apply cb now).halfOpenSuccessRequired := hrequired ▸ h.required
  cases moved_apply cb now op with
  | stays hsame _ _ _ =>
    refine ⟨⟨fun hopen => ?_, fun hclosed => ?_, fun hhalf => ?_⟩, hpos⟩
    · rw [hsame.openReason, hsame.openedAt]
      exact h.opened (hsame.state.symm.trans hopen)
    · rw [hsame.openReason, hsame.openedAt]
      exact h.closed (hsame.state.symm.trans hclosed)
    · rw [hrequired]
      exact probing_apply h now op (hsame.state.symm.trans hhalf) hhalf
  | opens reason _ _ hstate hreason hopened =>
    refine ⟨⟨fun _ => ⟨⟨_, hreason⟩, ⟨_, hopened⟩⟩, fun hclosed => ?_, fun hhalf => ?_⟩, hpos⟩
    · exact absurd (hstate.symm.trans hclosed) (by decide)
    · exact absurd (hstate.symm.trans hhalf) (by decide)
  | timesOut _ _ _ hhalf | reconnects _ _ _ hhalf =>
    rw [hhalf]
    exact sound_transitionToHalfOpen h.required
  | closes hclosed hwhy =>
    refine ⟨⟨fun hopen => ?_, fun _ => record_of_closes hclosed hwhy, fun hhalf => ?_⟩, hpos⟩
    · exact absurd (hclosed.symm.trans hopen) (by decide)
    · exact absurd (hclosed.symm.trans hhalf) (by decide)

end CircuitBreaker

namespace BreakerQuery
open CircuitBreaker

/-- Only asking whether trading is allowed can change the breaker, and it only lets an open one that has timed out
probe. -/
theorem ask_eq_or (cb : CircuitBreaker) (now : Instant) (q : BreakerQuery) :
    (q.ask cb now).2 = cb ∨
      q = .isTradingAllowed ∧ cb.state = .Open ∧ cb.TimedOut now ∧ (q.ask cb now).2 = cb.transitionToHalfOpen := by
  cases q with
  | isTradingAllowed =>
    dsimp only [ask, CircuitBreaker.isTradingAllowed, maybeTransitionToHalfOpen]
    split
    · rename_i hstate
      split
      · exact .inl rfl
      · rename_i openedAt hopened
        split
        · rename_i hle
          exact .inr ⟨rfl, hstate, ⟨openedAt, hopened, hle⟩, rfl⟩
        · exact .inl rfl
    · exact .inl rfl
  | state => exact .inl rfl
  | openReason => exact .inl rfl
  | stats => exact .inl rfl

theorem sound_ask {cb : CircuitBreaker} (h : Sound cb) (now : Instant) (q : BreakerQuery) :
    Sound (q.ask cb now).2 := by
  rcases q.ask_eq_or cb now with hsame | ⟨-, -, -, hhalf⟩
  · rw [hsame]
    exact h
  · rw [hhalf]
    exact sound_transitionToHalfOpen h.required

end BreakerQuery

namespace BreakerCall
open CircuitBreaker

theorem sound_perform {cb : CircuitBreaker} (h : Sound cb) (now : Instant) (call : BreakerCall) :
    Sound (call.perform cb now) := by
  cases call with
  | operation op => exact sound_apply h now op
  | query q => exact q.sound_ask h now

/-- The call that moves the breaker into `Open` records its own reason and its own time. -/
theorem record_of_opens {cb : CircuitBreaker} {now : Instant} {call : BreakerCall} (hnot : cb.state ≠ .Open)
    (hopen : (call.perform cb now).state = .Open) :
    ∃ reason, call.cause cb now = some reason ∧ (call.perform cb now).openReason = some reason ∧
      (call.perform cb now).openedAt = some now := by
  cases call with
  | operation op =>
    cases moved_apply cb now op with
    | stays hsame _ _ _ => exact absurd (hsame.state.symm.trans hopen) hnot
    | opens reason _ hcause _ hreason hopened => exact ⟨reason, hcause, hreason, hopened⟩
    | timesOut _ hstate _ _ | reconnects _ hstate _ _ => exact absurd hstate hnot
    | closes hclosed _ => exact absurd (hclosed.symm.trans hopen) (by decide)
  | query q =>
    rcases q.ask_eq_or cb now with hsame | ⟨-, hstate, -⟩
    · exact absurd ((congrArg state hsame).symm.trans hopen) hnot
    · exact absurd hstate hnot

/-- While the breaker stays open no call touches the record of its opening. -/
theorem record_of_stays_open {cb : CircuitBreaker} {now : Instant} {call : BreakerCall} (hstate : cb.state = .Open)
    (hopen : (call.perform cb now).state = .Open) :
    (call.perform cb now).openReason = cb.openReason ∧ (call.perform cb now).openedAt = cb.openedAt := by
  cases call with
  | operation op =>
    cases moved_apply cb now op with
    | stays hsame _ _ _ => exact ⟨hsame.openReason, hsame.openedAt⟩
    | opens _ hnot _ _ _ _ => exact absurd hstate hnot
    | timesOut _ _ _ hhalf | reconnects _ _ _ hhalf =>
      exact absurd ((congrArg state hhalf).symm.trans hopen) (state_transitionToHalfOpen_ne cb)
    | closes hclosed _ => exact absurd (hclosed.symm.trans hopen) (by decide)
  | query q =>
    rcases q.ask_eq_or cb now with hsame | ⟨-, -, -, hhalf⟩
    · exact ⟨congrArg openReason hsame, congrArg openedAt hsame⟩
    · exact absurd ((congrArg state hhalf).symm.trans hopen) (state_transitionToHalfOpen_ne cb)

end BreakerCall

namespace ClockedBreaker
open CircuitBreaker

theorem sound_run {s : ClockedBreaker} (h : Sound s.breaker) (calls : List (Duration × BreakerCall)) :
    Sound (s.run calls).breaker := by
  induction calls generalizing s with
  | nil => exact h
  | cons call calls ih => exact ih (s := s.step call) (BreakerCall.sound_perform h _ _)

/-- The call of a run that moved the breaker into `Open`, from which on it has been open, and the record it left. -/
def OpenedDuring (s : ClockedBreaker) (calls : List (Duration × BreakerCall)) : Prop :=
  ∃ before call after, calls = before ++ call :: after ∧
    (s.run before).breaker.state ≠ .Open ∧
    (∀ r, r <+: after → (s.run (before ++ call :: r)).breaker.state = .Open) ∧
    ∃ reason, call.2.cause (s.run before).breaker ((s.run before).now + call.1) = some reason ∧
      (s.run calls).breaker.openReason = some reason ∧
      (s.run calls).breaker.openedAt = some ((s.run before).now + call.1)

theorem record_run {s : ClockedBreaker} (hstate : s.breaker.state = .Open) {calls : List (Duration × BreakerCall)}
    (hopen : ∀ r, r <+: calls → (s.run r).breaker.state = .Open) :
    (s.run calls).breaker.openReason = s.breaker.openReason ∧
      (s.run calls).breaker.openedAt = s.breaker.openedAt := by
  induction calls generalizing s with
  | nil => exact ⟨rfl, rfl⟩
  | cons call calls ih =>
    have hnext : (s.step call).breaker.state = .Open := hopen [call] (by simp)
    obtain ⟨hreason, hopened⟩ := BreakerCall.record_of_stays_open hstate hnext
    obtain ⟨hreasons, hopeneds⟩ := ih hnext fun r hr => hopen (call :: r) (by simpa using hr)
    exact ⟨hreasons.trans hreason, hopeneds.trans hopened⟩

def NotOpen (s : ClockedBreaker) : Prop := s.breaker.state ≠ .Open

/-- An open breaker was opened by a call of the run, and records that call. -/
theorem openedDuring {s : ClockedBreaker} (hstart : s.breaker.state ≠ .Open) {calls : List (Duration × BreakerCall)}
    (hopen : (s.run calls).breaker.state = .Open) : s.OpenedDuring calls := by
  have hnotOpen : s.NotOpen := hstart
  obtain ⟨before, call, after, rfl, hbefore, hafter⟩ := exists_last_of_not hnotOpen (not_not.mpr hopen)
  have hepisode : ∀ r, r <+: after → (s.run (before ++ call :: r)).breaker.state = .Open :=
    fun r hr => not_not.mp (hafter r hr)
  have hsplit : ∀ r, s.run (before ++ call :: r) = ((s.run before).step call).run r := fun r => by
    simp [run, List.foldl_append]
  have hopened : ((s.run before).step call).breaker.state = .Open := by
    have h := hepisode [] List.nil_prefix
    rwa [hsplit] at h
  obtain ⟨reason, hcause, hreason, htime⟩ := BreakerCall.record_of_opens hbefore hopened
  have hkept := record_run hopened fun r hr => by
    have h := hepisode r hr
    rwa [hsplit] at h
  refine ⟨before, call, after, rfl, hbefore, hepisode, reason, hcause, ?_, ?_⟩
  · rw [hsplit]
    exact hkept.1.trans hreason
  · rw [hsplit]
    exact hkept.2.trans htime

/-- What holds of a breaker after a run of calls: its cells fit together, its record is that of the current opening,
and it refuses exactly within the reset timeout of that opening. -/
structure Coherent (s : ClockedBreaker) (calls : List (Duration × BreakerCall)) : Prop where
  wellFormed : (s.run calls).breaker.WellFormed
  episode : (s.run calls).breaker.state = .Open → s.OpenedDuring calls
  refuses : ∀ now, ((s.run calls).breaker.isTradingAllowed now).1 = false ↔
    (s.run calls).breaker.state = .Open ∧ ∃ openedAt, (s.run calls).breaker.openedAt = some openedAt ∧
      openedAt.elapsed now < (s.run calls).breaker.resetTimeout
  queries : ∀ now (q : BreakerQuery), (q.ask (s.run calls).breaker now).2.state ≠ (s.run calls).breaker.state →
    q = .isTradingAllowed ∧ (s.run calls).breaker.state = .Open ∧
      (q.ask (s.run calls).breaker now).2.state = .HalfOpen

theorem coherent {s : ClockedBreaker} (hsound : Sound s.breaker) (hstart : s.breaker.state ≠ .Open)
    (calls : List (Duration × BreakerCall)) : s.Coherent calls := by
  have hrun := sound_run hsound calls
  refine ⟨hrun.toWellFormed, openedDuring hstart, fun now => ?_, fun now q hne => ?_⟩
  · rw [isTradingAllowed_eq_false_iff]
    refine and_congr_right fun hopen => ?_
    obtain ⟨-, openedAt, hopened⟩ := hrun.opened hopen
    simp [TimedOut, hopened]
  · rcases q.ask_eq_or (s.run calls).breaker now with hsame | ⟨hq, hstate, -, hhalf⟩
    · exact absurd (congrArg state hsame) hne
    · exact ⟨hq, hstate, congrArg state hhalf⟩

/-- Whatever calls a breaker has received, it is coherent. -/
theorem coherent_of_created (start : Instant) (fatalThreshold : ℕ) (rejectRateThreshold : ℚ) (resetTimeout : Duration)
    (calls : List (Duration × BreakerCall)) :
    Coherent ⟨start, new start⟩ calls ∧
      Coherent ⟨start, withThresholds fatalThreshold rejectRateThreshold resetTimeout start⟩ calls :=
  ⟨coherent (sound_new start) (fun h => by cases h) calls,
    coherent (sound_withThresholds _ _ _ start) (fun h => by cases h) calls⟩

end ClockedBreaker

end PolyBot
