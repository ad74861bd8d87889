import PolyBot.General.Episodes
import PolyBot.Risk.BreakerEpisodes

/-! The alert of a heartbeat that finds the breaker newly open, while other tasks call the breaker between its steps. -/

namespace PolyBot.Bot.Heartbeats
open General.Episodes

inductive Phase where
  | idle
  /-- Has logged the breaker's status; whether it newly opened is asked at the end. -/
  | logged
  /-- Has found the breaker newly open, and reads the reason next. -/
  | alerting
  deriving DecidableEq, Repr

/-- `found` lists what the heartbeats have found the breaker to be at their end, and `sent` the reasons of the alerts
sent; an alert without a reason reads "unknown". -/
structure State where
  clock : ClockedBreaker
  phase : Phase
  circuitWasOpen : Bool
  alerts : Bool
  found : List Bool
  sent : List (Option OpenReason)
  deriving DecidableEq, Repr

/-- A task calls the breaker, or a heartbeat takes its next step; either comes some time after the event before. -/
inductive Event where
  | call (call : Duration × BreakerCall)
  | heartbeat (since : Duration)
  deriving DecidableEq, Repr

namespace State

def new (start : Instant) (alerts : Bool) : State := ⟨⟨start, .new start⟩, .idle, false, alerts, [], []⟩

def beat (s : State) (since : Duration) : State :=
  match s.phase with
  | .idle => { s with clock := s.clock.step (since, .query .isTradingAllowed), phase := .logged }
  | .logged =>
    let isOpen := !(s.clock.breaker.isTradingAllowed (s.clock.now + since)).1
    let s := { s with clock := s.clock.step (since, .query .isTradingAllowed), found := s.found ++ [isOpen] }
    if isOpen && !s.circuitWasOpen && s.alerts then { s with phase := .alerting }
    else { s with phase := .idle, circuitWasOpen := isOpen }
  | .alerting =>
    { s with clock := s.clock.step (since, .query .openReason), phase := .idle, circuitWasOpen := true,
             sent := s.sent ++ [s.clock.breaker.openReason] }

def step (s : State) : Event → State
  | .call call => { s with clock := s.clock.step call }
  | .heartbeat since => s.beat since

def run (s : State) (events : List Event) : State := events.foldl step s

@[simp] theorem run_concat (s : State) (events : List Event) (e : Event) :
    s.run (events ++ [e]) = (s.run events).step e := by
  simp [run]

end State

def State.pending (s : State) : ℕ := if s.phase = .alerting then 1 else 0

section Once

/-- The alerts are as many as the blocks of heartbeats that found the breaker open, and `circuit_was_open` is what the
last of them found. -/
structure Counted (s : State) : Prop where
  once : s.alerts = true → s.sent.length + s.pending = episodes s.found
  silent : s.alerts = false → s.sent = [] ∧ s.phase ≠ .alerting
  remembers : s.phase ≠ .alerting → s.circuitWasOpen = s.found.getLastD false
  alerting : s.phase = .alerting → s.found.getLastD false = true

theorem counted_new (start : Instant) (alerts : Bool) : Counted (.new start alerts) :=
  ⟨fun _ => rfl, fun _ => ⟨rfl, by simp [State.new]⟩, fun _ => rfl, fun h => by cases h⟩

theorem counted_beat {s : State} (h : Counted s) (since : Duration) : Counted (s.beat since) := by
  unfold State.beat
  split
  · rename_i hphase
    have hnot : s.phase ≠ .alerting := by simp [hphase]
    refine ⟨fun hon => ?_, fun hoff => ⟨(h.silent hoff).1, by simp⟩, fun _ => h.remembers hnot, fun hp => by cases hp⟩
    have hcount := h.once hon
    rw [State.pending, if_neg hnot] at hcount
    exact hcount
  · rename_i hphase
    have hnot : s.phase ≠ .alerting := by simp [hphase]
    have hbefore := h.remembers hnot
    have hcount := h.once
    simp only [State.pending, hnot, if_false] at hcount
    generalize (s.clock.breaker.isTradingAllowed (s.clock.now + since)).1 = allowed
    dsimp only
    split
    · rename_i hnew
      simp only [Bool.and_eq_true, Bool.not_eq_true'] at hnew
      obtain ⟨⟨hopen, hwas⟩, hon⟩ := hnew
      refine ⟨fun _ => ?_, fun hoff => absurd (hon.symm.trans hoff) (by decide), fun hp => absurd rfl hp, fun _ => ?_⟩
      · rw [State.pending, if_pos rfl, episodes_concat, ← hbefore, hwas, hopen, ← hcount hon]
        rfl
      · simp [hopen]
    · rename_i hold
      refine ⟨fun hon => ?_, fun hoff => ⟨(h.silent hoff).1, by simp⟩, fun _ => by simp, fun hp => by cases hp⟩
      have hsame : (!allowed && !s.circuitWasOpen) = false := by
        simpa [show s.alerts = true from hon] using hold
      rw [State.pending, if_neg (by simp), episodes_concat, ← hbefore, hsame, ← hcount hon]
      rfl
  · rename_i hphase
    refine ⟨fun hon => ?_, fun hoff => absurd hphase (h.silent hoff).2, fun _ => (h.alerting hphase).symm,
      fun hp => by cases hp⟩
    have hcount := h.once hon
    rw [State.pending, if_pos hphase] at hcount
    rw [State.pending, if_neg (by simp), List.length_append]
    exact hcount

theorem counted_run {s : State} (h : Counted s) (events : List Event) : Counted (s.run events) := by
  induction events generalizing s with
  | nil => exact h
  | cons e events ih =>
    refine ih (s := s.step e) ?_
    cases e with
    | call call => exact ⟨h.once, h.silent, h.remembers, h.alerting⟩
    | heartbeat since => exact counted_beat h since

end Once

section Reasons

def OpensFor (cb : CircuitBreaker) (now : Instant) (call : BreakerCall) (reason : OpenReason) : Prop :=
  cb.state ≠ .Open ∧ call.cause cb now = some reason ∧ (call.perform cb now).state = .Open

def Recorded (cb : CircuitBreaker) : Prop := cb.state ≠ .Closed → ∃ reason, cb.openReason = some reason

theorem openReason_perform {cb : CircuitBreaker} {now : Instant} {call : BreakerCall} {reason : OpenReason}
    (h : (call.perform cb now).openReason = some reason) :
    cb.openReason = some reason ∨ OpensFor cb now call reason := by
  cases call with
  | operation op =>
    cases CircuitBreaker.moved_apply cb now op with
    | stays hsame _ _ _ => exact .inl (hsame.openReason.symm.trans h)
    | opens cause hnot hcause hstate hreason _ =>
      obtain rfl : cause = reason := Option.some.inj (hreason.symm.trans h)
      exact .inr ⟨hnot, hcause, hstate⟩
    | timesOut _ _ _ hhalf | reconnects _ _ _ hhalf => exact .inl ((congrArg (·.openReason) hhalf).symm.trans h)
    | closes hclosed hwhy =>
      exact absurd ((CircuitBreaker.record_of_closes hclosed hwhy).1.symm.trans h) (by simp)
  | query q =>
    rcases q.ask_eq_or cb now with hsame | ⟨-, -, -, hhalf⟩
    · exact .inl ((congrArg (·.openReason) hsame).symm.trans h)
    · exact .inl ((congrArg (·.openReason) hhalf).symm.trans h)

theorem recorded_perform {cb : CircuitBreaker} (h : Recorded cb) (now : Instant) (call : BreakerCall) :
    Recorded (call.perform cb now) := by
  have hopen : cb.state = .Open → ∃ reason, cb.openReason = some reason := fun hstate => h (by simp [hstate])
  intro hne
  cases call with
  | operation op =>
    cases CircuitBreaker.moved_apply cb now op with
    | stays hsame _ _ _ =>
      obtain ⟨reason, hreason⟩ := h fun hclosed => hne (hsame.state.trans hclosed)
      exact ⟨reason, hsame.openReason.trans hreason⟩
    | opens reason _ _ _ hreason _ => exact ⟨reason, hreason⟩
    | timesOut _ hstate _ hhalf | reconnects _ hstate _ hhalf =>
      obtain ⟨reason, hreason⟩ := hopen hstate
      exact ⟨reason, (congrArg (·.openReason) hhalf).trans hreason⟩
    | closes hclosed _ => exact absurd hclosed hne
  | query q =>
    rcases q.ask_eq_or cb now with hsame | ⟨-, hstate, -, hhalf⟩
    · obtain ⟨reason, hreason⟩ := h fun hclosed => hne ((congrArg (·.state) hsame).trans hclosed)
      exact ⟨reason, (congrArg (·.openReason) hsame).trans hreason⟩
    · obtain ⟨reason, hreason⟩ := hopen hstate
      exact ⟨reason, (congrArg (·.openReason) hhalf).trans hreason⟩

/-- A breaker that refuses to let trade is open and stays so. -/
theorem state_of_refuses {cb : CircuitBreaker} {now : Instant} (h : (cb.isTradingAllowed now).1 = false) :
    ((BreakerCall.query .isTradingAllowed).perform cb now).state = .Open := by
  obtain ⟨hstate, hin⟩ := (CircuitBreaker.isTradingAllowed_eq_false_iff cb now).mp h
  rcases BreakerQuery.ask_eq_or cb now .isTradingAllowed with hsame | ⟨-, -, hout, -⟩
  · exact (congrArg (·.state) hsame).trans hstate
  · exact absurd hout hin

variable (s : State)

def Caused (events : List Event) (reason : OpenReason) : Prop :=
  ∃ before call after, events = before ++ .call call :: after ∧
    OpensFor (s.run before).clock.breaker ((s.run before).clock.now + call.1) call.2 reason

/-- Other tasks have called the breaker since the last step of a heartbeat, which found it open. -/
def FoundOpen (before : List Event) (since : Duration) (calls : List (Duration × BreakerCall)) : Prop :=
  (s.run before).phase = .logged ∧ (s.run (before ++ [.heartbeat since])).clock.breaker.state = .Open ∧
    (s.run (before ++ .heartbeat since :: calls.map .call)).phase = .alerting

/-- Other tasks closed the breaker between the steps of a heartbeat that found it open and read the reason. -/
def Overtaken (events : List Event) : Prop :=
  ∃ before since calls since' after,
    events = before ++ .heartbeat since :: (calls.map .call ++ .heartbeat since' :: after) ∧
    FoundOpen s before since calls ∧
    (s.run (before ++ .heartbeat since :: calls.map .call)).clock.breaker.state = .Closed

variable {s}

theorem Caused.concat {events : List Event} {reason : OpenReason} (h : Caused s events reason) (e : Event) :
    Caused s (events ++ [e]) reason := by
  obtain ⟨before, call, after, rfl, hopens⟩ := h
  exact ⟨before, call, after ++ [e], by simp, hopens⟩

theorem Overtaken.concat {events : List Event} (h : Overtaken s events) (e : Event) : Overtaken s (events ++ [e]) := by
  obtain ⟨before, since, calls, since', after, rfl, hclosed⟩ := h
  exact ⟨before, since, calls, since', after ++ [e], by simp, hclosed⟩

structure Explained (s : State) (events : List Event) : Prop where
  recorded : Recorded (s.run events).clock.breaker
  current : ∀ reason, (s.run events).clock.breaker.openReason = some reason → Caused s events reason
  alerting : (s.run events).phase = .alerting → ∃ before since calls,
    events = before ++ .heartbeat since :: calls.map .call ∧ FoundOpen s before since calls
  known : ∀ reason, some reason ∈ (s.run events).sent → Caused s events reason
  unknown : none ∈ (s.run events).sent → Overtaken s events

theorem explained_call {events : List Event} (h : Explained s events) (call : Duration × BreakerCall) :
    Explained s (events ++ [.call call]) := by
  refine ⟨?_, fun reason hreason => ?_, fun hphase => ?_, fun reason hsent => ?_, fun hsent => ?_⟩
  · rw [State.run_concat]
    exact recorded_perform h.recorded _ _
  · rw [State.run_concat] at hreason
    rcases openReason_perform hreason with hbefore | hopens
    · exact (h.current reason hbefore).concat _
    · exact ⟨events, call, [], rfl, hopens⟩
  · rw [State.run_concat] at hphase
    obtain ⟨before, since, calls, rfl, hlogged, hopen, halerting⟩ := h.alerting hphase
    refine ⟨before, since, calls ++ [call], by simp, hlogged, hopen, ?_⟩
    rw [List.map_append, ← List.cons_append, ← List.append_assoc, List.map_singleton, State.run_concat]
    exact halerting
  · rw [State.run_concat] at hsent
    exact (h.known reason hsent).concat _
  · rw [State.run_concat] at hsent
    exact (h.unknown hsent).concat _

/-- A heartbeat's step asks the breaker one question. -/
theorem clock_beat (s : State) (since : Duration) :
    ∃ q, (s.beat since).clock = s.clock.step (since, .query q) := by
  unfold State.beat
  split
  · exact ⟨.isTradingAllowed, rfl⟩
  · refine ⟨.isTradingAllowed, ?_⟩
    dsimp only
    split <;> rfl
  · exact ⟨.openReason, rfl⟩

theorem openReason_beat {s : State} {since : Duration} {reason : OpenReason}
    (h : (s.beat since).clock.breaker.openReason = some reason) : s.clock.breaker.openReason = some reason := by
  obtain ⟨q, hclock⟩ := clock_beat s since
  rw [hclock] at h
  exact (openReason_perform h).resolve_right fun hopens => by cases hopens.2.1

theorem phase_beat_eq_alerting {s : State} {since : Duration} (h : (s.beat since).phase = .alerting) :
    s.phase = .logged ∧ (s.beat since).clock.breaker.state = .Open := by
  unfold State.beat at h ⊢
  split at h
  · cases h
  · rename_i hphase
    rw [hphase]
    refine ⟨rfl, ?_⟩
    dsimp only at h ⊢
    split at h
    · rename_i hnew
      rw [if_pos hnew]
      simp only [Bool.and_eq_true, Bool.not_eq_true'] at hnew
      exact state_of_refuses hnew.1.1
    · cases h
  · cases h

theorem sent_beat {s : State} {since : Duration} {reason : Option OpenReason} (h : reason ∈ (s.beat since).sent) :
    reason ∈ s.sent ∨ s.phase = .alerting ∧ s.clock.breaker.openReason = reason := by
  unfold State.beat at h
  split at h
  · exact .inl h
  · dsimp only at h
    split at h <;> exact .inl h
  · rename_i hphase
    rcases List.mem_append.mp h with hold | hnew
    · exact .inl hold
    · exact .inr ⟨hphase, (List.mem_singleton.mp hnew).symm⟩

theorem explained_heartbeat {events : List Event} (h : Explained s events) (since : Duration) :
    Explained s (events ++ [.heartbeat since]) := by
  refine ⟨?_, fun reason hreason => ?_, fun hphase => ?_, fun reason hsent => ?_, fun hsent => ?_⟩
  · rw [State.run_concat]
    obtain ⟨q, hclock⟩ := clock_beat (s.run events) since
    rw [State.step, hclock]
    exact recorded_perform h.recorded _ _
  · rw [State.run_concat] at hreason
    exact (h.current reason (openReason_beat hreason)).concat _
  · have hrun := hphase
    rw [State.run_concat] at hphase
    obtain ⟨hlogged, hopen⟩ := phase_beat_eq_alerting hphase
    refine ⟨events, since, [], rfl, hlogged, ?_, hrun⟩
    rw [State.run_concat]
    exact hopen
  · rw [State.run_concat] at hsent
    rcases sent_beat hsent with hold | ⟨-, hreason⟩
    · exact (h.known reason hold).concat _
    · exact (h.current reason hreason).concat _
  · rw [State.run_concat] at hsent
    rcases sent_beat hsent with hold | ⟨hphase, hreason⟩
    · exact (h.unknown hold).concat _
    · obtain ⟨before, since', calls, rfl, hfound⟩ := h.alerting hphase
      refine ⟨before, since', calls, since, [], by simp, hfound, ?_⟩
      by_contra hclosed
      obtain ⟨reason, hsome⟩ := h.recorded hclosed
      exact absurd (hreason.symm.trans hsome) (by simp)

theorem explained_run (hnew : s.clock.breaker.state = .Closed) (hnone : s.clock.breaker.openReason = none)
    (hphase : s.phase = .idle) (hsent : s.sent = []) (events : List Event) : Explained s events := by
  induction events using List.reverseRecOn with
  | nil =>
    refine ⟨fun hne => absurd hnew hne, fun reason h => ?_, fun h => ?_, fun reason h => ?_, fun h => ?_⟩
    · exact absurd (hnone.symm.trans h) (by simp)
    · exact absurd (hphase.symm.trans h) (by decide)
    · rw [State.run, List.foldl_nil, hsent] at h
      cases h
    · rw [State.run, List.foldl_nil, hsent] at h
      cases h
  | append_singleton events e ih =>
    cases e with
    | call call => exact explained_call ih call
    | heartbeat since => exact explained_heartbeat ih since

end Reasons

/-- The heartbeats of a run send one alert for each block of heartbeats that found the breaker open. An alert's reason
is that of a call which opened the breaker; it is unknown only if other tasks closed the breaker after the heartbeat
had found it open. -/
structure AlertsOnOpenings (s : State) (events : List Event) : Prop where
  once : (s.run events).sent.length + (s.run events).pending = if s.alerts then episodes (s.run events).found else 0
  known : ∀ reason, some reason ∈ (s.run events).sent → Caused s events reason
  unknown : none ∈ (s.run events).sent → Overtaken s events

theorem alerts_run (s : State) (events : List Event) : (s.run events).alerts = s.alerts := by
  induction events using List.reverseRecOn with
  | nil => rfl
  | append_singleton events e ih =>
    rw [State.run_concat, ← ih]
    cases e with
    | call call => rfl
    | heartbeat since =>
      dsimp only [State.step, State.beat]
      split
      · rfl
      · split <;> rfl
      · rfl

theorem alerts_on_openings (start : Instant) (alerts : Bool) (events : List Event) :
    AlertsOnOpenings (.new start alerts) events := by
  have hcounted := counted_run (counted_new start alerts) events
  have hexplained := explained_run (s := .new start alerts) rfl rfl rfl rfl events
  have halerts := alerts_run (.new start alerts) events
  refine ⟨?_, hexplained.known, hexplained.unknown⟩
  split
  · rename_i hon
    exact hcounted.once (halerts.trans hon)
  · rename_i hoff
    obtain ⟨hsent, hphase⟩ := hcounted.silent (halerts.trans (Bool.eq_false_iff.mpr hoff))
    rw [hsent, State.pending, if_neg hphase]
    rfl

end PolyBot.Bot.Heartbeats
