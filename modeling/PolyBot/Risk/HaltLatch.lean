import PolyBot.Risk.BreakerRuns

/-! Whether a manual or daily-loss halt lasts until the breaker is forced closed. -/

namespace PolyBot.HaltLatch
open CircuitBreaker BreakerRun General.AdditiveRuns

/-- Trading is refused for as long as a halt is in force, up to the call and right after it. -/
def StaysHalted (s : BreakerRun) (call : TimedCall) : Prop :=
  (s.halted = true → ∀ t, s.now ≤ t → t ≤ s.now + call.delay → (s.breaker.isTradingAllowed t).1 = false) ∧
    ((s.step call).halted = true → ((s.step call).breaker.isTradingAllowed (s.step call).now).1 = false)

/-- The opening that a halt relies on has not timed out at the call, and no reconnect comes while that opening is
for a disconnect. A halt that finds the breaker open relies on the opening it finds. -/
def OpeningHolds (s : BreakerRun) (call : TimedCall) : Prop :=
  (s.halted = true → ¬s.breaker.TimedOut (s.now + call.delay) ∧
    (s.breaker.openReason = some .WebSocketDisconnect → call.op ≠ .recordWsReconnect)) ∧
  (call.op.halts = true →
    if s.breaker.state = .Open then ¬s.breaker.TimedOut (s.now + call.delay) else 0 < s.breaker.resetTimeout)

def HaltedOpen (s : BreakerRun) : Prop :=
  s.halted = true → (s.breaker.isTradingAllowed s.now).1 = false

theorem halts_ne_forceClose {op : BreakerOp} (h : op.halts = true) : op ≠ .forceClose := by
  rintro rfl
  cases h

theorem halts_ne_recordWsReconnect {op : BreakerOp} (h : op.halts = true) : op ≠ .recordWsReconnect := by
  rintro rfl
  cases h

theorem cause_of_halts {op : BreakerOp} (h : op.halts = true) (cb : CircuitBreaker) (now : Instant) :
    ∃ reason, op.cause cb now = some reason := by
  cases op with
  | manualOpen => exact ⟨_, rfl⟩
  | recordDailyLossExceeded => exact ⟨_, rfl⟩
  | _ => cases h

theorem refuses_iff_of_sameLatch {cb cb' : CircuitBreaker} (h : SameLatch cb cb')
    (htimeout : cb'.resetTimeout = cb.resetTimeout) (now : Instant) :
    (cb'.isTradingAllowed now).1 = false ↔ cb.state = .Open ∧ ¬cb.TimedOut now := by
  rw [isTradingAllowed_eq_false_iff, TimedOut, TimedOut, h.state, h.openedAt, htimeout]

theorem halted_step_iff (s : BreakerRun) (call : TimedCall) :
    (s.step call).halted = true ↔ call.op ≠ .forceClose ∧ (s.halted = true ∨ call.op.halts = true) := by
  simp [step]

/-- On an open breaker that has not timed out, only a forced close and a reconnect after a disconnect matter. -/
theorem refuses_apply_of_open {cb : CircuitBreaker} {now : Instant} (hstate : cb.state = .Open)
    (hout : ¬cb.TimedOut now) {op : BreakerOp} (hop : op ≠ .forceClose) :
    ((op.apply cb now).isTradingAllowed now).1 = false ↔
      (cb.openReason = some .WebSocketDisconnect → op ≠ .recordWsReconnect) := by
  cases moved_apply cb now op with
  | stays hsame _ _ hreconnect =>
    rw [refuses_iff_of_sameLatch hsame (resetTimeout_apply cb now op)]
    exact iff_of_true ⟨hstate, hout⟩ fun hreason heq => hreconnect heq hstate hreason
  | opens _ hnot _ _ _ _ => exact absurd hstate hnot
  | timesOut _ _ h _ => exact absurd h hout
  | reconnects heq _ hreason hhalf =>
    refine iff_of_false ?_ fun h => h hreason heq
    have hnot : (op.apply cb now).state ≠ .Open := by simp [hhalf, transitionToHalfOpen]
    simp [isTradingAllowed_of_not_open hnot]
  | closes _ hwhy =>
    rcases hwhy with heq | ⟨hhalf, -⟩
    · exact absurd heq hop
    · rw [hstate] at hhalf
      cases hhalf

/-- A halt refuses at once, unless it relies on an opening that has timed out or the timeout is zero. -/
theorem refuses_apply_of_halts {cb : CircuitBreaker} {now : Instant} {op : BreakerOp} (h : op.halts = true) :
    ((op.apply cb now).isTradingAllowed now).1 = false ↔
      if cb.state = .Open then ¬cb.TimedOut now else 0 < cb.resetTimeout := by
  obtain ⟨reason, hcause⟩ := cause_of_halts h cb now
  have htimeout := resetTimeout_apply cb now op
  cases moved_apply cb now op with
  | stays hsame hnone _ _ =>
    have hstate : cb.state = .Open := hnone.resolve_right (by simp [hcause])
    rw [refuses_iff_of_sameLatch hsame htimeout, if_pos hstate]
    exact and_iff_right hstate
  | opens _ hnot _ hstate _ hopened =>
    rw [if_neg hnot, isTradingAllowed_eq_false_iff, TimedOut, hopened, htimeout]
    simp [hstate, Instant.elapsed]
  | timesOut heq _ _ _ =>
    rw [heq] at h
    cases h
  | reconnects heq _ _ _ => exact absurd heq (halts_ne_recordWsReconnect h)
  | closes _ hwhy =>
    rcases hwhy with heq | ⟨-, heq⟩
    · exact absurd heq (halts_ne_forceClose h)
    · rw [heq] at h
      cases h

theorem staysHalted_iff {s : BreakerRun} (h : HaltedOpen s) (call : TimedCall) :
    StaysHalted s call ↔ OpeningHolds s call := by
  have hopen : s.halted = true → s.breaker.state = .Open := fun hhalted =>
    ((isTradingAllowed_eq_false_iff _ _).mp (h hhalted)).1
  constructor
  · rintro ⟨hbefore, hafter⟩
    have hout : s.halted = true → ¬s.breaker.TimedOut (s.now + call.delay) := fun hhalted =>
      ((isTradingAllowed_eq_false_iff _ _).mp (hbefore hhalted _ (Nat.le_add_right _ _) (le_refl _))).2
    constructor
    · intro hhalted
      refine ⟨hout hhalted, ?_⟩
      by_cases hop : call.op = .forceClose
      · simp [hop]
      · exact (refuses_apply_of_open (hopen hhalted) (hout hhalted) hop).mp
          (hafter ((halted_step_iff s call).mpr ⟨hop, .inl hhalted⟩))
    · intro hhalts
      exact (refuses_apply_of_halts hhalts).mp
        (hafter ((halted_step_iff s call).mpr ⟨halts_ne_forceClose hhalts, .inr hhalts⟩))
  · rintro ⟨hholds, hnew⟩
    constructor
    · intro hhalted t _ hle
      exact (isTradingAllowed_eq_false_iff _ _).mpr ⟨hopen hhalted, fun hout => (hholds hhalted).1 (hout.mono hle)⟩
    · intro hhalted
      obtain ⟨hop, hhalted | hhalts⟩ := (halted_step_iff s call).mp hhalted
      · obtain ⟨hout, hreconnect⟩ := hholds hhalted
        exact (refuses_apply_of_open (hopen hhalted) hout hop).mpr hreconnect
      · exact (refuses_apply_of_halts hhalts).mpr (hnew hhalts)

/-- In every timed run trading stays refused from each halt until a forced close exactly if no call comes after
the timeout of the opening that the halt relies on, and no reconnect while that opening is for a disconnect. -/
theorem halts_stay_halted_iff (now : Instant) (cb : CircuitBreaker) (calls : List TimedCall) :
    Throughout step StaysHalted (BreakerRun.start now cb) calls ↔
      Throughout step OpeningHolds (BreakerRun.start now cb) calls := by
  refine throughout_congr HaltedOpen ?_ ?_ ?_
  · intro s call _ hstays
    exact hstays.2
  · intro s call h
    exact staysHalted_iff h call
  · intro hhalted
    cases hhalted

/-- No halt lasts: once the opening has timed out trading is allowed, whatever the reason. -/
theorem isTradingAllowed_of_timedOut {cb : CircuitBreaker} {now : Instant} (h : cb.TimedOut now) :
    (cb.isTradingAllowed now).1 = true := by
  rw [← Bool.not_eq_false, isTradingAllowed_eq_false_iff]
  exact fun hrefuses => hrefuses.2 h

def askAfterDailyLoss : List TimedCall :=
  [⟨0, .recordDailyLossExceeded⟩, ⟨Duration.fromSecs 60, .isTradingAllowed⟩]

/-- The minute of the default breaker ends the halt. -/
theorem daily_loss_halt_ends :
    ¬Throughout step StaysHalted (BreakerRun.start 0 (CircuitBreaker.new 0)) askAfterDailyLoss := by
  rintro ⟨-, ⟨hbefore, -⟩, -⟩
  have hrefused := hbefore (by decide) (Duration.fromSecs 60) (Nat.zero_le _) (by decide +kernel)
  revert hrefused
  decide +kernel

end PolyBot.HaltLatch
