import PolyBot.Risk.BreakerRuns

/-! Whether a websocket reconnect lets trading go on while another cause still holds. -/

namespace PolyBot.ReconnectCauses
open CircuitBreaker BreakerRun General.AdditiveRuns

/-- A reconnect does not turn a refusal into a permission before the reset timeout, counted from the latest
other cause, has run out. -/
def KeepsRefusing (s : BreakerRun) (call : TimedCall) : Prop :=
  call.op = .recordWsReconnect → ∀ c ∈ s.causes, c.reason ≠ .WebSocketDisconnect →
    ∀ t, s.now + call.delay ≤ t → t < c.time + s.breaker.resetTimeout →
      (s.breaker.isTradingAllowed t).1 = false → (s.breaker.recordWsReconnect.isTradingAllowed t).1 = false

/-- When a reconnect finds the breaker open for a disconnect, before its timeout, every other cause that was
dropped has timed out. -/
def DroppedCausesAreOld (s : BreakerRun) (call : TimedCall) : Prop :=
  call.op = .recordWsReconnect → s.breaker.state = .Open → s.breaker.openReason = some .WebSocketDisconnect →
    ¬s.breaker.TimedOut (s.now + call.delay) →
      ∀ c ∈ s.causes, c.reason ≠ .WebSocketDisconnect → c.dropped = true →
        c.time + s.breaker.resetTimeout ≤ s.now + call.delay

/-- A cause that was not dropped has timed out, unless it is what keeps the breaker open. -/
def CausesCount (s : BreakerRun) : Prop :=
  ∀ c ∈ s.causes, c.reason ≠ .WebSocketDisconnect → c.dropped = false →
    c.time + s.breaker.resetTimeout ≤ s.now ∨
      s.breaker.state = .Open ∧ s.breaker.openReason = some c.reason ∧ s.breaker.openedAt = some c.time

theorem le_of_timedOut {cb : CircuitBreaker} {openedAt now : Instant} (hopened : cb.openedAt = some openedAt)
    (hle : openedAt ≤ now) (h : cb.TimedOut now) : openedAt + cb.resetTimeout ≤ now := by
  obtain ⟨t, ht, hout⟩ := h
  obtain rfl : openedAt = t := Option.some.inj (hopened.symm.trans ht)
  have hsub := Nat.add_le_add_left hout openedAt
  rwa [Instant.elapsed, Nat.add_sub_cancel' hle] at hsub

theorem mem_causes_step {s : BreakerRun} {call : TimedCall} {c : Cause} (h : c ∈ (s.step call).causes) :
    (s.step call).breaker.state ≠ .Closed ∧
      (c ∈ s.causes ∨ ∃ reason, call.op.cause s.breaker (s.now + call.delay) = some reason ∧
        c = ⟨s.now + call.delay, reason, s.breaker.state = .Open⟩) := by
  dsimp only [step] at h ⊢
  split at h
  · cases h
  · rename_i hclosed
    refine ⟨hclosed, ?_⟩
    rcases List.mem_append.mp h with hnew | hold
    · obtain ⟨reason, hreason, rfl⟩ := List.mem_map.mp hnew
      exact .inr ⟨reason, Option.mem_toList.mp hreason, rfl⟩
    · exact .inl hold

def CausesPast (s : BreakerRun) : Prop := ∀ c ∈ s.causes, c.time ≤ s.now

theorem causesPast_step {s : BreakerRun} (h : CausesPast s) (call : TimedCall) : CausesPast (s.step call) := by
  intro c hc
  rcases (mem_causes_step hc).2 with hold | ⟨reason, -, rfl⟩
  · exact (h c hold).trans (Nat.le_add_right _ _)
  · exact le_refl _

/-- The step lemma: whatever is called, an undropped cause times out or keeps the breaker open. -/
theorem causesCount_step {s : BreakerRun} (hpast : CausesPast s) (h : CausesCount s) (call : TimedCall) :
    CausesCount (s.step call) := by
  intro c hc hother hkept
  obtain ⟨hclosed, hmem⟩ := mem_causes_step hc
  have htimeout : (s.step call).breaker.resetTimeout = s.breaker.resetTimeout := resetTimeout_apply _ _ _
  rw [htimeout]
  rcases hmem with hold | ⟨reason, hcause, rfl⟩
  · rcases h c hold hother hkept with htimed | ⟨hopen, hreason, hopened⟩
    · exact .inl (htimed.trans (Nat.le_add_right _ _))
    · cases moved_apply s.breaker (s.now + call.delay) call.op with
      | stays hsame _ _ _ =>
        exact .inr ⟨hsame.state.trans hopen, hsame.openReason.trans hreason, hsame.openedAt.trans hopened⟩
      | opens _ hnot _ _ _ _ => exact absurd hopen hnot
      | timesOut _ _ hout _ =>
        exact .inl (le_of_timedOut hopened ((hpast c hold).trans (Nat.le_add_right _ _)) hout)
      | reconnects _ _ hws _ => exact absurd (Option.some.inj (hreason.symm.trans hws)) hother
      | closes h' _ => exact absurd h' hclosed
  · have hnot : s.breaker.state ≠ .Open := by simpa using hkept
    cases moved_apply s.breaker (s.now + call.delay) call.op with
    | stays _ hnone _ _ =>
      rcases hnone with hopen | hnone
      · exact absurd hopen hnot
      · rw [hnone] at hcause
        cases hcause
    | opens reason' _ hcause' hstate hreason hopened =>
      obtain rfl : reason = reason' := Option.some.inj (hcause.symm.trans hcause')
      exact .inr ⟨hstate, hreason, hopened⟩
    | timesOut _ hstate _ _ => exact absurd hstate hnot
    | reconnects _ hstate _ _ => exact absurd hstate hnot
    | closes h' _ => exact absurd h' hclosed

theorem isTradingAllowed_recordWsReconnect {cb : CircuitBreaker} (hstate : cb.state = .Open)
    (hreason : cb.openReason = some .WebSocketDisconnect) (now : Instant) :
    (cb.recordWsReconnect.isTradingAllowed now).1 = true := by
  rw [recordWsReconnect, if_pos ⟨hstate, hreason⟩, isTradingAllowed_of_not_open]
  simp [transitionToHalfOpen]

theorem recordWsReconnect_of_ne {cb : CircuitBreaker}
    (h : ¬(cb.state = .Open ∧ cb.openReason = some .WebSocketDisconnect)) : cb.recordWsReconnect = cb := if_neg h

theorem keepsRefusing_iff {s : BreakerRun} (h : CausesCount s) (call : TimedCall) :
    KeepsRefusing s call ↔ DroppedCausesAreOld s call := by
  constructor
  · intro hkeeps hop hstate hreason hout c hc hother _
    by_contra hrecent
    have hrefused := (isTradingAllowed_eq_false_iff _ _).mpr ⟨hstate, hout⟩
    have hafter := hkeeps hop c hc hother _ (le_refl _) (not_le.mp hrecent) hrefused
    rw [isTradingAllowed_recordWsReconnect hstate hreason] at hafter
    cases hafter
  · intro hold hop c hc hother t hle hrecent hrefused
    by_cases hws : s.breaker.state = .Open ∧ s.breaker.openReason = some .WebSocketDisconnect
    · obtain ⟨hstate, hreason⟩ := hws
      have hout := ((isTradingAllowed_eq_false_iff _ _).mp hrefused).2
      have hout' : ¬s.breaker.TimedOut (s.now + call.delay) := fun h' => hout (h'.mono hle)
      cases hdropped : c.dropped with
      | true =>
        have hage := hold hop hstate hreason hout' c hc hother hdropped
        exact absurd (hage.trans hle) (not_le.mpr hrecent)
      | false =>
        rcases h c hc hother hdropped with htimed | ⟨_, hreason', _⟩
        · exact absurd ((htimed.trans (Nat.le_add_right _ _)).trans hle) (not_le.mpr hrecent)
        · exact absurd (Option.some.inj (hreason'.symm.trans hreason)) hother
    · rw [recordWsReconnect_of_ne hws]
      exact hrefused

/-- In every timed run the reconnects keep refusing exactly if none of them comes while the breaker is open for
a disconnect and another cause, dropped because the breaker was open, is younger than the timeout. -/
theorem reconnects_keep_refusing_iff (now : Instant) (cb : CircuitBreaker) (calls : List TimedCall) :
    Throughout step KeepsRefusing (BreakerRun.start now cb) calls ↔
      Throughout step DroppedCausesAreOld (BreakerRun.start now cb) calls := by
  refine throughout_congr (fun s => CausesPast s ∧ CausesCount s) ?_ ?_ ?_
  · rintro s call ⟨hpast, hcount⟩ -
    exact ⟨causesPast_step hpast call, causesCount_step hpast hcount call⟩
  · rintro s call ⟨-, hcount⟩
    exact keepsRefusing_iff hcount call
  · constructor
    · intro c hc
      cases hc
    · intro c hc
      cases hc

def manualWhileDisconnected : List TimedCall :=
  [⟨0, .recordWsDisconnect⟩, ⟨Duration.fromSecs 1, .manualOpen⟩, ⟨Duration.fromSecs 1, .recordWsReconnect⟩]

/-- The reconnect lets trading go on, two seconds into the minute that the manual trigger asks for. -/
theorem reconnect_lifts_manual_trigger :
    ¬Throughout step KeepsRefusing (BreakerRun.start 0 (CircuitBreaker.new 0)) manualWhileDisconnected := by
  rintro ⟨-, -, hkeeps, -⟩
  have hafter := hkeeps rfl ⟨Duration.fromSecs 1, .ManualTrigger, true⟩ (by decide +kernel) (by decide)
    (Duration.fromSecs 2) (by decide +kernel) (by decide +kernel) (by decide +kernel)
  revert hafter
  decide +kernel

end PolyBot.ReconnectCauses
