import PolyBot.Risk.RateWindows

namespace PolyBot.Risk.RateRefusals
open General.AdditiveRuns General.TimeWindows RateLimiter RateWindows

/-- A limiter whose record has come to its limit records nothing more, at any time. -/
theorem full_refuses_forever {rl : RateLimiter} (h : rl.limitOf rl.sustained ≤ rl.timestamps.length)
    (accepted : List Instant) (times : List Instant) :
    times.foldl LimiterRun.call ⟨rl, accepted⟩ = ⟨rl, accepted⟩ := by
  induction times with
  | nil => rfl
  | cons now times ih =>
    rwa [List.foldl_cons, LimiterRun.call_refused ((wouldExceed_eq_true_iff rl now).mpr (.inr h))]

def Justified (s : LimiterRun) (now : Instant) : Prop :=
  (s.limiter.tryAcquire now).1 = false →
    s.limiter.limitOf s.limiter.burst ≤
        s.accepted.countP (fun t => now - s.limiter.burst.duration ≤ t ∧ t ≤ now) ∨
      s.limiter.limitOf s.limiter.sustained ≤
        s.accepted.countP fun t => now - s.limiter.sustained.duration ≤ t ∧ t ≤ now

/-- The record is full but its oldest entry is out of the sustained window, and the burst window has room. -/
def Stuck (rl : RateLimiter) (now : Instant) : Prop :=
  rl.limitOf rl.sustained ≤ rl.timestamps.length ∧ (∃ t ∈ rl.timestamps.head?, t < now - rl.sustained.duration) ∧
    rl.burstCount now < rl.limitOf rl.burst

variable {s : LimiterRun} {now : Instant}

private theorem countP_window_eq (hnow : Past s now) (cutoff : Instant) :
    s.accepted.countP (fun t => cutoff ≤ t ∧ t ≤ now) = s.accepted.countP fun t => cutoff ≤ t := by
  apply List.countP_congr
  intro t ht
  simp [hnow t ht]

/-- The entries of a sorted list are all in a window exactly if the first is. -/
private theorem countP_eq_length_iff_head {l : List Instant} (h : l.Pairwise (· ≤ ·)) (cutoff : Instant) :
    l.countP (fun t => cutoff ≤ t) = l.length ↔ ∀ t ∈ l.head?, cutoff ≤ t := by
  rw [List.countP_eq_length]
  cases l with
  | nil => simp
  | cons a l =>
    obtain ⟨ha, -⟩ := List.pairwise_cons.mp h
    simp only [decide_eq_true_eq, List.mem_cons, forall_eq_or_imp, List.head?_cons, Option.mem_some_iff, forall_eq']
    exact and_iff_left_of_imp fun hcut t ht => hcut.trans (ha t ht)

/-- The step lemma: a refusal is unjustified exactly when the limiter is stuck. -/
theorem justified_iff_not_stuck (h : Tracks s) (hnow : Past s now) : Justified s now ↔ ¬Stuck s.limiter now := by
  have hburst := h.burstCount_eq hnow
  have hsustained := h.countP_timestamps hnow le_rfl
  have hhead := countP_eq_length_iff_head h.sorted_timestamps (now - s.limiter.sustained.duration)
  have hle := List.countP_le_length (p := fun t => decide (now - s.limiter.sustained.duration ≤ t))
    (l := s.limiter.timestamps)
  have hbounded := h.bounded
  rw [Justified, tryAcquire_fst, Bool.not_eq_false', wouldExceed_eq_true_iff, countP_window_eq hnow,
    countP_window_eq hnow, ← hburst, ← hsustained]
  constructor
  · rintro hjust ⟨hfull, ⟨oldest, holdest, hold⟩, hroom⟩
    rcases hjust (.inr hfull) with hreached | hreached
    · exact hroom.not_ge hreached
    · have hall := hhead.mp (le_antisymm hle (hbounded.trans hreached))
      exact hold.not_ge (hall oldest holdest)
  · rintro hstuck (hreached | hfull)
    · exact .inl hreached
    · by_contra hno
      rw [not_or, not_le] at hno
      refine hstuck ⟨hfull, ?_, hno.1⟩
      by_contra hrecent
      have hall : ∀ t ∈ s.limiter.timestamps.head?, now - s.limiter.sustained.duration ≤ t :=
        fun t ht => not_lt.mp fun hlt => hrecent ⟨t, ht, hlt⟩
      exact hno.2 (hfull.trans (hhead.mpr hall).ge)

/-- Every refusal of a run is justified exactly if no call of the run finds the limiter stuck. -/
theorem refusals_justified_iff {rl : RateLimiter} (hrl : rl = .forOrderSubmission ∨ rl = .forOrderCancellation)
    {times : List Instant} (hsorted : times.Pairwise (· ≤ ·)) :
    Throughout LimiterRun.call Justified (.start rl) times ↔
      Throughout LimiterRun.call (fun s now => ¬Stuck s.limiter now) (.start rl) times := by
  have htracks : Tracks (.start rl) := by
    rcases hrl with rfl | rfl
    · exact tracks_start rfl (by decide)
    · exact tracks_start rfl (by decide)
  exact throughout_congr_of Tracks (fun _ _ htracks hpast _ => htracks.call hpast)
    (fun _ _ htracks hpast => justified_iff_not_stuck htracks hpast) htracks
    (throughout_past hsorted fun _ _ => past_start rl _)

theorem refusals_justified_iff_twoCalls :
    Throughout LimiterRun.call Justified (.start .forOrderSubmission) [5, 7] ↔
      Throughout LimiterRun.call (fun s now => ¬Stuck s.limiter now) (.start .forOrderSubmission) [5, 7] :=
  refusals_justified_iff (.inl rfl) (by decide)

def steadyCalls (n : ℕ) : List Instant := (List.range n).map (· * Duration.fromMillis 20)

private theorem sorted_steadyCalls (n : ℕ) : (steadyCalls n).Pairwise (· ≤ ·) :=
  List.pairwise_map.mpr (List.pairwise_le_range.imp fun h => Nat.mul_le_mul_right _ h)

private theorem countP_range_le (n k : ℕ) : (List.range n).countP (fun i => n ≤ i + k) ≤ k := by
  rcases Nat.le_total n k with h | h
  · exact List.countP_le_length.trans (by simpa using h)
  · obtain ⟨m, rfl⟩ := Nat.exists_eq_add_of_le' h
    have hearly : (List.range m).countP (fun i => m + k ≤ i + k) = 0 := by
      simp
    rw [List.range_add, List.countP_append, hearly, zero_add]
    exact List.countP_le_length.trans (by simp)

def recorded (timestamps : List Instant) : RateLimiter := { forOrderSubmission with timestamps := timestamps }

private theorem burst_limit (timestamps : List Instant) :
    (recorded timestamps).limitOf (recorded timestamps).burst = 2800 := by
  have hlimit : forOrderSubmission.limitOf forOrderSubmission.burst = 2800 := by decide +kernel
  exact hlimit

private theorem sustained_limit (timestamps : List Instant) :
    (recorded timestamps).limitOf (recorded timestamps).sustained = 28800 := by
  have hlimit : forOrderSubmission.limitOf forOrderSubmission.sustained = 28800 := by decide +kernel
  exact hlimit

private theorem length_steadyCalls (n : ℕ) : (steadyCalls n).length = n := by
  rw [steadyCalls, List.length_map, List.length_range]

/-- Ten seconds hold five hundred of them. -/
private theorem burstCount_steadyCalls (n : ℕ) :
    (recorded (steadyCalls n)).burstCount (n * Duration.fromMillis 20) ≤ 500 := by
  have hcount := length_takeWhile_reverse
    (latest_mono (n * Duration.fromMillis 20 - Duration.fromSecs 10) (sorted_steadyCalls n))
  rw [steadyCalls, List.countP_map] at hcount
  refine hcount.trans_le ((List.countP_mono_left fun i _ hi => ?_).trans (countP_range_le n 500))
  have hspan : Duration.fromSecs 10 = 500 * Duration.fromMillis 20 := by decide
  have hpos : 0 < Duration.fromMillis 20 := by decide
  rw [Function.comp_apply, decide_eq_true_iff, hspan, ← Nat.sub_mul] at hi
  rw [decide_eq_true_iff, ← Nat.sub_le_iff_le_add]
  exact Nat.le_of_mul_le_mul_right hi hpos

/-- The limiter takes each of the first 28 800, which are over before the first leaves the sustained window. -/
private theorem run_steadyCalls {n : ℕ} (hn : n ≤ 28800) :
    (steadyCalls n).foldl LimiterRun.call (.start forOrderSubmission) = ⟨recorded (steadyCalls n), steadyCalls n⟩ := by
  induction n with
  | zero => rfl
  | succ n ih =>
    have hsucc : steadyCalls (n + 1) = steadyCalls n ++ [n * Duration.fromMillis 20] := by
      rw [steadyCalls, List.range_succ, List.map_append]
      rfl
    have hroom : (recorded (steadyCalls n)).wouldExceed (n * Duration.fromMillis 20) = false := by
      rw [← Bool.not_eq_true, wouldExceed_eq_true_iff, burst_limit, sustained_limit, not_or, not_le, not_le]
      refine ⟨(burstCount_steadyCalls n).trans_lt (by norm_num), ?_⟩
      exact (length_steadyCalls n).trans_lt hn
    have hspan : Duration.fromSecs 600 = 30000 * Duration.fromMillis 20 := by decide
    have hcutoff : n * Duration.fromMillis 20 - Duration.fromSecs 600 = 0 := by
      rw [hspan, ← Nat.sub_mul, Nat.sub_eq_zero_of_le (by omega), zero_mul]
    have hprune : ((steadyCalls n ++ [n * Duration.fromMillis 20]).dropWhile
        fun t => t < n * Duration.fromMillis 20 - Duration.fromSecs 600) = steadyCalls (n + 1) := by
      rw [hcutoff, ← hsucc]
      cases steadyCalls (n + 1) <;> rfl
    rw [hsucc, List.foldl_concat, ih (by omega), LimiterRun.call, tryAcquire_accepted hroom, ← hsucc]
    exact congrArg (fun ts => (⟨recorded ts, steadyCalls (n + 1)⟩ : LimiterRun)) hprune

private theorem lt_of_mem_steadyCalls {n : ℕ} (hn : n ≤ 28800) {t : Instant} (ht : t ∈ steadyCalls n) :
    t < Duration.fromSecs 1400 := by
  obtain ⟨i, hi, rfl⟩ := List.mem_map.mp ht
  have hspan : Duration.fromSecs 1400 = 70000 * Duration.fromMillis 20 := by decide
  have hpos : 0 < Duration.fromMillis 20 := by decide
  rw [List.mem_range] at hi
  rw [hspan]
  exact Nat.mul_lt_mul_of_pos_right (by omega) hpos

/-- A later call finds nothing in its windows, but a full record. -/
private theorem not_justified {n : ℕ} (hn : n = 28800) :
    ¬Justified ⟨recorded (steadyCalls n), steadyCalls n⟩ (Duration.fromSecs 2000) := by
  have hnone : ∀ d, d ≤ Duration.fromSecs 600 → (steadyCalls n).countP
      (fun t => Duration.fromSecs 2000 - d ≤ t ∧ t ≤ Duration.fromSecs 2000) = 0 := by
    intro d hd
    rw [List.countP_eq_zero]
    intro t ht hwindow
    have hspan : Duration.fromSecs 2000 - Duration.fromSecs 600 = Duration.fromSecs 1400 := by decide
    have hcutoff := (Nat.sub_le_sub_left hd (Duration.fromSecs 2000)).trans (of_decide_eq_true hwindow).1
    rw [hspan] at hcutoff
    exact (lt_of_mem_steadyCalls hn.le ht).not_ge hcutoff
  have hfull : (recorded (steadyCalls n)).wouldExceed (Duration.fromSecs 2000) = true := by
    rw [wouldExceed_eq_true_iff, sustained_limit]
    right
    exact hn.ge.trans_eq (length_steadyCalls n).symm
  have hrefused : ((recorded (steadyCalls n)).tryAcquire (Duration.fromSecs 2000)).1 = false := by
    rw [tryAcquire_fst, hfull]
    rfl
  have hburst : (recorded (steadyCalls n)).burst.duration ≤ Duration.fromSecs 600 :=
    Nat.mul_le_mul_right _ (by decide : 10 ≤ 600)
  intro hjustified
  rcases hjustified hrefused with h | h
  · rw [burst_limit, hnone _ hburst] at h
    exact absurd h (by decide)
  · have hsustained : (recorded (steadyCalls n)).sustained.duration ≤ Duration.fromSecs 600 := le_rfl
    rw [sustained_limit, hnone _ hsustained] at h
    exact absurd h (by decide)

/-- After 28 800 calls at fifty a second, a call that comes 33 minutes after the first is refused, though nothing was
accepted in the last ten minutes. -/
theorem saturated_limiter_refuses :
    (steadyCalls 28800 ++ [Duration.fromSecs 2000]).Pairwise (· ≤ ·) ∧
      ¬Throughout LimiterRun.call Justified (.start .forOrderSubmission)
        (steadyCalls 28800 ++ [Duration.fromSecs 2000]) := by
  generalize hn : 28800 = n
  constructor
  · refine List.pairwise_append.mpr ⟨sorted_steadyCalls _, List.pairwise_singleton _ _, fun t ht u hu => ?_⟩
    rw [List.mem_singleton.mp hu]
    exact (lt_of_mem_steadyCalls hn.ge ht).le.trans (by decide)
  · rw [throughout_append_iff, run_steadyCalls hn.ge]
    rintro ⟨-, hjustified, -⟩
    exact not_justified hn.symm hjustified

end PolyBot.Risk.RateRefusals
