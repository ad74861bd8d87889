import PolyBot.General.AdditiveRuns
import PolyBot.General.TimeWindows
import PolyBot.Risk.RateLimiter

namespace PolyBot.Risk.RateWindows
open General.AdditiveRuns General.TimeWindows RateLimiter

theorem wouldExceed_eq_true_iff (rl : RateLimiter) (now : Instant) :
    rl.wouldExceed now = true ↔
      rl.limitOf rl.burst ≤ rl.burstCount now ∨ rl.limitOf rl.sustained ≤ rl.timestamps.length := by
  simp [wouldExceed]

theorem tryAcquire_fst (rl : RateLimiter) (now : Instant) : (rl.tryAcquire now).1 = !rl.wouldExceed now := by
  unfold tryAcquire
  cases rl.wouldExceed now <;> rfl

theorem tryAcquire_refused {rl : RateLimiter} {now : Instant} (h : rl.wouldExceed now = true) :
    rl.tryAcquire now = (false, rl) :=
  if_pos h

/-- An accepted call is recorded, and what is older than the sustained window goes. -/
theorem tryAcquire_accepted {rl : RateLimiter} {now : Instant} (h : rl.wouldExceed now = false) :
    rl.tryAcquire now = (true, { rl with
      timestamps := (rl.timestamps ++ [now]).dropWhile fun t => t < now - rl.sustained.duration }) :=
  if_neg (by simp [h])

structure LimiterRun where
  limiter : RateLimiter
  accepted : List Instant
  deriving DecidableEq

namespace LimiterRun

def start (rl : RateLimiter) : LimiterRun := ⟨rl, []⟩

def call (s : LimiterRun) (now : Instant) : LimiterRun where
  limiter := (s.limiter.tryAcquire now).2
  accepted := if (s.limiter.tryAcquire now).1 then s.accepted ++ [now] else s.accepted

theorem call_refused {s : LimiterRun} {now : Instant} (h : s.limiter.wouldExceed now = true) : s.call now = s := by
  rw [call, tryAcquire_refused h]
  rfl

end LimiterRun

def acceptedTimes (rl : RateLimiter) (times : List Instant) : List Instant :=
  (times.foldl LimiterRun.call (.start rl)).accepted

def Past (s : LimiterRun) (now : Instant) : Prop := ∀ t ∈ s.accepted, t ≤ now

/-- The record holds the accepted calls from some time on that is out of the sustained window, and the accepted calls
keep to both limits. -/
structure Tracks (s : LimiterRun) : Prop where
  sorted : s.accepted.Pairwise (· ≤ ·)
  kept : ∃ cutoff, (∀ now, Past s now → cutoff ≤ now - s.limiter.sustained.duration) ∧
    s.limiter.timestamps = s.accepted.filter (cutoff ≤ ·)
  bounded : s.limiter.timestamps.length ≤ s.limiter.limitOf s.limiter.sustained
  nested : s.limiter.burst.duration ≤ s.limiter.sustained.duration
  burst : Paced s.limiter.burst.duration (s.limiter.limitOf s.limiter.burst) s.accepted
  sustained : Paced s.limiter.sustained.duration (s.limiter.limitOf s.limiter.sustained) s.accepted

theorem tracks_start {rl : RateLimiter} (hempty : rl.timestamps = [])
    (hnested : rl.burst.duration ≤ rl.sustained.duration) : Tracks (.start rl) where
  sorted := List.Pairwise.nil
  kept := ⟨0, fun _ _ => Nat.zero_le _, hempty⟩
  bounded := by simp [LimiterRun.start, hempty]
  nested := hnested
  burst := .nil
  sustained := .nil

variable {s : LimiterRun} {now : Instant}

theorem Tracks.sorted_timestamps (h : Tracks s) : s.limiter.timestamps.Pairwise (· ≤ ·) := by
  obtain ⟨cutoff, -, hkept⟩ := h.kept
  rw [hkept]
  exact h.sorted.filter _

/-- In a window that is no longer than the sustained one, the record and the accepted calls agree. -/
theorem Tracks.countP_timestamps (h : Tracks s) (hnow : Past s now) {d : Duration}
    (hd : d ≤ s.limiter.sustained.duration) :
    s.limiter.timestamps.countP (fun t => now - d ≤ t) = s.accepted.countP fun t => now - d ≤ t := by
  obtain ⟨cutoff, hcutoff, hkept⟩ := h.kept
  have hold := (hcutoff now hnow).trans (Nat.sub_le_sub_left hd now)
  rw [hkept, List.countP_filter]
  apply List.countP_congr
  intro t _
  simp only [Bool.and_eq_true, decide_eq_true_eq]
  exact and_iff_left_of_imp hold.trans

theorem Tracks.burstCount_eq (h : Tracks s) (hnow : Past s now) :
    s.limiter.burstCount now = s.accepted.countP fun t => now - s.limiter.burst.duration ≤ t := by
  rw [burstCount, length_takeWhile_reverse (latest_mono _ h.sorted_timestamps), h.countP_timestamps hnow h.nested]

/-- The step lemma. -/
theorem Tracks.call (h : Tracks s) (hnow : Past s now) : Tracks (s.call now) := by
  cases hexceeds : s.limiter.wouldExceed now with
  | true =>
    rw [LimiterRun.call_refused hexceeds]
    exact h
  | false =>
    have hroom := mt (wouldExceed_eq_true_iff s.limiter now).mpr (by simp [hexceeds])
    rw [not_or, not_le, not_le, h.burstCount_eq hnow] at hroom
    obtain ⟨hburst, hsustained⟩ := hroom
    have hsorted : (s.accepted ++ [now]).Pairwise (· ≤ ·) :=
      List.pairwise_append.mpr ⟨h.sorted, List.pairwise_singleton _ _, fun t ht _ hmem => by
        rw [List.mem_singleton.mp hmem]
        exact hnow t ht⟩
    obtain ⟨cutoff, hcutoff, hkept⟩ := h.kept
    have hrecord := prune_record hsorted (hcutoff now hnow) (Nat.sub_le now s.limiter.sustained.duration)
    rw [← hkept] at hrecord
    rw [LimiterRun.call, tryAcquire_accepted hexceeds]
    exact {
      sorted := hsorted
      kept := ⟨now - s.limiter.sustained.duration,
        fun later hlater => Nat.sub_le_sub_right (hlater now (by simp)) _, hrecord⟩
      bounded := by
        refine (List.dropWhile_sublist _).length_le.trans ?_
        rw [List.length_append, List.length_singleton]
        exact hsustained
      nested := h.nested
      burst := .concat h.burst hburst
      sustained := by
        refine .concat h.sustained (lt_of_le_of_lt ?_ hsustained)
        rw [← h.countP_timestamps hnow le_rfl]
        exact List.countP_le_length }

theorem past_call {later : Instant} (h : Past s later) (hle : now ≤ later) : Past (s.call now) later := by
  intro t ht
  simp only [LimiterRun.call] at ht
  split at ht
  · rcases List.mem_append.mp ht with hold | hnew
    · exact h t hold
    · rwa [List.mem_singleton.mp hnew]
  · exact h t ht

/-- When calls come in order, each comes after the accepted ones. -/
theorem throughout_past {times : List Instant} (hsorted : times.Pairwise (· ≤ ·)) (h : ∀ t ∈ times, Past s t) :
    Throughout LimiterRun.call Past s times := by
  induction times generalizing s with
  | nil => trivial
  | cons now times ih =>
    obtain ⟨hnow, htimes⟩ := List.pairwise_cons.mp hsorted
    exact ⟨h now List.mem_cons_self, ih htimes fun t ht => past_call (h t (List.mem_cons_of_mem _ ht)) (hnow t ht)⟩

theorem past_start (rl : RateLimiter) (now : Instant) : Past (.start rl) now := by
  intro t ht
  cases ht

/-- The run lemma. -/
theorem tracks_run {rl : RateLimiter} (hempty : rl.timestamps = [])
    (hnested : rl.burst.duration ≤ rl.sustained.duration) {times : List Instant} (hsorted : times.Pairwise (· ≤ ·)) :
    Tracks (times.foldl LimiterRun.call (.start rl)) :=
  Throughout.foldl_induction (fun _ _ htracks hpast => htracks.call hpast) (tracks_start hempty hnested)
    (throughout_past hsorted fun _ _ => past_start rl _)

theorem tryAcquire_limiter (rl : RateLimiter) (now : Instant) :
    ∃ timestamps, (rl.tryAcquire now).2 = { rl with timestamps := timestamps } := by
  cases h : rl.wouldExceed now with
  | true => exact ⟨rl.timestamps, by rw [tryAcquire_refused h]⟩
  | false => exact ⟨_, by rw [tryAcquire_accepted h]⟩

theorem limiter_run (s : LimiterRun) (times : List Instant) :
    ∃ timestamps, (times.foldl LimiterRun.call s).limiter = { s.limiter with timestamps := timestamps } := by
  induction times generalizing s with
  | nil => exact ⟨s.limiter.timestamps, rfl⟩
  | cons now times ih =>
    obtain ⟨later, hlater⟩ := ih (s.call now)
    obtain ⟨first, hfirst⟩ := tryAcquire_limiter s.limiter now
    have hcall : (s.call now).limiter = { s.limiter with timestamps := first } := hfirst
    exact ⟨later, by rw [List.foldl_cons, hlater, hcall]⟩

private theorem limits_of_config {rl : RateLimiter} (hrl : rl = .forOrderSubmission ∨ rl = .forOrderCancellation) :
    rl.timestamps = [] ∧ rl.burst.duration = Duration.fromSecs 10 ∧ rl.sustained.duration = Duration.fromSecs 600 ∧
      rl.limitOf rl.burst = rl.burst.maxRequests * 4 / 5 ∧
      rl.limitOf rl.sustained = rl.sustained.maxRequests * 4 / 5 := by
  rcases hrl with rfl | rfl
  · decide +kernel
  · decide +kernel

/-- However calls come, what either limiter accepts is at most four fifths of its maximum in every closed window of ten
seconds, and in every closed window of ten minutes. -/
theorem accepted_windows_le {rl : RateLimiter} (hrl : rl = .forOrderSubmission ∨ rl = .forOrderCancellation)
    {times : List Instant} (hsorted : times.Pairwise (· ≤ ·)) (start : Instant) :
    (acceptedTimes rl times).countP (fun t => start ≤ t ∧ t ≤ start + Duration.fromSecs 10) ≤
        rl.burst.maxRequests * 4 / 5 ∧
      (acceptedTimes rl times).countP (fun t => start ≤ t ∧ t ≤ start + Duration.fromSecs 600) ≤
        rl.sustained.maxRequests * 4 / 5 := by
  obtain ⟨hempty, hburst, hsustained, hburstLimit, hsustainedLimit⟩ := limits_of_config hrl
  have hnested : rl.burst.duration ≤ rl.sustained.duration := by
    rw [hburst, hsustained]
    decide
  have htracks := tracks_run hempty hnested hsorted
  obtain ⟨timestamps, hlimiter⟩ := limiter_run (.start rl) times
  have hpacedBurst := htracks.burst
  have hpacedSustained := htracks.sustained
  rw [hlimiter] at hpacedBurst hpacedSustained
  constructor
  · rw [← hburst, ← hburstLimit]
    exact hpacedBurst.countP_window_le start
  · rw [← hsustained, ← hsustainedLimit]
    exact hpacedSustained.countP_window_le start

theorem accepted_windows_le_twoCalls :
    (acceptedTimes .forOrderSubmission [5, 7]).countP (fun t => 0 ≤ t ∧ t ≤ 0 + Duration.fromSecs 10) ≤
        forOrderSubmission.burst.maxRequests * 4 / 5 ∧
      (acceptedTimes .forOrderSubmission [5, 7]).countP (fun t => 0 ≤ t ∧ t ≤ 0 + Duration.fromSecs 600) ≤
        forOrderSubmission.sustained.maxRequests * 4 / 5 :=
  accepted_windows_le (.inl rfl) (by decide) 0

end PolyBot.Risk.RateWindows
