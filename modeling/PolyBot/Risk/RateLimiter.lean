import PolyBot.Types

namespace PolyBot

structure Window where
  maxRequests : ℕ
  duration : Duration
  deriving DecidableEq, Repr

/-- A sliding-window limiter; `timestamps` lists the accepted requests, oldest first. -/
structure RateLimiter where
  timestamps : List Instant
  burst : Window
  sustained : Window
  threshold : ℚ
  deriving DecidableEq, Repr

namespace RateLimiter

def forOrderSubmission : RateLimiter :=
  ⟨[], ⟨3500, Duration.fromSecs 10⟩, ⟨36000, Duration.fromSecs 600⟩, 4 / 5⟩

def forOrderCancellation : RateLimiter :=
  ⟨[], ⟨3000, Duration.fromSecs 10⟩, ⟨30000, Duration.fromSecs 600⟩, 4 / 5⟩

def limitOf (rl : RateLimiter) (w : Window) : ℕ := ⌊(w.maxRequests : ℚ) * rl.threshold⌋.toNat

def burstCount (rl : RateLimiter) (now : Instant) : ℕ :=
  (rl.timestamps.reverse.takeWhile fun t => now - rl.burst.duration ≤ t).length

def wouldExceed (rl : RateLimiter) (now : Instant) : Bool :=
  rl.limitOf rl.burst ≤ rl.burstCount now ∨ rl.limitOf rl.sustained ≤ rl.timestamps.length

/-- A refused request is not recorded. -/
def tryAcquire (rl : RateLimiter) (now : Instant) : Bool × RateLimiter :=
  if rl.wouldExceed now then (false, rl)
  else (true, { rl with
    timestamps := (rl.timestamps ++ [now]).dropWhile fun t => t < now - rl.sustained.duration })

end RateLimiter

end PolyBot
