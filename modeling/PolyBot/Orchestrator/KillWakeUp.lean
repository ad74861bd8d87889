import PolyBot.Orchestrator.MainLoop

/-! A task that waits for the kill switch while another task throws it, one read or write at a time. A call by itself does
what the loop's kill switch does at once (`wait_alone`). -/

namespace PolyBot.Bot.KillWakeUp
open General.AdditiveRuns MainLoop

inductive Waiter where
  | called
  | flagUnset
  | envVarUnset
  /-- Found a trigger outside the process and set the flag itself. -/
  | flagSet
  | notKilled
  /-- Has created the future, which is not awaited yet. -/
  | notified (wakeUp : Bool)
  | asleep (wakeUp : Bool)
  | returned
  deriving DecidableEq, Repr

inductive Killer where
  | idle
  | flagSet
  | finished
  deriving DecidableEq, Repr

structure State where
  killSwitch : KillSwitch
  triggers : Triggers
  waiter : Waiter
  killer : Killer
  deriving DecidableEq, Repr

inductive Event where
  | wait
  | kill
  | trigger (triggers : Triggers)
  deriving DecidableEq, Repr

/-- Only a future that exists is woken. -/
def Waiter.notifyWaiters : Waiter → Waiter
  | .notified _ => .notified true
  | .asleep _ => .asleep true
  | waiter => waiter

namespace State

def start (triggers : Triggers) : State := ⟨.new, triggers, .called, .idle⟩

def wait (s : State) : State :=
  match s.waiter with
  | .called => { s with waiter := if s.killSwitch.killed then .returned else .flagUnset }
  | .flagUnset =>
    if s.triggers.envVar then { s with killSwitch := s.killSwitch.kill, waiter := .flagSet }
    else { s with waiter := .envVarUnset }
  | .envVarUnset =>
    if s.triggers.file then { s with killSwitch := s.killSwitch.kill, waiter := .flagSet }
    else { s with waiter := .notKilled }
  | .flagSet => { s with waiter := .returned }
  | .notKilled => { s with waiter := .notified false }
  | .notified wakeUp => { s with waiter := if wakeUp then .returned else .asleep false }
  | .asleep wakeUp => { s with waiter := if wakeUp then .returned else .asleep false }
  | .returned => s

def kill (s : State) : State :=
  match s.killer with
  | .idle => { s with killSwitch := s.killSwitch.kill, killer := .flagSet }
  | .flagSet => { s with waiter := s.waiter.notifyWaiters, killer := .finished }
  | .finished => s

def step (s : State) : Event → State
  | .wait => s.wait
  | .kill => s.kill
  | .trigger triggers => { s with triggers := triggers }

/-- The switch is thrown, and nothing is left that would wake the waiter. -/
def Lost (s : State) : Prop := s.killSwitch.killed = true ∧ s.killer = .finished ∧ s.waiter = .asleep false

instance (s : State) : Decidable s.Lost :=
  inferInstanceAs (Decidable (s.killSwitch.killed = true ∧ s.killer = .finished ∧ s.waiter = .asleep false))

/-- The call has read the flag as unset, and `kill` is through before the future exists. -/
def Late (s : State) : Prop := s.waiter = .notKilled ∧ s.killer = .finished

def InTime (s : State) (event : Event) : Prop := event = .wait → ¬s.Late

def Woken (s : State) : Prop :=
  s.killer = .finished → s.waiter ≠ .notified false ∧ s.waiter ≠ .asleep false

theorem Woken.not_lost {s : State} (h : s.Woken) : ¬s.Lost := fun hlost => (h hlost.2.1).2 hlost.2.2

theorem woken_wait {s : State} (h : s.Woken) (hintime : ¬s.Late) : s.wait.Woken := by
  intro hfinished
  have hkiller : s.wait.killer = s.killer := by
    rw [wait]
    split <;> try rfl
    · split <;> rfl
    · split <;> rfl
  rw [hkiller] at hfinished
  obtain ⟨hnotified, hasleep⟩ := h hfinished
  rw [wait]
  cases hwaiter : s.waiter with
  | called | flagUnset | envVarUnset =>
    dsimp only
    split <;> exact ⟨nofun, nofun⟩
  | flagSet => exact ⟨nofun, nofun⟩
  | notKilled => exact absurd ⟨hwaiter, hfinished⟩ hintime
  | notified wakeUp =>
    cases wakeUp with
    | true => exact ⟨nofun, nofun⟩
    | false => exact absurd hwaiter hnotified
  | asleep wakeUp =>
    cases wakeUp with
    | true => exact ⟨nofun, nofun⟩
    | false => exact absurd hwaiter hasleep
  | returned => exact ⟨hnotified, hasleep⟩

theorem woken_kill {s : State} (h : s.Woken) : s.kill.Woken := by
  intro hfinished
  rw [kill] at hfinished ⊢
  cases hkiller : s.killer with
  | idle =>
    rw [hkiller] at hfinished
    cases hfinished
  | flagSet => cases s.waiter <;> exact ⟨nofun, nofun⟩
  | finished => exact h hkiller

theorem woken_step {s : State} {event : Event} (h : s.Woken) (hintime : s.InTime event) : (s.step event).Woken := by
  cases event with
  | wait => exact woken_wait h (hintime rfl)
  | kill => exact woken_kill h
  | trigger triggers => exact h

theorem woken_run (triggers : Triggers) {events : List Event} (h : Throughout step InTime (start triggers) events) :
    (events.foldl step (start triggers)).Woken :=
  h.foldl_induction (fun _ _ hwoken hintime => woken_step hwoken hintime) nofun

def Flagged (s : State) : Prop := s.killer ≠ .idle → s.killSwitch.killed = true

theorem flagged_step {s : State} (h : s.Flagged) (event : Event) : (s.step event).Flagged := by
  cases event with
  | wait =>
    rw [step, wait]
    split
    · exact h
    · split
      · exact fun _ => rfl
      · exact h
    · split
      · exact fun _ => rfl
      · exact h
    all_goals exact h
  | kill =>
    rw [step, kill]
    split
    · exact fun _ => rfl
    · rename_i hkiller
      exact fun _ => h (hkiller ▸ nofun)
    · exact h
  | trigger triggers => exact h

theorem flagged_run (triggers : Triggers) (events : List Event) : (events.foldl step (start triggers)).Flagged := by
  induction events using List.reverseRecOn with
  | nil => exact fun h => absurd rfl h
  | append_singleton events event ih =>
    rw [List.foldl_append]
    exact flagged_step ih event

/-- A future that is created too late is never woken. -/
theorem lost_of_late {s : State} (hflagged : s.Flagged) (h : s.Late) : s.wait.wait.Lost := by
  obtain ⟨hwaiter, hkiller⟩ := h
  have hcreated : s.wait = { s with waiter := .notified false } := by
    rw [wait, hwaiter]
  rw [hcreated]
  exact ⟨hflagged (hkiller ▸ nofun), hkiller, rfl⟩

theorem not_lost_wait {s : State} (h : s.Woken) : ¬s.wait.Lost := by
  by_cases hlate : s.Late
  · intro hlost
    have hwaiter := hlost.2.2
    rw [wait, hlate.1] at hwaiter
    cases hwaiter
  · exact (woken_wait h hlate).not_lost

end State

open State

/-- By itself the call returns if the switch is thrown or a trigger is found, and sleeps otherwise. -/
theorem wait_alone (killSwitch : KillSwitch) (triggers : Triggers) (killer : Killer) :
    (List.replicate 5 Event.wait).foldl step ⟨killSwitch, triggers, .called, killer⟩ =
      ⟨(killSwitch.isKilled triggers).2, triggers,
        if (killSwitch.isKilled triggers).1 then .returned else .asleep false, killer⟩ := by
  obtain ⟨killed⟩ := killSwitch
  obtain ⟨envVar, file⟩ := triggers
  cases killed <;> cases envVar <;> cases file <;> rfl

/-- In every state of a run, and after one more step of the waiter, no wake-up is lost, exactly if `kill` never finishes
between the waiter's look at the flag and the creation of its future. -/
theorem no_wake_up_lost_iff (triggers : Triggers) (events : List Event) :
    (∀ p, p <+: events →
      ¬(p.foldl step (start triggers)).Lost ∧ ¬((p ++ [Event.wait]).foldl step (start triggers)).Lost) ↔
      Throughout step InTime (start triggers) events := by
  constructor
  · intro h
    refine throughout_iff_prefixes.mpr fun before event hprefix hwait hlate => (h _ hprefix).2 ?_
    rw [hwait, List.foldl_append, List.foldl_append]
    exact lost_of_late (flagged_run triggers before) hlate
  · rintro h p ⟨rest, rfl⟩
    have hwoken := woken_run triggers (throughout_append_iff.mp h).1
    rw [List.foldl_append]
    exact ⟨hwoken.not_lost, not_lost_wait hwoken⟩

/-- The waiter looks at the flag, the variable and the file, then another task throws the switch, and only then does the
waiter create its future. -/
theorem wake_up_is_lost :
    (([.wait, .wait, .wait, .kill, .kill, .wait, .wait] : List Event).foldl step (start ⟨false, false⟩)).Lost := by
  decide

end PolyBot.Bot.KillWakeUp
