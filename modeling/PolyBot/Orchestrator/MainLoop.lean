import PolyBot.General.AdditiveRuns
import PolyBot.Strategy.Traits

/-! The main loop: a biased select over the messages, the timers and the kill switch. Whatever happens while an event
is handled comes after the turn of the loop that takes it. -/

namespace PolyBot.Bot.MainLoop
open General.AdditiveRuns

structure KillSwitch where
  killed : Bool
  deriving DecidableEq, Repr

structure Triggers where
  envVar : Bool
  file : Bool
  deriving DecidableEq, Repr

namespace KillSwitch

def new : KillSwitch := ⟨false⟩
def kill (ks : KillSwitch) : KillSwitch := { ks with killed := true }

def isKilled (ks : KillSwitch) (triggers : Triggers) : Bool × KillSwitch :=
  if ks.killed then (true, ks)
  else if triggers.envVar then (true, ks.kill)
  else if triggers.file then (true, ks.kill)
  else (false, ks)

end KillSwitch

/-- A call of `wait_for_kill` that is not polled yet, or that waits for the notification. -/
inductive WaitForKill where
  | called
  | waiting (notified : Bool)
  deriving DecidableEq, Repr

namespace WaitForKill

def notifyWaiters : WaitForKill → WaitForKill
  | called => called
  | waiting _ => waiting true

def poll (ks : KillSwitch) (triggers : Triggers) : WaitForKill → Bool × WaitForKill × KillSwitch
  | called => ((ks.isKilled triggers).1, waiting false, (ks.isKilled triggers).2)
  | waiting notified => (notified, waiting notified, ks)

end WaitForKill

/-- A timer in milliseconds; ticks that are missed are made up for. -/
structure Interval where
  deadline : ℕ
  period : ℕ
  deriving DecidableEq, Repr

namespace Interval

def new (now period : ℕ) : Interval := ⟨now, period⟩
def isDue (i : Interval) (now : ℕ) : Bool := i.deadline ≤ now
def tick (i : Interval) : Interval := { i with deadline := i.deadline + i.period }

end Interval

inductive Branch (M U : Type*) where
  | marketMessage (msg : M)
  | userMessage (msg : U)
  | tick
  | heartbeat
  | marketRefresh
  deriving DecidableEq, Repr

/-- The handlers of the bot, with the intents that they pass on to be processed. A refresh of the markets tells whether
it replaced the stream of market messages. -/
structure Handlers (M U σ : Type*) where
  handleMarketMessage : σ → M → List OrderIntent × σ
  handleUserMessage : σ → U → σ
  handleTick : σ → List OrderIntent × σ
  logHeartbeat : σ → σ
  refreshMarkets : σ → Bool × σ
  onShutdown : σ → List OrderIntent

structure State (M U σ : Type*) where
  now : ℕ
  marketWsRx : List M
  userWsRx : Option (List U)
  tickInterval : Interval
  heartbeatInterval : Interval
  marketRefreshInterval : Interval
  triggers : Triggers
  killSwitch : KillSwitch
  waitForKill : WaitForKill
  bot : σ
  handled : List (Branch M U)
  processed : List OrderIntent
  running : Bool

/-- A message arrives, time passes, the kill switch is thrown or one of its triggers changes, or the loop has its turn. -/
inductive Event (M U : Type*) where
  | marketMessage (msg : M)
  | userMessage (msg : U)
  | elapse (millis : ℕ)
  | kill
  | trigger (triggers : Triggers)
  | turn
  deriving DecidableEq, Repr

variable {M U σ : Type*}

namespace State

/-- The loop as it starts; the first refresh of the markets is a whole period away. -/
def start (now : ℕ) (marketWsRx : List M) (userWsRx : Option (List U)) (triggers : Triggers) (killSwitch : KillSwitch)
    (bot : σ) : State M U σ where
  now := now
  marketWsRx := marketWsRx
  userWsRx := userWsRx
  tickInterval := .new now 100
  heartbeatInterval := .new now 10000
  marketRefreshInterval := (Interval.new now 300000).tick
  triggers := triggers
  killSwitch := killSwitch
  waitForKill := .called
  bot := bot
  handled := []
  processed := []
  running := true

/-- The first branch that is ready, before the kill switch. -/
def ready (s : State M U σ) : Option (Branch M U) :=
  s.marketWsRx.head?.map .marketMessage <|>
    (s.userWsRx.bind List.head?).map .userMessage <|>
      (if s.tickInterval.isDue s.now then some .tick else none) <|>
        (if s.heartbeatInterval.isDue s.now then some .heartbeat else none) <|>
          if s.marketRefreshInterval.isDue s.now then some .marketRefresh else none

variable (h : Handlers M U σ)

def handle (s : State M U σ) (branch : Branch M U) : State M U σ :=
  let s := { s with handled := s.handled ++ [branch], waitForKill := .called }
  match branch with
  | .marketMessage msg =>
    { s with
      marketWsRx := s.marketWsRx.tail
      processed := s.processed ++ (h.handleMarketMessage s.bot msg).1
      bot := (h.handleMarketMessage s.bot msg).2 }
  | .userMessage msg => { s with userWsRx := s.userWsRx.map List.tail, bot := h.handleUserMessage s.bot msg }
  | .tick =>
    { s with
      tickInterval := s.tickInterval.tick
      processed := s.processed ++ (h.handleTick s.bot).1
      bot := (h.handleTick s.bot).2 }
  | .heartbeat => { s with heartbeatInterval := s.heartbeatInterval.tick, bot := h.logHeartbeat s.bot }
  | .marketRefresh =>
    { s with
      marketRefreshInterval := s.marketRefreshInterval.tick
      marketWsRx := if (h.refreshMarkets s.bot).1 then [] else s.marketWsRx
      bot := (h.refreshMarkets s.bot).2 }

def shutdown (s : State M U σ) : State M U σ :=
  { s with processed := s.processed ++ h.onShutdown s.bot, running := false }

/-- The kill switch is asked last, when no other branch is ready. -/
def turn (s : State M U σ) : State M U σ :=
  match s.ready with
  | some branch => s.handle h branch
  | none =>
    let (stops, waitForKill, killSwitch) := s.waitForKill.poll s.killSwitch s.triggers
    let s := { s with waitForKill := waitForKill, killSwitch := killSwitch }
    if stops then s.shutdown h else s

def step (s : State M U σ) : Event M U → State M U σ
  | .marketMessage msg => { s with marketWsRx := s.marketWsRx ++ [msg] }
  | .userMessage msg => { s with userWsRx := s.userWsRx.map (· ++ [msg]) }
  | .elapse millis => { s with now := s.now + millis }
  | .kill => { s with killSwitch := s.killSwitch.kill, waitForKill := s.waitForKill.notifyWaiters }
  | .trigger triggers => { s with triggers := triggers }
  | .turn => if s.running then s.turn h else s

structure Quiet (s : State M U σ) : Prop where
  market : s.marketWsRx = []
  user : ∀ msgs, s.userWsRx = some msgs → msgs = []
  tick : s.now < s.tickInterval.deadline
  heartbeat : s.now < s.heartbeatInterval.deadline
  marketRefresh : s.now < s.marketRefreshInterval.deadline

def Notified (s : State M U σ) : Prop :=
  s.running = true → s.killSwitch.killed = true → s.waitForKill ≠ .waiting false

/-- After these events nothing more is handled, and the loop is left at its first turn with the intents of the shutdown
alone. -/
structure StoppedFrom (s : State M U σ) (after : List (Event M U)) : Prop where
  handled : (after.foldl (step h) s).handled = s.handled
  left : .turn ∈ after → (after.foldl (step h) s).running = false
  processed : (after.foldl (step h) s).processed =
    s.processed ++ if s.running && !(after.foldl (step h) s).running then h.onShutdown s.bot else []

end State

/-- When the kill switch has been thrown, the loop has its turn only when no other branch is ready. -/
def QuietTurn (s : State M U σ) (event : Event M U) : Prop :=
  event = .turn → s.running = true → s.killSwitch.killed = true → s.Quiet

namespace State
variable {h : Handlers M U σ} {s : State M U σ}

theorem ready_eq_none_iff : s.ready = none ↔ s.Quiet := by
  have hmarket : s.marketWsRx.head?.map (Branch.marketMessage (U := U)) = none ↔ s.marketWsRx = [] := by simp
  have huser : (s.userWsRx.bind List.head?).map (Branch.userMessage (M := M)) = none ↔
      ∀ msgs, s.userWsRx = some msgs → msgs = [] := by
    cases s.userWsRx <;> simp
  have htimer : ∀ (i : Interval) (branch : Branch M U),
      (if i.isDue s.now then some branch else none) = none ↔ s.now < i.deadline := by
    intro i branch
    simp [Interval.isDue]
  unfold ready
  simp only [Option.orElse_eq_orElse, Option.orElse_eq_or, Option.or_eq_none_iff, hmarket, huser, htimer]
  constructor
  · rintro ⟨hmarket, huser, htick, hheartbeat, hrefresh⟩
    exact ⟨hmarket, huser, htick, hheartbeat, hrefresh⟩
  · rintro ⟨hmarket, huser, htick, hheartbeat, hrefresh⟩
    exact ⟨hmarket, huser, htick, hheartbeat, hrefresh⟩

theorem handled_handle (branch : Branch M U) : (s.handle h branch).handled = s.handled ++ [branch] := by
  cases branch <;> rfl

theorem step_turn_of_ready (hrunning : s.running = true) {branch : Branch M U} (hready : s.ready = some branch) :
    s.step h .turn = s.handle h branch := by
  rw [step, if_pos hrunning, turn, hready]

/-- A killed loop leaves at a quiet turn. -/
theorem turn_of_quiet (hquiet : s.Quiet) (hkilled : s.killSwitch.killed = true)
    (hnotified : s.waitForKill ≠ .waiting false) :
    ∃ waitForKill, s.turn h = shutdown h { s with waitForKill := waitForKill } := by
  have hready : s.ready = none := ready_eq_none_iff.mpr hquiet
  have hpoll : ∃ w, s.waitForKill.poll s.killSwitch s.triggers = (true, w, s.killSwitch) := by
    cases hwait : s.waitForKill with
    | called =>
      refine ⟨.waiting false, ?_⟩
      rw [WaitForKill.poll, KillSwitch.isKilled, if_pos hkilled]
    | waiting notified =>
      cases notified with
      | false => exact absurd hwait hnotified
      | true => exact ⟨.waiting true, rfl⟩
  obtain ⟨w, hw⟩ := hpoll
  refine ⟨w, ?_⟩
  rw [turn, hready]
  simp only [hw, if_true]

/-- A call that goes on waiting either knows of no kill, or waited before. -/
theorem waiting_of_poll {w w' : WaitForKill} {ks ks' : KillSwitch} {triggers : Triggers}
    (hpoll : w.poll ks triggers = (false, w', ks')) (hkilled : ks'.killed = true) :
    w = .waiting false ∧ ks' = ks := by
  cases w with
  | called =>
    simp only [WaitForKill.poll, KillSwitch.isKilled, KillSwitch.kill, Prod.mk.injEq] at hpoll
    obtain ⟨hstops, -, rfl⟩ := hpoll
    split_ifs at hstops hkilled with hthrown henv hfile
    exact absurd hkilled hthrown
  | waiting notified =>
    obtain ⟨rfl, -, rfl⟩ := hpoll
    exact ⟨rfl, rfl⟩

theorem Notified.step (hs : s.Notified) (event : Event M U) : (s.step h event).Notified := by
  cases event with
  | marketMessage msg | userMessage msg | elapse millis | trigger triggers => exact hs
  | kill =>
    intro _ _ hwait
    change s.waitForKill.notifyWaiters = .waiting false at hwait
    cases hnow : s.waitForKill <;> rw [hnow] at hwait <;> cases hwait
  | turn =>
    by_cases hrunning : s.running = true
    · cases hready : s.ready with
      | some branch =>
        rw [step_turn_of_ready hrunning hready]
        intro _ _ hwait
        have hcalled : (s.handle h branch).waitForKill = .called := by cases branch <;> rfl
        rw [hcalled] at hwait
        cases hwait
      | none =>
        rw [State.step, if_pos hrunning, turn, hready]
        intro hgoesOn hkilled hwait
        obtain ⟨stops, w, ks, hpoll⟩ : ∃ stops w ks, s.waitForKill.poll s.killSwitch s.triggers = (stops, w, ks) :=
          ⟨_, _, _, rfl⟩
        simp only [hpoll] at hgoesOn hkilled hwait
        cases stops with
        | true => cases hgoesOn
        | false =>
          obtain ⟨hwaited, hsame⟩ := waiting_of_poll hpoll hkilled
          have hthrown : s.killSwitch.killed = true := hsame ▸ hkilled
          exact hs hrunning hthrown hwaited
    · rw [State.step, if_neg hrunning]
      exact hs

/-- Nothing happens in a loop that is left. -/
theorem foldl_of_left (hleft : s.running = false) (events : List (Event M U)) :
    (events.foldl (step h) s).handled = s.handled ∧ (events.foldl (step h) s).processed = s.processed ∧
      (events.foldl (step h) s).running = false := by
  induction events generalizing s with
  | nil => exact ⟨rfl, rfl, hleft⟩
  | cons event events ih =>
    have hstep : (s.step h event).handled = s.handled ∧ (s.step h event).processed = s.processed ∧
        (s.step h event).running = false := by
      cases event with
      | turn =>
        have hstays : ¬s.running = true := by simp [hleft]
        rw [State.step, if_neg hstays]
        exact ⟨rfl, rfl, hleft⟩
      | _ => exact ⟨rfl, rfl, hleft⟩
    obtain ⟨hhandled, hprocessed, hrunning⟩ := hstep
    rw [List.foldl_cons, ← hhandled, ← hprocessed]
    exact ih hrunning

theorem StoppedFrom.of_left (hleft : s.running = false) (after : List (Event M U)) : s.StoppedFrom h after := by
  obtain ⟨hhandled, hprocessed, hrunning⟩ := foldl_of_left (h := h) hleft after
  refine ⟨hhandled, fun _ => hrunning, hprocessed.trans ?_⟩
  simp [hleft]

/-- The step lemma: after a kill, an event is an arrival, or the turn at which the loop is left. -/
theorem step_of_killed (hrunning : s.running = true) (hkilled : s.killSwitch.killed = true) (hnotified : s.Notified)
    {event : Event M U} (hquiet : QuietTurn s event) :
    let s' := s.step h event
    s'.handled = s.handled ∧ s'.bot = s.bot ∧
      (event = .turn ∧ s'.running = false ∧ s'.processed = s.processed ++ h.onShutdown s.bot ∨
        event ≠ .turn ∧ s'.running = true ∧ s'.killSwitch.killed = true ∧ s'.processed = s.processed) := by
  cases event with
  | turn =>
    obtain ⟨w, hturn⟩ := turn_of_quiet (h := h) (hquiet rfl hrunning hkilled) hkilled (hnotified hrunning hkilled)
    have hstep : s.step h .turn = shutdown h { s with waitForKill := w } := by
      rw [State.step, if_pos hrunning, hturn]
    rw [hstep]
    exact ⟨rfl, rfl, .inl ⟨rfl, rfl, rfl⟩⟩
  | marketMessage msg | userMessage msg | elapse millis | trigger triggers =>
    exact ⟨rfl, rfl, .inr ⟨nofun, hrunning, hkilled, rfl⟩⟩
  | kill => exact ⟨rfl, rfl, .inr ⟨nofun, hrunning, rfl, rfl⟩⟩

/-- The run lemma. -/
theorem StoppedFrom.of_quiet (hkilled : s.killSwitch.killed = true) (hnotified : s.Notified)
    {after : List (Event M U)} (hquiet : Throughout (step h) QuietTurn s after) : s.StoppedFrom h after := by
  induction after generalizing s with
  | nil => exact ⟨rfl, fun hturn => (List.not_mem_nil hturn).elim, by simp⟩
  | cons event after ih =>
    by_cases hrunning : s.running = true
    · obtain ⟨hhandled, hbot, hrest⟩ := step_of_killed (h := h) hrunning hkilled hnotified hquiet.1
      rcases hrest with ⟨-, hleft, hprocessed⟩ | ⟨hturn, hgoesOn, hstill, hprocessed⟩
      · obtain ⟨hhandled', hprocessed', hleft'⟩ := foldl_of_left (h := h) hleft after
        refine ⟨hhandled'.trans hhandled, fun _ => hleft', ?_⟩
        rw [List.foldl_cons, hleft', hrunning]
        exact hprocessed'.trans hprocessed
      · have hafter := ih hstill (hnotified.step event) hquiet.2
        refine ⟨hafter.handled.trans hhandled, fun hmem => ?_, ?_⟩
        · rcases List.mem_cons.mp hmem with heq | hmem
          · exact absurd heq.symm hturn
          · exact hafter.left hmem
        · have hfinal := hafter.processed
          rw [hprocessed, hbot, hgoesOn] at hfinal
          rw [hrunning]
          exact hfinal
    · exact .of_left (Bool.not_eq_true _ ▸ hrunning) _

end State

/-- In every run of the loop, from a kill on nothing more is handled and the intents of the shutdown are the only ones,
exactly if the loop is quiet at every turn that finds it killed. -/
theorem kill_stops_the_loop_iff (h : Handlers M U σ) (now : ℕ) (marketWsRx : List M) (userWsRx : Option (List U))
    (triggers : Triggers) (killSwitch : KillSwitch) (bot : σ) (events : List (Event M U)) :
    let start := State.start now marketWsRx userWsRx triggers killSwitch bot
    (∀ before after, before ++ after <+: events → (before.foldl (State.step h) start).killSwitch.killed = true →
        (before.foldl (State.step h) start).StoppedFrom h after) ↔
      Throughout (State.step h) QuietTurn start events := by
  intro start
  have hnotified : ∀ before : List (Event M U), (before.foldl (State.step h) start).Notified := by
    intro before
    induction before using List.reverseRecOn with
    | nil => exact fun _ _ hwait => by cases hwait
    | append_singleton before event ih =>
      rw [List.foldl_append]
      exact ih.step event
  constructor
  · intro hstops
    rw [throughout_iff_prefixes]
    rintro before event hp rfl hrunning hkilled
    have hstopped := hstops before [.turn] hp hkilled
    rw [← State.ready_eq_none_iff, Option.eq_none_iff_forall_ne_some]
    intro branch hready
    have hhandled := hstopped.handled
    rw [List.foldl_cons, List.foldl_nil, State.step_turn_of_ready hrunning hready, State.handled_handle] at hhandled
    simp at hhandled
  · intro hquiet before after hp hkilled
    obtain ⟨rest, rfl⟩ := hp
    rw [List.append_assoc, throughout_append_iff, throughout_append_iff] at hquiet
    exact .of_quiet hkilled (hnotified before) hquiet.2.1

private def answering : Handlers (List OrderIntent) Unit Unit where
  handleMarketMessage bot intents := (intents, bot)
  handleUserMessage bot _ := bot
  handleTick bot := ([], bot)
  logHeartbeat bot := bot
  refreshMarkets bot := (false, bot)
  onShutdown _ := []

private def purchase (tokenId : TokenId) : OrderIntent := .new "m1" tokenId .Buy (1 / 2) 10 .Normal "contrarian"

/-- The kill comes while the first of two messages is handled, and the second still buys. -/
theorem waiting_message_outlasts_kill :
    let before := [.marketMessage [purchase "yes"], .marketMessage [purchase "no"], .turn, Event.kill]
    let killed := before.foldl (State.step answering) (.start 0 [] (some []) ⟨false, false⟩ .new ())
    killed.killSwitch.killed = true ∧ killed.processed = [purchase "yes"] ∧
      (killed.step answering .turn).processed = [purchase "yes", purchase "no"] ∧
      (killed.step answering .turn).running = true ∧ ¬killed.StoppedFrom answering [.turn] := by
  intro before killed
  refine ⟨rfl, rfl, rfl, rfl, fun hstopped => ?_⟩
  have hhandled := hstopped.left List.mem_cons_self
  cases hhandled

end PolyBot.Bot.MainLoop
