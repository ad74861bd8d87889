import PolyBot.General.Deadlines
import PolyBot.Orchestrator.MainLoop

/-! The timers and the user messages of the main loop, over whole runs. -/

namespace PolyBot.Bot.MainLoop
open General.Deadlines

inductive Timer where
  | tick
  | heartbeat
  | marketRefresh
  deriving DecidableEq, Repr

namespace Timer

def period : Timer → ℕ
  | tick => 100
  | heartbeat => 10000
  | marketRefresh => 300000

def first (startedAt : ℕ) : Timer → ℕ
  | tick | heartbeat => startedAt
  | marketRefresh => startedAt + 300000

def rank : Timer → ℕ
  | tick => 0
  | heartbeat => 1
  | marketRefresh => 2

def dueBy (startedAt now : ℕ) (t : Timer) : ℕ := General.Deadlines.dueBy (t.first startedAt) t.period now

theorem period_pos (t : Timer) : 0 < t.period := by cases t <;> decide

end Timer

variable {M U σ : Type*}

namespace Branch

def timer? : Branch M U → Option Timer
  | tick => some .tick
  | heartbeat => some .heartbeat
  | marketRefresh => some .marketRefresh
  | marketMessage _ | userMessage _ => none

def userMessage? : Branch M U → Option U
  | userMessage msg => some msg
  | _ => none

end Branch

def Event.userMessage? : Event M U → Option U
  | .userMessage msg => some msg
  | _ => none

namespace State
variable (s : State M U σ)

def interval : Timer → Interval
  | .tick => s.tickInterval
  | .heartbeat => s.heartbeatInterval
  | .marketRefresh => s.marketRefreshInterval

def served (t : Timer) : ℕ := s.handled.countP fun branch => branch.timer? = some t

structure OnSchedule (startedAt : ℕ) : Prop where
  interval : ∀ t, s.interval t = ⟨t.first startedAt + s.served t * t.period, t.period⟩
  served_le : ∀ t, s.served t ≤ t.dueBy startedAt s.now

/-- No message waits, the timers that are asked before have been served as often as they were due, and this one has
not. -/
structure Owes (startedAt : ℕ) (t : Timer) : Prop where
  market : s.marketWsRx = []
  user : ∀ msgs, s.userWsRx = some msgs → msgs = []
  before : ∀ t', t'.rank < t.rank → s.served t' = t'.dueBy startedAt s.now
  due : s.served t < t.dueBy startedAt s.now

def TakesInOrder (messages : List U) : Prop :=
  ∃ waiting, s.userWsRx = some waiting ∧ s.handled.filterMap Branch.userMessage? ++ waiting = messages

def backlog (startedAt : ℕ) : ℕ :=
  s.marketWsRx.length + (s.userWsRx.getD []).length +
    ([Timer.tick, .heartbeat, .marketRefresh].map fun t => t.dueBy startedAt s.now - s.served t).sum

variable {s} {h : Handlers M U σ} {startedAt : ℕ}

theorem served_handle (branch : Branch M U) (t : Timer) :
    (s.handle h branch).served t = s.served t + if branch.timer? = some t then 1 else 0 := by
  rw [served, handled_handle, List.countP_append, List.countP_singleton, served]
  simp

theorem interval_handle (branch : Branch M U) (t : Timer) :
    (s.handle h branch).interval t = if branch.timer? = some t then (s.interval t).tick else s.interval t := by
  cases branch <;> cases t <;> rfl

theorem now_handle (branch : Branch M U) : (s.handle h branch).now = s.now := by cases branch <;> rfl

/-- What a timer that is ready tells of the messages and the other timers. -/
theorem ready_timer {branch : Branch M U} {t : Timer} (hready : s.ready = some branch) (ht : branch.timer? = some t) :
    s.marketWsRx = [] ∧ (∀ msgs, s.userWsRx = some msgs → msgs = []) ∧
      (∀ t', t'.rank < t.rank → s.now < (s.interval t').deadline) ∧ (s.interval t).deadline ≤ s.now := by
  have hdue : ∀ (i : Interval) (other : Branch M U), (if i.isDue s.now then some other else none) = some branch ↔
      i.deadline ≤ s.now ∧ other = branch := by
    intro i other
    simp [Interval.isDue]
  have hlater : ∀ (i : Interval) (other : Branch M U),
      (if i.isDue s.now then some other else none) = none ↔ s.now < i.deadline := by
    intro i other
    simp [Interval.isDue]
  unfold ready at hready
  simp only [Option.orElse_eq_orElse, Option.orElse_eq_or, Option.or_eq_some_iff, Option.map_eq_some_iff,
    Option.map_eq_none_iff, List.head?_eq_none_iff, hdue, hlater] at hready
  rcases hready with ⟨msg, -, rfl⟩ | ⟨hmarket, ⟨msg, -, rfl⟩ | ⟨huser, hready⟩⟩
  · cases ht
  · cases ht
  refine ⟨hmarket, fun msgs hmsgs => List.head?_eq_none_iff.mp (by rwa [hmsgs] at huser), ?_⟩
  rcases hready with ⟨hnow, rfl⟩ | ⟨htick, ⟨hnow, rfl⟩ | ⟨hheartbeat, hnow, rfl⟩⟩
  · cases ht
    exact ⟨fun t' hrank => absurd hrank (Nat.not_lt_zero _), hnow⟩
  · cases ht
    refine ⟨fun t' hrank => ?_, hnow⟩
    cases t' with
    | tick => exact htick
    | heartbeat | marketRefresh => exact absurd hrank (by decide)
  · cases ht
    refine ⟨fun t' hrank => ?_, hnow⟩
    cases t' with
    | tick => exact htick
    | heartbeat => exact hheartbeat
    | marketRefresh => exact absurd hrank (by decide)

theorem ready_marketMessage {msg : M} (hready : s.ready = some (.marketMessage msg)) :
    s.marketWsRx.head? = some msg := by
  unfold ready at hready
  simp only [Option.orElse_eq_orElse, Option.orElse_eq_or, Option.or_eq_some_iff, Option.map_eq_some_iff,
    Branch.marketMessage.injEq, exists_eq_right, reduceCtorEq, and_false, exists_false, false_or] at hready
  rcases hready with hmsg | ⟨-, hready⟩
  · exact hmsg
  · simp at hready

theorem ready_userMessage {msg : U} (hready : s.ready = some (.userMessage msg)) :
    s.userWsRx.bind List.head? = some msg := by
  unfold ready at hready
  simp only [Option.orElse_eq_orElse, Option.orElse_eq_or, Option.or_eq_some_iff, Option.map_eq_some_iff,
    Branch.userMessage.injEq, exists_eq_right, reduceCtorEq, and_false, exists_false, false_or] at hready
  rcases hready with ⟨-, hmsg | ⟨-, hready⟩⟩
  · exact hmsg
  · simp at hready

/-- A turn takes up one branch, or leaves what is handled, the timers and the messages as they are. -/
theorem turn_cases (h : Handlers M U σ) (s : State M U σ) :
    (∃ branch, s.ready = some branch ∧ s.turn h = s.handle h branch) ∨
      s.ready = none ∧ (s.turn h).handled = s.handled ∧ (s.turn h).interval = s.interval ∧ (s.turn h).now = s.now ∧
        (s.turn h).userWsRx = s.userWsRx := by
  unfold turn
  cases hready : s.ready with
  | some branch => exact .inl ⟨branch, rfl, rfl⟩
  | none =>
    refine .inr ⟨rfl, ?_⟩
    dsimp only
    split <;> exact ⟨rfl, rfl, rfl, rfl⟩

theorem OnSchedule.deadline (hs : s.OnSchedule startedAt) (t : Timer) :
    (s.interval t).deadline = t.first startedAt + s.served t * t.period := congrArg Interval.deadline (hs.interval t)

/-- On schedule, a timer with its deadline ahead has been served as often as it was due. -/
theorem OnSchedule.served_eq (hs : s.OnSchedule startedAt) {t : Timer} (hahead : s.now < (s.interval t).deadline) :
    s.served t = t.dueBy startedAt s.now :=
  eq_dueBy t.period_pos (hs.served_le t) (hs.deadline t ▸ hahead)

theorem OnSchedule.owes (hs : s.OnSchedule startedAt) {branch : Branch M U} {t : Timer} (hready : s.ready = some branch)
    (ht : branch.timer? = some t) : s.Owes startedAt t := by
  obtain ⟨hmarket, huser, hbefore, hnow⟩ := ready_timer hready ht
  refine ⟨hmarket, huser, fun t' hrank => hs.served_eq (hbefore t' hrank), ?_⟩
  rw [Timer.dueBy, lt_dueBy_iff t.period_pos, ← hs.deadline t]
  exact hnow

theorem OnSchedule.handle (hs : s.OnSchedule startedAt) {branch : Branch M U} (hready : s.ready = some branch) :
    (s.handle h branch).OnSchedule startedAt := by
  refine ⟨fun t => ?_, fun t => ?_⟩
  · rw [interval_handle, served_handle]
    split_ifs
    · rw [hs.interval t, Interval.tick, add_one_mul, add_assoc]
    · exact hs.interval t
  · rw [now_handle, served_handle]
    split_ifs with ht
    · exact (hs.owes hready ht).due
    · exact hs.served_le t

/-- The step lemma. -/
theorem OnSchedule.step (hs : s.OnSchedule startedAt) (event : Event M U) : (s.step h event).OnSchedule startedAt := by
  cases event with
  | marketMessage msg | userMessage msg | kill | trigger triggers => exact ⟨hs.interval, hs.served_le⟩
  | elapse millis =>
    exact ⟨hs.interval, fun t => (hs.served_le t).trans (dueBy_mono t.period_pos (Nat.le_add_right _ _))⟩
  | turn =>
    rw [State.step]
    split
    · rcases turn_cases h s with ⟨branch, hready, hturn⟩ | ⟨-, hhandled, hinterval, hnow, -⟩
      · rw [hturn]
        exact hs.handle hready
      · refine ⟨fun t => ?_, fun t => ?_⟩
        · rw [hinterval, served, hhandled]
          exact hs.interval t
        · rw [hnow, served, hhandled]
          exact hs.served_le t
    · exact hs

theorem OnSchedule.quiet_iff (hs : s.OnSchedule startedAt) : s.Quiet ↔ s.backlog startedAt = 0 := by
  have htimer : ∀ t, s.now < (s.interval t).deadline ↔ t.dueBy startedAt s.now - s.served t = 0 := by
    intro t
    rw [Nat.sub_eq_zero_iff_le, ← not_lt, Timer.dueBy, lt_dueBy_iff t.period_pos, ← hs.deadline t, not_le]
  have huser : (∀ msgs, s.userWsRx = some msgs → msgs = []) ↔ (s.userWsRx.getD []).length = 0 := by
    cases s.userWsRx <;> simp
  simp only [backlog, List.map_cons, List.map_nil, List.sum_cons, List.sum_nil, add_zero, Nat.add_eq_zero_iff,
    List.length_eq_zero_iff, ← huser, ← htimer]
  constructor
  · rintro ⟨hmarket, huser, htick, hheartbeat, hrefresh⟩
    exact ⟨⟨hmarket, huser⟩, htick, hheartbeat, hrefresh⟩
  · rintro ⟨⟨hmarket, huser⟩, htick, hheartbeat, hrefresh⟩
    exact ⟨hmarket, huser, htick, hheartbeat, hrefresh⟩

/-- Every branch that is taken up makes the backlog smaller by one. -/
theorem OnSchedule.backlog_handle (hs : s.OnSchedule startedAt) {branch : Branch M U} (hready : s.ready = some branch) :
    (s.handle h branch).backlog startedAt + 1 = s.backlog startedAt := by
  have howed : ∀ t, t.dueBy startedAt (s.handle h branch).now - (s.handle h branch).served t +
      (if branch.timer? = some t then 1 else 0) = t.dueBy startedAt s.now - s.served t := by
    intro t
    rw [now_handle, served_handle]
    split_ifs with ht
    · have hdue := (hs.owes hready ht).due
      omega
    · rfl
  have hmessages : (s.handle h branch).marketWsRx.length + ((s.handle h branch).userWsRx.getD []).length +
      (if branch.timer? = none then 1 else 0) = s.marketWsRx.length + (s.userWsRx.getD []).length := by
    cases branch with
    | marketMessage msg =>
      obtain ⟨rest, hrest⟩ := List.head?_eq_some_iff.mp (ready_marketMessage hready)
      simp [State.handle, hrest, Branch.timer?]
      omega
    | userMessage msg =>
      have hhead := ready_userMessage hready
      cases huser : s.userWsRx with
      | none =>
        rw [huser] at hhead
        cases hhead
      | some msgs =>
        rw [huser] at hhead
        obtain ⟨rest, rfl⟩ := List.head?_eq_some_iff.mp hhead
        simp [State.handle, huser, Branch.timer?]
        omega
    | tick | heartbeat => rfl
    | marketRefresh =>
      have hempty := (ready_timer hready rfl).1
      simp [State.handle, hempty, Branch.timer?]
  have htick := howed .tick
  have hheartbeat := howed .heartbeat
  have hrefresh := howed .marketRefresh
  simp only [backlog, List.map_cons, List.map_nil, List.sum_cons, List.sum_nil]
  cases branch <;> simp [Branch.timer?] at htick hheartbeat hrefresh hmessages <;> omega

/-- The loop that runs is quiet after as many turns as its backlog is large. -/
theorem OnSchedule.quiet_after (hs : s.OnSchedule startedAt) (hrunning : s.running = true) :
    ((List.replicate (s.backlog startedAt) .turn).foldl (State.step h) s).Quiet := by
  generalize hn : s.backlog startedAt = n
  induction n generalizing s with
  | zero => exact hs.quiet_iff.mpr hn
  | succ n ih =>
    have hready : s.ready ≠ none := fun hnone => by
      rw [ready_eq_none_iff, hs.quiet_iff, hn] at hnone
      cases hnone
    obtain ⟨branch, hready⟩ := Option.ne_none_iff_exists'.mp hready
    have hgoesOn : (s.handle h branch).running = true := by
      rw [← hrunning]
      cases branch <;> rfl
    have hone := hs.backlog_handle (h := h) hready
    rw [List.replicate_succ, List.foldl_cons, step_turn_of_ready hrunning hready]
    exact ih (hs.handle hready) hgoesOn (by omega)

theorem TakesInOrder.handle {messages : List U} (hs : s.TakesInOrder messages) {branch : Branch M U}
    (hready : s.ready = some branch) : (s.handle h branch).TakesInOrder messages := by
  obtain ⟨waiting, hwaiting, hmessages⟩ := hs
  rw [TakesInOrder, handled_handle, List.filterMap_append]
  cases branch with
  | userMessage msg =>
    have hhead := ready_userMessage hready
    rw [hwaiting, Option.bind_some, List.head?_eq_some_iff] at hhead
    obtain ⟨rest, rfl⟩ := hhead
    refine ⟨rest, by rw [State.handle, hwaiting]; rfl, ?_⟩
    rw [List.append_assoc]
    exact hmessages
  | marketMessage msg | tick | heartbeat | marketRefresh =>
    exact ⟨waiting, hwaiting, by rw [List.append_assoc]; exact hmessages⟩

theorem TakesInOrder.step {messages : List U} (hs : s.TakesInOrder messages) (event : Event M U) :
    (s.step h event).TakesInOrder (messages ++ event.userMessage?.toList) := by
  have ⟨waiting, hwaiting, hmessages⟩ := hs
  cases event with
  | userMessage msg =>
    refine ⟨waiting ++ [msg], by rw [State.step, hwaiting]; rfl, ?_⟩
    rw [State.step, ← List.append_assoc, hmessages]
    rfl
  | marketMessage msg | elapse millis | kill | trigger triggers =>
    exact ⟨waiting, hwaiting, hmessages.trans (List.append_nil _).symm⟩
  | turn =>
    have hunchanged : ∀ s' : State M U σ, s'.handled = s.handled → s'.userWsRx = s.userWsRx →
        s'.TakesInOrder (messages ++ []) := by
      intro s' hhandled huser
      refine ⟨waiting, huser.trans hwaiting, ?_⟩
      rw [hhandled, hmessages, List.append_nil]
    rw [State.step]
    split
    · rcases turn_cases h s with ⟨branch, hready, hturn⟩ | ⟨-, hhandled, -, -, huser⟩
      · rw [hturn]
        exact (List.append_nil messages).symm ▸ hs.handle hready
      · exact hunchanged _ hhandled huser
    · exact hunchanged s rfl rfl

/-- The run lemma. -/
theorem onSchedule_run (h : Handlers M U σ) (now : ℕ) (marketWsRx : List M) (userWsRx : Option (List U))
    (triggers : Triggers) (killSwitch : KillSwitch) (bot : σ) (events : List (Event M U)) :
    (events.foldl (step h) (start now marketWsRx userWsRx triggers killSwitch bot)).OnSchedule now := by
  induction events using List.reverseRecOn with
  | nil =>
    refine ⟨fun t => ?_, fun t => Nat.zero_le _⟩
    cases t <;> simp [interval, start, Interval.new, Interval.tick, Timer.first, Timer.period, served]
  | append_singleton events event ih =>
    rw [List.foldl_append]
    exact ih.step event

theorem takesInOrder_run (h : Handlers M U σ) (now : ℕ) (marketWsRx : List M) (messages : List U)
    (triggers : Triggers) (killSwitch : KillSwitch) (bot : σ) (events : List (Event M U)) :
    (events.foldl (step h) (start now marketWsRx (some messages) triggers killSwitch bot)).TakesInOrder
      (messages ++ events.filterMap Event.userMessage?) := by
  induction events using List.reverseRecOn with
  | nil => exact ⟨messages, rfl, (List.append_nil _).symm⟩
  | append_singleton events event ih =>
    have hone : [event].filterMap Event.userMessage? = event.userMessage?.toList := by cases event <;> rfl
    rw [List.foldl_append, List.filterMap_append, hone, ← List.append_assoc]
    exact ih.step event

end State

/-- In every run of the loop no timer is served early, at every quiet moment each has been served for every deadline
that has come, and a turn serves a timer once, only when no message waits, the timers asked before it are up to date
and it is not. Left alone, a loop that runs is quiet after as many turns as messages wait and deadlines are not served.
The messages of the user stream are taken in the order in which they came. -/
theorem loop_serves_every_deadline (h : Handlers M U σ) (now : ℕ) (marketWsRx : List M) (userWsRx : Option (List U))
    (triggers : Triggers) (killSwitch : KillSwitch) (bot : σ) (events : List (Event M U)) :
    let s := events.foldl (State.step h) (.start now marketWsRx userWsRx triggers killSwitch bot)
    (∀ t, s.served t ≤ t.dueBy now s.now) ∧ (s.Quiet → ∀ t, s.served t = t.dueBy now s.now) ∧
      (∀ t, (s.step h .turn).served t = s.served t ∨
        (s.step h .turn).served t = s.served t + 1 ∧ s.Owes now t) ∧
      (s.running = true → ((List.replicate (s.backlog now) .turn).foldl (State.step h) s).Quiet) ∧
      ∀ messages, userWsRx = some messages → s.TakesInOrder (messages ++ events.filterMap Event.userMessage?) := by
  intro s
  have hschedule : s.OnSchedule now := State.onSchedule_run h now marketWsRx userWsRx triggers killSwitch bot events
  refine ⟨hschedule.served_le, fun hquiet t => hschedule.served_eq ?_, fun t => ?_, hschedule.quiet_after, ?_⟩
  · cases t with
    | tick => exact hquiet.tick
    | heartbeat => exact hquiet.heartbeat
    | marketRefresh => exact hquiet.marketRefresh
  · rw [State.step]
    split
    · rcases State.turn_cases h s with ⟨branch, hready, hturn⟩ | ⟨-, hhandled, -⟩
      · rw [hturn, State.served_handle]
        split_ifs with ht
        · exact .inr ⟨rfl, hschedule.owes hready ht⟩
        · exact .inl (add_zero _)
      · exact .inl (by rw [State.served, hhandled, State.served])
    · exact .inl rfl
  · rintro messages rfl
    exact State.takesInOrder_run h now marketWsRx messages triggers killSwitch bot events

end PolyBot.Bot.MainLoop
