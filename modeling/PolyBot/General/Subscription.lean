import Mathlib.Data.List.Infix

/-! A task that keeps a subscription open and passes what it yields through a queue, to a consumer that may replace the
task by a new one with a queue of its own. -/

namespace PolyBot.General.Subscription

inductive Message (ι : Type*) where
  | connected
  | reconnecting
  | item (i : ι)
  deriving DecidableEq, Repr

variable {φ ο ι : Type*}

def isOpen (messages : List (Message ι)) : Bool :=
  messages.foldl (fun before m => match m with
    | .connected => true
    | .reconnecting => false
    | .item _ => before) false

/-- A message may come after others: an item only from an open subscription, and an opening only of a closed one. -/
def Fits (before : List (Message ι)) : Message ι → Prop
  | .connected => isOpen before = false
  | .reconnecting => True
  | .item _ => isOpen before = true

def items (messages : List (Message ι)) : List ι :=
  messages.filterMap fun m => match m with
    | .item i => some i
    | _ => none

@[simp] theorem items_append (messages ms : List (Message ι)) : items (messages ++ ms) = items messages ++ items ms :=
  List.filterMap_append

def Lawful (messages : List (Message ι)) : Prop := ∀ before m, before ++ [m] <+: messages → Fits before m

inductive Moves (streaming : φ → Bool) (p p' : φ) : List (Message ι) → Prop
  | silent (h : streaming p' = streaming p) : Moves streaming p p' []
  | connects (h : streaming p = false) (h' : streaming p' = true) : Moves streaming p p' [.connected]
  | yields (i : ι) (h : streaming p = true) (h' : streaming p' = true) : Moves streaming p p' [.item i]
  | reconnects (h' : streaming p' = false) : Moves streaming p p' [.reconnecting]

@[simp] theorem isOpen_concat (messages : List (Message ι)) (m : Message ι) :
    isOpen (messages ++ [m]) = match m with
      | .connected => true
      | .reconnecting => false
      | .item _ => isOpen messages := by
  rw [isOpen, List.foldl_append]
  rfl

theorem lawful_nil : Lawful ([] : List (Message ι)) := by
  intro before m h
  simp at h

theorem Lawful.concat {messages : List (Message ι)} (h : Lawful messages) {m : Message ι} (hm : Fits messages m) :
    Lawful (messages ++ [m]) := by
  intro before m' hp
  rcases List.prefix_concat_iff.mp hp with heq | hp
  · obtain ⟨rfl, rfl⟩ := List.append_singleton_inj.mp heq
    exact hm
  · exact h before m' hp

/-- The messages of a task that moves so are lawful, and it is streaming while the subscription is open. -/
theorem Lawful.append {streaming : φ → Bool} {p p' : φ} {messages ms : List (Message ι)} (h : Lawful messages)
    (hp : isOpen messages = streaming p) (hm : Moves streaming p p' ms) :
    Lawful (messages ++ ms) ∧ isOpen (messages ++ ms) = streaming p' := by
  cases hm with
  | silent hsame =>
    rw [List.append_nil]
    exact ⟨h, hp.trans hsame.symm⟩
  | connects hclosed hopen => exact ⟨h.concat (hp.trans hclosed), by rw [isOpen_concat, hopen]⟩
  | yields i hopen hopen' => exact ⟨h.concat (hp.trans hopen), by rw [isOpen_concat, hp, hopen, hopen']⟩
  | reconnects hclosed => exact ⟨h.concat trivial, by rw [isOpen_concat, hclosed]⟩

/-- The task in service with its queue: all that it has sent, what is still queued, and what was received. `past`
lists what was sent and received of each task before it. -/
structure Link (φ ι : Type*) where
  phase : φ
  sent : List (Message ι)
  queue : List (Message ι)
  received : List (Message ι)
  past : List (List (Message ι) × List (Message ι))

namespace Link

def new (phase : φ) : Link φ ι := ⟨phase, [], [], [], []⟩

def send (l : Link φ ι) (phase : φ) (ms : List (Message ι)) : Link φ ι :=
  { l with phase := phase, sent := l.sent ++ ms, queue := l.queue ++ ms }

def receive (l : Link φ ι) : Link φ ι :=
  match l.queue with
  | [] => l
  | m :: queue => { l with queue := queue, received := l.received ++ [m] }

/-- What is still queued of the task replaced is lost with its queue. -/
def replace (l : Link φ ι) (phase : φ) : Link φ ι := ⟨phase, [], [], [], l.past ++ [(l.sent, l.received)]⟩

def allReceived (l : Link φ ι) : List (Message ι) := l.past.flatMap (·.2) ++ l.received

@[simp] theorem allReceived_new (phase : φ) : (new phase : Link φ ι).allReceived = [] := rfl

@[simp] theorem allReceived_send (l : Link φ ι) (phase : φ) (ms : List (Message ι)) :
    (l.send phase ms).allReceived = l.allReceived := rfl

@[simp] theorem allReceived_replace (l : Link φ ι) (phase : φ) : (l.replace phase).allReceived = l.allReceived := by
  simp [allReceived, replace]

@[simp] theorem phase_receive (l : Link φ ι) : l.receive.phase = l.phase := by
  unfold receive
  split <;> rfl

@[simp] theorem past_receive (l : Link φ ι) : l.receive.past = l.past := by
  unfold receive
  split <;> rfl

theorem allReceived_receive {l : Link φ ι} {m : Message ι} {queue : List (Message ι)} (h : l.queue = m :: queue) :
    l.receive.queue = queue ∧ l.receive.allReceived = l.allReceived ++ [m] := by
  rw [receive, h]
  exact ⟨rfl, (List.append_assoc ..).symm⟩

/-- Nothing is lost, doubled or reordered of the task in service; of the tasks before it the receiver has a first part.
What any of them sent is lawful. -/
structure Delivers (streaming : φ → Bool) (l : Link φ ι) : Prop where
  inOrder : l.received ++ l.queue = l.sent
  lawful : Lawful l.sent
  phase : isOpen l.sent = streaming l.phase
  past : ∀ task ∈ l.past, task.2 <+: task.1 ∧ Lawful task.1

variable {streaming : φ → Bool} {l : Link φ ι}

theorem delivers_new {phase : φ} (h : streaming phase = false) : (new phase : Link φ ι).Delivers streaming :=
  ⟨rfl, lawful_nil, h.symm, fun task htask => by cases htask⟩

theorem Delivers.send (h : l.Delivers streaming) {phase : φ} {ms : List (Message ι)}
    (hm : Moves streaming l.phase phase ms) : (l.send phase ms).Delivers streaming := by
  obtain ⟨hlawful, hopen⟩ := h.lawful.append h.phase hm
  refine ⟨?_, hlawful, hopen, h.past⟩
  rw [Link.send, ← h.inOrder, List.append_assoc]

theorem Delivers.receive (h : l.Delivers streaming) : l.receive.Delivers streaming := by
  unfold Link.receive
  split
  · exact h
  · rename_i m queue hqueue
    refine ⟨?_, h.lawful, h.phase, h.past⟩
    rw [← h.inOrder, hqueue, List.append_assoc, List.singleton_append]

theorem Delivers.replace (h : l.Delivers streaming) {phase : φ} (hphase : streaming phase = false) :
    (l.replace phase).Delivers streaming := by
  refine ⟨rfl, lawful_nil, hphase.symm, fun task htask => ?_⟩
  rcases List.mem_append.mp htask with hold | hlast
  · exact h.past task hold
  · rw [List.mem_singleton.mp hlast]
    exact ⟨⟨l.queue, h.inOrder⟩, h.lawful⟩

end Link

end PolyBot.General.Subscription
