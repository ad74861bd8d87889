import PolyBot.Execution.Cancellation
import PolyBot.General.AdditiveRuns

/-! The tracker over whole runs: what the bot hears of its resting orders and what it asks to be cancelled. -/

namespace PolyBot.Execution.CancellationRuns
open General.AdditiveRuns General.KeyedStore OrderTracker TrackerIndexes CancellationManager

inductive Event where
  | track (order : TrackedOrder)
  | fill (orderId : OrderId) (size : Decimal)
  | orderUpdate (orderId : OrderId) (status : String)
  | cancel (orderId : OrderId)
  | cancelMarket (marketId : ConditionId)
  | cancelStale (now : Instant)
  | cancelAll
  | cancelGroup (groupId : String)

/-- The order is off the exchange; lower case is that of ASCII, as no other letter lowers to a letter of these. -/
def endsOrder (status : String) : Bool := status.toLower ∈ ["cancelled", "canceled", "expired"]

def handleOrderUpdate (t : OrderTracker) (orderId : OrderId) (status : String) : OrderTracker :=
  if endsOrder status then t.remove orderId else t

variable {σ : Type*} (m : CancellationManager σ)

def step (s : CancelState σ) : Event → CancelState σ
  | .track order => { s with tracker := s.tracker.track order }
  | .fill orderId size => { s with tracker := (s.tracker.onFill orderId size).2 }
  | .orderUpdate orderId status => { s with tracker := handleOrderUpdate s.tracker orderId status }
  | .cancel orderId => (m.cancel s orderId).2
  | .cancelMarket marketId => (m.cancelMarket s marketId).2
  | .cancelStale now => (m.cancelStale s now).2
  | .cancelAll => (m.cancelAll s).2
  | .cancelGroup groupId => (m.cancelGroup s groupId).2

def run (s : CancelState σ) (events : List Event) : CancelState σ := events.foldl (step m) s

def reportedGone (s : CancelState σ) : Event → List OrderId
  | .track _ | .fill _ _ => []
  | .orderUpdate orderId status => if endsOrder status then [orderId] else []
  | .cancel orderId => m.clobClient.confirmed [orderId] s.exchange
  | .cancelMarket marketId =>
    m.clobClient.confirmed (m.listing.list (s.tracker.ordersForMarket marketId)) s.exchange
  | .cancelStale now => m.clobClient.confirmed (s.tracker.staleOrders m.createdAt m.staleOrderTtl now) s.exchange
  | .cancelAll =>
    if s.tracker.activeCount = 0 then []
    else match m.clobClient.cancelAllOrders s.exchange with
      | (.ok response, _) => response.canceled
      | (.error _, exchange) => m.clobClient.confirmed s.tracker.allOrders exchange
  | .cancelGroup groupId => m.clobClient.confirmed (m.listing.list (s.tracker.ordersInGroup groupId)) s.exchange

def arrival : Event → List TrackerOp
  | .track order => [.track order]
  | .fill orderId size => [.onFill orderId size]
  | _ => []

def trackerOps (s : CancelState σ) (e : Event) : List TrackerOp := arrival e ++ (reportedGone m s e).map .remove

theorem foldl_trackerOps (s : CancelState σ) (e : Event) (t : OrderTracker) :
    (trackerOps m s e).foldl TrackerOp.apply t =
      (reportedGone m s e).foldl OrderTracker.remove ((arrival e).foldl TrackerOp.apply t) := by
  rw [trackerOps, List.foldl_append, List.foldl_map]
  rfl

/-- The step lemma: an event brings what it brings, and the orders reported gone leave. -/
theorem tracker_step (s : CancelState σ) (e : Event) :
    (step m s e).tracker = (trackerOps m s e).foldl TrackerOp.apply s.tracker := by
  rw [foldl_trackerOps]
  cases e with
  | track order => rfl
  | fill orderId size => rfl
  | orderUpdate orderId status =>
    simp only [step, handleOrderUpdate, reportedGone, arrival, List.foldl_nil]
    split <;> rfl
  | cancel orderId =>
    simp only [step, (m.cancel_eq s orderId).1, reportedGone, arrival, List.foldl_nil, ClobClient.confirmed]
    split <;> rfl
  | cancelMarket marketId =>
    rw [step, cancelMarket_eq, cancelEach_eq]
    rfl
  | cancelStale now =>
    rw [step, cancelStale_eq, cancelEach_eq]
    rfl
  | cancelGroup groupId =>
    rw [step, cancelGroup_eq, cancelEach_eq]
    rfl
  | cancelAll =>
    by_cases hnone : s.tracker.activeCount = 0
    · have hempty := hnone
      rw [← length_allOrders, List.length_eq_zero_iff] at hempty
      simp only [step, cancelAll, hempty, reportedGone, if_pos hnone, arrival, List.foldl_nil]
      rfl
    · simp only [step, m.cancelAll_of_tracked hnone, reportedGone, if_neg hnone, arrival, List.foldl_nil]
      cases m.clobClient.cancelAllOrders s.exchange with
      | mk answer exchange =>
        cases answer with
        | ok response => rfl
        | error e => simp only [cancelEach_eq]

def allOps : CancelState σ → List Event → List TrackerOp
  | _, [] => []
  | s, e :: events => trackerOps m s e ++ allOps (step m s e) events

theorem tracker_run (s : CancelState σ) (events : List Event) :
    (run m s events).tracker = (allOps m s events).foldl TrackerOp.apply s.tracker := by
  induction events generalizing s with
  | nil => rfl
  | cons e events ih =>
    rw [run, List.foldl_cons, ← run, ih, tracker_step, allOps, List.foldl_append]

def trackedBy : Event → Option TrackedOrder
  | .track order => some order
  | _ => none

def trackedOrders (events : List Event) : List TrackedOrder := events.filterMap trackedBy

theorem trackedIn_allOps (s : CancelState σ) (events : List Event) :
    trackedIn (allOps m s events) = trackedOrders events := by
  have hremoves : ∀ orderIds : List OrderId, trackedIn (orderIds.map .remove) = [] := by
    intro orderIds
    rw [trackedIn, List.filterMap_map]
    exact List.filterMap_eq_nil_iff.mpr fun _ _ => rfl
  induction events generalizing s with
  | nil => rfl
  | cons e events ih =>
    have hstep : trackedIn (trackerOps m s e) = (trackedBy e).toList := by
      rw [trackerOps, trackedIn, List.filterMap_append, ← trackedIn, ← trackedIn, hremoves, List.append_nil]
      cases e <;> rfl
    rw [allOps, trackedIn, List.filterMap_append, ← trackedIn, ← trackedIn, hstep, ih, trackedOrders]
    cases htracked : trackedBy e <;> simp [htracked, trackedOrders]

def FreshOrders (events : List Event) : Prop :=
  ((trackedOrders events).map (·.orderId)).Nodup ∧
    ∀ order ∈ trackedOrders events, 0 < order.originalSize ∧ order.filledSize = 0

theorem sound_of_fresh {events : List Event} (h : FreshOrders events) (x : σ) :
    Sound (run m ⟨x, .new⟩ events).tracker := by
  rw [tracker_run]
  refine sound_run ?_ fun order horder => ?_
  · rw [trackedIn_allOps]
    exact h.1
  · rw [trackedIn_allOps] at horder
    obtain ⟨hsize, hfilled⟩ := h.2 order horder
    rwa [hfilled]

def filledIn (orderId : OrderId) : List Event → Decimal
  | [] => 0
  | .fill k size :: events => (if k = orderId then size else 0) + filledIn orderId events
  | _ :: events => filledIn orderId events

/-- No event reports the order gone, and the fills do not come up to its size. -/
def StaysOpen (s : CancelState σ) (order : TrackedOrder) (events : List Event) : Prop :=
  Throughout (step m) (fun s e => order.orderId ∉ reportedGone m s e) s events ∧
    ∀ p, p <+: events → order.filledSize + filledIn order.orderId p < order.originalSize

variable {m} {s : CancelState σ} {order : TrackedOrder} {orderId : OrderId}

theorem get_onFill_ne {t : OrderTracker} {k : OrderId} (h : orderId ≠ k) (size : Decimal) :
    (t.onFill k size).2.get orderId = t.get orderId := by
  cases hlookup : t.orders.lookup k with
  | none => rw [onFill_of_untracked hlookup]
  | some o =>
    rw [onFill_of_tracked hlookup]
    dsimp only
    split
    · rw [get_remove, if_neg h]
    · exact AList.lookup_insert_ne h

/-- What an event brings a tracked order: a share of its size, which may fill it. -/
theorem get_arrival {t : OrderTracker} (hget : t.get orderId = some order)
    (hopen : order.filledSize < order.originalSize) {e : Event}
    (hother : ∀ o, trackedBy e = some o → o.orderId ≠ orderId) :
    ((arrival e).foldl TrackerOp.apply t).get orderId =
      if order.originalSize ≤ order.filledSize + filledIn orderId [e] then none
      else some (order.addFill (filledIn orderId [e])) := by
  have hnothing : (if order.originalSize ≤ order.filledSize + 0 then none else some (order.addFill 0)) =
      some order := by
    rw [add_zero, if_neg (not_le.mpr hopen), TrackedOrder.addFill_zero]
  cases e with
  | track o =>
    have hne := hother o rfl
    refine Eq.trans ?_ hnothing.symm
    exact (AList.lookup_insert_ne (Ne.symm hne)).trans hget
  | fill k size =>
    change (t.onFill k size).2.get orderId = _
    by_cases hk : k = orderId
    · subst hk
      rw [get_onFill_self hget]
      simp only [filledIn, if_true, add_zero, TrackedOrder.isFilled_eq_true_iff, TrackedOrder.addFill_filledSize,
        TrackedOrder.addFill_originalSize]
    · rw [get_onFill_ne (Ne.symm hk), hget]
      simp only [filledIn, if_neg hk, zero_add]
      exact hnothing.symm
  | _ => exact hget.trans hnothing.symm

/-- What an event leaves of a tracked order. -/
theorem get_step (hget : s.tracker.get orderId = some order) (hopen : order.filledSize < order.originalSize) {e : Event}
    (hother : ∀ o, trackedBy e = some o → o.orderId ≠ orderId) :
    (step m s e).tracker.get orderId =
      if orderId ∈ reportedGone m s e ∨ order.originalSize ≤ order.filledSize + filledIn orderId [e] then none
      else some (order.addFill (filledIn orderId [e])) := by
  rw [tracker_step, foldl_trackerOps, get_foldl_remove, get_arrival hget hopen hother]
  by_cases hgone : orderId ∈ reportedGone m s e
  · rw [if_pos hgone, if_pos (.inl hgone)]
  · rw [if_neg hgone]
    simp only [hgone, false_or]

theorem isSome_get_foldl {ops : List TrackerOp} {t : OrderTracker}
    (h : ((ops.foldl TrackerOp.apply t).get orderId).isSome = true) :
    (t.get orderId).isSome = true ∨ ∃ o ∈ trackedIn ops, o.orderId = orderId := by
  induction ops generalizing t with
  | nil => exact .inl h
  | cons op ops ih =>
    have hcons : trackedIn (op :: ops) = op.tracked?.toList ++ trackedIn ops := by
      rw [trackedIn, List.filterMap_cons]
      cases op.tracked? <;> rfl
    rw [hcons]
    rcases ih h with hnow | ⟨o, ho, hid⟩
    · rcases isSome_lookup_apply op hnow with hbefore | ⟨o, ho, hid⟩
      · exact .inl hbefore
      · exact .inr ⟨o, by simp [ho], hid⟩
    · exact .inr ⟨o, List.mem_append_right _ ho, hid⟩

/-- An order that has left does not come back, unless it is tracked again. -/
theorem get_run_of_untracked {events : List Event} (hget : s.tracker.get orderId = none)
    (hother : ∀ o ∈ trackedOrders events, o.orderId ≠ orderId) : (run m s events).tracker.get orderId = none := by
  rw [← Option.not_isSome_iff_eq_none]
  intro hsome
  rw [tracker_run] at hsome
  rcases isSome_get_foldl hsome with hbefore | ⟨o, ho, hid⟩
  · rw [hget] at hbefore
    cases hbefore
  · rw [trackedIn_allOps] at ho
    exact hother o ho hid

theorem filledIn_cons (orderId : OrderId) (e : Event) (events : List Event) :
    filledIn orderId (e :: events) = filledIn orderId [e] + filledIn orderId events := by
  cases e <;> simp [filledIn]

theorem staysOpen_cons_iff (hopen : order.filledSize < order.originalSize) {e : Event} {events : List Event} :
    StaysOpen m s order (e :: events) ↔
      ¬(order.orderId ∈ reportedGone m s e ∨ order.originalSize ≤ order.filledSize + filledIn order.orderId [e]) ∧
        StaysOpen m (step m s e) (order.addFill (filledIn order.orderId [e])) events := by
  unfold StaysOpen
  rw [forall_prefix_cons_iff, not_or, not_le]
  have hsum : ∀ p, order.filledSize + filledIn order.orderId (e :: p) =
      (order.addFill (filledIn order.orderId [e])).filledSize +
        filledIn (order.addFill (filledIn order.orderId [e])).orderId p := by
    intro p
    rw [filledIn_cons, ← add_assoc]
    rfl
  simp only [hsum, TrackedOrder.addFill_originalSize]
  constructor
  · rintro ⟨⟨hgone, hrest⟩, -, hfills⟩
    exact ⟨⟨hgone, hfills [] List.nil_prefix⟩, hrest, hfills⟩
  · rintro ⟨⟨hgone, hone⟩, hrest, hfills⟩
    refine ⟨⟨hgone, hrest⟩, ?_, hfills⟩
    simpa [filledIn] using hopen

/-- The run lemma: a tracked order is still tracked, with its fills, exactly if it has stayed open. -/
theorem get_run {events : List Event} (hget : s.tracker.get order.orderId = some order)
    (hopen : order.filledSize < order.originalSize) (hother : ∀ o ∈ trackedOrders events, o.orderId ≠ order.orderId) :
    (StaysOpen m s order events →
        (run m s events).tracker.get order.orderId = some (order.addFill (filledIn order.orderId events))) ∧
      (¬StaysOpen m s order events → (run m s events).tracker.get order.orderId = none) := by
  induction events generalizing s order with
  | nil =>
    have hstays : StaysOpen m s order [] := by
      refine ⟨trivial, fun p hp => ?_⟩
      rw [List.prefix_nil.mp hp, filledIn, add_zero]
      exact hopen
    refine ⟨fun _ => ?_, fun hnot => absurd hstays hnot⟩
    rw [filledIn, TrackedOrder.addFill_zero]
    exact hget
  | cons e events ih =>
    have hothers : ∀ o ∈ trackedOrders events, o.orderId ≠ order.orderId := by
      intro o ho
      refine hother o ?_
      rw [trackedOrders, List.filterMap_cons]
      cases trackedBy e with
      | none => exact ho
      | some o' => exact List.mem_cons_of_mem _ ho
    have hstep := get_step (m := m) hget hopen (e := e) fun o ho => hother o (by simp [trackedOrders, ho])
    rw [staysOpen_cons_iff hopen, run, List.foldl_cons, ← run]
    split at hstep
    · rename_i hends
      exact ⟨fun h => absurd hends h.1, fun _ => get_run_of_untracked hstep hothers⟩
    · rename_i hstays
      rw [not_or, not_le] at hstays
      have hroom : (order.addFill (filledIn order.orderId [e])).filledSize <
          (order.addFill (filledIn order.orderId [e])).originalSize := hstays.2
      have hrest := ih hstep hroom hothers
      have htotal : order.addFill (filledIn order.orderId (e :: events)) =
          (order.addFill (filledIn order.orderId [e])).addFill (filledIn order.orderId events) := by
        rw [filledIn_cons]
        simp [TrackedOrder.addFill, add_assoc]
      rw [htotal]
      refine ⟨fun h => hrest.1 h.2, fun h => hrest.2 fun hlater => h ⟨?_, hlater⟩⟩
      rw [not_or, not_le]
      exact hstays

/-- The tracker after a run holds, of the orders that the run tracked, those that have stayed open, with what has been
filled of them, and no others; its indexes and counts are those of these orders. -/
structure FollowsMessages (m : CancellationManager σ) (x : σ) (events : List Event) : Prop where
  orders : ∀ before order after, events = before ++ .track order :: after →
    (StaysOpen m (run m ⟨x, .new⟩ (before ++ [.track order])) order after →
        (run m ⟨x, .new⟩ events).tracker.get order.orderId =
          some (order.addFill (filledIn order.orderId after))) ∧
      (¬StaysOpen m (run m ⟨x, .new⟩ (before ++ [.track order])) order after →
        (run m ⟨x, .new⟩ events).tracker.get order.orderId = none)
  others : ∀ k, k ∉ (trackedOrders events).map (·.orderId) → (run m ⟨x, .new⟩ events).tracker.get k = none
  indexes : IndexesExact (run m ⟨x, .new⟩ events).tracker

/-- Whatever the exchange answers and whatever is asked of it, the tracker follows what it reports. -/
theorem tracker_follows_messages (m : CancellationManager σ) (x : σ) (events : List Event) (h : FreshOrders events) :
    FollowsMessages m x events where
  orders := by
    rintro before order after rfl
    have hsplit : run m ⟨x, .new⟩ (before ++ .track order :: after) =
        run m (run m ⟨x, .new⟩ (before ++ [.track order])) after := by
      simp [run]
    have htracked : trackedOrders (before ++ .track order :: after) =
        trackedOrders before ++ order :: trackedOrders after := by
      simp [trackedOrders, trackedBy]
    obtain ⟨hids, hnew⟩ := h
    rw [htracked, List.map_append, List.map_cons] at hids
    rw [htracked] at hnew
    have hget : (run m ⟨x, .new⟩ (before ++ [.track order])).tracker.get order.orderId = some order := by
      rw [run, List.foldl_concat]
      exact AList.lookup_insert _
    obtain ⟨hsize, hfilled⟩ := hnew order (by simp)
    have hnotAgain := (List.nodup_cons.mp (List.Nodup.of_append_right hids)).1
    rw [hsplit]
    refine get_run hget (by rwa [hfilled]) fun o ho hid => hnotAgain ?_
    exact List.mem_map.mpr ⟨o, ho, hid⟩
  others := by
    intro k hk
    refine get_run_of_untracked rfl fun o ho hid => hk ?_
    exact List.mem_map.mpr ⟨o, ho, hid⟩
  indexes := (sound_of_fresh m h x).indexesExact

/-- An exchange that refuses the second request and has no bulk endpoint. -/
private def secondRefused : CancellationManager ℕ where
  clobClient :=
    { cancelOrder := fun orderId n =>
        (.ok ⟨[orderId], if n = 1 then AList.singleton orderId "order is being matched" else ∅⟩, n + 1)
      cancelAllOrders := fun n => (.error "404 Not Found", n) }
  staleOrderTtl := Duration.fromSecs 60
  createdAt orderId := if orderId = "3" then Duration.fromSecs 60 else 0
  listing := .sorted

private def bid (orderId : OrderId) : TrackedOrder := ⟨orderId, "a", "m", .Buy, 1 / 2, 100, 0, none⟩

/-- Two orders are stale; one of them is not cancelled and expires later. The third stays open. -/
private def evening : List Event :=
  [.track (bid "1"), .track (bid "2"), .fill "1" 40, .track (bid "3"), .cancelStale (Duration.fromSecs 61),
    .fill "3" 10, .orderUpdate "2" "EXPIRED"]

theorem evening_followed :
    FollowsMessages secondRefused 0 evening ∧ (run secondRefused ⟨0, .new⟩ evening).tracker.activeCount = 1 :=
  ⟨tracker_follows_messages secondRefused 0 evening ⟨by decide, by decide +kernel⟩, by decide +kernel⟩

end PolyBot.Execution.CancellationRuns
