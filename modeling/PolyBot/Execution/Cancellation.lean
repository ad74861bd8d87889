import Mathlib.Data.Finset.Sort
import Mathlib.Data.String.Basic
import PolyBot.Execution.TrackerIndexes

/-! Cancelling orders at the exchange, one after another or all at once, and what that leaves in the tracker. -/

namespace PolyBot.Execution
open General.KeyedStore General.GroupedIndex OrderTracker TrackerIndexes

structure CancelOrdersResponse where
  canceled : List OrderId
  notCanceled : Store OrderId String

/-- The exchange as far as cancelling goes; an answer may depend on the requests before it. -/
structure ClobClient (σ : Type*) where
  cancelOrder : OrderId → σ → Except String CancelOrdersResponse × σ
  cancelAllOrders : σ → Except String CancelOrdersResponse × σ

/-- An order in which sets of orders are gone through. -/
structure Listing where
  list : Finset OrderId → List OrderId
  nodup : ∀ ids, (list ids).Nodup
  mem_iff : ∀ ids orderId, orderId ∈ list ids ↔ orderId ∈ ids

def Listing.sorted : Listing := ⟨fun ids => ids.sort, fun ids => Finset.sort_nodup ids _, fun _ _ => Finset.mem_sort _⟩

namespace OrderTracker

def allOrders (t : OrderTracker) : List OrderId := (values t.orders).map (·.orderId)

/-- The orders older than `maxAge`; no call changes when an order was created. -/
def staleOrders (createdAt : OrderId → Instant) (t : OrderTracker) (maxAge : Duration) (now : Instant) : List OrderId :=
  ((values t.orders).filter fun order => maxAge < (createdAt order.orderId).elapsed now).map (·.orderId)

end OrderTracker

structure CancellationManager (σ : Type*) where
  clobClient : ClobClient σ
  staleOrderTtl : Duration
  createdAt : OrderId → Instant
  listing : Listing

structure CancelState (σ : Type*) where
  exchange : σ
  tracker : OrderTracker

namespace CancellationManager

variable {σ : Type*} (m : CancellationManager σ) (s : CancelState σ)

def cancel (orderId : OrderId) : Except String Unit × CancelState σ :=
  match m.clobClient.cancelOrder orderId s.exchange with
  | (.ok response, exchange) =>
    match response.notCanceled.lookup orderId with
    | some reason => (.error s!"Not cancelled: {reason}", ⟨exchange, s.tracker⟩)
    | none => (.ok (), ⟨exchange, s.tracker.remove orderId⟩)
  | (.error e, exchange) => (.error s!"Failed to cancel {orderId}: {e}", ⟨exchange, s.tracker⟩)

def cancelEach (orderIds : List OrderId) : ℕ × CancelState σ :=
  orderIds.foldl (fun (cancelled, s) orderId =>
    match m.cancel s orderId with
    | (.ok _, s) => (cancelled + 1, s)
    | (.error _, s) => (cancelled, s)) (0, s)

def cancelMarket (marketId : ConditionId) : ℕ × CancelState σ :=
  let orderIds := m.listing.list (s.tracker.ordersForMarket marketId)
  if orderIds.isEmpty then (0, s) else m.cancelEach s orderIds

def cancelStale (now : Instant) : ℕ × CancelState σ :=
  let staleOrders := s.tracker.staleOrders m.createdAt m.staleOrderTtl now
  if staleOrders.isEmpty then (0, s) else m.cancelEach s staleOrders

def cancelAll : ℕ × CancelState σ :=
  let tracked := s.tracker.allOrders
  if tracked.isEmpty then (0, s)
  else match m.clobClient.cancelAllOrders s.exchange with
    | (.ok response, exchange) =>
      (response.canceled.length, ⟨exchange, response.canceled.foldl OrderTracker.remove s.tracker⟩)
    | (.error _, exchange) => m.cancelEach ⟨exchange, s.tracker⟩ tracked

def cancelGroup (groupId : String) : ℕ × CancelState σ :=
  let groupOrders := m.listing.list (s.tracker.ordersInGroup groupId)
  if groupOrders.isEmpty then (0, s) else m.cancelEach s groupOrders

end CancellationManager

namespace ClobClient

variable {σ : Type*} (c : ClobClient σ)

def confirms (orderId : OrderId) (answer : Except String CancelOrdersResponse) : Bool :=
  match answer with
  | .ok response => (response.notCanceled.lookup orderId).isNone
  | .error _ => false

def askEach (orderIds : List OrderId) (x : σ) : σ := orderIds.foldl (fun x orderId => (c.cancelOrder orderId x).2) x

def confirmed : List OrderId → σ → List OrderId
  | [], _ => []
  | orderId :: orderIds, x =>
    let (answer, x) := c.cancelOrder orderId x
    if confirms orderId answer then orderId :: confirmed orderIds x else confirmed orderIds x

theorem confirmed_sublist (orderIds : List OrderId) (x : σ) : (c.confirmed orderIds x).Sublist orderIds := by
  induction orderIds generalizing x with
  | nil => exact .slnil
  | cons orderId orderIds ih =>
    unfold confirmed
    dsimp only
    split
    · exact (ih _).cons_cons orderId
    · exact (ih _).cons orderId

end ClobClient

namespace OrderTracker

variable {t : OrderTracker}

theorem get_remove (t : OrderTracker) (orderId k : OrderId) :
    (t.remove orderId).get k = if k = orderId then none else t.get k := by
  by_cases hk : k = orderId
  · subst hk
    rw [if_pos rfl]
    exact lookup_remove_self t k
  · rw [if_neg hk]
    cases hlookup : t.orders.lookup orderId with
    | none => rw [remove_of_untracked hlookup]
    | some order =>
      rw [remove_of_tracked hlookup]
      exact AList.lookup_erase_ne hk

theorem get_foldl_remove (orderIds : List OrderId) (t : OrderTracker) (k : OrderId) :
    (orderIds.foldl remove t).get k = if k ∈ orderIds then none else t.get k := by
  induction orderIds generalizing t with
  | nil => rfl
  | cons orderId orderIds ih =>
    rw [List.foldl_cons, ih, get_remove]
    by_cases hk : k = orderId
    · simp [hk]
    · simp [hk]

theorem totalTracked_remove (t : OrderTracker) (orderId : OrderId) :
    (t.remove orderId).totalTracked = t.totalTracked := by
  unfold remove
  split <;> rfl

theorem totalTracked_foldl_remove (orderIds : List OrderId) (t : OrderTracker) :
    (orderIds.foldl remove t).totalTracked = t.totalTracked := by
  induction orderIds generalizing t with
  | nil => rfl
  | cons orderId orderIds ih => rw [List.foldl_cons, ih, totalTracked_remove]

theorem activeCount_remove_of_tracked {orderId : OrderId} {order : TrackedOrder} (h : t.get orderId = some order) :
    (t.remove orderId).activeCount + 1 = t.activeCount := by
  have hlookup : t.orders.lookup orderId = some order := h
  rw [remove_of_tracked hlookup]
  exact length_entries_erase_of_lookup hlookup

theorem le_activeCount_foldl_remove (orderIds : List OrderId) (t : OrderTracker) :
    t.activeCount ≤ (orderIds.foldl remove t).activeCount + orderIds.length := by
  induction orderIds generalizing t with
  | nil => exact Nat.le_refl _
  | cons orderId orderIds ih =>
    have hrest := ih (t.remove orderId)
    rw [List.foldl_cons, List.length_cons]
    cases hget : t.get orderId with
    | none =>
      rw [remove_of_untracked hget] at hrest ⊢
      omega
    | some order =>
      have hone := activeCount_remove_of_tracked hget
      omega

/-- Removals take one order each exactly if they are of tracked orders, and of each once. -/
theorem activeCount_foldl_remove_iff (orderIds : List OrderId) (t : OrderTracker) :
    (orderIds.foldl remove t).activeCount + orderIds.length = t.activeCount ↔
      orderIds.Nodup ∧ ∀ k ∈ orderIds, (t.get k).isSome = true := by
  induction orderIds generalizing t with
  | nil => simp
  | cons orderId orderIds ih =>
    rw [List.foldl_cons, List.length_cons, List.nodup_cons, List.forall_mem_cons]
    cases hget : t.get orderId with
    | none =>
      have hrest := le_activeCount_foldl_remove orderIds (t.remove orderId)
      rw [remove_of_untracked hget] at hrest ⊢
      refine iff_of_false (by omega) ?_
      rintro ⟨-, hsome, -⟩
      cases hsome
    | some order =>
      have hone := activeCount_remove_of_tracked hget
      have hiff := ih (t.remove orderId)
      have hkept : (∀ k ∈ orderIds, ((t.remove orderId).get k).isSome = true) ↔
          orderId ∉ orderIds ∧ ∀ k ∈ orderIds, (t.get k).isSome = true := by
        constructor
        · intro hall
          have hnot : orderId ∉ orderIds := by
            intro hmem
            have hsome := hall orderId hmem
            rw [get_remove, if_pos rfl] at hsome
            cases hsome
          refine ⟨hnot, fun k hk => ?_⟩
          have hsome := hall k hk
          rwa [get_remove, if_neg (ne_of_mem_of_not_mem hk hnot)] at hsome
        · rintro ⟨hnot, hall⟩ k hk
          rw [get_remove, if_neg (ne_of_mem_of_not_mem hk hnot)]
          exact hall k hk
      have hcount : ((orderIds.foldl remove (t.remove orderId)).activeCount + (orderIds.length + 1) = t.activeCount) ↔
          (orderIds.foldl remove (t.remove orderId)).activeCount + orderIds.length = (t.remove orderId).activeCount := by
        omega
      rw [hcount, hiff, hkept]
      simp only [Option.isSome_some, true_and]
      tauto

end OrderTracker

theorem TrackerIndexes.Sound.foldl_remove {t : OrderTracker} (h : Sound t) (orderIds : List OrderId) :
    Sound (orderIds.foldl OrderTracker.remove t) := by
  induction orderIds generalizing t with
  | nil => exact h
  | cons orderId orderIds ih => exact ih (h.remove orderId)

namespace CancellationManager

variable {σ : Type*} {m : CancellationManager σ} {s : CancelState σ}

/-- A cancellation succeeds, and takes the order out of the tracker, exactly if the exchange confirms it. -/
theorem cancel_eq (m : CancellationManager σ) (s : CancelState σ) (orderId : OrderId) :
    (m.cancel s orderId).2 = ⟨(m.clobClient.cancelOrder orderId s.exchange).2,
        if ClobClient.confirms orderId (m.clobClient.cancelOrder orderId s.exchange).1 then s.tracker.remove orderId
        else s.tracker⟩ ∧
      ((m.cancel s orderId).1 = .ok () ↔
        ClobClient.confirms orderId (m.clobClient.cancelOrder orderId s.exchange).1 = true) := by
  unfold cancel ClobClient.confirms
  cases m.clobClient.cancelOrder orderId s.exchange with
  | mk answer exchange =>
    cases answer with
    | error e => exact ⟨rfl, by simp⟩
    | ok response =>
      rcases Option.eq_none_or_eq_some (response.notCanceled.lookup orderId) with hlookup | ⟨reason, hlookup⟩
      · simp [hlookup]
      · simp [hlookup]

/-- The orders that are asked for in turn leave the tracker if they are confirmed, and are counted. -/
theorem cancelEach_eq (m : CancellationManager σ) (s : CancelState σ) (orderIds : List OrderId) :
    m.cancelEach s orderIds = ((m.clobClient.confirmed orderIds s.exchange).length,
      ⟨m.clobClient.askEach orderIds s.exchange,
        (m.clobClient.confirmed orderIds s.exchange).foldl OrderTracker.remove s.tracker⟩) := by
  have hgeneral : ∀ (orderIds : List OrderId) (n : ℕ) (s : CancelState σ),
      orderIds.foldl (fun (cancelled, s) orderId =>
          match m.cancel s orderId with
          | (.ok _, s) => (cancelled + 1, s)
          | (.error _, s) => (cancelled, s)) (n, s) =
        (n + (m.clobClient.confirmed orderIds s.exchange).length,
          ⟨m.clobClient.askEach orderIds s.exchange,
            (m.clobClient.confirmed orderIds s.exchange).foldl OrderTracker.remove s.tracker⟩) := by
    intro orderIds
    induction orderIds with
    | nil => exact fun n s => rfl
    | cons orderId orderIds ih =>
      intro n s
      obtain ⟨hafter, hok⟩ := m.cancel_eq s orderId
      rw [List.foldl_cons, ClobClient.confirmed, ClobClient.askEach, List.foldl_cons, ← ClobClient.askEach]
      dsimp only
      cases hcancel : m.cancel s orderId with
      | mk result after =>
        rw [hcancel] at hafter hok
        dsimp only at hafter hok
        cases result with
        | ok u =>
          have hconfirms := hok.mp rfl
          rw [hconfirms, if_pos rfl] at hafter
          rw [hconfirms, if_pos rfl, ih, hafter, List.length_cons, List.foldl_cons]
          dsimp only
          rw [Nat.add_assoc, Nat.add_comm 1]
        | error e =>
          have hconfirms : ClobClient.confirms orderId (m.clobClient.cancelOrder orderId s.exchange).1 = false := by
            rw [Bool.eq_false_iff]
            exact fun h => by cases hok.mpr h
          rw [hconfirms, if_neg Bool.false_ne_true] at hafter
          rw [hconfirms, if_neg Bool.false_ne_true, ih, hafter]
  rw [cancelEach, hgeneral, Nat.zero_add]

/-- The orders listed are the tracked ones that pass the test, each listed once. -/
def Selects (t : OrderTracker) (p : TrackedOrder → Prop) (orderIds : List OrderId) : Prop :=
  orderIds.Nodup ∧ ∀ orderId, orderId ∈ orderIds ↔ ∃ order, t.get orderId = some order ∧ p order

/-- The orders listed are asked for, each in its turn. The confirmed ones leave the tracker, which keeps the others as
they are, and are counted; the indexes stay exact. -/
structure CancelsExactly (m : CancellationManager σ) (s : CancelState σ) (orderIds : List OrderId)
    (outcome : ℕ × CancelState σ) : Prop where
  asked : outcome.2.exchange = m.clobClient.askEach orderIds s.exchange
  orders : ∀ k, outcome.2.tracker.get k =
    if k ∈ m.clobClient.confirmed orderIds s.exchange then none else s.tracker.get k
  counted : outcome.1 = (m.clobClient.confirmed orderIds s.exchange).length
  left : outcome.2.tracker.activeCount + outcome.1 = s.tracker.activeCount
  completed : outcome.2.tracker.totalCompleted = s.tracker.totalCompleted + outcome.1
  sound : Sound outcome.2.tracker

theorem cancelsExactly (h : Sound s.tracker) {p : TrackedOrder → Prop} {orderIds : List OrderId}
    (hselects : Selects s.tracker p orderIds) : m.CancelsExactly s orderIds (m.cancelEach s orderIds) := by
  have hsublist := m.clobClient.confirmed_sublist orderIds s.exchange
  have htracked : ∀ k ∈ m.clobClient.confirmed orderIds s.exchange, (s.tracker.get k).isSome = true := by
    intro k hk
    obtain ⟨order, hget, -⟩ := (hselects.2 k).mp (hsublist.subset hk)
    rw [hget]
    rfl
  have hleft := (activeCount_foldl_remove_iff _ s.tracker).mpr ⟨hselects.1.sublist hsublist, htracked⟩
  have hsound := h.foldl_remove (m.clobClient.confirmed orderIds s.exchange)
  rw [m.cancelEach_eq]
  refine ⟨rfl, fun k => get_foldl_remove _ _ k, rfl, hleft, ?_, hsound⟩
  have hbefore := h.counted
  have hafter := hsound.counted
  rw [totalTracked_foldl_remove] at hafter
  dsimp only
  omega

theorem selects_listing {ι : Type*} [DecidableEq ι] {group : TrackedOrder → Option ι}
    {index : Store ι (Finset OrderId)} {t : OrderTracker} (h : Exact group t.orders index) (listing : Listing) (x : ι) :
    Selects t (fun order => group order = some x) (listing.list (keysAt index x)) := by
  refine ⟨listing.nodup _, fun orderId => ?_⟩
  rw [listing.mem_iff, h, Option.bind_eq_some_iff]
  rfl

theorem selects_values {t : OrderTracker} (h : Sound t) (p : TrackedOrder → Bool) :
    Selects t (fun order => p order = true) (((values t.orders).filter p).map (·.orderId)) := by
  have hkeys : (values t.orders).map (·.orderId) = t.orders.keys := by
    rw [values, List.map_map]
    exact List.map_congr_left fun e he => h.keyed e.1 e.2 (AList.mem_lookup_iff.mpr he)
  have hnodup : ((values t.orders).map (·.orderId)).Nodup := hkeys ▸ t.orders.keys_nodup
  refine ⟨hnodup.sublist (List.filter_sublist.map _), fun orderId => ?_⟩
  rw [List.mem_map]
  constructor
  · rintro ⟨order, hmem, rfl⟩
    obtain ⟨hvalue, hp⟩ := List.mem_filter.mp hmem
    obtain ⟨k, hk⟩ := mem_values_iff.mp hvalue
    rw [h.keyed k order hk]
    exact ⟨order, hk, hp⟩
  · rintro ⟨order, hget, hp⟩
    exact ⟨order, List.mem_filter.mpr ⟨mem_values_iff.mpr ⟨orderId, hget⟩, hp⟩, h.keyed orderId order hget⟩

private theorem cancelEach_of_isEmpty (m : CancellationManager σ) (s : CancelState σ) (orderIds : List OrderId) :
    (if orderIds.isEmpty then (0, s) else m.cancelEach s orderIds) = m.cancelEach s orderIds := by
  cases orderIds with
  | nil => rfl
  | cons orderId orderIds => rfl

theorem cancelMarket_eq (m : CancellationManager σ) (s : CancelState σ) (marketId : ConditionId) :
    m.cancelMarket s marketId = m.cancelEach s (m.listing.list (s.tracker.ordersForMarket marketId)) :=
  m.cancelEach_of_isEmpty s _

theorem cancelGroup_eq (m : CancellationManager σ) (s : CancelState σ) (groupId : String) :
    m.cancelGroup s groupId = m.cancelEach s (m.listing.list (s.tracker.ordersInGroup groupId)) :=
  m.cancelEach_of_isEmpty s _

theorem cancelStale_eq (m : CancellationManager σ) (s : CancelState σ) (now : Instant) :
    m.cancelStale s now = m.cancelEach s (s.tracker.staleOrders m.createdAt m.staleOrderTtl now) :=
  m.cancelEach_of_isEmpty s _

/-- Each call that cancels a part of the orders asks the exchange for exactly the orders of that part, and takes
exactly the confirmed ones out of the tracker. -/
theorem cancels_exactly_what_is_confirmed (m : CancellationManager σ) (s : CancelState σ) (h : Sound s.tracker) :
    (∀ marketId, ∃ orderIds, Selects s.tracker (fun order => order.marketId = marketId) orderIds ∧
      m.CancelsExactly s orderIds (m.cancelMarket s marketId)) ∧
    (∀ groupId, ∃ orderIds, Selects s.tracker (fun order => order.groupId = some groupId) orderIds ∧
      m.CancelsExactly s orderIds (m.cancelGroup s groupId)) ∧
    ∀ now, ∃ orderIds,
      Selects s.tracker (fun order => m.staleOrderTtl < (m.createdAt order.orderId).elapsed now) orderIds ∧
        m.CancelsExactly s orderIds (m.cancelStale s now) := by
  refine ⟨fun marketId => ?_, fun groupId => ?_, fun now => ?_⟩
  · have hselects := selects_listing h.byMarket m.listing marketId
    simp only [Option.some.injEq] at hselects
    refine ⟨_, hselects, ?_⟩
    rw [cancelMarket_eq]
    exact cancelsExactly h hselects
  · have hselects := selects_listing h.byGroup m.listing groupId
    refine ⟨_, hselects, ?_⟩
    rw [cancelGroup_eq]
    exact cancelsExactly h hselects
  · have hselects := selects_values h fun order => m.staleOrderTtl < (m.createdAt order.orderId).elapsed now
    simp only [decide_eq_true_iff] at hselects
    refine ⟨_, hselects, ?_⟩
    rw [cancelStale_eq]
    exact cancelsExactly h hselects

/-- An exchange that has an order in the way of being filled: it is not cancelled while three requests come. -/
private def exchange : ClobClient ℕ where
  cancelOrder orderId n :=
    (.ok ⟨[orderId], if orderId = "2" ∧ n < 3 then AList.singleton "2" "order is being matched" else ∅⟩, n + 1)
  cancelAllOrders n := if n < 3 then (.error "503 Service Unavailable", n) else (.ok ⟨["1", "9"], ∅⟩, n)

private def manager : CancellationManager ℕ where
  clobClient := exchange
  staleOrderTtl := Duration.fromSecs 60
  createdAt _ := 0
  listing := .sorted

private def resting (orderId : OrderId) : TrackedOrder := ⟨orderId, "a", "m", .Buy, 1 / 2, 100, 0, some "g"⟩

private def threeResting (n : ℕ) : CancelState ℕ :=
  ⟨n, TrackerIndexes.run [.track (resting "1"), .track (resting "2"), .track (resting "3"), .onFill "3" 40]⟩

private theorem sound_threeResting (n : ℕ) : Sound (threeResting n).tracker :=
  sound_run (by decide) (by decide +kernel)

theorem cancels_market_of_three :
    ∃ orderIds, Selects (threeResting 0).tracker (fun order => order.marketId = "m") orderIds ∧
      manager.CancelsExactly (threeResting 0) orderIds (manager.cancelMarket (threeResting 0) "m") :=
  (cancels_exactly_what_is_confirmed manager (threeResting 0) (sound_threeResting 0)).1 "m"

/-- Of the orders that the bulk endpoint reports as cancelled, the tracked ones are gone; the others count all the
same. -/
structure BulkCancels (s : CancelState σ) (response : CancelOrdersResponse) (exchange : σ)
    (outcome : ℕ × CancelState σ) : Prop where
  asked : outcome.2.exchange = exchange
  orders : ∀ k, outcome.2.tracker.get k = if k ∈ response.canceled then none else s.tracker.get k
  counted : outcome.1 = response.canceled.length
  left : s.tracker.activeCount ≤ outcome.2.tracker.activeCount + outcome.1
  exact_iff : outcome.2.tracker.activeCount + outcome.1 = s.tracker.activeCount ↔
    response.canceled.Nodup ∧ ∀ k ∈ response.canceled, (s.tracker.get k).isSome = true
  sound : Sound outcome.2.tracker

theorem length_allOrders (t : OrderTracker) : t.allOrders.length = t.activeCount := by
  simp [allOrders, values, activeCount]

theorem cancelAll_of_tracked (m : CancellationManager σ) {s : CancelState σ} (h : s.tracker.activeCount ≠ 0) :
    m.cancelAll s =
      match m.clobClient.cancelAllOrders s.exchange with
      | (.ok response, exchange) =>
        (response.canceled.length, ⟨exchange, response.canceled.foldl OrderTracker.remove s.tracker⟩)
      | (.error _, exchange) => m.cancelEach ⟨exchange, s.tracker⟩ s.tracker.allOrders := by
  have hne : s.tracker.allOrders.isEmpty = false := by
    rw [List.isEmpty_eq_false_iff, ← List.length_pos_iff, length_allOrders]
    exact Nat.pos_of_ne_zero h
  rw [cancelAll, hne]
  rfl

/-- Cancelling everything does nothing when nothing is tracked, believes the bulk endpoint if it answers, and cancels
the tracked orders one after another if it does not. -/
theorem cancelAll_believes_or_falls_back (m : CancellationManager σ) (s : CancelState σ) (h : Sound s.tracker) :
    (s.tracker.activeCount = 0 → m.cancelAll s = (0, s)) ∧
    (∀ response exchange, s.tracker.activeCount ≠ 0 →
      m.clobClient.cancelAllOrders s.exchange = (.ok response, exchange) →
      BulkCancels s response exchange (m.cancelAll s)) ∧
    ∀ e exchange, s.tracker.activeCount ≠ 0 → m.clobClient.cancelAllOrders s.exchange = (.error e, exchange) →
      ∃ orderIds, Selects s.tracker (fun _ => True) orderIds ∧
        m.CancelsExactly ⟨exchange, s.tracker⟩ orderIds (m.cancelAll s) := by
  refine ⟨fun hnone => ?_, fun response exchange hsome hanswer => ?_, fun e exchange hsome hanswer => ?_⟩
  · rw [← length_allOrders, List.length_eq_zero_iff] at hnone
    rw [cancelAll, hnone]
    rfl
  · rw [m.cancelAll_of_tracked hsome, hanswer]
    exact ⟨rfl, get_foldl_remove _ _, rfl, le_activeCount_foldl_remove _ _, activeCount_foldl_remove_iff _ _,
      h.foldl_remove _⟩
  · have hselects := selects_values h fun _ => true
    rw [List.filter_true] at hselects
    simp only at hselects
    rw [m.cancelAll_of_tracked hsome, hanswer]
    exact ⟨_, hselects, cancelsExactly (s := ⟨exchange, s.tracker⟩) h hselects⟩

/-- The bulk endpoint reports an order that is not tracked. -/
theorem cancelAll_counts_a_stranger :
    BulkCancels (threeResting 3) ⟨["1", "9"], ∅⟩ 3 (manager.cancelAll (threeResting 3)) ∧
      (manager.cancelAll (threeResting 3)).1 = 2 ∧ (manager.cancelAll (threeResting 3)).2.tracker.activeCount = 2 :=
  ⟨(cancelAll_believes_or_falls_back manager (threeResting 3) (sound_threeResting 3)).2.1 ⟨["1", "9"], ∅⟩ 3
    (by decide +kernel) rfl, by decide +kernel, by decide +kernel⟩

end CancellationManager

end PolyBot.Execution
