import PolyBot.Risk.BreakerRuns
import PolyBot.Risk.Reconciliation

namespace PolyBot.Risk.Reconciliation
open General.AdditiveRuns General.KeyedStore

def handle (cb : CircuitBreaker) (now : Instant) :
    Except String ReconciliationResult → CircuitBreaker × List ReconciliationMessage
  | .ok result => (cb, result.discrepancies.map .DiscrepancyDetected ++ [.Completed result])
  | .error e => (cb.recordReconciliationFailure e now, [.Failed e])

/-- A pass of the loop, over the answers of the exchange and the orders it finds, or a call of the breaker by another
part of the bot. -/
inductive LoopEvent where
  | pass (answers : List (Except String Page)) (orders : OpenOrders)
  | breaker (op : BreakerOp)

def step (cb : CircuitBreaker) (event : LoopEvent × Instant) : CircuitBreaker :=
  match event.1 with
  | .pass answers orders =>
    match reconcileOnce orders answers with
    | none => cb
    | some outcome => (handle cb event.2 outcome).1
  | .breaker op => op.apply cb event.2

/-- If the event is a pass that finds something critical, the breaker is open after it. -/
def HaltsOnCritical (cb : CircuitBreaker) (event : LoopEvent × Instant) : Prop :=
  ∀ answers orders result, event.1 = .pass answers orders → reconcileOnce orders answers = some (.ok result) →
    (∃ d ∈ result.discrepancies, d.isCritical = true) → (step cb event).state = .Open

/-- If the event is a pass that reads the orders of the exchange, they agree with the local ones, or the breaker is open
before it. -/
def NothingToHalt (cb : CircuitBreaker) (event : LoopEvent × Instant) : Prop :=
  ∀ answers orders serverOrders, event.1 = .pass answers orders → fetchOrders answers = some (.ok serverOrders) →
    InAgreement serverOrders orders ∨ cb.state = .Open

private theorem reconcileOnce_eq_ok_iff {orders : OpenOrders} {answers : List (Except String Page)}
    {result : ReconciliationResult} : reconcileOnce orders answers = some (.ok result) ↔
      ∃ serverOrders, fetchOrders answers = some (.ok serverOrders) ∧ reconcile serverOrders orders = result := by
  unfold reconcileOnce
  split
  · rename_i h
    simp [h]
  · rename_i h
    simp [h]
  · rename_i serverOrders h
    simp [h]

/-- A pass that reads the orders leaves the breaker alone. -/
theorem step_of_read {cb : CircuitBreaker} {event : LoopEvent × Instant} {answers : List (Except String Page)}
    {orders : OpenOrders} {result : ReconciliationResult} (hevent : event.1 = .pass answers orders)
    (hread : reconcileOnce orders answers = some (.ok result)) : step cb event = cb := by
  simp only [step, hevent, hread]
  rfl

theorem haltsOnCritical_iff (cb : CircuitBreaker) (event : LoopEvent × Instant) :
    HaltsOnCritical cb event ↔ NothingToHalt cb event := by
  have hcritical : ∀ serverOrders orders,
      (∃ d ∈ (reconcile serverOrders orders).discrepancies, d.isCritical = true) ↔
        ¬InAgreement serverOrders orders := by
    intro serverOrders orders
    rw [← noneCritical_iff]
    simp
  constructor
  · intro hhalts answers orders serverOrders hevent hfetched
    rw [or_iff_not_imp_left, ← hcritical]
    intro hfound
    have hread : reconcileOnce orders answers = some (.ok (reconcile serverOrders orders)) :=
      reconcileOnce_eq_ok_iff.mpr ⟨serverOrders, hfetched, rfl⟩
    have hopen := hhalts answers orders _ hevent hread hfound
    rwa [step_of_read hevent hread] at hopen
  · intro hnothing answers orders result hevent hread hfound
    obtain ⟨serverOrders, hfetched, rfl⟩ := reconcileOnce_eq_ok_iff.mp hread
    rw [step_of_read hevent hread]
    exact (hnothing answers orders serverOrders hevent hfetched).resolve_left ((hcritical _ _).mp hfound)

/-- Whatever else is done to the breaker, every critical pass of a run leaves it open exactly if every pass that is
answered finds the orders in agreement or the breaker open. -/
theorem critical_passes_halt_iff (cb : CircuitBreaker) (events : List (LoopEvent × Instant)) :
    Throughout step HaltsOnCritical cb events ↔ Throughout step NothingToHalt cb events :=
  throughout_congr (fun _ => True) (fun _ _ _ _ => trivial) (fun cb event _ => haltsOnCritical_iff cb event) trivial

/-- An order that the exchange lists and the bot knows nothing of does not stop the bot. -/
theorem unknown_order_does_not_halt :
    ¬Throughout step HaltsOnCritical (.new 0) [(.pass [.ok ⟨[⟨"x", .Live, 0⟩], "LTE="⟩] .new, 1)] := by
  rintro ⟨hhalts, -⟩
  have hopen := hhalts _ _ (reconcile [⟨"x", .Live, 0⟩] .new) rfl rfl ⟨.RemoteNotLocal "x", by decide, rfl⟩
  exact absurd hopen (by decide)

private theorem isLive_eq_true_iff (state : OrderState) :
    isLive state = true ↔ state = .Acked ∨ state = .PartiallyFilled := by
  cases state <;> decide

/-- After a pass reported as a success the exchange lists no order but active ones of the bot, and all those that the bot
takes to rest there; of these it has matched, where it reports them as matched, no more than the bot has booked. -/
theorem success_complete {orders : OpenOrders} {answers : List (Except String Page)} {result : ReconciliationResult}
    (hread : reconcileOnce orders answers = some (.ok result)) (hsuccess : result.success = true) :
    ∃ serverOrders, fetchOrders answers = some (.ok serverOrders) ∧
      (∀ s ∈ serverOrders, ∃ o ∈ orders.allOpen, o.orderId = some s.id) ∧
      (∀ o ∈ values orders.byLocalId, o.state = .Acked ∨ o.state = .PartiallyFilled → ∀ orderId ∈ o.orderId,
        orderId ∈ serverOrders.map (·.id)) ∧
      ∀ s ∈ serverOrders, s.status = .Matched → ∀ o, findLocal orders s.id = some o →
        o.state = .Acked ∨ o.state = .PartiallyFilled → s.sizeMatched ≤ o.filledSize := by
  obtain ⟨serverOrders, hfetched, rfl⟩ := reconcileOnce_eq_ok_iff.mp hread
  have hagree := success_iff.mp hsuccess
  refine ⟨serverOrders, hfetched, hagree.remote, ?_, ?_⟩
  · intro o ho hstate
    have hopen : o ∈ orders.allOpen := List.mem_filter.mpr ⟨ho, by rcases hstate with h | h <;> rw [h] <;> rfl⟩
    exact hagree.listed o hopen ((isLive_eq_true_iff o.state).mpr hstate)
  · intro s hs hmatched o hlocal hstate
    exact hagree.matched s hs hmatched o hlocal ((isLive_eq_true_iff o.state).mpr hstate)

def linkedOrder (state : OrderState) : TrackedOrder :=
  { TrackedOrder.new 1 "a" .Buy (1 / 2) 100 none 0 with orderId := some "x", state := state }

private def bookedOrder : TrackedOrder :=
  { TrackedOrder.new 2 "a" .Buy (1 / 2) 100 none 0 with
    orderId := some "y", state := .PartiallyFilled, filledSize := 60 }

private def bookedOrders : OpenOrders := (OpenOrders.new.add (linkedOrder .Acked)).add bookedOrder

private def agreeingAnswers : List (Except String Page) := [.ok ⟨[⟨"x", .Live, 0⟩, ⟨"y", .Matched, 60⟩], ""⟩]

/-- The exchange has matched what is booked of the second order. -/
theorem success_complete_fullyBooked :
    findLocal bookedOrders "y" = some bookedOrder ∧ ∃ serverOrders, ⟨"y", .Matched, 60⟩ ∈ serverOrders ∧
      fetchOrders agreeingAnswers = some (.ok serverOrders) ∧
      (∀ s ∈ serverOrders, ∃ o ∈ bookedOrders.allOpen, o.orderId = some s.id) ∧
      (∀ o ∈ values bookedOrders.byLocalId, o.state = .Acked ∨ o.state = .PartiallyFilled → ∀ orderId ∈ o.orderId,
        orderId ∈ serverOrders.map (·.id)) ∧
      ∀ s ∈ serverOrders, s.status = .Matched → ∀ o, findLocal bookedOrders s.id = some o →
        o.state = .Acked ∨ o.state = .PartiallyFilled → s.sizeMatched ≤ o.filledSize := by
  have hcomplete := @success_complete bookedOrders agreeingAnswers
    (reconcile [⟨"x", .Live, 0⟩, ⟨"y", .Matched, 60⟩] bookedOrders) rfl (by decide +kernel)
  obtain ⟨serverOrders, hfetched, hrest⟩ := hcomplete
  obtain rfl : [⟨"x", .Live, 0⟩, ⟨"y", .Matched, 60⟩] = serverOrders := by
    cases hfetched
    rfl
  exact ⟨by decide +kernel, _, by decide +kernel, rfl, hrest⟩

/-- A pass is a success although the exchange has matched more of an order than is booked: all of it, when its
cancellation is under way, and part of it, when the order is live. -/
theorem success_misses_fills :
    (∃ result, reconcileOnce (.add .new (linkedOrder .CancelPending)) [.ok ⟨[⟨"x", .Matched, 100⟩], "LTE="⟩] =
        some (.ok result) ∧ result.success = true ∧
        ∃ o ∈ (OpenOrders.new.add (linkedOrder .CancelPending)).allOpen,
          o.orderId = some "x" ∧ ¬(100 : Decimal) ≤ o.filledSize) ∧
      ∃ result, reconcileOnce (.add .new (linkedOrder .Acked)) [.ok ⟨[⟨"x", .Live, 40⟩], "LTE="⟩] =
        some (.ok result) ∧ result.success = true ∧
        ∃ o ∈ (OpenOrders.new.add (linkedOrder .Acked)).allOpen,
          o.orderId = some "x" ∧ ¬(40 : Decimal) ≤ o.filledSize := by
  constructor
  · exact ⟨reconcile [⟨"x", .Matched, 100⟩] (.add .new (linkedOrder .CancelPending)), rfl, by decide +kernel,
      linkedOrder .CancelPending, by decide +kernel, rfl, by decide +kernel⟩
  · exact ⟨reconcile [⟨"x", .Live, 40⟩] (.add .new (linkedOrder .Acked)), rfl, by decide +kernel,
      linkedOrder .Acked, by decide +kernel, rfl, by decide +kernel⟩

end PolyBot.Risk.Reconciliation
