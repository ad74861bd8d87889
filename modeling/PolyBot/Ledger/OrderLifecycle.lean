import PolyBot.Ledger.OrderRuns

/-! The life of an order: the states it can pass through, and those that it never leaves. -/

namespace PolyBot
open General.KeyedStore General.AdditiveRuns

namespace OrderState

/-- The states that no operation leads out of to another one. `Unknown` is one of them without being terminal. -/
def isDone : OrderState → Bool
  | .Filled | .Cancelled | .Expired | .Rejected | .Unknown => true
  | _ => false

theorem isDone_of_isTerminal {s : OrderState} (h : s.isTerminal = true) : s.isDone = true := by
  cases s with
  | Filled | Cancelled | Expired | Rejected => rfl
  | _ => cases h

theorem isActive_of_isDone {s : OrderState} (h : s.isDone = true) : s.isActive = false := by
  cases s with
  | Filled | Cancelled | Expired | Rejected | Unknown => rfl
  | _ => cases h

theorem isDone_of_canTransitionTo {s s' : OrderState} (h : s.isDone = true) (hcan : s.canTransitionTo s' = true) :
    s'.isDone = true := by
  cases s with
  | Filled | Cancelled | Expired | Rejected | Unknown => cases s' <;> first | rfl | cases hcan
  | _ => cases h

/-- Only an active order may become filled, or cancelled. -/
theorem canTransitionTo_filled (s : OrderState) : s.canTransitionTo .Filled = s.isActive := by
  cases s <;> rfl

theorem canTransitionTo_cancelled (s : OrderState) : s.canTransitionTo .Cancelled = s.isActive := by
  cases s <;> rfl

theorem canTransitionTo_rejected (s : OrderState) : s.canTransitionTo .Rejected = true := by
  cases s <;> rfl

end OrderState

theorem TrackedOrder.isDone_applyFill {o : TrackedOrder} (h : o.state.isDone = true) (fillSize : Decimal)
    (now : Timestamp) : (o.applyFill fillSize now).state.isDone = true := by
  dsimp only [TrackedOrder.applyFill]
  split
  · rfl
  · split
    · rename_i hacked
      rw [hacked] at h
      cases h
    · exact h

/-- A done order stays done under every operation that does not add it anew. -/
theorem OrderOp.isDone_onOrder {op : OrderOp} {id : Uuid} (hadd : op.addedId ≠ some id) {order : Option TrackedOrder}
    (h : ∀ o ∈ order, o.state.isDone = true) : ∀ o ∈ op.onOrder id order, o.state.isDone = true := by
  intro o ho
  cases leaves_of_mem_onOrder ho with
  | added tokenId side price size strategyId now => exact absurd rfl hadd
  | kept hp | linked hp orderId now =>
    have hkeep := h _ hp
    exact hkeep
  | moved hp newState now hcan => exact OrderState.isDone_of_canTransitionTo (h _ hp) hcan
  | filled hp fillSize now => exact TrackedOrder.isDone_applyFill (h _ hp) fillSize now

namespace OpenOrders

theorem isDone_foldl {os : OpenOrders} (hkeyed : os.Keyed) {ops : List OrderOp} {id : Uuid}
    (hadd : id ∉ ops.filterMap OrderOp.addedId) (h : ∀ o ∈ os.getByLocalId id, o.state.isDone = true) :
    ∀ o ∈ (ops.foldl OrderOp.apply os).getByLocalId id, o.state.isDone = true := by
  induction ops generalizing os with
  | nil => exact h
  | cons op ops ih =>
    simp only [List.mem_filterMap, List.mem_cons, exists_eq_or_imp, not_or] at hadd ih
    refine ih (hkeyed.apply op) hadd.2 ?_
    rw [getByLocalId_apply hkeyed]
    exact OrderOp.isDone_onOrder hadd.1 h

theorem keyed_run (ops : List OrderOp) : (run ops).Keyed := by
  induction ops using List.reverseRecOn with
  | nil => exact keyed_new
  | append_singleton ops op ih =>
    rw [run, List.foldl_append]
    exact ih.apply op

/-- The active orders are the values that the store has under their own ids. -/
theorem getByLocalId_of_active {os : OpenOrders} (hkeyed : os.Keyed) {o : TrackedOrder} (ho : o ∈ os.activeOrders) :
    os.getByLocalId o.localId = some o ∧ o.state.isActive = true := by
  obtain ⟨hvalue, hactive⟩ := List.mem_filter.mp ho
  obtain ⟨id, hid⟩ := mem_values_iff.mp hvalue
  have hkey := hkeyed id o hid
  subst hkey
  exact ⟨hid, hactive⟩

/-- In every run with fresh local ids and any fill sizes, an order that has been terminal is never active again: it is
not among the active orders, and the reserved notional is the sum over the others. -/
theorem terminal_orders_stay_inactive (ops ops' : List OrderOp) (id : Uuid) (o : TrackedOrder)
    (hfresh : OrderOp.FreshIds (ops ++ ops')) (hget : (run ops).getByLocalId id = some o)
    (hterminal : o.state.isTerminal = true) :
    let os := run (ops ++ ops')
    (∀ o', os.getByLocalId id = some o' → o'.state.isActive = false) ∧
      (∀ o' ∈ os.activeOrders, o'.localId ≠ id) ∧ (∀ o' ∈ os.allOpen, o'.localId ≠ id) ∧
      os.totalReservedNotional = ((os.activeOrders.filter (·.localId ≠ id)).map (·.remainingNotional)).sum := by
  intro os
  have hadded : id ∈ ops.filterMap OrderOp.addedId := by
    by_contra hnot
    have hunknown := unknown_foldl keyed_new hnot rfl
    rw [run, hunknown] at hget
    cases hget
  have hnever : id ∉ ops'.filterMap OrderOp.addedId := by
    unfold OrderOp.FreshIds at hfresh
    rw [List.filterMap_append] at hfresh
    exact fun hmem => (List.nodup_append.mp hfresh).2.2 id hadded id hmem rfl
  have hdone : ∀ o' ∈ os.getByLocalId id, o'.state.isDone = true := by
    have hos : os = ops'.foldl OrderOp.apply (run ops) := List.foldl_append
    rw [hos]
    refine isDone_foldl (keyed_run ops) hnever fun o' ho' => ?_
    obtain rfl := Option.some.inj (hget.symm.trans ho')
    exact OrderState.isDone_of_isTerminal hterminal
  have hinactive : ∀ o', os.getByLocalId id = some o' → o'.state.isActive = false :=
    fun o' ho' => OrderState.isActive_of_isDone (hdone o' ho')
  have hactive : ∀ o' ∈ os.activeOrders, o'.localId ≠ id := by
    rintro o' ho' rfl
    obtain ⟨hlocal, hyes⟩ := getByLocalId_of_active (keyed_run _) ho'
    rw [hinactive o' hlocal] at hyes
    cases hyes
  refine ⟨hinactive, hactive, hactive, ?_⟩
  rw [totalReservedNotional, List.filter_eq_self.mpr fun o' ho' => decide_eq_true (hactive o' ho')]

private def filledOrder : List OrderOp :=
  [.add 1 "yes" .Buy (1 / 2) 100 none 0, .transition 1 .Signed 1, .transition 1 .Submitted 2, .transition 1 .Acked 3,
    .applyFill 1 100 4]

/-- A filled order that an error makes unknown, and that then receives another fill, is not active. -/
theorem unknown_order_stays_inactive :
    let os := run (filledOrder ++ [.transition 1 .Unknown 5, .applyFill 1 (-60) 6])
    (os.getByLocalId 1).map (·.state) = some .Unknown ∧ ∀ o ∈ os.activeOrders, o.localId ≠ 1 := by
  refine ⟨by decide +kernel, ?_⟩
  have hfilled : (run filledOrder).getByLocalId 1 =
      some ⟨none, 1, .Filled, "yes", .Buy, 1 / 2, 100, 100, 0, 0, 4, none⟩ := by decide +kernel
  have hfresh : OrderOp.FreshIds (filledOrder ++ [.transition 1 .Unknown 5, .applyFill 1 (-60) 6]) := by
    unfold OrderOp.FreshIds
    decide
  exact (terminal_orders_stay_inactive _ _ 1 _ hfresh hfilled rfl).2.1

end OpenOrders

end PolyBot
