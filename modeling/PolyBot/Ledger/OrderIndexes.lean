import PolyBot.General.DualIndex
import PolyBot.Ledger.OrderRuns

/-! The two indexes of the order store. Each holds its own copy of an order, and every operation patches the
second copy field by field. -/

namespace PolyBot.OpenOrders
open General.KeyedStore General.AdditiveRuns General.DualIndex

def IndexesAgree (os : OpenOrders) : Prop :=
  Agree TrackedOrder.localId TrackedOrder.orderId os.byLocalId os.byOrderId

/-- An order is linked once, to an exchange id that no order has. -/
def LinksOnce (os : OpenOrders) : OrderOp → Prop
  | .linkOrderId localId orderId _ =>
    ∀ o ∈ os.getByLocalId localId, o.orderId = none ∧ os.getByOrderId orderId = none
  | _ => True

instance decidableLinksOnce (os : OpenOrders) : (op : OrderOp) → Decidable (os.LinksOnce op)
  | .linkOrderId localId orderId _ =>
    inferInstanceAs (Decidable (∀ o ∈ os.getByLocalId localId, o.orderId = none ∧ os.getByOrderId orderId = none))
  | .add _ _ _ _ _ _ _ | .transition _ _ _ | .applyFill _ _ _ | .removeTerminal => inferInstanceAs (Decidable True)

variable {os : OpenOrders}

theorem indexesAgree_new : new.IndexesAgree := agree_empty

theorem IndexesAgree.keyed (h : os.IndexesAgree) : os.Keyed := Agree.keyed h

theorem IndexesAgree.add (h : os.IndexesAgree) {order : TrackedOrder} (hnew : os.getByLocalId order.localId = none)
    (hunlinked : order.orderId = none) : (os.add order).IndexesAgree :=
  Agree.insert_unlinked h hnew hunlinked

/-- The mirrored change is the change itself on the copy that it finds. -/
theorem IndexesAgree.rewrite (h : os.IndexesAgree) {os' : OpenOrders} {localId : Uuid} {order : TrackedOrder}
    (hget : os.getByLocalId localId = some order) {g : TrackedOrder → TrackedOrder}
    (hlocal : (g order).localId = order.localId) (hid : (g order).orderId = order.orderId)
    (hbyLocal : os'.byLocalId = os.byLocalId.insert localId (g order))
    (hbyOrder : os'.byOrderId = os.mirror order.orderId g) : os'.IndexesAgree := by
  have hpatch : os.mirror order.orderId g = patch TrackedOrder.orderId order g os.byOrderId := by
    unfold OpenOrders.mirror patch
    cases order.orderId <;> rfl
  unfold IndexesAgree
  rw [hbyLocal, hbyOrder, hpatch]
  exact Agree.rewrite h hget hlocal hid

theorem IndexesAgree.transition (h : os.IndexesAgree) (localId : Uuid) (newState : OrderState) (now : Timestamp) :
    ((OrderOp.transition localId newState now).apply os).IndexesAgree := by
  dsimp only [OrderOp.apply, OpenOrders.transition]
  cases hget : os.getByLocalId localId with
  | none => exact h
  | some order =>
    by_cases hcan : order.state.canTransitionTo newState
    · simp only [hcan, if_true]
      exact h.rewrite hget (g := fun o => { o with state := newState, lastUpdate := now }) rfl rfl rfl rfl
    · simp only [hcan]
      exact h

theorem IndexesAgree.applyFill (h : os.IndexesAgree) (localId : Uuid) (fillSize : Decimal) (now : Timestamp) :
    ((OrderOp.applyFill localId fillSize now).apply os).IndexesAgree := by
  dsimp only [OrderOp.apply, OpenOrders.applyFill]
  cases hget : os.getByLocalId localId with
  | none => exact h
  | some order =>
    let filled := order.applyFill fillSize now
    exact h.rewrite hget (g := fun o => { o with
      filledSize := filled.filledSize
      remainingSize := filled.remainingSize
      state := filled.state
      lastUpdate := filled.lastUpdate }) rfl rfl rfl rfl

theorem IndexesAgree.linkOrderId (h : os.IndexesAgree) {localId : Uuid} {orderId : OrderId} {now : Timestamp}
    (honce : os.LinksOnce (.linkOrderId localId orderId now)) :
    ((OrderOp.linkOrderId localId orderId now).apply os).IndexesAgree := by
  dsimp only [OrderOp.apply, OpenOrders.linkOrderId]
  cases hget : os.getByLocalId localId with
  | none => exact h
  | some order =>
    obtain ⟨hunlinked, hfree⟩ := honce order hget
    exact Agree.link_first h hget rfl hunlinked rfl hfree

theorem IndexesAgree.remove (h : os.IndexesAgree) (localId : Uuid) : (os.remove localId).IndexesAgree := by
  unfold OpenOrders.remove
  cases hget : os.getByLocalId localId with
  | none => exact h
  | some order =>
    have herase := Agree.erase h hget
    dsimp only [IndexesAgree, cut] at herase ⊢
    cases hlink : order.orderId with
    | none => rwa [hlink] at herase
    | some orderId => rwa [hlink] at herase

theorem IndexesAgree.removeTerminal (h : os.IndexesAgree) : os.removeTerminal.IndexesAgree := by
  unfold OpenOrders.removeTerminal
  generalize ((values os.byLocalId).filter (·.state.isTerminal)).map (·.localId) = localIds
  induction localIds generalizing os with
  | nil => exact h
  | cons localId localIds ih => exact ih (h.remove localId)

/-- The step lemma: every operation patches both copies alike. -/
theorem IndexesAgree.apply (h : os.IndexesAgree) {op : OrderOp} (hnew : os.AddsNew op) (honce : os.LinksOnce op) :
    (op.apply os).IndexesAgree := by
  cases op with
  | add localId tokenId side price size strategyId now => exact h.add (hnew localId rfl) rfl
  | linkOrderId localId orderId now => exact h.linkOrderId honce
  | transition localId newState now => exact h.transition localId newState now
  | applyFill localId fillSize now => exact h.applyFill localId fillSize now
  | removeTerminal => exact h.removeTerminal

theorem IndexesAgree.foldl (h : os.IndexesAgree) {ops : List OrderOp} (hnew : Throughout OrderOp.apply AddsNew os ops)
    (honce : Throughout OrderOp.apply LinksOnce os ops) : (ops.foldl OrderOp.apply os).IndexesAgree := by
  induction ops generalizing os with
  | nil => exact h
  | cons op ops ih => exact ih (h.apply hnew.1 honce.1) hnew.2 honce.2

theorem indexesAgree_run {ops : List OrderOp} (hfresh : OrderOp.FreshIds ops)
    (honce : Throughout OrderOp.apply LinksOnce .new ops) : (run ops).IndexesAgree :=
  indexesAgree_new.foldl (throughout_addsNew keyed_new hfresh fun _ _ => rfl) honce

/-- After every run with fresh local ids in which each order is linked at most once and no two to one exchange id,
an exchange id is known exactly when some order has it, its copy is that order, and removing the terminal orders
leaves neither index a terminal order. -/
theorem indexes_describe_same_orders (ops : List OrderOp) (hfresh : OrderOp.FreshIds ops)
    (honce : Throughout OrderOp.apply LinksOnce .new ops) :
    let os := run ops
    (∀ x, (os.getByOrderId x).isSome = true ↔ ∃ id o, os.getByLocalId id = some o ∧ o.orderId = some x) ∧
      (∀ x copy id o, os.getByOrderId x = some copy → os.getByLocalId id = some o → o.orderId = some x → copy = o) ∧
      (∀ x copy, os.getByOrderId x = some copy →
        os.getByLocalId copy.localId = some copy ∧ copy.orderId = some x) ∧
      (∀ x copy, os.removeTerminal.getByOrderId x = some copy ↔
        os.getByOrderId x = some copy ∧ copy.state.isTerminal = false) := by
  intro os
  have hagree : os.IndexesAgree := indexesAgree_run hfresh honce
  refine ⟨hagree.isSome_lookup_iff, ?_, fun x copy hx => hagree.lookup_key hx, ?_⟩
  · intro x copy id o hx hid hlink
    exact Option.some.inj (hx.symm.trans (hagree.lookup_link hid hlink))
  · intro x copy
    have hlocal := getByLocalId_removeTerminal hagree.keyed copy.localId
    have hleft : os.removeTerminal.getByOrderId x = some copy ↔
        os.removeTerminal.getByLocalId copy.localId = some copy ∧ copy.orderId = some x :=
      hagree.removeTerminal.linked x copy
    have hright : os.getByOrderId x = some copy ↔
        os.getByLocalId copy.localId = some copy ∧ copy.orderId = some x := hagree.linked x copy
    rw [hleft, hright, hlocal, Option.filter_eq_some_iff]
    simp only [Bool.not_eq_true']
    tauto

/-- An order part filled before it is linked, filled up after it, beside one that is never linked. -/
private def linkedLate : List OrderOp :=
  [.add 1 "yes" .Buy (1 / 2) 100 none 0, .transition 1 .Signed 1, .transition 1 .Submitted 2, .transition 1 .Acked 3,
    .applyFill 1 40 4, .linkOrderId 1 "x1" 5, .add 2 "no" .Sell (1 / 4) 10 none 6, .applyFill 1 60 7]

private def filledLate : TrackedOrder := ⟨some "x1", 1, .Filled, "yes", .Buy, 1 / 2, 100, 100, 0, 0, 7, none⟩

/-- Its copy under the exchange id has both fills and leaves with it. -/
theorem linked_late_order_agrees :
    (run linkedLate).getByOrderId "x1" = some filledLate ∧ (run linkedLate).getByLocalId 1 = some filledLate ∧
      (run linkedLate).removeTerminal.getByOrderId "x1" ≠ some filledLate := by
  have hfresh : OrderOp.FreshIds linkedLate := by
    unfold OrderOp.FreshIds
    decide
  obtain ⟨-, -, hlocal, hremoved⟩ := indexes_describe_same_orders linkedLate hfresh (by decide +kernel)
  have hcopy : (run linkedLate).getByOrderId "x1" = some filledLate := by decide +kernel
  refine ⟨hcopy, (hlocal "x1" filledLate hcopy).1, ?_⟩
  intro hstale
  cases ((hremoved "x1" filledLate).mp hstale).2

end PolyBot.OpenOrders
