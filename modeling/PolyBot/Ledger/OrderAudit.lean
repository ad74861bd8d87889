import PolyBot.Ledger.OrderLifecycle

/-! The calls on the order store audited against the lifecycle, with the ids drawn for orders and the orders that the
counters have counted. -/

namespace PolyBot
open General.KeyedStore General.AdditiveRuns

namespace OpenOrders

def closed (os : OpenOrders) : ℕ := os.stats.totalFilled + os.stats.totalCancelled + os.stats.totalRejected

end OpenOrders

namespace OrderOp

def target : OrderOp → Option Uuid
  | add localId _ _ _ _ _ _ | linkOrderId localId _ _ | transition localId _ _ | applyFill localId _ _ => some localId
  | removeTerminal => none

/-- The order that a call makes the counters count, as often as they count it. -/
def counts (os : OpenOrders) (op : OrderOp) : List Uuid :=
  match op.target with
  | none => []
  | some id => List.replicate ((op.apply os).closed - os.closed) id

end OrderOp

namespace OpenOrders

/-- The store with the ids drawn for its orders and the orders that its counters have counted. -/
structure Audit where
  orders : OpenOrders
  drawn : List Uuid
  counted : List Uuid

namespace Audit

def start : Audit := ⟨.new, [], []⟩

def step (a : Audit) (op : OrderOp) : Audit :=
  ⟨op.apply a.orders, op.addedId.toList ++ a.drawn, op.counts a.orders ++ a.counted⟩

/-- What an operation is to respect: a state changes by an allowed step, filled sizes stay within the original ones, and
no order is counted twice. -/
structure Respects (a : Audit) (op : OrderOp) : Prop where
  allowed : ∀ id o o', a.orders.getByLocalId id = some o → (a.step op).orders.getByLocalId id = some o' →
    o'.state ≠ o.state → o.state.canTransitionTo o'.state = true
  sizes : ∀ id o, (a.step op).orders.getByLocalId id = some o → 0 ≤ o.filledSize ∧ o.filledSize ≤ o.originalSize
  once : (a.step op).counted.Nodup
  closed_le : (a.step op).orders.closed ≤ (a.step op).orders.stats.totalCreated

/-- The calls that respect it: sizes are not negative, no order that was counted is rejected, and a fill leaves the filled
size between zero and the original one and completes none but an active order. -/
def Orderly (a : Audit) : OrderOp → Prop
  | .add _ _ _ _ size _ _ => 0 ≤ size
  | .transition id newState _ => ∀ o ∈ a.orders.getByLocalId id, newState = .Rejected → id ∉ a.counted
  | .applyFill id fillSize _ => ∀ o ∈ a.orders.getByLocalId id,
    0 ≤ o.filledSize + fillSize ∧ o.filledSize + fillSize ≤ o.originalSize ∧
      (o.filledSize + fillSize = o.originalSize → o.state.isActive = true)
  | _ => True

instance decidableOrderly (a : Audit) : (op : OrderOp) → Decidable (a.Orderly op)
  | .add _ _ _ _ size _ _ => inferInstanceAs (Decidable (0 ≤ size))
  | .transition id newState _ =>
    inferInstanceAs (Decidable (∀ o ∈ a.orders.getByLocalId id, newState = .Rejected → id ∉ a.counted))
  | .applyFill id fillSize _ => inferInstanceAs (Decidable (∀ o ∈ a.orders.getByLocalId id,
      0 ≤ o.filledSize + fillSize ∧ o.filledSize + fillSize ≤ o.originalSize ∧
        (o.filledSize + fillSize = o.originalSize → o.state.isActive = true)))
  | .linkOrderId _ _ _ | .removeTerminal => inferInstanceAs (Decidable True)

end Audit

end OpenOrders

def OrderState.isCounted : OrderState → Bool
  | .Filled | .Cancelled | .Rejected => true
  | _ => false

theorem OrderState.isDone_of_isCounted {s : OrderState} (h : s.isCounted = true) : s.isDone = true := by
  cases s with
  | Filled | Cancelled | Rejected => rfl
  | _ => cases h

namespace OrderOp

def closes (op : OrderOp) (o : TrackedOrder) : Bool :=
  match op with
  | transition _ newState _ => o.state.canTransitionTo newState && newState.isCounted
  | applyFill _ fillSize _ => o.originalSize ≤ o.filledSize + fillSize
  | _ => false

def closing (os : OpenOrders) (op : OrderOp) : List Uuid :=
  match op.target with
  | none => []
  | some id => if (os.getByLocalId id).any op.closes then [id] else []

end OrderOp

namespace OpenOrders

theorem closed_remove (os : OpenOrders) (localId : Uuid) :
    (os.remove localId).closed = os.closed ∧ (os.remove localId).totalCreated = os.totalCreated := by
  unfold remove
  cases os.getByLocalId localId with
  | none => exact ⟨rfl, rfl⟩
  | some order => exact ⟨rfl, rfl⟩

theorem closed_removeTerminal (os : OpenOrders) :
    os.removeTerminal.closed = os.closed ∧ os.removeTerminal.totalCreated = os.totalCreated := by
  unfold removeTerminal
  generalize ((values os.byLocalId).filter (·.state.isTerminal)).map (·.localId) = localIds
  induction localIds generalizing os with
  | nil => exact ⟨rfl, rfl⟩
  | cons localId localIds ih =>
    obtain ⟨hclosed, hcreated⟩ := closed_remove os localId
    rw [List.foldl_cons, (ih _).1, (ih _).2]
    exact ⟨hclosed, hcreated⟩

/-- The counters rise by one exactly for the order that the operation closes. -/
theorem closed_apply (os : OpenOrders) (op : OrderOp) : (op.apply os).closed = os.closed + (op.closing os).length := by
  cases op with
  | add localId tokenId side price size strategyId now =>
    have hnone : (os.getByLocalId localId).any
        (OrderOp.closes (.add localId tokenId side price size strategyId now)) = false := by
      cases os.getByLocalId localId <;> rfl
    simp only [OrderOp.closing, OrderOp.target, hnone]
    rfl
  | linkOrderId localId orderId now =>
    simp only [OrderOp.closing, OrderOp.target, OrderOp.apply, linkOrderId]
    cases os.getByLocalId localId <;> rfl
  | transition localId newState now =>
    simp only [OrderOp.closing, OrderOp.target, OrderOp.apply, transition]
    cases os.getByLocalId localId with
    | none => rfl
    | some order =>
      by_cases hcan : order.state.canTransitionTo newState = true
      · simp only [Option.any_some, OrderOp.closes, hcan, if_true, Bool.true_and, closed, stats]
        cases newState <;> simp [OrderState.isCounted] <;> omega
      · simp only [Option.any_some, OrderOp.closes, hcan, Bool.false_and]
        rfl
  | applyFill localId fillSize now =>
    simp only [OrderOp.closing, OrderOp.target, OrderOp.apply, applyFill]
    cases os.getByLocalId localId with
    | none => rfl
    | some order =>
      simp only [Option.any_some, OrderOp.closes, TrackedOrder.applyFill, closed, stats, sub_nonpos, decide_eq_true_eq]
      split
      · simp only [List.length_singleton]
        omega
      · rfl
  | removeTerminal => exact (closed_removeTerminal os).1

theorem counts_eq_closing (os : OpenOrders) (op : OrderOp) : op.counts os = op.closing os := by
  have hclosed := closed_apply os op
  unfold OrderOp.counts
  rw [hclosed, Nat.add_sub_cancel_left]
  unfold OrderOp.closing
  cases op.target with
  | none => rfl
  | some id =>
    dsimp only
    split <;> rfl

/-- Only adding an order counts it as created. -/
theorem totalCreated_apply (os : OpenOrders) (op : OrderOp) :
    (op.apply os).totalCreated = os.totalCreated + op.addedId.toList.length := by
  cases op with
  | add localId tokenId side price size strategyId now => rfl
  | linkOrderId localId orderId now =>
    dsimp only [OrderOp.apply, linkOrderId]
    cases os.getByLocalId localId <;> rfl
  | transition localId newState now =>
    dsimp only [OrderOp.apply, transition]
    cases os.getByLocalId localId with
    | none => rfl
    | some order =>
      by_cases hcan : order.state.canTransitionTo newState = true
      · simp only [hcan, if_true]
        rfl
      · simp only [hcan]
        rfl
  | applyFill localId fillSize now =>
    dsimp only [OrderOp.apply, applyFill]
    cases os.getByLocalId localId <;> rfl
  | removeTerminal => exact (closed_removeTerminal os).2

theorem mem_closing_iff {os : OpenOrders} {op : OrderOp} {id : Uuid} :
    id ∈ op.closing os ↔ op.target = some id ∧ ∃ o, os.getByLocalId id = some o ∧ op.closes o = true := by
  unfold OrderOp.closing
  cases htarget : op.target with
  | none => simp
  | some localId =>
    have hany := Option.any_eq_true op.closes (os.getByLocalId localId)
    dsimp only
    constructor
    · intro hmem
      split at hmem
      · rename_i hclosed
        obtain rfl := List.mem_singleton.mp hmem
        exact ⟨rfl, hany.mp hclosed⟩
      · cases hmem
    · rintro ⟨htarget, hclosed⟩
      obtain rfl := Option.some.inj htarget
      rw [if_pos (hany.mpr hclosed)]
      exact List.mem_singleton_self _

end OpenOrders

namespace OrderOp

/-- An operation that closes an order leaves it done. -/
theorem isDone_of_closes {op : OrderOp} {id : Uuid} {o : TrackedOrder} (htarget : op.target = some id)
    (hcloses : op.closes o = true) : ∀ o' ∈ op.onOrder id (some o), o'.state.isDone = true := by
  intro o' ho'
  cases op with
  | transition localId newState now =>
    cases htarget
    obtain ⟨hcan, hcounted⟩ := Bool.and_eq_true_iff.mp hcloses
    dsimp only [onOrder] at ho'
    rw [if_pos rfl, Option.map_some, if_pos hcan] at ho'
    rw [← Option.some.inj ho']
    exact OrderState.isDone_of_isCounted hcounted
  | applyFill localId fillSize now =>
    cases htarget
    have hwhole : o.originalSize - (o.filledSize + fillSize) ≤ 0 := sub_nonpos.mpr (of_decide_eq_true hcloses)
    dsimp only [onOrder] at ho'
    rw [if_pos rfl, Option.map_some] at ho'
    rw [← Option.some.inj ho']
    simp only [TrackedOrder.applyFill, if_pos hwhole]
    rfl
  | _ => cases hcloses

/-- How the state of an order that is there already changes: by an allowed step, or because a fill completes it, closing
it in whatever state it is. -/
theorem state_onOrder {op : OrderOp} {id : Uuid} {o : TrackedOrder} (hadd : op.addedId ≠ some id) :
    ∀ o' ∈ op.onOrder id (some o), o'.state = o.state ∨
      (o.state.canTransitionTo o'.state = true ∧ (o'.state = .Filled → op.target = some id ∧ op.closes o = true)) ∨
      (o'.state = .Filled ∧ ∃ fillSize now, op = .applyFill id fillSize now ∧
        o.originalSize ≤ o.filledSize + fillSize) := by
  intro o' ho'
  cases leaves_of_mem_onOrder ho' with
  | added tokenId side price size strategyId now => exact absurd rfl hadd
  | kept hp | linked hp orderId now =>
    cases hp
    exact .inl rfl
  | moved hp newState now hcan =>
    cases hp
    refine .inr (.inl ⟨hcan, fun hfilled => ⟨rfl, ?_⟩⟩)
    have hnew : newState = .Filled := hfilled
    rw [closes, hcan, hnew]
    rfl
  | filled hp fillSize now =>
    cases hp
    dsimp only [TrackedOrder.applyFill]
    by_cases hwhole : o.originalSize - (o.filledSize + fillSize) ≤ 0
    · rw [if_pos hwhole]
      exact .inr (.inr ⟨rfl, fillSize, now, rfl, sub_nonpos.mp hwhole⟩)
    · rw [if_neg hwhole]
      by_cases hacked : o.state = .Acked
      · rw [if_pos hacked, hacked]
        exact .inr (.inl ⟨rfl, nofun⟩)
      · rw [if_neg hacked]
        exact .inl rfl

/-- Only a fill changes the filled size of an order, and nothing the original one. -/
theorem sizes_onOrder {op : OrderOp} {id : Uuid} {o : TrackedOrder} (hadd : op.addedId ≠ some id) :
    ∀ o' ∈ op.onOrder id (some o), o'.originalSize = o.originalSize ∧ (o'.filledSize = o.filledSize ∨
      ∃ fillSize now, op = .applyFill id fillSize now ∧ o'.filledSize = o.filledSize + fillSize) := by
  intro o' ho'
  cases leaves_of_mem_onOrder ho' with
  | added tokenId side price size strategyId now => exact absurd rfl hadd
  | kept hp | linked hp orderId now | moved hp newState now hcan =>
    cases hp
    exact ⟨rfl, .inl rfl⟩
  | filled hp fillSize now =>
    cases hp
    exact ⟨rfl, .inr ⟨fillSize, now, rfl, rfl⟩⟩

end OrderOp

namespace OpenOrders.Audit

/-- What an audit knows of its store while every operation is respected. -/
structure Consistent (a : Audit) : Prop where
  keyed : a.orders.Keyed
  sizes : ∀ id o, a.orders.getByLocalId id = some o → 0 ≤ o.filledSize ∧ o.filledSize ≤ o.originalSize
  drawn : ∀ id o, a.orders.getByLocalId id = some o → id ∈ a.drawn
  counted_drawn : ∀ id ∈ a.counted, id ∈ a.drawn
  counted_done : ∀ id ∈ a.counted, ∀ o, a.orders.getByLocalId id = some o → o.state.isDone = true
  filled_counted : ∀ id o, a.orders.getByLocalId id = some o → o.state = .Filled → id ∈ a.counted
  once : a.counted.Nodup
  closed_eq : a.orders.closed = a.counted.length
  created_eq : a.orders.totalCreated = a.drawn.length

theorem consistent_start : start.Consistent where
  keyed := keyed_new
  sizes _ _ h := by cases h
  drawn _ _ h := by cases h
  counted_drawn _ h := by cases h
  counted_done _ h := by cases h
  filled_counted _ _ h := by cases h
  once := List.nodup_nil
  closed_eq := rfl
  created_eq := rfl

def DrawsNew (a : Audit) (op : OrderOp) : Prop := ∀ id ∈ op.addedId, id ∉ a.drawn

variable {a : Audit} {op : OrderOp}

theorem counted_step : (a.step op).counted = op.closing a.orders ++ a.counted :=
  congrArg (· ++ a.counted) (counts_eq_closing a.orders op)

theorem addedId_ne (hnew : a.DrawsNew op) {id : Uuid} (hdrawn : id ∈ a.drawn) : op.addedId ≠ some id :=
  fun hadd => hnew id hadd hdrawn

theorem Consistent.drawn_step (h : a.Consistent) {id : Uuid} {o : TrackedOrder}
    (ho : (a.step op).orders.getByLocalId id = some o) : id ∈ (a.step op).drawn := by
  by_cases hadd : op.addedId = some id
  · exact List.mem_append_left _ (by rw [hadd]; exact List.mem_singleton_self id)
  · cases hget : a.orders.getByLocalId id with
    | none =>
      have hnone : (a.step op).orders.getByLocalId id = none := unknown_apply h.keyed hadd hget
      rw [hnone] at ho
      cases ho
    | some p => exact List.mem_append_right _ (h.drawn id p hget)

/-- The order that was there before a step, for one that is there after it and was not added. -/
theorem Consistent.before (h : a.Consistent) {id : Uuid} {o : TrackedOrder}
    (ho : (a.step op).orders.getByLocalId id = some o) (hadd : op.addedId ≠ some id) :
    ∃ p, a.orders.getByLocalId id = some p ∧ o ∈ op.onOrder id (some p) := by
  have hstep : (a.step op).orders.getByLocalId id = op.onOrder id (a.orders.getByLocalId id) :=
    getByLocalId_apply h.keyed op id
  rw [hstep] at ho
  cases hget : a.orders.getByLocalId id with
  | none =>
    rw [hget, OrderOp.onOrder_none hadd] at ho
    cases ho
  | some p =>
    rw [hget] at ho
    exact ⟨p, rfl, ho⟩

/-- The order that a step adds. -/
theorem Consistent.added (h : a.Consistent) {id : Uuid} {o : TrackedOrder}
    (ho : (a.step op).orders.getByLocalId id = some o) (hadd : op.addedId = some id) :
    o.state = .CreatedLocal ∧ o.filledSize = 0 ∧ (a.Orderly op ↔ 0 ≤ o.originalSize) := by
  have hstep : (a.step op).orders.getByLocalId id = op.onOrder id (a.orders.getByLocalId id) :=
    getByLocalId_apply h.keyed op id
  rw [hstep] at ho
  cases op with
  | add localId tokenId side price size strategyId now =>
    cases hadd
    dsimp only [OrderOp.onOrder] at ho
    rw [if_pos rfl] at ho
    cases ho
    exact ⟨rfl, rfl, Iff.rfl⟩
  | _ => cases hadd

section Step
variable (h : a.Consistent)
include h

theorem Consistent.counted_done_step (hnew : a.DrawsNew op) {id : Uuid} (hid : id ∈ (a.step op).counted)
    {o : TrackedOrder} (ho : (a.step op).orders.getByLocalId id = some o) : o.state.isDone = true := by
  rw [counted_step] at hid
  rcases List.mem_append.mp hid with hclosing | hcounted
  · obtain ⟨htarget, p, hp, hcloses⟩ := mem_closing_iff.mp hclosing
    obtain ⟨q, hq, hoq⟩ := h.before ho (addedId_ne hnew (h.drawn id p hp))
    obtain rfl := Option.some.inj (hp.symm.trans hq)
    exact OrderOp.isDone_of_closes htarget hcloses o hoq
  · have hadd := addedId_ne hnew (h.counted_drawn id hcounted)
    obtain ⟨p, hp, hop⟩ := h.before ho hadd
    refine OrderOp.isDone_onOrder hadd (fun q hq => ?_) o hop
    exact h.counted_done id hcounted q (hp.trans hq)

theorem Consistent.filled_counted_step {id : Uuid} {o : TrackedOrder}
    (ho : (a.step op).orders.getByLocalId id = some o) (hfilled : o.state = .Filled) : id ∈ (a.step op).counted := by
  rw [counted_step]
  by_cases hadd : op.addedId = some id
  · rw [(h.added ho hadd).1] at hfilled
    cases hfilled
  · obtain ⟨p, hp, hop⟩ := h.before ho hadd
    have hclosing : op.target = some id → op.closes p = true → id ∈ op.closing a.orders ++ a.counted :=
      fun htarget hcloses => List.mem_append_left _ (mem_closing_iff.mpr ⟨htarget, p, hp, hcloses⟩)
    rcases OrderOp.state_onOrder hadd o hop with hsame | ⟨-, hclosed⟩ | ⟨-, fillSize, now, rfl, hwhole⟩
    · exact List.mem_append_right _ (h.filled_counted id p hp (hsame ▸ hfilled))
    · exact hclosing (hclosed hfilled).1 (hclosed hfilled).2
    · exact hclosing rfl (decide_eq_true hwhole)

theorem Consistent.counted_drawn_step {id : Uuid} (hid : id ∈ (a.step op).counted) : id ∈ (a.step op).drawn := by
  rw [counted_step] at hid
  apply List.mem_append_right
  rcases List.mem_append.mp hid with hclosing | hcounted
  · obtain ⟨-, p, hp, -⟩ := mem_closing_iff.mp hclosing
    exact h.drawn id p hp
  · exact h.counted_drawn id hcounted

theorem Consistent.closed_step : (a.step op).orders.closed = (a.step op).counted.length := by
  have hclosed : (a.step op).orders.closed = a.orders.closed + (op.closing a.orders).length := closed_apply a.orders op
  rw [hclosed, counted_step, List.length_append, h.closed_eq, Nat.add_comm]

theorem Consistent.created_step : (a.step op).orders.totalCreated = (a.step op).drawn.length := by
  have hcreated : (a.step op).orders.totalCreated = a.orders.totalCreated + op.addedId.toList.length :=
    totalCreated_apply a.orders op
  have hdrawn : (a.step op).drawn = op.addedId.toList ++ a.drawn := rfl
  rw [hcreated, hdrawn, List.length_append, h.created_eq, Nat.add_comm]

/-- The step lemma: an operation that is respected keeps the audit consistent. -/
theorem Consistent.step (hnew : a.DrawsNew op) (hrespects : a.Respects op) : (a.step op).Consistent where
  keyed := h.keyed.apply op
  sizes := hrespects.sizes
  drawn _ _ ho := h.drawn_step ho
  counted_drawn _ hid := h.counted_drawn_step hid
  counted_done _ hid _ ho := h.counted_done_step hnew hid ho
  filled_counted _ _ ho hfilled := h.filled_counted_step ho hfilled
  once := hrespects.once
  closed_eq := h.closed_step
  created_eq := h.created_step

/-- No order is counted twice as long as the operation closes none that was counted. -/
theorem Consistent.once_iff :
    (a.step op).counted.Nodup ↔
      ∀ id o, op.target = some id → a.orders.getByLocalId id = some o → op.closes o = true → id ∉ a.counted := by
  have hclosing : (op.closing a.orders).Nodup := by
    unfold OrderOp.closing
    split
    · exact List.nodup_nil
    · split
      · exact List.nodup_singleton _
      · exact List.nodup_nil
  rw [counted_step, List.nodup_append]
  constructor
  · rintro ⟨-, -, hdisjoint⟩ id o htarget ho hcloses hcounted
    exact hdisjoint id (mem_closing_iff.mpr ⟨htarget, o, ho, hcloses⟩) id hcounted rfl
  · intro hnone
    refine ⟨hclosing, h.once, ?_⟩
    rintro id hid _ hcounted rfl
    obtain ⟨htarget, o, ho, hcloses⟩ := mem_closing_iff.mp hid
    exact hnone id o htarget ho hcloses hcounted

/-- A respected operation is orderly. -/
theorem Consistent.orderly_of_respects (hrespects : a.Respects op) : a.Orderly op := by
  have honce := h.once_iff.mp hrespects.once
  have hstep : ∀ id, (a.step op).orders.getByLocalId id = op.onOrder id (a.orders.getByLocalId id) :=
    getByLocalId_apply h.keyed op
  cases op with
  | add localId tokenId side price size strategyId now =>
    have hadded := hstep localId
    dsimp only [OrderOp.onOrder] at hadded
    rw [if_pos rfl] at hadded
    exact (hrespects.sizes localId _ hadded).2
  | transition id newState now =>
    rintro o ho rfl
    refine honce id o rfl ho ?_
    rw [OrderOp.closes, OrderState.canTransitionTo_rejected]
    rfl
  | applyFill id fillSize now =>
    intro o ho
    have hfilled := hstep id
    dsimp only [OrderOp.onOrder] at hfilled
    rw [if_pos rfl, Option.mem_def.mp ho, Option.map_some] at hfilled
    obtain ⟨hnonneg, hle⟩ := hrespects.sizes id _ hfilled
    refine ⟨hnonneg, hle, fun hwhole => ?_⟩
    have hcloses : (OrderOp.applyFill id fillSize now).closes o = true := decide_eq_true hwhole.ge
    have hstate : (o.applyFill fillSize now).state = .Filled := by
      have hnothing : o.originalSize - (o.filledSize + fillSize) ≤ 0 := sub_nonpos.mpr hwhole.ge
      simp only [TrackedOrder.applyFill, if_pos hnothing]
    have hbefore : o.state ≠ .Filled := by
      intro hsame
      exact honce id o rfl ho hcloses (h.filled_counted id o ho hsame)
    have hallowed := hrespects.allowed id o _ ho hfilled (by rw [hstate]; exact hbefore.symm)
    rwa [hstate, OrderState.canTransitionTo_filled] at hallowed
  | linkOrderId localId orderId now => trivial
  | removeTerminal => trivial

/-- An active order was never counted. -/
theorem Consistent.uncounted_of_active {id : Uuid} {o : TrackedOrder} (ho : a.orders.getByLocalId id = some o)
    (hactive : o.state.isActive = true) : id ∉ a.counted := by
  intro hcounted
  rw [OrderState.isActive_of_isDone (h.counted_done id hcounted o ho)] at hactive
  cases hactive

/-- An orderly operation closes no order that was counted. -/
theorem Consistent.once_of_orderly (horderly : a.Orderly op) : (a.step op).counted.Nodup := by
  refine h.once_iff.mpr fun id o htarget ho hcloses => ?_
  cases op with
  | transition localId newState now =>
    cases htarget
    obtain ⟨hcan, hcounted⟩ := Bool.and_eq_true_iff.mp hcloses
    cases newState with
    | Filled => exact h.uncounted_of_active ho (OrderState.canTransitionTo_filled o.state ▸ hcan)
    | Cancelled => exact h.uncounted_of_active ho (OrderState.canTransitionTo_cancelled o.state ▸ hcan)
    | Rejected => exact horderly o ho rfl
    | _ => cases hcounted
  | applyFill localId fillSize now =>
    cases htarget
    obtain ⟨-, hle, hactive⟩ := horderly o ho
    exact h.uncounted_of_active ho (hactive (le_antisymm hle (of_decide_eq_true hcloses)))
  | _ => cases hcloses

theorem Consistent.sizes_of_orderly (horderly : a.Orderly op) {id : Uuid} {o : TrackedOrder}
    (ho : (a.step op).orders.getByLocalId id = some o) : 0 ≤ o.filledSize ∧ o.filledSize ≤ o.originalSize := by
  by_cases hadd : op.addedId = some id
  · obtain ⟨-, hzero, hsize⟩ := h.added ho hadd
    rw [hzero]
    exact ⟨le_refl 0, hsize.mp horderly⟩
  · obtain ⟨p, hp, hop⟩ := h.before ho hadd
    obtain ⟨horiginal, hsame | ⟨fillSize, now, rfl, hfilled⟩⟩ := OrderOp.sizes_onOrder hadd o hop
    · rw [horiginal, hsame]
      exact h.sizes id p hp
    · obtain ⟨hnonneg, hle, -⟩ := horderly p hp
      rw [horiginal, hfilled]
      exact ⟨hnonneg, hle⟩

theorem Consistent.allowed_of_orderly (hnew : a.DrawsNew op) (horderly : a.Orderly op) {id : Uuid}
    {o o' : TrackedOrder} (ho : a.orders.getByLocalId id = some o)
    (ho' : (a.step op).orders.getByLocalId id = some o') (hchange : o'.state ≠ o.state) :
    o.state.canTransitionTo o'.state = true := by
  have hadd := addedId_ne hnew (h.drawn id o ho)
  obtain ⟨p, hp, hop⟩ := h.before ho' hadd
  obtain rfl := Option.some.inj (ho.symm.trans hp)
  rcases OrderOp.state_onOrder hadd o' hop with hsame | ⟨hcan, -⟩ | ⟨hfilled, fillSize, now, rfl, hwhole⟩
  · exact absurd hsame hchange
  · exact hcan
  · obtain ⟨-, hle, hactive⟩ := horderly o ho
    rw [hfilled, OrderState.canTransitionTo_filled]
    exact hactive (le_antisymm hle hwhole)

/-- An operation is respected exactly if it is orderly. -/
theorem Consistent.respects_iff (hnew : a.DrawsNew op) : a.Respects op ↔ a.Orderly op := by
  refine ⟨h.orderly_of_respects, fun horderly => ?_⟩
  have honce := h.once_of_orderly horderly
  refine ⟨fun _ _ _ => h.allowed_of_orderly hnew horderly, fun _ _ => h.sizes_of_orderly horderly, honce, ?_⟩
  have hcounted : (a.step op).counted ⊆ (a.step op).drawn := fun _ hid => h.counted_drawn_step hid
  have hcreated : (a.step op).orders.stats.totalCreated = (a.step op).drawn.length := h.created_step
  rw [h.closed_step, hcreated]
  exact (List.subperm_of_subset honce hcounted).length_le

end Step

/-- With fresh ids, every order of an audit is added under an id that was never drawn. -/
theorem throughout_drawsNew {ops : List OrderOp} (hfresh : OrderOp.FreshIds ops)
    (hunknown : ∀ id ∈ ops.filterMap OrderOp.addedId, id ∉ a.drawn) : Throughout step DrawsNew a ops := by
  induction ops generalizing a with
  | nil => trivial
  | cons op ops ih =>
    obtain ⟨hrest, hfirst⟩ := hfresh.of_cons
    refine ⟨fun id hid => hunknown id (List.mem_filterMap.mpr ⟨op, List.mem_cons_self, hid⟩), ?_⟩
    refine ih hrest fun id hid hdrawn => ?_
    rcases List.mem_append.mp hdrawn with hadd | hold
    · exact hfirst id (Option.mem_toList.mp hadd) hid
    · exact hunknown id (OrderOp.mem_addedIds_cons hid) hold

/-- The store of an audit is that of the run. -/
theorem orders_foldl (a : Audit) (ops : List OrderOp) :
    (ops.foldl step a).orders = ops.foldl OrderOp.apply a.orders := by
  induction ops generalizing a with
  | nil => rfl
  | cons op ops ih => exact ih (a.step op)

/-- In every run with fresh local ids and any fill sizes, each operation changes states by allowed steps only, keeps the
filled sizes within the original ones and counts no order twice, exactly if each call is orderly. The audit's store is
that of the run. -/
theorem lifecycle_respected_iff (ops : List OrderOp) (hfresh : OrderOp.FreshIds ops) :
    (ops.foldl step start).orders = run ops ∧
      (Throughout step Respects start ops ↔ Throughout step Orderly start ops) := by
  refine ⟨orders_foldl start ops, ?_⟩
  refine throughout_congr_of Consistent ?_ ?_ consistent_start (throughout_drawsNew hfresh fun _ _ => List.not_mem_nil)
  · intro a op h hnew hrespects
    exact h.step hnew hrespects
  · intro a op h hnew
    exact h.respects_iff hnew

private def ackedOrder : List OrderOp :=
  [.add 1 "yes" .Buy (1 / 2) 100 none 0, .transition 1 .Signed 1, .transition 1 .Submitted 2, .transition 1 .Acked 3]

private def filledInTwo : List OrderOp := ackedOrder ++ [.linkOrderId 1 "x1" 4, .applyFill 1 40 5, .applyFill 1 60 6]

theorem filled_in_two_respects : Throughout step Respects start filledInTwo := by
  have hfresh : OrderOp.FreshIds filledInTwo := by
    unfold OrderOp.FreshIds
    decide
  exact (lifecycle_respected_iff filledInTwo hfresh).2.mpr (by decide +kernel)

/-- An order whose fill arrives after it was cancelled. -/
private def cancelledInTime : List OrderOp := ackedOrder ++ [.transition 1 .Cancelled 4]

/-- The late fill takes the order from cancelled to filled, and the counters count two closed orders of one created. -/
theorem late_fill_is_counted_twice :
    let before := run cancelledInTime
    let after := run (cancelledInTime ++ [.applyFill 1 100 5])
    (before.getByLocalId 1).map (·.state) = some .Cancelled ∧ (after.getByLocalId 1).map (·.state) = some .Filled ∧
      OrderState.Cancelled.canTransitionTo .Filled = false ∧
      after.stats.totalFilled + after.stats.totalCancelled + after.stats.totalRejected = 2 ∧
      after.stats.totalCreated = 1 ∧ OrderOp.FreshIds (cancelledInTime ++ [.applyFill 1 100 5]) ∧
      ¬Throughout step Respects start (cancelledInTime ++ [.applyFill 1 100 5]) := by
  refine ⟨by decide +kernel, by decide +kernel, rfl, by decide +kernel, by decide +kernel, ?_, ?_⟩
  · unfold OrderOp.FreshIds
    decide
  · rintro ⟨-, -, -, -, -, hfill, -⟩
    exact absurd hfill.closed_le (by decide +kernel)

end OpenOrders.Audit

end PolyBot
