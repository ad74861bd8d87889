import PolyBot.General.AdditiveRuns
import PolyBot.Ledger.Orders

/-! Runs of the operations on the order store, and what they do to one order. -/

namespace PolyBot
open General.KeyedStore General.AdditiveRuns

inductive OrderOp where
  | add (localId : Uuid) (tokenId : TokenId) (side : Side) (price size : Decimal) (strategyId : Option String)
      (now : Timestamp)
  | linkOrderId (localId : Uuid) (orderId : OrderId) (now : Timestamp)
  | transition (localId : Uuid) (newState : OrderState) (now : Timestamp)
  | applyFill (localId : Uuid) (fillSize : Decimal) (now : Timestamp)
  | removeTerminal

namespace OrderOp

def apply (os : OpenOrders) : OrderOp → OpenOrders
  | add localId tokenId side price size strategyId now =>
    os.add (.new localId tokenId side price size strategyId now)
  | linkOrderId localId orderId now =>
    match os.linkOrderId localId orderId now with
    | .ok os' => os'
    | .error _ => os
  | transition localId newState now =>
    match os.transition localId newState now with
    | .ok (_, os') => os'
    | .error _ => os
  | applyFill localId fillSize now =>
    match os.applyFill localId fillSize now with
    | .ok (_, os') => os'
    | .error _ => os
  | removeTerminal => os.removeTerminal

def addedId : OrderOp → Option Uuid
  | add localId _ _ _ _ _ _ => some localId
  | _ => none

/-- What an operation does to the order with a given id, whatever the other orders are. -/
def onOrder (op : OrderOp) (id : Uuid) (order : Option TrackedOrder) : Option TrackedOrder :=
  match op with
  | add localId tokenId side price size strategyId now =>
    if id = localId then some (.new localId tokenId side price size strategyId now) else order
  | linkOrderId localId orderId now =>
    if id = localId then order.map fun o => { o with orderId := some orderId, lastUpdate := now } else order
  | transition localId newState now =>
    if id = localId then order.map fun o =>
      if o.state.canTransitionTo newState then { o with state := newState, lastUpdate := now } else o
    else order
  | applyFill localId fillSize now => if id = localId then order.map (·.applyFill fillSize now) else order
  | removeTerminal => order.filter fun o => !o.state.isTerminal

/-- How an operation leaves an order under an id: as a new one, as it was, or changed. -/
inductive Leaves (id : Uuid) (order : Option TrackedOrder) : OrderOp → TrackedOrder → Prop where
  | added (tokenId : TokenId) (side : Side) (price size : Decimal) (strategyId : Option String) (now : Timestamp) :
    Leaves id order (.add id tokenId side price size strategyId now) (.new id tokenId side price size strategyId now)
  | kept {op : OrderOp} {o : TrackedOrder} (h : o ∈ order) : Leaves id order op o
  | linked {o : TrackedOrder} (h : o ∈ order) (orderId : OrderId) (now : Timestamp) :
    Leaves id order (.linkOrderId id orderId now) { o with orderId := some orderId, lastUpdate := now }
  | moved {o : TrackedOrder} (h : o ∈ order) (newState : OrderState) (now : Timestamp)
      (hcan : o.state.canTransitionTo newState = true) :
    Leaves id order (.transition id newState now) { o with state := newState, lastUpdate := now }
  | filled {o : TrackedOrder} (h : o ∈ order) (fillSize : Decimal) (now : Timestamp) :
    Leaves id order (.applyFill id fillSize now) (o.applyFill fillSize now)

theorem leaves_of_mem_onOrder {op : OrderOp} {id : Uuid} {order : Option TrackedOrder} {o : TrackedOrder}
    (h : o ∈ op.onOrder id order) : Leaves id order op o := by
  cases op with
  | add localId tokenId side price size strategyId now =>
    dsimp only [onOrder] at h
    split at h
    · rename_i hid
      subst hid
      cases h
      exact .added tokenId side price size strategyId now
    · exact .kept h
  | linkOrderId localId orderId now =>
    dsimp only [onOrder] at h
    split at h
    · rename_i hid
      subst hid
      obtain ⟨p, hp, rfl⟩ := Option.map_eq_some_iff.mp h
      exact .linked hp orderId now
    · exact .kept h
  | transition localId newState now =>
    dsimp only [onOrder] at h
    split at h
    · rename_i hid
      subst hid
      obtain ⟨p, hp, rfl⟩ := Option.map_eq_some_iff.mp h
      split
      · rename_i hcan
        exact .moved hp newState now hcan
      · exact .kept hp
    · exact .kept h
  | applyFill localId fillSize now =>
    dsimp only [onOrder] at h
    split at h
    · rename_i hid
      subst hid
      obtain ⟨p, hp, rfl⟩ := Option.map_eq_some_iff.mp h
      exact .filled hp fillSize now
    · exact .kept h
  | removeTerminal => exact .kept (Option.filter_eq_some_iff.mp h).1

/-- An operation keeps the id of the order it changes. -/
theorem localId_onOrder {op : OrderOp} {id : Uuid} {order : Option TrackedOrder}
    (h : ∀ o ∈ order, o.localId = id) : ∀ o ∈ op.onOrder id order, o.localId = id := by
  intro o ho
  cases leaves_of_mem_onOrder ho with
  | added tokenId side price size strategyId now => rfl
  | kept hp | linked hp orderId now | moved hp newState now hcan | filled hp fillSize now =>
    have hkeep := h _ hp
    exact hkeep

/-- An order that is not there stays away until it is added. -/
theorem onOrder_none {op : OrderOp} {id : Uuid} (h : op.addedId ≠ some id) : op.onOrder id none = none := by
  cases op with
  | add localId tokenId side price size strategyId now =>
    have hne : id ≠ localId := fun heq => h (congrArg some heq.symm)
    exact if_neg hne
  | removeTerminal => rfl
  | _ => exact ite_self _

def FreshIds (ops : List OrderOp) : Prop := (ops.filterMap addedId).Nodup

/-- The first operation adds no id that a later one adds. -/
theorem FreshIds.of_cons {op : OrderOp} {ops : List OrderOp} (h : FreshIds (op :: ops)) :
    FreshIds ops ∧ ∀ id, op.addedId = some id → id ∉ ops.filterMap addedId := by
  have hrest : (ops.filterMap addedId).Sublist ((op :: ops).filterMap addedId) :=
    (List.sublist_cons_self op ops).filterMap _
  refine ⟨hrest.nodup h, fun id hadd => ?_⟩
  unfold FreshIds at h
  rw [List.filterMap_cons_some hadd] at h
  exact (List.nodup_cons.mp h).1

theorem mem_addedIds_cons {op : OrderOp} {ops : List OrderOp} {id : Uuid} (h : id ∈ ops.filterMap addedId) :
    id ∈ (op :: ops).filterMap addedId :=
  ((List.sublist_cons_self op ops).filterMap _).subset h

end OrderOp

namespace OpenOrders

def Keyed (os : OpenOrders) : Prop := ∀ id, ∀ o ∈ os.getByLocalId id, o.localId = id

theorem getByLocalId_remove (os : OpenOrders) (localId id : Uuid) :
    (os.remove localId).getByLocalId id = if id = localId then none else os.getByLocalId id := by
  unfold remove
  by_cases hid : id = localId
  · subst hid
    rw [if_pos rfl]
    cases hget : os.getByLocalId id with
    | none => exact hget
    | some order => exact AList.lookup_erase _ _
  · rw [if_neg hid]
    cases os.getByLocalId localId with
    | none => rfl
    | some order => exact AList.lookup_erase_ne hid

theorem getByLocalId_foldl_remove (localIds : List Uuid) (os : OpenOrders) (id : Uuid) :
    (localIds.foldl remove os).getByLocalId id = if id ∈ localIds then none else os.getByLocalId id := by
  induction localIds generalizing os with
  | nil => simp
  | cons localId localIds ih =>
    rw [List.foldl_cons, ih, getByLocalId_remove]
    by_cases hid : id = localId
    · simp [hid]
    · simp [hid]

theorem mem_terminal_iff {os : OpenOrders} (h : os.Keyed) (id : Uuid) :
    id ∈ ((values os.byLocalId).filter (·.state.isTerminal)).map (·.localId) ↔
      ∃ o ∈ os.getByLocalId id, o.state.isTerminal = true := by
  simp only [List.mem_map, List.mem_filter]
  constructor
  · rintro ⟨o, ⟨hvalue, hterminal⟩, rfl⟩
    obtain ⟨id, hid⟩ := mem_values_iff.mp hvalue
    have hkey := h id o hid
    subst hkey
    exact ⟨o, hid, hterminal⟩
  · rintro ⟨o, ho, hterminal⟩
    exact ⟨o, ⟨mem_values_iff.mpr ⟨id, ho⟩, hterminal⟩, h id o ho⟩

theorem getByLocalId_removeTerminal {os : OpenOrders} (h : os.Keyed) (id : Uuid) :
    os.removeTerminal.getByLocalId id = (os.getByLocalId id).filter fun o => !o.state.isTerminal := by
  rw [removeTerminal, getByLocalId_foldl_remove]
  cases hget : os.getByLocalId id with
  | none => simp
  | some o =>
    cases hterminal : o.state.isTerminal with
    | true =>
      rw [if_pos ((mem_terminal_iff h id).mpr ⟨o, hget, hterminal⟩), Option.filter_some, hterminal]
      rfl
    | false =>
      rw [if_neg, Option.filter_some, hterminal]
      · rfl
      · intro hmem
        obtain ⟨p, hp, hyes⟩ := (mem_terminal_iff h id).mp hmem
        obtain rfl := Option.some.inj (hget.symm.trans hp)
        rw [hterminal] at hyes
        cases hyes

/-- A change that leaves the stored order as it is, or has no order to change, changes nothing. -/
theorem getByLocalId_keep {os : OpenOrders} {localId : Uuid} {g : TrackedOrder → TrackedOrder}
    (hkeep : ∀ o ∈ os.getByLocalId localId, g o = o) (id : Uuid) :
    os.getByLocalId id = if id = localId then (os.getByLocalId id).map g else os.getByLocalId id := by
  split
  · rename_i hid
    subst hid
    cases hget : os.getByLocalId id with
    | none => rfl
    | some o => rw [Option.map_some, hkeep o hget]
  · rfl

/-- Storing the changed order under its id changes that order alone. -/
theorem getByLocalId_insert {os os' : OpenOrders} {localId : Uuid} {order order' : TrackedOrder}
    {g : TrackedOrder → TrackedOrder} (hget : os.getByLocalId localId = some order) (hg : g order = order')
    (hstore : os'.byLocalId = os.byLocalId.insert localId order') (id : Uuid) :
    os'.getByLocalId id = if id = localId then (os.getByLocalId id).map g else os.getByLocalId id := by
  rw [getByLocalId, hstore]
  split
  · rename_i hid
    subst hid
    rw [hget, AList.lookup_insert, Option.map_some, hg]
  · rename_i hid
    exact AList.lookup_insert_ne hid

/-- Each order changes as if it were alone in the store. -/
theorem getByLocalId_apply {os : OpenOrders} (h : os.Keyed) (op : OrderOp) (id : Uuid) :
    (op.apply os).getByLocalId id = op.onOrder id (os.getByLocalId id) := by
  cases op with
  | add localId tokenId side price size strategyId now =>
    dsimp only [OrderOp.apply, OrderOp.onOrder]
    split
    · rename_i hid
      subst hid
      exact AList.lookup_insert _
    · rename_i hid
      exact AList.lookup_insert_ne hid
  | linkOrderId localId orderId now =>
    dsimp only [OrderOp.apply, OrderOp.onOrder, linkOrderId]
    cases hget : os.getByLocalId localId with
    | none => exact getByLocalId_keep (by simp [hget]) id
    | some order => exact getByLocalId_insert hget rfl rfl id
  | transition localId newState now =>
    dsimp only [OrderOp.apply, OrderOp.onOrder, transition]
    cases hget : os.getByLocalId localId with
    | none => exact getByLocalId_keep (by simp [hget]) id
    | some order =>
      by_cases hcan : order.state.canTransitionTo newState
      · simp only [hcan, if_true]
        refine getByLocalId_insert hget ?_ rfl id
        exact if_pos hcan
      · simp only [hcan]
        refine getByLocalId_keep (fun o ho => ?_) id
        obtain rfl := Option.some.inj (hget.symm.trans ho)
        exact if_neg hcan
  | applyFill localId fillSize now =>
    dsimp only [OrderOp.apply, OrderOp.onOrder, applyFill]
    cases hget : os.getByLocalId localId with
    | none => exact getByLocalId_keep (by simp [hget]) id
    | some order => exact getByLocalId_insert hget rfl rfl id
  | removeTerminal => exact getByLocalId_removeTerminal h id

/-- What an allowed transition stores in the two indexes. -/
theorem apply_transition {os : OpenOrders} {id : Uuid} {o : TrackedOrder} {newState : OrderState}
    (hget : os.getByLocalId id = some o) (hcan : o.state.canTransitionTo newState = true) (now : Timestamp) :
    let os' := (OrderOp.transition id newState now).apply os
    os'.byLocalId = os.byLocalId.insert id { o with state := newState, lastUpdate := now } ∧
      os'.byOrderId = os.mirror o.orderId fun byId => { byId with state := newState, lastUpdate := now } := by
  simp only [OrderOp.apply, transition, hget, hcan, if_true, and_self]

theorem Keyed.apply {os : OpenOrders} (h : os.Keyed) (op : OrderOp) : (op.apply os).Keyed := by
  intro id
  rw [getByLocalId_apply h]
  exact OrderOp.localId_onOrder (h id)

theorem keyed_new : new.Keyed := by
  intro id o ho
  cases ho

def AddsNew (os : OpenOrders) (op : OrderOp) : Prop := ∀ id ∈ op.addedId, os.getByLocalId id = none

theorem unknown_apply {os : OpenOrders} (h : os.Keyed) {op : OrderOp} {id : Uuid} (hadd : op.addedId ≠ some id)
    (hunknown : os.getByLocalId id = none) : (op.apply os).getByLocalId id = none := by
  rw [getByLocalId_apply h, hunknown, OrderOp.onOrder_none hadd]

theorem unknown_foldl {os : OpenOrders} (h : os.Keyed) {ops : List OrderOp} {id : Uuid}
    (hadd : id ∉ ops.filterMap OrderOp.addedId) (hunknown : os.getByLocalId id = none) :
    (ops.foldl OrderOp.apply os).getByLocalId id = none := by
  induction ops generalizing os with
  | nil => exact hunknown
  | cons op ops ih =>
    simp only [List.mem_filterMap, List.mem_cons, exists_eq_or_imp, not_or] at hadd ih
    exact ih (h.apply op) hadd.2 (unknown_apply h hadd.1 hunknown)

/-- With fresh ids, every order of a run is new when it is added. -/
theorem throughout_addsNew {os : OpenOrders} (h : os.Keyed) {ops : List OrderOp} (hfresh : OrderOp.FreshIds ops)
    (hunknown : ∀ id ∈ ops.filterMap OrderOp.addedId, os.getByLocalId id = none) :
    Throughout OrderOp.apply AddsNew os ops := by
  induction ops generalizing os with
  | nil => trivial
  | cons op ops ih =>
    obtain ⟨hrest, hfirst⟩ := hfresh.of_cons
    refine ⟨fun id hid => hunknown id (List.mem_filterMap.mpr ⟨op, List.mem_cons_self, hid⟩), ?_⟩
    refine ih (h.apply op) hrest fun id hid => ?_
    exact unknown_apply h (fun hadd => hfirst id hadd hid) (hunknown id (OrderOp.mem_addedIds_cons hid))

def run (ops : List OrderOp) : OpenOrders := ops.foldl OrderOp.apply .new

end OpenOrders

end PolyBot
