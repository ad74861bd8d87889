import PolyBot.Ledger.OrderIndexes
import PolyBot.Ledger.OrderLifecycle
import PolyBot.Ledger.ReservedCash

/-! What a server-side cancel does to the ledger. The release is clamped by the reserved cash and the result of the
transition is thrown away; both are exact while the indexes agree and the reserved cash is what the active orders
hold. -/

namespace PolyBot.Ledger.ServerCancel
open General.KeyedStore General.DualIndex OpenOrders ReservedCash

def cancelled (o : TrackedOrder) (now : Timestamp) : TrackedOrder :=
  { o with state := .Cancelled, lastUpdate := now }

def afterCancel (l : Ledger) (o : TrackedOrder) (now : Timestamp) : Ledger :=
  { l with
    cash := if 0 < o.remainingNotional then (l.cash.release o.remainingNotional).2 else l.cash
    orders := (OrderOp.transition o.localId .Cancelled now).apply l.orders }

structure OnlyCancels (l l' : Ledger) (x : OrderId) (o : TrackedOrder) : Prop where
  total : l'.cash.total = l.cash.total
  positions : l'.positions = l.positions
  fills : l'.fills = l.fills
  seenFillIds : l'.seenFillIds = l.seenFillIds
  otherLocal : ∀ id, id ≠ o.localId → l'.orders.getByLocalId id = l.orders.getByLocalId id
  otherOrder : ∀ y, y ≠ x → l'.orders.getByOrderId y = l.orders.getByOrderId y

variable {l : Ledger} {x : OrderId} {o : TrackedOrder} (now : Timestamp)

theorem applyServerCancel_active (hget : l.orders.getByOrderId x = some o) (hactive : o.state.isActive = true) :
    l.applyServerCancel x now = (true, afterCancel l o now) := by
  unfold applyServerCancel
  rw [hget]
  dsimp only
  rw [if_pos hactive]
  cases hresult : l.orders.transition o.localId .Cancelled now <;> simp [afterCancel, OrderOp.apply, hresult]

theorem applyServerCancel_inactive (h : ∀ o, l.orders.getByOrderId x = some o → o.state.isActive = false) :
    l.applyServerCancel x now = (false, l) := by
  unfold applyServerCancel
  cases hget : l.orders.getByOrderId x with
  | none => rfl
  | some o =>
    have hno := h o hget
    dsimp only
    rw [hno]
    rfl

/-- An exchange id leads to an active order exactly if an active order is linked to it. -/
theorem active_of_linked (hagree : l.orders.IndexesAgree) :
    (∃ o, l.orders.getByOrderId x = some o ∧ o.state.isActive = true) ↔
      ∃ o ∈ l.orders.activeOrders, o.orderId = some x := by
  constructor
  · rintro ⟨o, hget, hactive⟩
    obtain ⟨hlocal, hlink⟩ := hagree.lookup_key hget
    exact ⟨o, List.mem_filter.mpr ⟨mem_values_iff.mpr ⟨o.localId, hlocal⟩, hactive⟩, hlink⟩
  · rintro ⟨o, ho, hlink⟩
    obtain ⟨hvalue, hactive⟩ := List.mem_filter.mp ho
    obtain ⟨id, hid⟩ := mem_values_iff.mp hvalue
    exact ⟨o, hagree.lookup_link hid hlink, hactive⟩

section Active
variable (hagree : l.orders.IndexesAgree) (hget : l.orders.getByOrderId x = some o)
  (hactive : o.state.isActive = true)
include hagree hget hactive

/-- The order is closed in both indexes, and no other order is touched. -/
theorem orders_afterCancel :
    (afterCancel l o now).orders.byLocalId = l.orders.byLocalId.insert o.localId (cancelled o now) ∧
      (afterCancel l o now).orders.getByOrderId x = some (cancelled o now) ∧
      ∀ y, y ≠ x → (afterCancel l o now).orders.getByOrderId y = l.orders.getByOrderId y := by
  obtain ⟨hlocal, hlink⟩ := hagree.lookup_key hget
  have hcan : o.state.canTransitionTo .Cancelled = true := OrderState.canTransitionTo_cancelled o.state ▸ hactive
  obtain ⟨hbyLocal, hbyOrder⟩ := apply_transition hlocal hcan now
  have hmodify : (afterCancel l o now).orders.byOrderId =
      modify x (fun byId => cancelled byId now) l.orders.byOrderId := by
    rw [afterCancel, hbyOrder, hlink]
    rfl
  have hsome : l.orders.byOrderId.lookup x = some o := hget
  refine ⟨hbyLocal, ?_, fun y hy => ?_⟩
  · rw [getByOrderId, hmodify, lookup_modify_self, hsome, Option.map_some]
  · rw [getByOrderId, hmodify, lookup_modify_ne hy, getByOrderId]

/-- The reserved notional of the active orders with one of them set apart. -/
theorem reserved_split : ∃ rest : List TrackedOrder, (∀ p ∈ rest, p ∈ l.orders.activeOrders) ∧
    l.orders.totalReservedNotional = o.remainingNotional + (rest.map (·.remainingNotional)).sum ∧
      (afterCancel l o now).orders.totalReservedNotional = (rest.map (·.remainingNotional)).sum := by
  obtain ⟨hlocal, -⟩ := hagree.lookup_key hget
  obtain ⟨hbyLocal, -⟩ := orders_afterCancel now hagree hget hactive
  let rest := (values (l.orders.byLocalId.erase o.localId)).filter (·.state.isActive)
  have hbefore : l.orders.activeOrders.Perm (o :: rest) := by
    have hperm := (values_perm_of_lookup hlocal).filter (·.state.isActive)
    rwa [List.filter_cons_of_pos (p := fun p : TrackedOrder => p.state.isActive) hactive] at hperm
  have hafter : (afterCancel l o now).orders.activeOrders = rest := by
    rw [activeOrders, hbyLocal, values_insert, List.filter_cons_of_neg]
    simp [cancelled, OrderState.isActive]
  refine ⟨rest, fun p hp => hbefore.mem_iff.mpr (List.mem_cons_of_mem o hp), ?_, ?_⟩
  · rw [totalReservedNotional, (hbefore.map _).sum_eq, List.map_cons, List.sum_cons]
  · rw [totalReservedNotional, hafter]

end Active

/-- The release of an amount that is reserved is exact. -/
theorem release_exact {cash : CashBalance} {amount : Decimal} (hle : amount ≤ cash.reserved) (hnonneg : 0 ≤ amount) :
    (if 0 < amount then (cash.release amount).2 else cash) =
      ⟨cash.available + amount, cash.reserved - amount⟩ := by
  split
  · rename_i hpos
    rw [CashBalance.release, if_neg (not_le.mpr hpos), min_eq_left hle]
  · rename_i hzero
    have heq : amount = 0 := le_antisymm (not_lt.mp hzero) hnonneg
    rw [heq, add_zero, sub_zero]

/-- What the cancel of an active order does: it closes the order, moves its remaining notional between the cells, and
leaves the rest alone. -/
structure Cancels (l l' : Ledger) (x : OrderId) (o : TrackedOrder) (now : Timestamp) : Prop where
  byOrderId : l'.orders.getByOrderId x = some (cancelled o now)
  byLocalId : l'.orders.getByLocalId o.localId = some (cancelled o now)
  reserved : l'.cash.reserved = l.cash.reserved - o.remainingNotional
  available : l'.cash.available = l.cash.available + o.remainingNotional
  only : OnlyCancels l l' x o
  agree : l'.orders.IndexesAgree
  matched : ReservedMatches l'

theorem afterCancel_cancels (hagree : l.orders.IndexesAgree) (hget : l.orders.getByOrderId x = some o)
    (hactive : o.state.isActive = true) (hnonneg : ∀ p ∈ l.orders.activeOrders, 0 ≤ p.remainingNotional)
    (hmatch : ReservedMatches l) (now : Timestamp) : Cancels l (afterCancel l o now) x o now := by
  obtain ⟨hlocal, -⟩ := hagree.lookup_key hget
  obtain ⟨hbyLocal, hself, hother⟩ := orders_afterCancel now hagree hget hactive
  obtain ⟨rest, hrest, hbefore, hleft⟩ := reserved_split now hagree hget hactive
  have hmem : o ∈ l.orders.activeOrders := List.mem_filter.mpr ⟨mem_values_iff.mpr ⟨o.localId, hlocal⟩, hactive⟩
  have hsum : 0 ≤ (rest.map (·.remainingNotional)).sum := by
    apply List.sum_nonneg
    intro y hy
    obtain ⟨p, hp, rfl⟩ := List.mem_map.mp hy
    exact hnonneg p (hrest p hp)
  have hreserved : l.orders.totalReservedNotional = l.cash.reserved := hmatch
  have hle : o.remainingNotional ≤ l.cash.reserved := by
    rw [← hreserved, hbefore]
    linarith
  have hcash : (afterCancel l o now).cash =
      ⟨l.cash.available + o.remainingNotional, l.cash.reserved - o.remainingNotional⟩ :=
    release_exact hle (hnonneg o hmem)
  constructor
  · exact hself
  · rw [getByLocalId, hbyLocal, AList.lookup_insert]
  · rw [hcash]
  · rw [hcash]
  · refine ⟨?_, rfl, rfl, rfl, fun id hid => ?_, hother⟩
    · rw [hcash, CashBalance.total, CashBalance.total]
      ring
    · rw [getByLocalId, hbyLocal, AList.lookup_insert_ne hid, getByLocalId]
  · exact hagree.transition o.localId .Cancelled now
  · rw [ReservedMatches, hleft, hcash, ← hreserved, hbefore]
    ring

/-- From any ledger whose indexes agree, whose active orders have no negative notional left and whose reserved cash is
what they hold, a server-side cancel returns true exactly for a linked active order. It then cancels that order and
moves exactly its remaining notional from the reserved to the available cash, and nothing else changes; otherwise
nothing changes at all, and neither does it on a second call. -/
theorem server_cancel_exact (l : Ledger) (x : OrderId) (now now' : Timestamp) (hagree : l.orders.IndexesAgree)
    (hnonneg : ∀ o ∈ l.orders.activeOrders, 0 ≤ o.remainingNotional) (hmatch : ReservedMatches l) :
    let found := (l.applyServerCancel x now).1
    let after := (l.applyServerCancel x now).2
    (found = true ↔ ∃ o ∈ l.orders.activeOrders, o.orderId = some x) ∧
      (found = true → ∃ o ∈ l.orders.activeOrders, o.orderId = some x ∧ Cancels l after x o now) ∧
      (found = false → after = l) ∧ after.applyServerCancel x now' = (false, after) := by
  intro found after
  rw [← active_of_linked hagree]
  by_cases hlinked : ∃ o, l.orders.getByOrderId x = some o ∧ o.state.isActive = true
  · obtain ⟨o, hget, hactive⟩ := hlinked
    have hcall := applyServerCancel_active now hget hactive
    have hfound : found = true := congrArg Prod.fst hcall
    have hafter : after = afterCancel l o now := congrArg Prod.snd hcall
    obtain ⟨hlocal, hlink⟩ := hagree.lookup_key hget
    have hcancels := afterCancel_cancels hagree hget hactive hnonneg hmatch now
    refine ⟨iff_of_true hfound ⟨o, hget, hactive⟩, fun _ => ⟨o, ?_, hlink, hafter ▸ hcancels⟩, ?_, ?_⟩
    · exact List.mem_filter.mpr ⟨mem_values_iff.mpr ⟨o.localId, hlocal⟩, hactive⟩
    · intro hnot
      rw [hfound] at hnot
      cases hnot
    · apply applyServerCancel_inactive
      intro p hp
      rw [hafter, hcancels.byOrderId] at hp
      rw [← Option.some.inj hp]
      rfl
  · have hinactive : ∀ o, l.orders.getByOrderId x = some o → o.state.isActive = false := by
      intro o hget
      by_contra hactive
      exact hlinked ⟨o, hget, Bool.eq_true_of_not_eq_false hactive⟩
    have hcall := applyServerCancel_inactive now hinactive
    have hfound : found = false := congrArg Prod.fst hcall
    have hafter : after = l := congrArg Prod.snd hcall
    refine ⟨iff_of_false (by rw [hfound]; exact Bool.false_ne_true) hlinked, ?_, fun _ => hafter, ?_⟩
    · intro hyes
      rw [hfound] at hyes
      cases hyes
    · rw [hafter]
      exact applyServerCancel_inactive now' hinactive

private def linkedBuy : List OrderOp :=
  [.add 1 "yes" .Buy (1 / 2) 100 none 0, .transition 1 .Signed 1, .transition 1 .Submitted 2, .transition 1 .Acked 3,
    .linkOrderId 1 "x1" 4]

private def reservedBuy : Ledger := { Ledger.new 0 with orders := OpenOrders.run linkedBuy, cash := ⟨950, 50⟩ }

/-- The fifty dollars are free again, and a second cancel finds nothing. -/
theorem cancel_frees_fifty :
    (reservedBuy.applyServerCancel "x1" 5).2.cash = ⟨1000, 0⟩ ∧ ReservedMatches (reservedBuy.applyServerCancel "x1" 5).2 ∧
      (reservedBuy.applyServerCancel "x1" 5).2.applyServerCancel "x1" 6 =
        (false, (reservedBuy.applyServerCancel "x1" 5).2) := by
  have hfresh : OrderOp.FreshIds linkedBuy := by
    unfold OrderOp.FreshIds
    decide
  have hagree : reservedBuy.orders.IndexesAgree := indexesAgree_run hfresh (by decide +kernel)
  have hmatch : ReservedMatches reservedBuy := by
    unfold ReservedMatches
    decide +kernel
  have hnonneg : ∀ o ∈ reservedBuy.orders.activeOrders, 0 ≤ o.remainingNotional := by decide +kernel
  obtain ⟨-, hcancels, -, hsecond⟩ := server_cancel_exact reservedBuy "x1" 5 6 hagree hnonneg hmatch
  have hfound : (reservedBuy.applyServerCancel "x1" 5).1 = true := by decide +kernel
  obtain ⟨o, -, -, ho⟩ := hcancels hfound
  exact ⟨by decide +kernel, ho.matched, hsecond⟩

end PolyBot.Ledger.ServerCancel
