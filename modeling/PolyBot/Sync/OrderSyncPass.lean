import PolyBot.Ledger.ServerCancel
import PolyBot.Sync.OrderSync

/-! What one pass of the order sync leaves of the ledger: the orders that the exchange did not list are cancelled and
their cash is free, in whatever order the pass goes through them. -/

namespace PolyBot.Sync.OrderSyncPass
open General.KeyedStore Ledger OpenOrders ReservedCash ServerCancel

def cancelEach (l : Ledger) (ids : List OrderId) (now : Timestamp) : Ledger :=
  ids.foldl (fun l x => (l.applyServerCancel x now).2) l

theorem syncOrders_eq (l : Ledger) (serverIds : List OrderId) (now : Timestamp) :
    syncOrders l serverIds now = cancelEach l (ghosts l serverIds) now := rfl

def LinkedTo (ids : List OrderId) (o : TrackedOrder) : Prop := ∃ x ∈ ids, o.orderId = some x

def Unlisted (serverIds : List OrderId) (o : TrackedOrder) : Prop := ∃ x ∈ o.orderId, x ∉ serverIds

instance (ids : List OrderId) (o : TrackedOrder) : Decidable (LinkedTo ids o) :=
  inferInstanceAs (Decidable (∃ x ∈ ids, _))

instance (serverIds : List OrderId) (o : TrackedOrder) : Decidable (Unlisted serverIds o) :=
  match h : o.orderId with
  | none => .isFalse (by simp [Unlisted, h])
  | some x => decidable_of_iff (x ∉ serverIds) (by simp [Unlisted, h])

def sweep (ids : List OrderId) (now : Timestamp) (o : TrackedOrder) : TrackedOrder :=
  if o.state.isActive ∧ LinkedTo ids o then cancelled o now else o

/-- The indexes agree, no active order has a negative notional left, and the reserved cash is what the active orders
hold. -/
structure InOrder (l : Ledger) : Prop where
  agree : l.orders.IndexesAgree
  nonneg : ∀ o ∈ l.orders.activeOrders, 0 ≤ o.remainingNotional
  matched : ReservedMatches l

/-- Nothing of the ledger changes but the orders and the cells of the cash. -/
structure Sweeps (l l' : Ledger) (ids : List OrderId) (now : Timestamp) : Prop where
  byLocalId : ∀ id, l'.orders.getByLocalId id = (l.orders.getByLocalId id).map (sweep ids now)
  active : l'.orders.activeOrders.Perm (l.orders.activeOrders.filter fun o => ¬LinkedTo ids o)
  counted : l'.orders.totalCancelled + l'.orders.activeCount = l.orders.totalCancelled + l.orders.activeCount
  total : l'.cash.total = l.cash.total
  positions : l'.positions = l.positions
  fills : l'.fills = l.fills
  seenFillIds : l'.seenFillIds = l.seenFillIds
  inOrder : InOrder l'

variable {l l' l'' : Ledger} {x : OrderId} {ids : List OrderId} {now : Timestamp}

theorem linkedTo_cons {o : TrackedOrder} : LinkedTo (x :: ids) o ↔ o.orderId = some x ∨ LinkedTo ids o := by
  simp [LinkedTo]

theorem sweep_of_linked {o : TrackedOrder} (hactive : o.state.isActive = true) (h : LinkedTo ids o) :
    sweep ids now o = cancelled o now := if_pos ⟨hactive, h⟩

theorem sweep_of_not_linked {o : TrackedOrder} (h : ¬LinkedTo ids o) : sweep ids now o = o :=
  if_neg fun hboth => h hboth.2

theorem sweep_of_inactive {o : TrackedOrder} (h : o.state.isActive = false) : sweep ids now o = o :=
  if_neg fun hboth => Bool.false_ne_true (h.symm.trans hboth.1)

theorem sweep_cons (x : OrderId) (ids : List OrderId) (now : Timestamp) (o : TrackedOrder) :
    sweep ids now (sweep [x] now o) = sweep (x :: ids) now o := by
  by_cases hactive : o.state.isActive = true
  · by_cases hx : o.orderId = some x
    · rw [sweep_of_linked hactive (linkedTo_cons.mpr (.inl hx)), sweep_of_linked hactive (linkedTo_cons.mpr (.inl hx))]
      exact sweep_of_inactive rfl
    · have hother : ¬LinkedTo [x] o := by simp [LinkedTo, hx]
      rw [sweep_of_not_linked hother]
      simp only [sweep, linkedTo_cons, hx, false_or]
  · have hinactive : o.state.isActive = false := Bool.eq_false_of_not_eq_true hactive
    have hkept : ∀ ids, sweep ids now o = o := fun _ => sweep_of_inactive hinactive
    rw [hkept [x], hkept, hkept]

theorem Sweeps.refl (h : InOrder l) (now : Timestamp) : Sweeps l l [] now where
  byLocalId localId := by
    have hsame : sweep [] now = id := funext fun o => sweep_of_not_linked (by simp [LinkedTo])
    rw [hsame, Option.map_id]
    rfl
  active := by simp [LinkedTo]
  counted := rfl
  total := rfl
  positions := rfl
  fills := rfl
  seenFillIds := rfl
  inOrder := h

theorem Sweeps.trans (h : Sweeps l l' [x] now) (h' : Sweeps l' l'' ids now) : Sweeps l l'' (x :: ids) now where
  byLocalId localId := by
    rw [h'.byLocalId, h.byLocalId, Option.map_map]
    congr 1
    funext o
    exact sweep_cons x ids now o
  active := by
    refine h'.active.trans ((h.active.filter _).trans (.of_eq ?_))
    rw [List.filter_filter]
    refine List.filter_congr fun o _ => ?_
    rw [Bool.eq_iff_iff]
    simp [LinkedTo, and_comm]
  counted := h'.counted.trans h.counted
  total := h'.total.trans h.total
  positions := h'.positions.trans h.positions
  fills := h'.fills.trans h.fills
  seenFillIds := h'.seenFillIds.trans h.seenFillIds
  inOrder := h'.inOrder

theorem eq_of_linked {os : OpenOrders} (h : os.IndexesAgree) {id : Uuid} {o p : TrackedOrder}
    (hget : os.getByOrderId x = some o) (hp : os.getByLocalId id = some p) (hlink : p.orderId = some x) :
    p = o ∧ id = o.localId := by
  have hsame : some p = some o := (h.lookup_link hp hlink).symm.trans hget
  obtain rfl := Option.some.inj hsame
  exact ⟨rfl, (h.keyed id p hp).symm⟩

/-- The cancelled order leaves the active orders, and no other active order is linked to its exchange id. -/
theorem active_afterCancel (hagree : l.orders.IndexesAgree) {o : TrackedOrder} (hget : l.orders.getByOrderId x = some o)
    (hactive : o.state.isActive = true) (now : Timestamp) : ∃ rest, l.orders.activeOrders.Perm (o :: rest) ∧
      (afterCancel l o now).orders.activeOrders = rest ∧ ∀ p ∈ rest, p.orderId ≠ some x := by
  obtain ⟨hlocal, -⟩ := hagree.lookup_key hget
  obtain ⟨hbyLocal, -⟩ := orders_afterCancel now hagree hget hactive
  refine ⟨(values (l.orders.byLocalId.erase o.localId)).filter (·.state.isActive), ?_, ?_, fun p hp hlink => ?_⟩
  · have hperm := (values_perm_of_lookup hlocal).filter (·.state.isActive)
    rwa [List.filter_cons_of_pos (p := fun p : TrackedOrder => p.state.isActive) hactive] at hperm
  · rw [activeOrders, hbyLocal, values_insert, List.filter_cons_of_neg]
    simp [cancelled, OrderState.isActive]
  · obtain ⟨id, hid⟩ := mem_values_iff.mp (List.mem_of_mem_filter hp)
    have hne : id ≠ o.localId := by
      rintro rfl
      rw [AList.lookup_erase] at hid
      cases hid
    rw [AList.lookup_erase_ne hne] at hid
    exact hne (eq_of_linked hagree hget hid hlink).2

/-- The step lemma: one call of the server-side cancel. -/
theorem sweeps_applyServerCancel (h : InOrder l) (x : OrderId) (now : Timestamp) :
    Sweeps l (l.applyServerCancel x now).2 [x] now := by
  have hlinkedTo : ∀ p : TrackedOrder, LinkedTo [x] p ↔ p.orderId = some x := by simp [LinkedTo]
  by_cases hlinked : ∃ o, l.orders.getByOrderId x = some o ∧ o.state.isActive = true
  · obtain ⟨o, hget, hactive⟩ := hlinked
    rw [applyServerCancel_active now hget hactive]
    have hcancels := afterCancel_cancels h.agree hget hactive h.nonneg h.matched now
    obtain ⟨hlocal, hlink⟩ := h.agree.lookup_key hget
    obtain ⟨rest, hbefore, hafter, hother⟩ := active_afterCancel h.agree hget hactive now
    have hcancelled : (afterCancel l o now).orders.totalCancelled = l.orders.totalCancelled + 1 := by
      have hcan : o.state.canTransitionTo .Cancelled = true := OrderState.canTransitionTo_cancelled o.state ▸ hactive
      have hlocal' : l.orders.getByLocalId o.localId = some o := hlocal
      simp only [afterCancel, OrderOp.apply, transition, hlocal', hcan, if_true]
    refine ⟨fun id => ?_, ?_, ?_, hcancels.only.total, rfl, rfl, rfl, hcancels.agree, fun p hp => ?_, hcancels.matched⟩
    · by_cases hid : id = o.localId
      · have hlocal' : l.orders.getByLocalId id = some o := hid ▸ hlocal
        rw [hlocal', hid, hcancels.byLocalId, Option.map_some, sweep_of_linked hactive ((hlinkedTo o).mpr hlink)]
      · rw [hcancels.only.otherLocal id hid]
        cases hp : l.orders.getByLocalId id with
        | none => rfl
        | some p =>
          have hnot : ¬LinkedTo [x] p := fun hlink =>
            hid (eq_of_linked h.agree hget hp ((hlinkedTo p).mp hlink)).2
          rw [Option.map_some, sweep_of_not_linked hnot]
    · have hkept : ((o :: rest).filter fun p => ¬LinkedTo [x] p) = rest := by
        rw [List.filter_cons_of_neg (by simpa [hlinkedTo] using hlink), List.filter_eq_self]
        exact fun p hp => decide_eq_true ((hlinkedTo p).not.mpr (hother p hp))
      rw [hafter]
      exact .trans (.of_eq hkept.symm) (hbefore.filter _).symm
    · rw [hcancelled, activeCount, hafter, activeCount, hbefore.length_eq, List.length_cons]
      omega
    · rw [hafter] at hp
      exact h.nonneg p (hbefore.mem_iff.mpr (List.mem_cons_of_mem o hp))
  · have hinactive : ∀ o, l.orders.getByOrderId x = some o → o.state.isActive = false := by
      intro o hget
      by_contra hactive
      exact hlinked ⟨o, hget, Bool.eq_true_of_not_eq_false hactive⟩
    rw [applyServerCancel_inactive now hinactive]
    refine ⟨fun id => ?_, ?_, rfl, rfl, rfl, rfl, rfl, h⟩
    · cases hp : l.orders.getByLocalId id with
      | none => rfl
      | some p =>
        rw [Option.map_some]
        by_cases hlink : p.orderId = some x
        · rw [sweep_of_inactive (hinactive p (h.agree.lookup_link hp hlink))]
        · rw [sweep_of_not_linked ((hlinkedTo p).not.mpr hlink)]
    · have hnone : ∀ p ∈ l.orders.activeOrders, ¬LinkedTo [x] p := fun p hp hlink =>
        hlinked ((active_of_linked h.agree).mpr ⟨p, hp, (hlinkedTo p).mp hlink⟩)
      exact .of_eq (List.filter_eq_self.mpr fun p hp => decide_eq_true (hnone p hp)).symm

/-- The run lemma. -/
theorem sweeps_cancelEach (h : InOrder l) (ids : List OrderId) (now : Timestamp) :
    Sweeps l (cancelEach l ids now) ids now := by
  induction ids generalizing l with
  | nil => exact .refl h now
  | cons x ids ih =>
    have hone := sweeps_applyServerCancel h x now
    exact hone.trans (ih hone.inOrder)

theorem sweep_ids (ids : List OrderId) (now : Timestamp) (o : TrackedOrder) :
    (sweep ids now o).localId = o.localId ∧ (sweep ids now o).orderId = o.orderId := by
  unfold sweep
  split <;> exact ⟨rfl, rfl⟩

/-- The copies under the exchange ids follow. -/
theorem Sweeps.byOrderId (h : Sweeps l l' ids now) (hagree : l.orders.IndexesAgree) (x : OrderId) :
    l'.orders.getByOrderId x = (l.orders.getByOrderId x).map (sweep ids now) := by
  refine Option.ext fun a => ?_
  rw [Option.map_eq_some_iff]
  constructor
  · intro ha
    obtain ⟨hlocal, hlink⟩ := h.inOrder.agree.lookup_key ha
    obtain ⟨o, ho, rfl⟩ := Option.map_eq_some_iff.mp ((h.byLocalId a.localId).symm.trans hlocal)
    exact ⟨o, hagree.lookup_link ho ((sweep_ids ids now o).2 ▸ hlink), rfl⟩
  · rintro ⟨o, ho, rfl⟩
    obtain ⟨hlocal, hlink⟩ := hagree.lookup_key ho
    have hswept : l'.orders.getByLocalId o.localId = some (sweep ids now o) := by
      rw [h.byLocalId]
      exact congrArg (Option.map (sweep ids now)) hlocal
    exact h.inOrder.agree.lookup_link hswept ((sweep_ids ids now o).2.trans hlink)

def gone (l : Ledger) (serverIds : List OrderId) : List TrackedOrder :=
  l.orders.activeOrders.filter (Unlisted serverIds)

section Pass
variable {serverIds order : List OrderId} (horder : order.Perm (ghosts l serverIds))
include horder

theorem linkedTo_order_iff {o : TrackedOrder} (ho : o ∈ l.orders.activeOrders) :
    LinkedTo order o ↔ Unlisted serverIds o := by
  constructor
  · rintro ⟨x, hx, hlink⟩
    exact ⟨x, hlink, (OrderSync.mem_ghosts_iff.mp (horder.mem_iff.mp hx)).2⟩
  · rintro ⟨x, hlink, hx⟩
    exact ⟨x, horder.mem_iff.mpr (OrderSync.mem_ghosts_iff.mpr ⟨⟨o, ho, hlink⟩, hx⟩), hlink⟩

theorem sweep_order {id : Uuid} {o : TrackedOrder} (ho : l.orders.getByLocalId id = some o) (now : Timestamp) :
    sweep order now o = if o ∈ gone l serverIds then cancelled o now else o := by
  by_cases hactive : o.state.isActive = true
  · have hmem : o ∈ l.orders.activeOrders := List.mem_filter.mpr ⟨mem_values_iff.mpr ⟨id, ho⟩, hactive⟩
    have hgone : o ∈ gone l serverIds ↔ Unlisted serverIds o := by
      rw [gone, List.mem_filter, decide_eq_true_iff]
      exact and_iff_right hmem
    simp only [sweep, linkedTo_order_iff horder hmem, hgone, hactive, true_and]
  · have hnot : o ∉ gone l serverIds := fun hmem => hactive (List.mem_filter.mp (List.mem_of_mem_filter hmem)).2
    rw [sweep_of_inactive (Bool.eq_false_of_not_eq_true hactive), if_neg hnot]

/-- The pass splits the active orders into those that go and those that stay. -/
theorem active_cancelEach (h : InOrder l) (now : Timestamp) :
    l.orders.activeOrders.Perm (gone l serverIds ++ (cancelEach l order now).orders.activeOrders) := by
  have hstay : (l.orders.activeOrders.filter fun o => ¬LinkedTo order o) =
      l.orders.activeOrders.filter fun o => !decide (Unlisted serverIds o) :=
    List.filter_congr fun o ho => by simp [linkedTo_order_iff horder ho]
  refine ((List.filter_append_perm (Unlisted serverIds ·) l.orders.activeOrders).symm).trans ?_
  exact .append_left _ (hstay ▸ (sweeps_cancelEach h order now).active.symm)

theorem ghosts_cancelEach (h : InOrder l) (now : Timestamp) : ghosts (cancelEach l order now) serverIds = [] := by
  rw [List.eq_nil_iff_forall_not_mem]
  intro x hx
  obtain ⟨⟨o, ho, hlink⟩, hx⟩ := OrderSync.mem_ghosts_iff.mp hx
  obtain ⟨hactive, hnot⟩ := List.mem_filter.mp ((sweeps_cancelEach h order now).active.mem_iff.mp ho)
  exact of_decide_eq_true hnot ((linkedTo_order_iff horder hactive).mpr ⟨x, hlink, hx⟩)

end Pass

/-- From any ledger whose indexes agree, whose active orders have no negative notional left and whose reserved cash is
what they hold, a pass in any order cancels exactly the active orders with an exchange id that is not listed, under both
indexes, counts them, and moves exactly their remaining notional from the reserved to the available cash. Nothing else
changes, the ledger is again as the pass found it in these respects, and a second pass with the same list changes
nothing. -/
theorem order_sync_pass_exact (l : Ledger) (serverIds order : List OrderId) (now now' : Timestamp)
    (horder : order.Perm (ghosts l serverIds)) (hagree : l.orders.IndexesAgree)
    (hnonneg : ∀ o ∈ l.orders.activeOrders, 0 ≤ o.remainingNotional) (hmatch : ReservedMatches l) :
    let after := cancelEach l order now
    let cancel o := if o ∈ gone l serverIds then cancelled o now else o
    let freed := ((gone l serverIds).map (·.remainingNotional)).sum
    (∀ id, after.orders.getByLocalId id = (l.orders.getByLocalId id).map cancel) ∧
      (∀ x, after.orders.getByOrderId x = (l.orders.getByOrderId x).map cancel) ∧
      after.orders.totalCancelled = l.orders.totalCancelled + (gone l serverIds).length ∧
      after.cash = ⟨l.cash.available + freed, l.cash.reserved - freed⟩ ∧
      after.positions = l.positions ∧ after.fills = l.fills ∧ after.seenFillIds = l.seenFillIds ∧
      InOrder after ∧ syncOrders after serverIds now' = after := by
  intro after cancel freed
  have h : InOrder l := ⟨hagree, hnonneg, hmatch⟩
  have hsweeps : Sweeps l after order now := sweeps_cancelEach h order now
  have hsplit := active_cancelEach horder h now
  have hlocal : ∀ {id o}, l.orders.getByLocalId id = some o → sweep order now o = cancel o :=
    fun ho => sweep_order horder ho now
  refine ⟨fun id => ?_, fun x => ?_, ?_, ?_, hsweeps.positions, hsweeps.fills, hsweeps.seenFillIds, hsweeps.inOrder, ?_⟩
  · rw [hsweeps.byLocalId]
    exact Option.map_congr fun o ho => hlocal ho
  · rw [hsweeps.byOrderId hagree]
    exact Option.map_congr fun o ho => hlocal (hagree.lookup_key ho).1
  · have hcounted := hsweeps.counted
    have hlength := hsplit.length_eq
    rw [List.length_append] at hlength
    unfold activeCount at hcounted
    change l.orders.activeOrders.length = (gone l serverIds).length + after.orders.activeOrders.length at hlength
    omega
  · have hreserved : l.cash.reserved = freed + after.cash.reserved := by
      rw [← hmatch, ← hsweeps.inOrder.matched, totalReservedNotional, (hsplit.map _).sum_eq, List.map_append,
        List.sum_append]
      rfl
    have htotal := hsweeps.total
    rw [CashBalance.total, CashBalance.total] at htotal
    have hcells : after.cash.available = l.cash.available + freed ∧ after.cash.reserved = l.cash.reserved - freed := by
      constructor <;> linarith
    rw [← hcells.1, ← hcells.2]
  · rw [syncOrders_eq, ghosts_cancelEach horder h]
    rfl

private def twoLinked : List OrderOp :=
  [.add 1 "yes" .Buy (1 / 2) 100 none 0, .transition 1 .Signed 1, .transition 1 .Submitted 1, .transition 1 .Acked 1,
    .linkOrderId 1 "x1" 1, .add 2 "no" .Buy (1 / 4) 80 none 2, .transition 2 .Signed 3, .transition 2 .Submitted 3,
    .transition 2 .Acked 3, .linkOrderId 2 "x2" 3]

private def twoReserved : Ledger := { Ledger.new 0 with orders := OpenOrders.run twoLinked, cash := ⟨930, 70⟩ }

/-- The exchange lists the first alone, and the 20 of the second are free. -/
theorem unlisted_purchase_is_freed :
    (syncOrders twoReserved ["x1"] 9).cash = ⟨950, 50⟩ ∧ InOrder (syncOrders twoReserved ["x1"] 9) := by
  have hfresh : OrderOp.FreshIds twoLinked := by
    unfold OrderOp.FreshIds
    decide
  have hagree : twoReserved.orders.IndexesAgree := indexesAgree_run hfresh (by decide +kernel)
  have hmatch : ReservedMatches twoReserved := by
    unfold ReservedMatches
    decide +kernel
  obtain ⟨-, -, -, hcash, -, -, -, hinOrder, -⟩ :=
    order_sync_pass_exact twoReserved ["x1"] _ 9 10 (.refl _) hagree (by decide +kernel) hmatch
  refine ⟨hcash.trans ?_, hinOrder⟩
  decide +kernel

end PolyBot.Sync.OrderSyncPass
