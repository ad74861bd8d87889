import PolyBot.Execution.OrderTracker

namespace PolyBot.Execution.TrackerIndexes
open General.KeyedStore General.GroupedIndex OrderTracker

inductive TrackerOp where
  | track (order : TrackedOrder)
  | onFill (orderId : OrderId) (fillSize : Decimal)
  | remove (orderId : OrderId)

def TrackerOp.apply (t : OrderTracker) : TrackerOp → OrderTracker
  | .track order => t.track order
  | .onFill orderId fillSize => (t.onFill orderId fillSize).2
  | .remove orderId => t.remove orderId

def TrackerOp.tracked? : TrackerOp → Option TrackedOrder
  | .track order => some order
  | _ => none

def trackedIn (ops : List TrackerOp) : List TrackedOrder := ops.filterMap TrackerOp.tracked?

def run (ops : List TrackerOp) : OrderTracker := ops.foldl TrackerOp.apply .new

/-- Tracked orders are under their own id, in their indexes and no others, and not full; the counts differ by them. -/
structure Sound (t : OrderTracker) : Prop where
  keyed : ∀ orderId order, t.orders.lookup orderId = some order → order.orderId = orderId
  byToken : Exact (fun order => some order.tokenId) t.orders t.byToken
  byMarket : Exact (fun order => some order.marketId) t.orders t.byMarket
  byGroup : Exact TrackedOrder.groupId t.orders t.byGroup
  counted : t.totalCompleted + t.activeCount = t.totalTracked
  unfilled : ∀ orderId order, t.orders.lookup orderId = some order → order.filledSize < order.originalSize

theorem sound_new : Sound .new where
  keyed := by simp [new]
  byToken := exact_empty _
  byMarket := exact_empty _
  byGroup := exact_empty _
  counted := rfl
  unfilled := by simp [new]

variable {t : OrderTracker}

theorem Sound.track (h : Sound t) {order : TrackedOrder} (hnew : t.orders.lookup order.orderId = none)
    (hopen : order.filledSize < order.originalSize) : Sound (t.track order) where
  keyed _ _ := forall_lookup_insert h.keyed rfl
  byToken := h.byToken.insert hnew order
  byMarket := h.byMarket.insert hnew order
  byGroup := h.byGroup.insert hnew order
  counted := by
    have hlength : (t.track order).activeCount = t.activeCount + 1 :=
      length_entries_insert_of_lookup_none hnew order
    have hcounted := h.counted
    rw [hlength]
    simp only [OrderTracker.track]
    omega
  unfilled _ _ := forall_lookup_insert h.unfilled hopen

theorem Sound.remove (h : Sound t) (orderId : OrderId) : Sound (t.remove orderId) := by
  cases hlookup : t.orders.lookup orderId with
  | none =>
    rw [remove_of_untracked hlookup]
    exact h
  | some order =>
    rw [remove_of_tracked hlookup]
    exact {
      keyed := fun k o ho => h.keyed k o (lookup_of_lookup_erase ho)
      byToken := h.byToken.erase hlookup
      byMarket := h.byMarket.erase hlookup
      byGroup := h.byGroup.erase hlookup
      counted := by
        have hlength := length_entries_erase_of_lookup hlookup
        have hcounted := h.counted
        simp only [activeCount] at hcounted ⊢
        omega
      unfilled := fun k o ho => h.unfilled k o (lookup_of_lookup_erase ho) }

theorem Sound.onFill (h : Sound t) (orderId : OrderId) (fillSize : Decimal) : Sound (t.onFill orderId fillSize).2 := by
  cases hlookup : t.orders.lookup orderId with
  | none =>
    rw [onFill_of_untracked hlookup]
    exact h
  | some order =>
    rw [onFill_of_tracked hlookup]
    dsimp only
    split
    · exact h.remove orderId
    · rename_i hopen
      rw [TrackedOrder.isFilled_eq_true_iff, not_le] at hopen
      have hid : (order.addFill fillSize).orderId = orderId := h.keyed orderId order hlookup
      exact {
        keyed := fun _ _ => forall_lookup_insert h.keyed hid
        byToken := h.byToken.replace hlookup rfl
        byMarket := h.byMarket.replace hlookup rfl
        byGroup := h.byGroup.replace hlookup rfl
        counted := by
          have hlength := length_entries_insert_of_lookup hlookup (order.addFill fillSize)
          have hcounted := h.counted
          simp only [activeCount] at hcounted ⊢
          omega
        unfilled := fun _ _ => forall_lookup_insert h.unfilled hopen }

/-- An order that is tracked after a call was tracked before it, or the call tracks it. -/
theorem isSome_lookup_apply (op : TrackerOp) {orderId : OrderId}
    (h : ((op.apply t).orders.lookup orderId).isSome = true) :
    (t.orders.lookup orderId).isSome = true ∨ ∃ order, op.tracked? = some order ∧ order.orderId = orderId := by
  have hremove : ∀ k, ((t.remove k).orders.lookup orderId).isSome = true →
      (t.orders.lookup orderId).isSome = true := by
    intro k hk
    cases hlookup : t.orders.lookup k with
    | none => rwa [remove_of_untracked hlookup] at hk
    | some order =>
      rw [remove_of_tracked hlookup] at hk
      obtain ⟨o, ho⟩ := Option.isSome_iff_exists.mp hk
      rw [lookup_of_lookup_erase ho]
      rfl
  cases op with
  | track order =>
    by_cases hid : order.orderId = orderId
    · exact .inr ⟨order, rfl, hid⟩
    · simp only [TrackerOp.apply, OrderTracker.track] at h
      rw [AList.lookup_insert_ne (Ne.symm hid)] at h
      exact .inl h
  | remove k => exact .inl (hremove k h)
  | onFill k fillSize =>
    left
    cases hlookup : t.orders.lookup k with
    | none =>
      rw [TrackerOp.apply, onFill_of_untracked hlookup] at h
      exact h
    | some order =>
      rw [TrackerOp.apply, onFill_of_tracked hlookup] at h
      dsimp only at h
      split at h
      · exact hremove k h
      · by_cases hk : orderId = k
        · rw [hk, hlookup]
          rfl
        · dsimp only at h
          rwa [AList.lookup_insert_ne hk] at h

private theorem trackedIn_concat (ops : List TrackerOp) (op : TrackerOp) :
    trackedIn (ops ++ [op]) = trackedIn ops ++ op.tracked?.toList := by
  rw [trackedIn, List.filterMap_append]
  cases h : op.tracked? <;> simp [trackedIn, h]

theorem mem_trackedIn_of_lookup {ops : List TrackerOp} {orderId : OrderId}
    (h : ((run ops).orders.lookup orderId).isSome = true) : orderId ∈ (trackedIn ops).map (·.orderId) := by
  induction ops using List.reverseRecOn with
  | nil => simp [run, new] at h
  | append_singleton ops op ih =>
    rw [run, List.foldl_concat] at h
    rw [trackedIn_concat, List.map_append, List.mem_append]
    rcases isSome_lookup_apply op h with hold | ⟨order, horder, hid⟩
    · exact .inl (ih hold)
    · right
      simp [horder, hid]

/-- The run lemma: orders that come unfilled, each under an id of its own, keep the tracker sound. -/
theorem sound_run {ops : List TrackerOp} (hids : ((trackedIn ops).map (·.orderId)).Nodup)
    (hopen : ∀ order ∈ trackedIn ops, order.filledSize < order.originalSize) : Sound (run ops) := by
  induction ops using List.reverseRecOn with
  | nil => exact sound_new
  | append_singleton ops op ih =>
    rw [trackedIn_concat, List.map_append] at hids
    rw [trackedIn_concat] at hopen
    have hsound := ih (List.Nodup.of_append_left hids) fun order h => hopen order (List.mem_append_left _ h)
    rw [run, List.foldl_concat]
    cases op with
    | onFill orderId fillSize => exact hsound.onFill orderId fillSize
    | remove orderId => exact hsound.remove orderId
    | track order =>
      refine hsound.track ?_ (hopen order (by simp [TrackerOp.tracked?]))
      rw [← Option.not_isSome_iff_eq_none]
      intro hsome
      exact List.disjoint_of_nodup_append hids (mem_trackedIn_of_lookup hsome) (by simp [TrackerOp.tracked?])

def idsWhere (t : OrderTracker) (p : TrackedOrder → Bool) : Finset OrderId :=
  (((values t.orders).filter p).map (·.orderId)).toFinset

structure IndexesExact (t : OrderTracker) : Prop where
  byToken : ∀ tokenId, t.ordersForToken tokenId = idsWhere t fun order => order.tokenId = tokenId
  byMarket : ∀ marketId, t.ordersForMarket marketId = idsWhere t fun order => order.marketId = marketId
  byGroup : ∀ groupId, t.ordersInGroup groupId = idsWhere t fun order => order.groupId = some groupId
  hasOrderAt : ∀ tokenId side price, t.hasOrderAt tokenId side price =
    (values t.orders).any fun order => order.tokenId = tokenId ∧ order.side = side ∧ order.price = price
  hasOrderFor : ∀ tokenId side, t.hasOrderFor tokenId side =
    (values t.orders).any fun order => order.tokenId = tokenId ∧ order.side = side
  counted : (t.totalTracked : ℤ) - t.totalCompleted = t.activeCount
  unfilled : ∀ order ∈ values t.orders, order.filledSize < order.originalSize

theorem Sound.keysAt_eq_idsWhere (h : Sound t) {ι : Type*} [DecidableEq ι] {group : TrackedOrder → Option ι}
    {index : Store ι (Finset OrderId)} (hindex : Exact group t.orders index) (x : ι) :
    keysAt index x = idsWhere t fun order => group order = some x := by
  ext orderId
  rw [hindex, idsWhere, List.mem_toFinset, List.mem_map, Option.bind_eq_some_iff]
  constructor
  · rintro ⟨order, hlookup, hx⟩
    have hmem : order ∈ values t.orders := mem_values_iff.mpr ⟨orderId, hlookup⟩
    exact ⟨order, List.mem_filter.mpr ⟨hmem, decide_eq_true hx⟩, h.keyed orderId order hlookup⟩
  · rintro ⟨order, hmem, rfl⟩
    obtain ⟨hvalue, hx⟩ := List.mem_filter.mp hmem
    obtain ⟨k, hk⟩ := mem_values_iff.mp hvalue
    rw [h.keyed k order hk]
    exact ⟨order, hk, of_decide_eq_true hx⟩

/-- A search through the orders of a token is a search through the tracked orders. -/
private theorem exists_ordersForToken_iff (h : Sound t) (tokenId : TokenId) (p : TrackedOrder → Bool) :
    (∃ orderId ∈ t.ordersForToken tokenId, (t.orders.lookup orderId).any p = true) ↔
      ∃ order ∈ values t.orders, order.tokenId = tokenId ∧ p order = true := by
  have hsearch := h.byToken.exists_keysAt_iff tokenId fun order => p order = true
  simpa only [ordersForToken, Option.any_eq_true, Option.some.injEq] using hsearch

theorem Sound.indexesExact (h : Sound t) : IndexesExact t where
  byToken tokenId := by
    simpa only [ordersForToken, Option.some.injEq] using h.keysAt_eq_idsWhere h.byToken tokenId
  byMarket marketId := by
    simpa only [ordersForMarket, Option.some.injEq] using h.keysAt_eq_idsWhere h.byMarket marketId
  byGroup groupId := h.keysAt_eq_idsWhere h.byGroup groupId
  hasOrderAt tokenId side price := by
    rw [Bool.eq_iff_iff, OrderTracker.hasOrderAt, decide_eq_true_iff, exists_ordersForToken_iff h, List.any_eq_true]
    simp
  hasOrderFor tokenId side := by
    rw [Bool.eq_iff_iff, OrderTracker.hasOrderFor, decide_eq_true_iff, exists_ordersForToken_iff h, List.any_eq_true]
    simp
  counted := by
    have hcounted := h.counted
    omega
  unfilled order hmem := by
    obtain ⟨orderId, hlookup⟩ := mem_values_iff.mp hmem
    exact h.unfilled orderId order hlookup

/-- Whatever is tracked, filled and removed, the indexes list exactly the tracked orders, as long as orders come with a
size, with nothing filled, and each under an id of its own. -/
theorem indexes_exact_run {ops : List TrackerOp} (hids : ((trackedIn ops).map (·.orderId)).Nodup)
    (hnew : ∀ order ∈ trackedIn ops, 0 < order.originalSize ∧ order.filledSize = 0) : IndexesExact (run ops) := by
  have hopen : ∀ order ∈ trackedIn ops, order.filledSize < order.originalSize := by
    intro order horder
    obtain ⟨hsize, hfilled⟩ := hnew order horder
    rwa [hfilled]
  exact (sound_run hids hopen).indexesExact

private def arbLeg (orderId : OrderId) : TrackedOrder := ⟨orderId, "a", "m", .Buy, 1 / 2, 100, 0, some "g"⟩

theorem indexes_exact_run_arb :
    IndexesExact (run [.track (arbLeg "1"), .track (arbLeg "2"), .onFill "1" 40, .onFill "3" 5, .onFill "2" 100]) :=
  indexes_exact_run (by decide) (by decide +kernel)

end PolyBot.Execution.TrackerIndexes
