import Mathlib.Algebra.Order.BigOperators.Group.List
import Mathlib.Data.List.Perm.Basic
import PolyBot.Execution.OrderTracker

namespace PolyBot.Execution.TrackerArrivals
open General.KeyedStore General.GroupedIndex OrderTracker

inductive Arrival where
  | ack
  | fill (size : Decimal)
  deriving DecidableEq

def arrive (order : TrackedOrder) (t : OrderTracker) : Arrival → OrderTracker
  | .ack => t.track order
  | .fill size => (t.onFill order.orderId size).2

def earlyFills : List Arrival → List Decimal
  | [] => []
  | .ack :: _ => []
  | .fill size :: arrivals => size :: earlyFills arrivals

def sizesIn : List Arrival → List Decimal
  | [] => []
  | .ack :: arrivals => sizesIn arrivals
  | .fill size :: arrivals => size :: sizesIn arrivals

def lateFills : List Arrival → List Decimal
  | [] => []
  | .ack :: arrivals => sizesIn arrivals
  | .fill _ :: arrivals => lateFills arrivals

private theorem sizesIn_map_fill (sizes : List Decimal) : sizesIn (sizes.map .fill) = sizes := by
  induction sizes with
  | nil => rfl
  | cons size sizes ih => rw [List.map_cons, sizesIn, ih]

private theorem sizesIn_perm {a b : List Arrival} (h : a.Perm b) : (sizesIn a).Perm (sizesIn b) := by
  induction h with
  | nil => exact .nil
  | cons x _ ih => cases x with
    | ack => exact ih
    | fill size => exact ih.cons size
  | swap x y l => cases x <;> cases y <;> first | exact .swap _ _ _ | exact .refl _
  | trans _ _ ih ih' => exact ih.trans ih'

private theorem map_sizesIn {arrivals : List Arrival} (h : .ack ∉ arrivals) :
    (sizesIn arrivals).map .fill = arrivals := by
  induction arrivals with
  | nil => rfl
  | cons a arrivals ih =>
    rw [List.mem_cons, not_or] at h
    cases a with
    | ack => exact absurd rfl h.1
    | fill size => rw [sizesIn, List.map_cons, ih h.2]

/-- Arrivals with one acknowledgement are the early fills, the acknowledgement and the late fills. -/
theorem arrivals_eq {arrivals : List Arrival} (h : arrivals.count .ack = 1) :
    arrivals = (earlyFills arrivals).map .fill ++ .ack :: (lateFills arrivals).map .fill := by
  induction arrivals with
  | nil => simp at h
  | cons a arrivals ih =>
    cases a with
    | fill size =>
      rw [List.count_cons_of_ne (by simp)] at h
      rw [earlyFills, lateFills, List.map_cons, List.cons_append, ← ih h]
    | ack =>
      rw [List.count_cons_self, Nat.add_eq_right, List.count_eq_zero] at h
      rw [earlyFills, lateFills, List.map_nil, List.nil_append, map_sizesIn h]

theorem earlyFills_append_lateFills_perm {arrivals : List Arrival} {sizes : List Decimal}
    (h : arrivals.Perm (.ack :: sizes.map .fill)) : (earlyFills arrivals ++ lateFills arrivals).Perm sizes := by
  have hcount : arrivals.count .ack = 1 := by
    rw [h.count_eq, List.count_cons_self, List.count_eq_zero.mpr (by simp)]
  have hsizes : sizesIn arrivals = earlyFills arrivals ++ lateFills arrivals := by
    conv_lhs => rw [arrivals_eq hcount]
    generalize earlyFills arrivals = early
    induction early with
    | nil => exact sizesIn_map_fill _
    | cons size early ih => rw [List.map_cons, List.cons_append, sizesIn, ih, List.cons_append]
  have hperm := sizesIn_perm h
  rwa [hsizes, sizesIn, sizesIn_map_fill] at hperm

def fillAll (orderId : OrderId) (t : OrderTracker) (sizes : List Decimal) : OrderTracker :=
  sizes.foldl (fun t size => (t.onFill orderId size).2) t

theorem foldl_arrive_map_fill (order : TrackedOrder) (t : OrderTracker) (sizes : List Decimal) :
    (sizes.map Arrival.fill).foldl (arrive order) t = fillAll order.orderId t sizes := by
  rw [List.foldl_map]
  rfl

variable {t : OrderTracker} {orderId : OrderId} {order : TrackedOrder}

theorem fillAll_of_untracked (h : t.orders.lookup orderId = none) (sizes : List Decimal) :
    fillAll orderId t sizes = t := by
  induction sizes with
  | nil => rfl
  | cons size sizes ih => rw [fillAll, List.foldl_cons, onFill_of_untracked h, ← fillAll, ih]

/-- Fills that come up to the size of the order end in its removal. -/
theorem fillAll_of_full {sizes : List Decimal} (h : t.orders.lookup orderId = some order) (hne : sizes ≠ [])
    (hfull : order.originalSize ≤ order.filledSize + sizes.sum) : fillAll orderId t sizes = t.remove orderId := by
  induction sizes generalizing t order with
  | nil => exact absurd rfl hne
  | cons size sizes ih =>
    rw [fillAll, List.foldl_cons, onFill_of_tracked h, ← fillAll]
    dsimp only
    split
    · exact fillAll_of_untracked (lookup_remove_self t orderId) sizes
    · rename_i hopen
      rw [TrackedOrder.isFilled_eq_true_iff, not_le, TrackedOrder.addFill_filledSize,
        TrackedOrder.addFill_originalSize] at hopen
      rw [List.sum_cons, ← add_assoc] at hfull
      have hrest : sizes ≠ [] := by
        rintro rfl
        rw [List.sum_nil, add_zero] at hfull
        exact hfull.not_gt hopen
      have hremoved := ih (t := { t with orders := t.orders.insert orderId (order.addFill size) })
        (AList.lookup_insert _) hrest hfull
      exact hremoved.trans (remove_insert h size)

/-- Fills that leave something of the order are added to it, and nothing else changes. -/
theorem fillAll_of_open {sizes : List Decimal} (h : t.orders.lookup orderId = some order)
    (hpos : ∀ size ∈ sizes, 0 < size) (hopen : order.filledSize + sizes.sum < order.originalSize) :
    ∃ orders, fillAll orderId t sizes = { t with orders := orders } ∧
      orders.lookup orderId = some (order.addFill sizes.sum) ∧
      ∀ k, k ≠ orderId → orders.lookup k = t.orders.lookup k := by
  induction sizes generalizing t order with
  | nil =>
    refine ⟨t.orders, rfl, ?_, fun _ _ => rfl⟩
    rwa [List.sum_nil, TrackedOrder.addFill_zero]
  | cons size sizes ih =>
    rw [List.sum_cons, ← add_assoc] at hopen
    have hrest : 0 ≤ sizes.sum := List.sum_nonneg fun s hs => (hpos s (List.mem_cons_of_mem _ hs)).le
    have hnow : (order.addFill size).isFilled = false := by
      rw [Bool.eq_false_iff, Ne, TrackedOrder.isFilled_eq_true_iff, not_le]
      exact (le_add_of_nonneg_right hrest).trans_lt hopen
    obtain ⟨orders, hrun, hlookup, hothers⟩ :=
      ih (t := { t with orders := t.orders.insert orderId (order.addFill size) }) (AList.lookup_insert _)
        (fun s hs => hpos s (List.mem_cons_of_mem _ hs)) hopen
    refine ⟨orders, ?_, ?_, ?_⟩
    · rw [fillAll, List.foldl_cons, onFill_of_tracked h, ← fillAll]
      simp only [hnow, Bool.false_eq_true, if_false]
      exact hrun
    · rw [hlookup, List.sum_cons]
      simp [TrackedOrder.addFill, add_assoc]
    · intro k hk
      rw [hothers k hk]
      exact AList.lookup_insert_ne hk

/-- Of the fills of a tracked order only the total shows. -/
theorem sameState_fillAll_of_perm {sizes sizes' : List Decimal} (h : t.orders.lookup orderId = some order)
    (hpos : ∀ size ∈ sizes, 0 < size) (hp : sizes.Perm sizes') :
    SameState (fillAll orderId t sizes) (fillAll orderId t sizes') := by
  rcases eq_or_ne sizes [] with rfl | hne
  · rw [hp.nil_eq]
    exact .refl _
  have hpos' : ∀ size ∈ sizes', 0 < size := fun size hsize => hpos size (hp.mem_iff.mpr hsize)
  by_cases hfull : order.originalSize ≤ order.filledSize + sizes.sum
  · have hne' : sizes' ≠ [] := fun hnil => hne (hp.trans (hnil ▸ .refl _)).eq_nil
    rw [fillAll_of_full h hne hfull, fillAll_of_full h hne' (hp.sum_eq ▸ hfull)]
    exact .refl _
  · rw [not_le] at hfull
    obtain ⟨orders, hrun, hlookup, hothers⟩ := fillAll_of_open h hpos hfull
    obtain ⟨orders', hrun', hlookup', hothers'⟩ := fillAll_of_open h hpos' (hp.sum_eq ▸ hfull)
    rw [hrun, hrun']
    refine ⟨fun k => ?_, fun _ => rfl, fun _ => rfl, fun _ => rfl, rfl, rfl⟩
    by_cases hk : k = orderId
    · subst hk
      rw [OrderTracker.get, OrderTracker.get, hlookup, hlookup', hp.sum_eq]
    · rw [OrderTracker.get, OrderTracker.get, hothers k hk, hothers' k hk]

/-- The fills that arrive before the acknowledgement are lost. -/
theorem foldl_arrive {arrivals : List Arrival} (hnew : t.orders.lookup order.orderId = none)
    (hcount : arrivals.count .ack = 1) :
    arrivals.foldl (arrive order) t = fillAll order.orderId (t.track order) (lateFills arrivals) := by
  conv_lhs => rw [arrivals_eq hcount]
  rw [List.foldl_append, foldl_arrive_map_fill, fillAll_of_untracked hnew, List.foldl_cons, foldl_arrive_map_fill]
  rfl

/-- Unless the late fills alone make up the order, the early ones are missed. -/
private theorem not_sameState_of_early {early late : List Decimal} (h : t.orders.lookup orderId = some order)
    (hpos : ∀ size ∈ early ++ late, 0 < size) (hearly : early ≠ [])
    (hlate : late ≠ [] → order.filledSize + late.sum < order.originalSize) :
    ¬SameState (fillAll orderId t late) (fillAll orderId t (early ++ late)) := by
  intro hsame
  have hlookup : (fillAll orderId t late).get orderId = some (order.addFill late.sum) := by
    rcases eq_or_ne late [] with rfl | hne
    · rw [List.sum_nil, TrackedOrder.addFill_zero]
      exact h
    · obtain ⟨orders, hrun, hlookup, -⟩ :=
        fillAll_of_open h (fun size hsize => hpos size (List.mem_append_right _ hsize)) (hlate hne)
      rw [hrun]
      exact hlookup
  have hsum : 0 < early.sum := List.sum_pos early (fun size hsize => hpos size (List.mem_append_left _ hsize)) hearly
  rw [hsame.orders] at hlookup
  by_cases hfull : order.originalSize ≤ order.filledSize + (early ++ late).sum
  · rw [fillAll_of_full h (List.append_ne_nil_of_left_ne_nil hearly late) hfull, OrderTracker.get,
      lookup_remove_self] at hlookup
    cases hlookup
  · obtain ⟨orders, hrun, hlookup', -⟩ := fillAll_of_open h hpos (not_le.mp hfull)
    rw [hrun, OrderTracker.get, hlookup'] at hlookup
    have hfilled := congrArg TrackedOrder.filledSize (Option.some.inj hlookup)
    rw [TrackedOrder.addFill_filledSize, TrackedOrder.addFill_filledSize, List.sum_append, add_left_cancel_iff,
      add_eq_right] at hfilled
    exact hsum.ne' hfilled

/-- An order of arrival leaves the tracker that the acknowledgement followed by all fills leaves exactly if no fill
comes before the acknowledgement, or those after it make up the order by themselves. -/
theorem arrivals_agree_iff (t : OrderTracker) (order : TrackedOrder) (sizes : List Decimal) (arrivals : List Arrival)
    (hnew : t.get order.orderId = none) (hpos : ∀ size ∈ sizes, 0 < size)
    (hp : arrivals.Perm (.ack :: sizes.map .fill)) :
    SameState (arrivals.foldl (arrive order) t) ((Arrival.ack :: sizes.map .fill).foldl (arrive order) t) ↔
      earlyFills arrivals = [] ∨
        (lateFills arrivals ≠ [] ∧ order.originalSize ≤ order.filledSize + (lateFills arrivals).sum) := by
  have hcount : arrivals.count .ack = 1 := by
    rw [hp.count_eq, List.count_cons_self, List.count_eq_zero.mpr (by simp)]
  have hsplit := earlyFills_append_lateFills_perm hp
  have htracked : (t.track order).orders.lookup order.orderId = some order := AList.lookup_insert _
  have hall : ∀ size ∈ earlyFills arrivals ++ lateFills arrivals, 0 < size :=
    fun size hsize => hpos size (hsplit.mem_iff.mp hsize)
  -- The reference may take its fills in the order in which they arrive.
  have hreference := sameState_fillAll_of_perm htracked hall hsplit
  rw [foldl_arrive hnew hcount, List.foldl_cons, foldl_arrive_map_fill]
  constructor
  · intro hsame
    by_contra hno
    rw [not_or, not_and, not_le] at hno
    exact not_sameState_of_early htracked hall hno.1 hno.2 (hsame.trans hreference.symm)
  · rintro (hearly | ⟨hne, hfull⟩)
    · rwa [hearly, List.nil_append] at hreference
    · refine SameState.trans ?_ hreference
      have hsum : 0 ≤ (earlyFills arrivals).sum :=
        List.sum_nonneg fun size hsize => (hall size (List.mem_append_left _ hsize)).le
      have htotal : order.originalSize ≤ order.filledSize + (earlyFills arrivals ++ lateFills arrivals).sum := by
        rw [List.sum_append]
        linarith
      have hneAll := List.append_ne_nil_of_right_ne_nil (earlyFills arrivals) hne
      rw [fillAll_of_full htracked hne hfull, fillAll_of_full htracked hneAll htotal]
      exact .refl _

def makerOrder : TrackedOrder := ⟨"o", "a", "m", .Buy, 1 / 2, 100, 0, none⟩

theorem arrivals_agree_iff_makerOrder :
    SameState ([Arrival.fill 40, .ack, .fill 60].foldl (arrive makerOrder) .new)
        ([Arrival.ack, .fill 40, .fill 60].foldl (arrive makerOrder) .new) ↔
      earlyFills [.fill 40, .ack, .fill 60] = [] ∨ (lateFills [.fill 40, .ack, .fill 60] ≠ [] ∧
        makerOrder.originalSize ≤ makerOrder.filledSize + (lateFills [.fill 40, .ack, .fill 60]).sum) :=
  arrivals_agree_iff .new makerOrder [40, 60] [.fill 40, .ack, .fill 60] (by decide) (by decide +kernel) (.swap _ _ _)

/-- Filled before its acknowledgement, the order is tracked for ever. -/
theorem early_fill_lost :
    [Arrival.fill 100, .ack].Perm (.ack :: [100].map .fill) ∧
      ¬SameState ([Arrival.fill 100, .ack].foldl (arrive makerOrder) .new)
        ((Arrival.ack :: [100].map .fill).foldl (arrive makerOrder) .new) := by
  refine ⟨.swap _ _ _, fun hsame => ?_⟩
  have horders := hsame.orders "o"
  revert horders
  decide +kernel

end PolyBot.Execution.TrackerArrivals
