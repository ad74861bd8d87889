import PolyBot.Ledger.Ledger
import Mathlib.Algebra.Order.BigOperators.Group.List
import Mathlib.Tactic.Linarith

/-! Reserved cash against open orders. Fills reach the cash and never the order store, so the two drift
apart at the first fill that trades. -/

namespace PolyBot.Ledger.ReservedCash
open General.KeyedStore

def ReservedMatches (l : Ledger) : Prop := l.orders.totalReservedNotional = l.cash.reserved

/-- The fill names, by its exchange id, a linked active buy order that can still take it. -/
structure FillsOpenBuy (l : Ledger) (f : Fill) (o : TrackedOrder) : Prop where
  byOrderId : l.orders.getByOrderId f.orderId = some o
  byLocalId : l.orders.getByLocalId o.localId = some o
  linked : o.orderId = some f.orderId
  active : o.state.isActive = true
  buys : o.side = .Buy ∧ f.side = .Buy
  sameToken : f.tokenId = o.tokenId
  size_nonneg : 0 ≤ f.size
  size_le : f.size ≤ o.remainingSize
  price_le : f.price ≤ o.price

def filledOf (orderId : OrderId) (fills : List Fill) : Decimal :=
  ((fills.filter (·.orderId = orderId)).map (·.size)).sum

/-- What the fills were reserved for: their sizes at the limit prices of their orders. -/
def reservationOf (l : Ledger) (fills : List Fill) : Decimal :=
  (fills.map fun f => f.size * ((l.orders.getByOrderId f.orderId).map (·.price)).getD 0).sum

def OrdersAdvanced (before after : Ledger) (fills : List Fill) : Prop :=
  ∀ orderId o, before.orders.getByOrderId orderId = some o →
    ∃ o', after.orders.getByOrderId orderId = some o' ∧ o'.filledSize = o.filledSize + filledOf orderId fills ∧
      o'.remainingSize = o.remainingSize - filledOf orderId fills

def ReservationFreed (before after : Ledger) (fills : List Fill) : Prop :=
  after.cash.reserved = before.cash.reserved - reservationOf before fills

theorem orders_run (l : Ledger) (fills : List Fill) : (fills.foldl processFill l).orders = l.orders := by
  induction fills generalizing l with
  | nil => rfl
  | cons f fills ih => rw [List.foldl_cons, ih, orders_processFill]

/-- A fill that trades nothing leaves the reserved cash alone. -/
theorem reserved_processFill_of_size_zero (l : Ledger) {f : Fill} (h : f.size = 0) :
    (l.processFill f).cash.reserved = l.cash.reserved := by
  by_cases hseen : f.fillId ∈ l.seenFillIds
  · rw [processFill_of_seen hseen]
  · have hnotional : f.notional ≤ 0 := by rw [Fill.notional, h, mul_zero]
    rw [processFill_of_new hseen, reserved_book, CashBalance.settleBuy_of_nonpos _ hnotional, ite_self]

private theorem reserved_run_of_size_zero (l : Ledger) {fills : List Fill} (h : ∀ f ∈ fills, f.size = 0) :
    (fills.foldl processFill l).cash.reserved = l.cash.reserved := by
  induction fills generalizing l with
  | nil => rfl
  | cons f fills ih =>
    rw [List.foldl_cons, ih _ fun g hg => h g (by simp [hg]), reserved_processFill_of_size_zero l (h f (by simp))]

private theorem filledOf_eq_zero {fills : List Fill} (h : ∀ f ∈ fills, f.size = 0) (orderId : OrderId) :
    filledOf orderId fills = 0 := by
  apply List.sum_eq_zero
  intro x hx
  obtain ⟨f, hf, rfl⟩ := List.mem_map.mp hx
  exact h f (List.mem_filter.mp hf).1

private theorem reservationOf_eq_zero (l : Ledger) {fills : List Fill} (h : ∀ f ∈ fills, f.size = 0) :
    reservationOf l fills = 0 := by
  apply List.sum_eq_zero
  intro x hx
  obtain ⟨f, hf, rfl⟩ := List.mem_map.mp hx
  rw [h f hf, zero_mul]

/-- The order store is frozen, so orders have advanced only if nothing was taken of them. -/
theorem size_zero_of_ordersAdvanced {l : Ledger} {fills : List Fill} (hfills : ∀ f ∈ fills, ∃ o, FillsOpenBuy l f o)
    (h : OrdersAdvanced l (fills.foldl processFill l) fills) : ∀ f ∈ fills, f.size = 0 := by
  intro f hf
  obtain ⟨o, ho⟩ := hfills f hf
  obtain ⟨o', ho', hfilled, -⟩ := h f.orderId o ho.byOrderId
  rw [orders_run] at ho'
  obtain rfl : o = o' := Option.some.inj (ho.byOrderId.symm.trans ho')
  have hsum : filledOf f.orderId fills = 0 := by linarith
  have hnonneg : ∀ x ∈ (fills.filter (·.orderId = f.orderId)).map (·.size), 0 ≤ x := by
    intro x hx
    obtain ⟨g, hg, rfl⟩ := List.mem_map.mp hx
    obtain ⟨_, hopen⟩ := hfills g (List.mem_filter.mp hg).1
    exact hopen.size_nonneg
  apply List.all_zero_of_le_zero_le_of_sum_eq_zero hnonneg hsum
  exact List.mem_map.mpr ⟨f, List.mem_filter.mpr ⟨hf, by simp⟩, rfl⟩

/-- From any ledger whose reserved cash matches its active orders, fills of open buy orders leave one that
matches again, with the orders advanced and their reservations freed, exactly when none of them trades. -/
theorem reserved_tracks_orders_iff (l : Ledger) (fills : List Fill) (hmatch : ReservedMatches l)
    (hfills : ∀ f ∈ fills, ∃ o, FillsOpenBuy l f o) :
    let after := fills.foldl processFill l
    (ReservedMatches after ∧ OrdersAdvanced l after fills ∧ ReservationFreed l after fills) ↔
      ∀ f ∈ fills, f.size = 0 := by
  intro after
  constructor
  · rintro ⟨-, hadvanced, -⟩
    exact size_zero_of_ordersAdvanced hfills hadvanced
  · intro hzero
    have hreserved : after.cash.reserved = l.cash.reserved := reserved_run_of_size_zero l hzero
    have horders : after.orders = l.orders := orders_run l fills
    refine ⟨?_, ?_, ?_⟩
    · rw [ReservedMatches, horders, hreserved]
      exact hmatch
    · intro orderId o ho
      refine ⟨o, by rw [horders, ho], ?_, ?_⟩
      · rw [filledOf_eq_zero hzero, add_zero]
      · rw [filledOf_eq_zero hzero, sub_zero]
    · rw [ReservationFreed, hreserved, reservationOf_eq_zero l hzero, sub_zero]

private def restingBuy : TrackedOrder := ⟨some "x1", 1, .Acked, "yes", .Buy, 1 / 2, 100, 0, 100, 0, 0, none⟩

private def oneOpenBuy : Ledger :=
  { Ledger.new 0 with
    orders := { OpenOrders.new with
      byOrderId := (∅ : Store OrderId TrackedOrder).insert "x1" restingBuy
      byLocalId := (∅ : Store Uuid TrackedOrder).insert 1 restingBuy }
    cash := ⟨950, 50⟩ }

private def partFill (price : Decimal) : Fill := ⟨"f1", "x1", "yes", .Buy, price, 40, 0, none, 0⟩

private theorem oneOpenBuy_matches : ReservedMatches oneOpenBuy := by
  unfold ReservedMatches
  decide +kernel

private theorem partFill_opens {price : Decimal} (h : price ≤ 1 / 2) :
    FillsOpenBuy oneOpenBuy (partFill price) restingBuy :=
  ⟨rfl, rfl, rfl, rfl, ⟨rfl, rfl⟩, rfl, by simp [partFill], by norm_num [partFill, restingBuy], h⟩

/-- Forty of the hundred shares filled at the limit do not pass. -/
theorem part_fill_does_not_track :
    ¬(ReservedMatches ([partFill (1 / 2)].foldl processFill oneOpenBuy) ∧
      OrdersAdvanced oneOpenBuy ([partFill (1 / 2)].foldl processFill oneOpenBuy) [partFill (1 / 2)] ∧
      ReservationFreed oneOpenBuy ([partFill (1 / 2)].foldl processFill oneOpenBuy) [partFill (1 / 2)]) := by
  intro h
  have hfills : ∀ f ∈ [partFill (1 / 2)], ∃ o, FillsOpenBuy oneOpenBuy f o := by
    intro f hf
    rw [List.mem_singleton.mp hf]
    exact ⟨restingBuy, partFill_opens (le_refl _)⟩
  have hzero := (reserved_tracks_orders_iff oneOpenBuy [partFill (1 / 2)] oneOpenBuy_matches hfills).mp h
  exact absurd (hzero _ (List.mem_singleton.mpr rfl)) (by decide +kernel)

/-- The checker passes before the fill and reports the drift after it, and the order is as it was. -/
theorem part_fill_leaves_drift :
    oneOpenBuy.checkInvariants = [] ∧ FillsOpenBuy oneOpenBuy (partFill (1 / 2)) restingBuy ∧
      (oneOpenBuy.processFill (partFill (1 / 2))).checkInvariants = [.CashMismatch 50 30] ∧
      (oneOpenBuy.processFill (partFill (1 / 2))).orders.getByOrderId "x1" = some restingBuy := by
  refine ⟨by decide +kernel, partFill_opens (le_refl _), by decide +kernel, by decide +kernel⟩

end PolyBot.Ledger.ReservedCash
