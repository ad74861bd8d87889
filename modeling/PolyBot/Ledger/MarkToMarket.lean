import PolyBot.Ledger.PositionIdentity

/-! The profit that the positions report and the profit at market prices, over fills and marking passes. -/

namespace PolyBot
open General.KeyedStore General.AdditiveRuns

namespace Positions

def totalRealizedPnl (ps : Positions) : Decimal := ((values ps).map (·.realizedPnl)).sum
def totalUnrealizedPnl (ps : Positions) : Decimal := ((values ps).map (·.unrealizedPnl)).sum

/-- The marking pass of a heartbeat: every open position that has a mid price is marked at it. -/
def markOpen (mid : TokenId → Option Decimal) (ps : Positions) : Positions :=
  ps.markAllToMarket (ps.allPositions.filterMap fun p => (mid p.tokenId).map fun price => (p.tokenId, price))

end Positions

namespace Ledger.MarkToMarket
open Positions PositionIdentity

inductive Event where
  | fill (fill : Fill)
  | heartbeat (mid : TokenId → Option Decimal)

def step (ps : Positions) : Event → Positions
  | .fill f => ps.applyFill f
  | .heartbeat mid => ps.markOpen mid

def fillsIn (events : List Event) : List Fill :=
  events.filterMap fun
    | .fill f => some f
    | .heartbeat _ => none

def Covers (mid : TokenId → Option Decimal) (ps : Positions) : Prop := ∀ p ∈ ps.allPositions, (mid p.tokenId).isSome

def FlatUnmarked (ps : Positions) : Prop := ∀ t, (ps.get t).shares = 0 → (ps.get t).unrealizedPnl = 0

/-- The reported profit is what was sold less what was bought and the open shares at mid, and flat positions report
no unrealized profit. -/
structure ReportsMarketPnl (fills : List Fill) (mid : TokenId → Option Decimal) (ps : Positions) : Prop where
  total : ps.totalRealizedPnl + ps.totalUnrealizedPnl = (notionalOn .Sell fills - notionalOn .Buy fills) +
    (ps.allPositions.map fun p => p.shares * (mid p.tokenId).getD 0).sum
  flat : FlatUnmarked ps

/-- No fill closes a position in full while it carries an unrealized profit. -/
def ClosesUnmarked (ps : Positions) : Event → Prop
  | .fill f => (ps.get f.tokenId).shares + f.signedSize = 0 → (ps.get f.tokenId).unrealizedPnl = 0
  | .heartbeat _ => True

theorem unrealizedPnl_applyFill (p : Position) (f : Fill) : (p.applyFill f).unrealizedPnl = p.unrealizedPnl := by
  have hreduce : ∀ q : Position, (q.reduceWith f).unrealizedPnl = q.unrealizedPnl := by
    intro q
    dsimp only [Position.reduceWith]
    split
    · rfl
    · split <;> rfl
  unfold Position.applyFill
  split
  · rfl
  · split
    · rfl
    · exact hreduce _

section Marking
variable {ps : Positions} {mid : TokenId → Option Decimal}

def markedAt (mid : TokenId → Option Decimal) (p : Position) : Position :=
  if p.isFlat then p else ((mid p.tokenId).map p.markToMarket).getD p

theorem lookup_markAllToMarket_of_notMem {prices : List (TokenId × Decimal)} {t : TokenId}
    (h : t ∉ prices.map Prod.fst) : (ps.markAllToMarket prices).lookup t = ps.lookup t := by
  unfold markAllToMarket
  induction prices generalizing ps with
  | nil => rfl
  | cons tp prices ih =>
    rw [List.map_cons, List.mem_cons, not_or] at h
    rw [List.foldl_cons, ih h.2, lookup_modify_ne h.1]

theorem lookup_markAllToMarket_of_mem {prices : List (TokenId × Decimal)} (hnodup : (prices.map Prod.fst).Nodup)
    {t : TokenId} {price : Decimal} (h : (t, price) ∈ prices) :
    (ps.markAllToMarket prices).lookup t = (ps.lookup t).map (·.markToMarket price) := by
  induction prices generalizing ps with
  | nil => cases h
  | cons tp prices ih =>
    rw [List.map_cons, List.nodup_cons] at hnodup
    change (markAllToMarket (General.KeyedStore.modify tp.1 (fun p => p.markToMarket tp.2) ps) prices).lookup t = _
    rcases List.mem_cons.mp h with rfl | hrest
    · rw [lookup_markAllToMarket_of_notMem hnodup.1, lookup_modify_self]
    · have hne : t ≠ tp.1 := fun hsame => hnodup.1 (hsame ▸ List.mem_map_of_mem hrest)
      rw [ih hnodup.2 hrest, lookup_modify_ne hne]

private theorem map_fst_prices (mid : TokenId → Option Decimal) (openOnes : List Position) :
    ((openOnes.filterMap fun p => (mid p.tokenId).map fun price => (p.tokenId, price)).map Prod.fst).Sublist
      (openOnes.map (·.tokenId)) := by
  induction openOnes with
  | nil => exact List.Sublist.slnil
  | cons p rest ih =>
    cases hmid : mid p.tokenId with
    | none =>
      rw [List.filterMap_cons_none (by rw [hmid]; rfl), List.map_cons]
      exact ih.cons _
    | some price =>
      rw [List.filterMap_cons_some (by rw [hmid]; rfl), List.map_cons, List.map_cons]
      exact ih.cons_cons _

/-- A marking pass marks each position on its own. -/
theorem lookup_markOpen (h : ps.WellKeyed) (t : TokenId) :
    (ps.markOpen mid).lookup t = (ps.lookup t).map (markedAt mid) := by
  unfold markOpen
  by_cases hmem : t ∈ (ps.allPositions.filterMap fun p =>
      (mid p.tokenId).map fun price => (p.tokenId, price)).map Prod.fst
  · obtain ⟨⟨_, price⟩, hprice, rfl⟩ := List.mem_map.mp hmem
    rw [lookup_markAllToMarket_of_mem ((map_fst_prices mid _).nodup (nodup_tokens h)) hprice]
    obtain ⟨p, hp, hmid⟩ := List.mem_filterMap.mp hprice
    obtain ⟨_, hsome, heq⟩ := Option.map_eq_some_iff.mp hmid
    cases heq
    obtain ⟨hget, hopen⟩ := get_of_mem_allPositions h hp
    cases hlookup : ps.lookup p.tokenId with
    | none => rfl
    | some q =>
      rw [Positions.get, hlookup, Option.getD_some] at hget
      subst hget
      have hnotFlat : ¬q.isFlat = true := by simpa [Position.isFlat] using hopen
      rw [Option.map_some, Option.map_some, markedAt, if_neg hnotFlat, hsome]
      rfl
  · rw [lookup_markAllToMarket_of_notMem hmem]
    cases hlookup : ps.lookup t with
    | none => rfl
    | some q =>
      have htoken := h t q hlookup
      rw [Option.map_some, markedAt]
      split_ifs with hflat
      · rfl
      · cases hmid : mid q.tokenId with
        | none => rfl
        | some price =>
          have hopen : q ∈ ps.allPositions :=
            List.mem_filter.mpr ⟨mem_values_iff.mpr ⟨t, hlookup⟩, by simpa using hflat⟩
          refine absurd (List.mem_map.mpr ⟨(q.tokenId, price), ?_, htoken⟩) hmem
          exact List.mem_filterMap.mpr ⟨q, hopen, by rw [hmid]; rfl⟩

theorem values_markOpen (h : ps.WellKeyed) (mid : TokenId → Option Decimal) :
    (values (ps.markOpen mid)).Perm ((values ps).map (markedAt mid)) := by
  have hsame : ∀ t, (ps.markOpen mid).lookup t = (mapValues (fun _ => markedAt mid) ps).lookup t := by
    intro t
    rw [lookup_markOpen h, lookup_mapValues]
  refine (values_perm_of_lookup_eq hsame).trans (.of_eq ?_)
  rw [values_mapValues, values, List.map_map]
  rfl

theorem shares_markedAt (mid : TokenId → Option Decimal) (p : Position) : (markedAt mid p).shares = p.shares := by
  unfold markedAt
  split_ifs
  · rfl
  · cases mid p.tokenId with
    | none => rfl
    | some price =>
      rw [Option.map_some, Option.getD_some, Position.markToMarket]
      split <;> rfl

/-- Where every open position has a mid price, a marked position reports its settled value and its shares at mid. -/
theorem pnl_markedAt {p : Position} (hflat : p.shares = 0 → p.unrealizedPnl = 0)
    (hcovered : p.shares ≠ 0 → (mid p.tokenId).isSome) :
    (markedAt mid p).realizedPnl + (markedAt mid p).unrealizedPnl =
      settled p + p.shares * (mid p.tokenId).getD 0 := by
  by_cases hshares : p.shares = 0
  · have hsame : markedAt mid p = p := if_pos (decide_eq_true hshares)
    rw [hsame, hflat hshares, settled, hshares]
    ring
  · obtain ⟨price, hprice⟩ := Option.isSome_iff_exists.mp (hcovered hshares)
    have hmarked : markedAt mid p = { p with unrealizedPnl := (price - p.avgCost) * p.shares } := by
      have hopen : ¬p.isFlat = true := by simpa [Position.isFlat] using hshares
      rw [markedAt, if_neg hopen, hprice, Option.map_some, Option.getD_some, Position.markToMarket, if_neg hopen]
    rw [hmarked, settled, hprice, Option.getD_some]
    ring

theorem get_markOpen_shares (h : ps.WellKeyed) (mid : TokenId → Option Decimal) (t : TokenId) :
    ((ps.markOpen mid).get t).shares = (ps.get t).shares := by
  rw [Positions.get, Positions.get, lookup_markOpen h]
  cases ps.lookup t with
  | none => rfl
  | some p => exact shares_markedAt mid p

/-- Flat positions are not marked. -/
theorem get_markOpen_of_flat (h : ps.WellKeyed) (mid : TokenId → Option Decimal) {t : TokenId}
    (hflat : (ps.get t).shares = 0) : (ps.markOpen mid).get t = ps.get t := by
  rw [Positions.get, Positions.get, lookup_markOpen h]
  cases hlookup : ps.lookup t with
  | none => rfl
  | some p =>
    rw [Positions.get, hlookup, Option.getD_some] at hflat
    exact if_pos (decide_eq_true hflat)

theorem flatUnmarked_markOpen_iff (h : ps.WellKeyed) (mid : TokenId → Option Decimal) :
    FlatUnmarked (ps.markOpen mid) ↔ FlatUnmarked ps := by
  apply forall_congr'
  intro t
  rw [get_markOpen_shares h]
  apply forall_congr'
  intro hflat
  rw [get_markOpen_of_flat h mid hflat]

end Marking

def settledTotal (ps : Positions) : Decimal := ((values ps).map settled).sum

def settledFlow : Event → Decimal
  | .fill f => -(f.price * f.signedSize)
  | .heartbeat _ => 0

/-- A fill moves its cost out of the settled values; a marking pass leaves them. -/
theorem settledTotal_accumulates : Accumulates step settledTotal settledFlow := by
  intro ps e
  cases e with
  | fill f =>
    have hold : ((ps.lookup f.tokenId).map settled).getD 0 = settled (ps.get f.tokenId) := by
      unfold Positions.get
      cases ps.lookup f.tokenId with
      | none => simp [settled, Position.new]
      | some p => rfl
    change ((values (ps.insert f.tokenId ((ps.get f.tokenId).applyFill f))).map settled).sum = _
    rw [sum_values_insert, hold, settled_applyFill, settledTotal, settledFlow]
    ring
  | heartbeat mid =>
    have hmark : ∀ (prices : List (TokenId × Decimal)) (ps : Positions),
        settledTotal (ps.markAllToMarket prices) = settledTotal ps := by
      intro prices
      induction prices with
      | nil => exact fun _ => rfl
      | cons tp prices ih =>
        intro ps
        refine (ih _).trans (sum_values_modify settled (fun p => ?_) tp.1 ps)
        rw [Position.markToMarket]
        split <;> rfl
    rw [settledFlow, add_zero]
    exact hmark _ ps

theorem settledTotal_run (events : List Event) :
    settledTotal (events.foldl step Positions.new) =
      notionalOn .Sell (fillsIn events) - notionalOn .Buy (fillsIn events) := by
  have hflow : ∀ events : List Event,
      (events.map settledFlow).sum = ((fillsIn events).map fun f => -(f.price * f.signedSize)).sum := by
    intro events
    induction events with
    | nil => rfl
    | cons e events ih =>
      rw [List.map_cons, List.sum_cons, ih]
      cases e with
      | fill f => rfl
      | heartbeat mid => exact zero_add _
  have hstart : settledTotal Positions.new = 0 := rfl
  rw [settledTotal_accumulates.foldl, hstart, zero_add, hflow, sum_settledFlow]

theorem wellKeyed_step {ps : Positions} (h : ps.WellKeyed) (e : Event) : (step ps e).WellKeyed := by
  cases e with
  | fill f => exact h.applyFill f
  | heartbeat mid => exact h.markAllToMarket _

theorem wellKeyed_run (events : List Event) : (events.foldl step Positions.new).WellKeyed := by
  have hkeep : ∀ ps e, WellKeyed ps → True → WellKeyed (step ps e) := fun _ e h _ => wellKeyed_step h e
  have hrun := Throughout.foldl_induction (l := events) hkeep wellKeyed_new (.of_forall_mem fun _ _ _ => trivial)
  exact hrun

/-- The shares of all positions at mid; the flat ones add nothing. -/
def marketValue (mid : TokenId → Option Decimal) (ps : Positions) : Decimal :=
  ((values ps).map fun p => p.shares * (mid p.tokenId).getD 0).sum

theorem sum_allPositions (mid : TokenId → Option Decimal) (ps : Positions) :
    (ps.allPositions.map fun p => p.shares * (mid p.tokenId).getD 0).sum = marketValue mid ps := by
  unfold allPositions marketValue
  induction values ps with
  | nil => rfl
  | cons p rest ih =>
    by_cases hshares : p.shares = 0
    · rw [List.filter_cons_of_neg (by simpa [Position.isFlat] using hshares), ih, List.map_cons, List.sum_cons,
        hshares, zero_mul, zero_add]
    · rw [List.filter_cons_of_pos (by simpa [Position.isFlat] using hshares), List.map_cons, List.sum_cons, ih,
        List.map_cons, List.sum_cons]

section Marked
variable {ps : Positions} {mid : TokenId → Option Decimal}

theorem marketValue_markOpen (h : ps.WellKeyed) : marketValue mid (ps.markOpen mid) = marketValue mid ps := by
  unfold marketValue
  rw [((values_markOpen h mid).map _).sum_eq, List.map_map]
  refine congrArg List.sum (List.map_congr_left fun p _ => ?_)
  have htoken : (markedAt mid p).tokenId = p.tokenId := by
    unfold markedAt
    split_ifs
    · rfl
    · cases mid p.tokenId with
      | none => rfl
      | some price => exact p.tokenId_markToMarket price
  rw [Function.comp_apply, shares_markedAt, htoken]

/-- The profit reported after a marking pass that covers every open position. -/
theorem pnl_markOpen (h : ps.WellKeyed) (hflat : FlatUnmarked ps) (hcovers : Covers mid ps) :
    (ps.markOpen mid).totalRealizedPnl + (ps.markOpen mid).totalUnrealizedPnl =
      settledTotal ps + marketValue mid ps := by
  have heach : ∀ p ∈ values ps, (markedAt mid p).realizedPnl + (markedAt mid p).unrealizedPnl =
      settled p + p.shares * (mid p.tokenId).getD 0 := by
    intro p hp
    obtain ⟨t, ht⟩ := mem_values_iff.mp hp
    have hget : ps.get t = p := by rw [Positions.get, ht, Option.getD_some]
    refine pnl_markedAt (fun hshares => hget ▸ hflat t (hget ▸ hshares)) fun hshares => hcovers p ?_
    exact List.mem_filter.mpr ⟨hp, by simpa [Position.isFlat] using hshares⟩
  have hperm := values_markOpen h mid
  rw [totalRealizedPnl, totalUnrealizedPnl, (hperm.map _).sum_eq, (hperm.map _).sum_eq, settledTotal, marketValue,
    ← List.sum_map_add, ← List.sum_map_add, List.map_map]
  exact congrArg List.sum (List.map_congr_left heach)

end Marked

/-- After a marking pass that covers every open position the positions report the market profit exactly if the flat
ones carry no unrealized profit. -/
theorem reportsMarketPnl_iff (events : List Event) {mid : TokenId → Option Decimal}
    (hcovers : Covers mid (events.foldl step Positions.new)) :
    ReportsMarketPnl (fillsIn events) mid ((events.foldl step Positions.new).markOpen mid) ↔
      FlatUnmarked (events.foldl step Positions.new) := by
  have hkeyed := wellKeyed_run events
  have hflat := flatUnmarked_markOpen_iff hkeyed mid
  refine ⟨fun h => hflat.mp h.flat, fun h => ⟨?_, hflat.mpr h⟩⟩
  rw [pnl_markOpen hkeyed h hcovers, settledTotal_run, sum_allPositions, marketValue_markOpen hkeyed]

/-- A step keeps the flat positions unmarked exactly if it closes none that is marked. -/
theorem flatUnmarked_step_iff {ps : Positions} (hkeyed : ps.WellKeyed) (h : FlatUnmarked ps) (e : Event) :
    FlatUnmarked (step ps e) ↔ ClosesUnmarked ps e := by
  cases e with
  | fill f =>
    constructor
    · intro hafter hclosed
      have hself := hafter f.tokenId
      change ((ps.applyFill f).get f.tokenId).shares = 0 → ((ps.applyFill f).get f.tokenId).unrealizedPnl = 0 at hself
      rw [get_applyFill_self, shares_applyFill, unrealizedPnl_applyFill] at hself
      exact hself hclosed
    · intro hclosed t hshares
      change ((ps.applyFill f).get t).shares = 0 at hshares
      change ((ps.applyFill f).get t).unrealizedPnl = 0
      by_cases htoken : f.tokenId = t
      · subst htoken
        rw [get_applyFill_self, shares_applyFill] at hshares
        rw [get_applyFill_self, unrealizedPnl_applyFill]
        exact hclosed hshares
      · rw [get_applyFill_ne ps f htoken] at hshares ⊢
        exact h t hshares
  | heartbeat mid => exact iff_of_true ((flatUnmarked_markOpen_iff hkeyed mid).mpr h) trivial

/-- In a run of fills and marking passes from no positions, every marking pass that covers the open positions makes
them report the market profit exactly if no fill closes in full a position that carries an unrealized profit. -/
theorem market_pnl_reported_iff (events : List Event) :
    (∀ p, p <+: events → ∀ mid, Covers mid (p.foldl step Positions.new) →
        ReportsMarketPnl (fillsIn p) mid ((p.foldl step Positions.new).markOpen mid)) ↔
      Throughout step ClosesUnmarked Positions.new events := by
  have hprefixes : (∀ p, p <+: events → ∀ mid, Covers mid (p.foldl step Positions.new) →
        ReportsMarketPnl (fillsIn p) mid ((p.foldl step Positions.new).markOpen mid)) ↔
      ∀ p, p <+: events → FlatUnmarked (p.foldl step Positions.new) := by
    refine forall₂_congr fun p _ => ⟨fun h => ?_, fun h mid hcovers => (reportsMarketPnl_iff p hcovers).mpr h⟩
    have hcovers : Covers (fun _ => some 1) (p.foldl step Positions.new) := fun _ _ => rfl
    exact (reportsMarketPnl_iff p hcovers).mp (h _ hcovers)
  have hstart : FlatUnmarked Positions.new := by
    intro t _
    rw [get_new]
    rfl
  rw [hprefixes, forall_prefix_iff, and_iff_right hstart]
  exact throughout_congr (fun ps => ps.WellKeyed ∧ FlatUnmarked ps)
    (fun ps e h hafter => ⟨wellKeyed_step h.1 e, hafter⟩)
    (fun ps e h => flatUnmarked_step_iff h.1 h.2 e) ⟨wellKeyed_new, hstart⟩

private def atHalf : TokenId → Option Decimal := fun _ => some (1 / 2)

private def markedThenSold : List Event :=
  [.fill ⟨"f1", "o1", "yes", .Buy, 2 / 5, 10, 0, none, 0⟩, .heartbeat atHalf,
    .fill ⟨"f2", "o2", "yes", .Sell, 1 / 2, 10, 0, none, 0⟩]

private def reported : Positions := (markedThenSold.foldl step Positions.new).markOpen atHalf

/-- Ten shares bought at 0.40, marked at 0.50 and sold there: after the next marking pass the profit of 1 is reported
twice, as realized and as the unrealized profit of a flat position. -/
theorem sold_position_counts_twice :
    Covers atHalf (markedThenSold.foldl step Positions.new) ∧
      (∀ f ∈ fillsIn markedThenSold, 0 < f.price ∧ 0 < f.size) ∧
      reported.totalRealizedPnl + reported.totalUnrealizedPnl = 2 ∧
      notionalOn .Sell (fillsIn markedThenSold) - notionalOn .Buy (fillsIn markedThenSold) = 1 ∧
      ¬ReportsMarketPnl (fillsIn markedThenSold) atHalf reported := by
  have hstale : reported.get "yes" = ⟨"yes", 0, 0, 0, 1, 1, 0, 0, 2⟩ := by decide +kernel
  refine ⟨fun _ _ => rfl, by decide +kernel, by decide +kernel, by decide +kernel, fun h => ?_⟩
  have hzero := h.flat "yes" (by rw [hstale])
  rw [hstale] at hzero
  exact absurd hzero (by decide)

end Ledger.MarkToMarket

end PolyBot
