import PolyBot.General.AdditiveRuns
import PolyBot.General.KeyedStore
import PolyBot.Types
import Mathlib.Algebra.Order.AbsoluteValue.Basic

namespace PolyBot
open General.KeyedStore

def signum (x : Decimal) : Decimal := if x = 0 then 0 else if x < 0 then -1 else 1

structure Fill where
  fillId : String
  orderId : OrderId
  tokenId : TokenId
  side : Side
  price : Decimal
  size : Decimal
  fee : Decimal
  expectedPrice : Option Decimal
  slippageCost : Decimal
  deriving DecidableEq, Repr

namespace Fill

def notional (f : Fill) : Decimal := f.price * f.size

def signedSize (f : Fill) : Decimal :=
  match f.side with
  | .Buy => f.size
  | .Sell => -f.size

end Fill

structure Position where
  tokenId : TokenId
  shares : Decimal
  avgCost : Decimal
  costBasis : Decimal
  realizedPnl : Decimal
  unrealizedPnl : Decimal
  totalFees : Decimal
  totalSlippageCost : Decimal
  fillCount : ℕ
  deriving DecidableEq, Repr

namespace Position

def new (tokenId : TokenId) : Position := ⟨tokenId, 0, 0, 0, 0, 0, 0, 0, 0⟩

def isFlat (p : Position) : Bool := p.shares = 0
def notional (p : Position) : Decimal := |p.shares| * p.avgCost

def markToMarket (p : Position) (marketPrice : Decimal) : Position :=
  if p.isFlat then { p with unrealizedPnl := 0 }
  else { p with unrealizedPnl := (marketPrice - p.avgCost) * p.shares }

/-- Fees, slippage and the fill count, before the branch on the direction of the fill. -/
def trackCosts (p : Position) (f : Fill) : Position :=
  { p with
    totalFees := p.totalFees + f.fee
    totalSlippageCost := p.totalSlippageCost + f.slippageCost
    fillCount := p.fillCount + 1 }

def openWith (p : Position) (f : Fill) : Position :=
  let newShares := p.shares + f.signedSize
  { p with shares := newShares, avgCost := f.price, costBasis := f.price * |newShares| }

def addWith (p : Position) (f : Fill) : Position :=
  let newShares := p.shares + f.signedSize
  let oldCost := p.avgCost * |p.shares|
  let newCost := f.price * |f.signedSize|
  let totalCost := oldCost + newCost
  let totalShares := |newShares|
  { p with
    shares := newShares
    avgCost := if 0 < totalShares then totalCost / totalShares else 0
    costBasis := totalCost }

def reduceWith (p : Position) (f : Fill) : Position :=
  let newShares := p.shares + f.signedSize
  let closingShares := min |f.signedSize| |p.shares|
  let realized := (f.price - p.avgCost) * closingShares * signum p.shares
  let p' := { p with realizedPnl := p.realizedPnl + realized }
  if newShares = 0 then { p' with shares := 0, avgCost := 0, costBasis := 0 }
  else if (0 < p.shares ∧ newShares < 0) ∨ (p.shares < 0 ∧ 0 < newShares) then
    { p' with
      shares := newShares
      avgCost := f.price
      costBasis := f.price * (|f.signedSize| - |p.shares|) }
  else { p' with shares := newShares, costBasis := p.avgCost * |newShares| }

def applyFill (p : Position) (f : Fill) : Position :=
  if p.shares = 0 then (p.trackCosts f).openWith f
  else if decide (0 < p.shares) = decide (0 < f.signedSize) then (p.trackCosts f).addWith f
  else (p.trackCosts f).reduceWith f

def forceClose (p : Position) : Position :=
  { p with shares := 0, avgCost := 0, costBasis := 0, unrealizedPnl := 0 }

theorem tokenId_markToMarket (p : Position) (marketPrice : Decimal) : (p.markToMarket marketPrice).tokenId = p.tokenId := by
  unfold markToMarket
  split <;> rfl

theorem tokenId_applyFill (p : Position) (f : Fill) : (p.applyFill f).tokenId = p.tokenId := by
  have hreduce : ∀ q : Position, (q.reduceWith f).tokenId = q.tokenId := by
    intro q
    dsimp only [reduceWith]
    split
    · rfl
    · split <;> rfl
  unfold applyFill
  split
  · rfl
  · split
    · rfl
    · exact hreduce _

end Position

abbrev Positions := Store TokenId Position

namespace Positions

def new : Positions := ∅

/-- The position of a token, empty when the token was never traded. -/
def get (ps : Positions) (tokenId : TokenId) : Position := (ps.lookup tokenId).getD (Position.new tokenId)

def applyFill (ps : Positions) (f : Fill) : Positions := ps.insert f.tokenId ((ps.get f.tokenId).applyFill f)
def markAllToMarket (ps : Positions) (prices : List (TokenId × Decimal)) : Positions :=
  prices.foldl (fun ps tp => modify tp.1 (·.markToMarket tp.2) ps) ps
def forceClose (ps : Positions) (tokenId : TokenId) : Positions := modify tokenId Position.forceClose ps
def allPositions (ps : Positions) : List Position := (values ps).filter fun p => !p.isFlat

theorem get_new (t : TokenId) : new.get t = Position.new t := by
  simp [new, get]

theorem get_applyFill_self (ps : Positions) (f : Fill) :
    (ps.applyFill f).get f.tokenId = (ps.get f.tokenId).applyFill f := by
  simp only [applyFill, get, AList.lookup_insert, Option.getD_some]

theorem get_applyFill_ne (ps : Positions) (f : Fill) {t : TokenId} (h : f.tokenId ≠ t) :
    (ps.applyFill f).get t = ps.get t := by
  simp only [applyFill, get, AList.lookup_insert_ne (Ne.symm h)]

theorem get_forceClose_self (ps : Positions) (t : TokenId) : ((ps.forceClose t).get t).shares = 0 := by
  rw [forceClose, get, lookup_modify_self]
  cases ps.lookup t <;> rfl

theorem get_forceClose_ne (ps : Positions) {t u : TokenId} (h : u ≠ t) : (ps.forceClose t).get u = ps.get u := by
  rw [forceClose, get, lookup_modify_ne h, get]

def WellKeyed (ps : Positions) : Prop := ∀ t p, ps.lookup t = some p → p.tokenId = t

theorem wellKeyed_new : new.WellKeyed := fun _ _ h => nomatch h

theorem WellKeyed.tokenId_get {ps : Positions} (h : ps.WellKeyed) (t : TokenId) : (ps.get t).tokenId = t := by
  unfold get
  cases hlookup : ps.lookup t with
  | none => rfl
  | some p => exact h t p hlookup

theorem WellKeyed.modify {ps : Positions} (h : ps.WellKeyed) (t : TokenId) {g : Position → Position}
    (hg : ∀ p, (g p).tokenId = p.tokenId) : WellKeyed (modify t g ps) := by
  intro u p hlookup
  exact forall_lookup_modify h (fun q hq => (hg q).trans hq) hlookup

theorem WellKeyed.forceClose {ps : Positions} (h : ps.WellKeyed) (t : TokenId) : (ps.forceClose t).WellKeyed :=
  h.modify t fun _ => rfl

theorem WellKeyed.markAllToMarket {ps : Positions} (h : ps.WellKeyed) (prices : List (TokenId × Decimal)) :
    (ps.markAllToMarket prices).WellKeyed := by
  unfold Positions.markAllToMarket
  induction prices generalizing ps with
  | nil => exact h
  | cons tp prices ih => exact ih (h.modify tp.1 fun p => p.tokenId_markToMarket tp.2)

theorem WellKeyed.applyFill {ps : Positions} (h : ps.WellKeyed) (f : Fill) : (ps.applyFill f).WellKeyed := by
  intro t p hlookup
  refine forall_lookup_insert h ?_ hlookup
  rw [Position.tokenId_applyFill, h.tokenId_get]

theorem get_of_mem_allPositions {ps : Positions} (h : ps.WellKeyed) {p : Position} (hp : p ∈ ps.allPositions) :
    ps.get p.tokenId = p ∧ p.shares ≠ 0 := by
  obtain ⟨hvalue, hopen⟩ := List.mem_filter.mp hp
  obtain ⟨t, ht⟩ := mem_values_iff.mp hvalue
  have htoken := h t p ht
  constructor
  · rw [htoken, get, ht, Option.getD_some]
  · simpa [Position.isFlat] using hopen

theorem nodup_tokens {ps : Positions} (h : ps.WellKeyed) : (ps.allPositions.map (·.tokenId)).Nodup := by
  have hkeys : (values ps).map (·.tokenId) = ps.keys := by
    rw [values, List.map_map]
    exact List.map_congr_left fun e he => h e.1 e.2 (AList.mem_lookup_iff.mpr he)
  have hsub : (ps.allPositions.map (·.tokenId)).Sublist ((values ps).map (·.tokenId)) := List.filter_sublist.map _
  exact hsub.nodup (hkeys ▸ ps.keys_nodup)

end Positions

end PolyBot
