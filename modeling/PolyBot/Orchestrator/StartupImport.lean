import PolyBot.Ledger.CashFlow
import PolyBot.Orchestrator.LiveBot

/-! What the recent fills that are replayed at startup do to the cash, which the exchange's balance already has them
in, and to the positions, which they are replayed for. -/

namespace PolyBot.Bot
open General.Replay Ledger CashFlow PositionIdentity

/-- What a replayed fill adds to the cash when nothing is reserved: a sale its proceeds, every fill its fee, and a
purchase nothing. -/
def replayedFlow (f : Fill) : Decimal :=
  (match f.side with
    | .Buy => 0
    | .Sell => max f.notional 0) - max f.fee 0

/-- A purchase draws nothing where nothing is reserved. -/
theorem settleBuy_of_unreserved {c : CashBalance} (h : c.reserved = 0) (amount : Decimal) :
    c.discard (c.settleBuy amount) = c := by
  by_cases hneg : amount ≤ 0
  · exact c.settleBuy_of_nonpos hneg
  · rw [CashBalance.settleBuy, if_neg hneg, if_pos (h ▸ not_le.mp hneg), CashBalance.discard, ← h]

theorem total_replay {l : Ledger} (h : l.cash.reserved = 0) {f : Fill} (hnew : f.fillId ∉ l.seenFillIds) :
    (l.processFill f).cash.total = l.cash.total + replayedFlow f := by
  rw [processFill_of_new hnew]
  simp only [book, settle, resolve_side, resolve_notional, resolve_fee, replayedFlow]
  cases f.side with
  | Buy =>
    dsimp only
    rw [settleBuy_of_unreserved h, CashBalance.total_deductFee]
    ring
  | Sell =>
    dsimp only
    rw [CashBalance.total_deductFee, CashBalance.total_settleSell]
    ring

theorem unreserved_replay {l : Ledger} (h : l.cash.reserved = 0) {f : Fill} (hnew : f.fillId ∉ l.seenFillIds) :
    (l.processFill f).cash.reserved = 0 := by
  rw [processFill_of_new hnew, reserved_book, CashBalance.reserved_settleBuy_of_zero h, h, ite_self]

private theorem sum_replayedFlow (fills : List Fill) :
    (fills.map replayedFlow).sum =
      ((fills.filter (·.side = .Sell)).map fun f => max f.notional 0).sum - (fills.map fun f => max f.fee 0).sum := by
  have hworth : ∀ f, replayedFlow f =
      (match f.side with | .Buy => -(fun _ => 0 : Fill → Decimal) f | .Sell => max f.notional 0) - max f.fee 0 := by
    intro f
    unfold replayedFlow
    cases f.side <;> simp
  rw [sum_by_side hworth]
  simp

def replayedProceeds (fills : List Fill) : Decimal :=
  (((firstOccurrences Fill.fillId fills).filter (·.side = .Sell)).map fun f => max f.notional 0).sum

def replayedFees (fills : List Fill) : Decimal := ((firstOccurrences Fill.fillId fills).map fun f => max f.fee 0).sum

/-- For every balance of the exchange and every list of recent fills, the bot starts with that balance exactly if the
proceeds of the replayed sales are what the replayed fills are charged, as with fills that neither sell nor cost a
fee. -/
theorem startup_cash_is_balance_iff (ex : OrderExecutor) (initialCash balance : Decimal) (recentFills : List Fill) :
    (LiveState.start ex initialCash (some balance) recentFills).ledger.cash.total = balance ↔
      replayedProceeds recentFills = replayedFees recentFills := by
  have hrun := processFill_deduplicates.measure_foldl (fun l => l.cash.reserved = 0)
    (fun l => l.cash.total) (fun l f h hnew => unreserved_replay h hnew)
    (fun l f h hnew => total_replay h hnew) ((Ledger.new initialCash).syncCash balance) recentFills rfl
  have hstart : ((Ledger.new initialCash).syncCash balance).cash.total = balance := add_zero balance
  have hflow : (LiveState.start ex initialCash (some balance) recentFills).ledger.cash.total =
      balance + (replayedProceeds recentFills - replayedFees recentFills) := by
    rw [hstart] at hrun
    exact hrun.trans (congrArg (balance + ·) (sum_replayedFlow _))
  rw [hflow]
  constructor <;> intro h <;> linarith

private def soldBefore : Fill := ⟨"f1", "o1", "yes", .Sell, 1 / 2, 10, 0, none, 0⟩

/-- The exchange reports a hundred dollars, five of them from a sale; the bot starts with a hundred and five. -/
theorem sale_is_counted_twice :
    let s := LiveState.start (.new DualPolicy.new.policy (.new 0)) 0 (some 100) [soldBefore]
    s.ledger.cash.total = 105 ∧ s.ledger.cash.total ≠ 100 := by
  have htotal : (LiveState.start (.new DualPolicy.new.policy (.new 0)) 0 (some 100) [soldBefore]).ledger.cash.total =
      105 := by decide +kernel
  refine ⟨htotal, ?_⟩
  rw [htotal]
  decide +kernel

def netShares (t : TokenId) (fills : List Fill) : Decimal := ((fillsOf t fills).map Fill.signedSize).sum

theorem netShares_cons (t : TokenId) (f : Fill) (fills : List Fill) :
    netShares t (f :: fills) = (if f.tokenId = t then f.signedSize else 0) + netShares t fills := by
  by_cases h : f.tokenId = t
  · simp [netShares, fillsOf, h]
  · simp [netShares, fillsOf, h]

theorem netShares_append (t : TokenId) (fills fills' : List Fill) :
    netShares t (fills ++ fills') = netShares t fills + netShares t fills' := by
  simp [netShares, fillsOf]

/-- Everything the wallet has traded, oldest first. No fill is listed twice, and none sells what was not bought. -/
structure TradeHistory where
  fills : List Fill
  distinct : (fills.map Fill.fillId).Nodup
  covered : ∀ p, p <+: fills → ∀ t, 0 ≤ netShares t p

theorem shares_replay (l : Ledger) {f : Fill} (hnew : f.fillId ∉ l.seenFillIds) (t : TokenId) :
    ((l.processFill f).getPosition t).shares =
      (l.getPosition t).shares + if f.tokenId = t then f.signedSize else 0 := by
  rw [processFill_of_new hnew]
  change ((l.positions.applyFill (l.resolve f)).get t).shares = (l.positions.get t).shares + _
  by_cases htoken : f.tokenId = t
  · subst htoken
    have hself := l.positions.get_applyFill_self (l.resolve f)
    have htoken : (l.resolve f).tokenId = f.tokenId := rfl
    rw [htoken] at hself
    rw [hself, shares_applyFill, if_pos rfl]
    rfl
  · rw [Positions.get_applyFill_ne _ (l.resolve f) htoken, if_neg htoken, add_zero]

/-- The shares after fills with ids of their own are replayed into a ledger without positions or fills. -/
theorem shares_import {l : Ledger} (hpositions : l.positions = Positions.new) (hseen : l.seenFillIds = ∅)
    {fills : List Fill} (hdistinct : (fills.map Fill.fillId).Nodup) (t : TokenId) :
    ((fills.foldl processFill l).getPosition t).shares = netShares t fills := by
  have hrun := processFill_deduplicates.measure_foldl (fun _ => True)
    (fun l => (l.getPosition t).shares) (fun _ _ _ _ => trivial)
    (fun l f _ hnew => shares_replay l hnew t) l fills trivial
  have hstart : (l.getPosition t).shares = 0 := by
    rw [getPosition, hpositions, Positions.get_new]
    rfl
  rw [fresh_of_nodup (by simp [hseen]) hdistinct, hstart, zero_add] at hrun
  rw [hrun]
  clear hrun hdistinct
  induction fills with
  | nil => rfl
  | cons f fills ih => rw [List.map_cons, List.sum_cons, ih, netShares_cons]

/-- For every history and every cut, the fills after the cut leave the shares of the whole history, and none below
zero, exactly if the fills before the cut leave no shares of any token. -/
theorem restart_reconstructs_iff (ex : OrderExecutor) (initialCash : Decimal) (balance : Option Decimal)
    (history : TradeHistory) (cut : ℕ) :
    let imported := (LiveState.start ex initialCash balance (history.fills.drop cut)).ledger
    let full := history.fills.foldl processFill (Ledger.new initialCash)
    ((∀ t, (imported.getPosition t).shares = (full.getPosition t).shares) ∧
        ∀ t, 0 ≤ (imported.getPosition t).shares) ↔
      ∀ t, netShares t (history.fills.take cut) = 0 := by
  intro imported full
  have hwindow : ((history.fills.drop cut).map Fill.fillId).Nodup :=
    ((List.drop_sublist cut history.fills).map _).nodup history.distinct
  have himported : ∀ t, (imported.getPosition t).shares = netShares t (history.fills.drop cut) := by
    intro t
    cases balance with
    | none => exact shares_import rfl rfl hwindow t
    | some balance => exact shares_import rfl rfl hwindow t
  have hfull : ∀ t, (full.getPosition t).shares = netShares t history.fills :=
    fun t => shares_import rfl rfl history.distinct t
  have hsplit : ∀ t, netShares t history.fills =
      netShares t (history.fills.take cut) + netShares t (history.fills.drop cut) := by
    intro t
    rw [← netShares_append, List.take_append_drop]
  simp only [himported, hfull, hsplit]
  constructor
  · rintro ⟨hsame, -⟩ t
    have h := hsame t
    linarith
  · intro hzero
    refine ⟨fun t => by rw [hzero t, zero_add], fun t => ?_⟩
    have hcovered := history.covered history.fills (List.prefix_refl _) t
    rwa [hsplit t, hzero t, zero_add] at hcovered

private def boughtEarly : Fill := ⟨"f1", "o1", "yes", .Buy, 1 / 2, 10, 0, none, 0⟩
private def soldLate : Fill := ⟨"f2", "o2", "yes", .Sell, 3 / 5, 10, 0, none, 0⟩

private def roundTrip : TradeHistory where
  fills := [boughtEarly, soldLate]
  distinct := by decide
  covered := by
    intro p hp t
    have hprefix : p = [] ∨ p = [boughtEarly] ∨ p = [boughtEarly, soldLate] := by
      simpa using (List.mem_inits p [boughtEarly, soldLate]).mpr hp
    by_cases ht : "yes" = t
    · subst ht
      rcases hprefix with rfl | rfl | rfl <;> decide +kernel
    · have hother : ∀ f ∈ p, f.tokenId ≠ t := by
        rcases hprefix with rfl | rfl | rfl <;> simp [boughtEarly, soldLate, ht]
      have hnone : fillsOf t p = [] := List.filter_eq_nil_iff.mpr fun f hf => by simpa using hother f hf
      rw [netShares, hnone]
      exact le_refl 0

/-- When only the sale is within the window, the bot starts ten shares short of a token that the wallet has none of. -/
theorem sale_of_earlier_purchase_is_short :
    let imported := (LiveState.start (.new DualPolicy.new.policy (.new 0)) 0 none (roundTrip.fills.drop 1)).ledger
    let full := roundTrip.fills.foldl processFill (Ledger.new 0)
    (imported.getPosition "yes").shares = -10 ∧ (full.getPosition "yes").shares = 0 := by
  constructor <;> decide +kernel

end PolyBot.Bot
