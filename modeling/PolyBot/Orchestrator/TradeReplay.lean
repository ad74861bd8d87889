import PolyBot.Execution.OrderTracker
import PolyBot.General.AdditiveRuns
import PolyBot.Ledger.Ledger
import PolyBot.Websocket.User

/-! Trade notifications, which the exchange may deliver more than once, and the two stores that the bot keeps of them. -/

namespace PolyBot.Bot.TradeReplay
open General.AdditiveRuns General.KeyedStore General.Replay Execution Execution.OrderTracker Websocket

/-- The ledger and, beside it, the resting orders. -/
structure Books where
  ledger : Ledger
  tracker : OrderTracker

def handleTradeNotification (b : Books) (trade : TradeNotification) : Books :=
  match trade.toFill with
  | .ok fill => ⟨b.ledger.processFill fill, (b.tracker.onFill fill.orderId fill.size).2⟩
  | .error _ => b

def run (b : Books) (deliveries : List TradeNotification) : Books := deliveries.foldl handleTradeNotification b

theorem run_concat (b : Books) (deliveries : List TradeNotification) (trade : TradeNotification) :
    run b (deliveries ++ [trade]) = handleTradeNotification (run b deliveries) trade :=
  List.foldl_concat _ _ _ _

def firstDeliveries (deliveries : List TradeNotification) : List TradeNotification :=
  firstOccurrences TradeNotification.id deliveries

structure SameBooks (b b' : Books) : Prop where
  ledger : b.ledger = b'.ledger
  tracker : SameState b.tracker b'.tracker

theorem SameBooks.refl (b : Books) : SameBooks b b := ⟨rfl, .refl _⟩

theorem SameBooks.symm {b b' : Books} (h : SameBooks b b') : SameBooks b' b := ⟨h.ledger.symm, h.tracker.symm⟩

theorem SameBooks.trans {b b' b'' : Books} (h : SameBooks b b') (h' : SameBooks b' b'') : SameBooks b b'' :=
  ⟨h.ledger.trans h'.ledger, h.tracker.trans h'.tracker⟩

theorem SameBooks.handle {b b' : Books} (h : SameBooks b b') (trade : TradeNotification) :
    SameBooks (handleTradeNotification b trade) (handleTradeNotification b' trade) := by
  unfold handleTradeNotification
  cases trade.toFill with
  | error _ => exact h
  | ok fill => exact ⟨congrArg (·.processFill fill) h.ledger, h.tracker.onFill fill.orderId fill.size⟩

/-- The ledger has seen the trade and its order is not tracked, or nothing of it is filled. -/
def Harmless (b : Books) (trade : TradeNotification) : Prop :=
  ∀ fill, trade.toFill = .ok fill → fill.fillId ∈ b.ledger.seenFillIds ∧
    ∀ order, b.tracker.get fill.orderId = some order → fill.size = 0 ∧ order.isFilled = false

private theorem processFill_eq_self_iff (l : Ledger) (fill : Fill) :
    l.processFill fill = l ↔ fill.fillId ∈ l.seenFillIds := by
  constructor
  · intro h
    rw [← h, Ledger.seenFillIds_processFill]
    exact Finset.mem_insert_self _ _
  · exact Ledger.processFill_of_seen

private theorem sameState_onFill_self_iff (t : OrderTracker) (orderId : OrderId) (size : Decimal) :
    SameState (t.onFill orderId size).2 t ↔
      ∀ order, t.get orderId = some order → size = 0 ∧ order.isFilled = false := by
  cases hlookup : t.orders.lookup orderId with
  | none =>
    rw [onFill_of_untracked hlookup, OrderTracker.get, hlookup]
    exact iff_of_true (.refl _) nofun
  | some order =>
    have hget : ∀ o, t.get orderId = some o ↔ order = o := by
      intro o
      rw [OrderTracker.get, hlookup, Option.some.injEq]
    simp only [hget, forall_eq']
    constructor
    · intro hsame
      have horders := hsame.orders orderId
      rw [get_onFill_self hlookup, OrderTracker.get, hlookup] at horders
      split at horders
      · cases horders
      · rename_i hopen
        have hunchanged := Option.some.inj horders
        have hfilled := congrArg Execution.TrackedOrder.filledSize hunchanged
        rw [Execution.TrackedOrder.addFill_filledSize, add_eq_left] at hfilled
        rw [hunchanged] at hopen
        exact ⟨hfilled, Bool.eq_false_iff.mpr hopen⟩
    · rintro ⟨rfl, hopen⟩
      rw [onFill_of_tracked hlookup, Execution.TrackedOrder.addFill_zero, hopen]
      exact { SameState.refl t with orders := lookup_insert_of_lookup hlookup }

/-- The step lemma: what a notification must be to change nothing. -/
theorem sameBooks_handle_self_iff (b : Books) (trade : TradeNotification) :
    SameBooks (handleTradeNotification b trade) b ↔ Harmless b trade := by
  unfold handleTradeNotification Harmless
  cases trade.toFill with
  | error _ => exact iff_of_true (.refl b) nofun
  | ok fill =>
    simp only [Except.ok.injEq, forall_eq']
    rw [← processFill_eq_self_iff, ← sameState_onFill_self_iff]
    exact ⟨fun h => ⟨h.ledger, h.tracker⟩, fun h => ⟨h.1, h.2⟩⟩

structure Session where
  books : Books
  delivered : Finset String

def deliver (s : Session) (trade : TradeNotification) : Session :=
  ⟨handleTradeNotification s.books trade, insert trade.id s.delivered⟩

def ReplayHarmless (s : Session) (trade : TradeNotification) : Prop :=
  trade.id ∈ s.delivered → Harmless s.books trade

theorem foldl_deliver (s : Session) (deliveries : List TradeNotification) :
    deliveries.foldl deliver s =
      ⟨run s.books deliveries, s.delivered ∪ (deliveries.map TradeNotification.id).toFinset⟩ := by
  induction deliveries generalizing s with
  | nil => simp [run]
  | cons trade deliveries ih =>
    rw [List.foldl_cons, ih, List.map_cons, List.toFinset_cons, Finset.union_insert, ← Finset.insert_union]
    rfl

/-- After every part of a sequence of deliveries the books are those of the first deliveries exactly if every trade that
comes again is harmless when it comes. -/
theorem replays_change_nothing_iff (b : Books) (deliveries : List TradeNotification) :
    (∀ p, p <+: deliveries → SameBooks (run b p) (run b (firstDeliveries p))) ↔
      Throughout deliver ReplayHarmless ⟨b, ∅⟩ deliveries := by
  induction deliveries using List.reverseRecOn with
  | nil =>
    refine iff_of_true (fun p hp => ?_) trivial
    rw [List.prefix_nil.mp hp]
    exact .refl b
  | append_singleton deliveries trade ih =>
    rw [forall_prefix_concat_iff, throughout_append_iff, ← ih, foldl_deliver]
    refine and_congr_right fun hbefore => ?_
    have hsame := hbefore deliveries List.prefix_rfl
    simp only [Throughout, and_true, ReplayHarmless, Finset.empty_union, List.mem_toFinset]
    rw [run_concat, firstDeliveries, firstOccurrences_concat]
    split
    · rename_i hagain
      rw [List.append_nil, ← firstDeliveries, forall_prop_of_true hagain, ← sameBooks_handle_self_iff]
      exact ⟨fun h => h.trans hsame.symm, fun h => h.trans hsame⟩
    · rename_i hfirst
      refine iff_of_true ?_ fun hagain => absurd hagain hfirst
      rw [run_concat, ← firstDeliveries]
      exact hsame.handle trade

def matchedTrade : TradeMessage :=
  ⟨"t", some "o", 1, .Buy, .ofParts 60 0, .ofParts 1 0, none, .Matched, none⟩

def restingBooks : Books := ⟨.new 1000, OrderTracker.new.track ⟨"o", "1", "m", .Buy, 1, 100, 0, none⟩⟩

/-- Delivered again, the trade fills the order a second time, and the order is dropped with 40 still open. -/
theorem replayed_trade_drops_order :
    let deliveries := [matchedTrade.notification, matchedTrade.notification]
    ¬SameBooks (run restingBooks deliveries) (run restingBooks (firstDeliveries deliveries)) := by
  intro deliveries hsame
  have hfill : matchedTrade.notification.toFill = .ok (matchedTrade.fillOf .Buy) := matchedTrade.toFill_notification
  have hfirst : firstDeliveries deliveries = [matchedTrade.notification] := by decide +kernel
  have horders := hsame.tracker.orders "o"
  simp only [deliveries, hfirst, run, List.foldl_cons, List.foldl_nil, handleTradeNotification, hfill] at horders
  revert horders
  decide +kernel

end PolyBot.Bot.TradeReplay
