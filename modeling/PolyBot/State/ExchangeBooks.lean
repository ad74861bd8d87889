import PolyBot.General.DecimalText
import PolyBot.General.StableSort
import PolyBot.State.BookUpdates
import Mathlib.Order.Bounds.Defs

/-! Whole books as the exchange sends them: their numbers are passed on as texts and read again. -/

namespace PolyBot
open General.DecimalText General.StableSort

structure OrderBook where
  assetId : ℕ
  market : ConditionId
  bids : List (ScaledDecimal × ScaledDecimal)
  asks : List (ScaledDecimal × ScaledDecimal)
  timestamp : ℤ
  hash : Option String
  deriving DecidableEq, Repr

def readDecimal (text : String) : Option Decimal := (ScaledDecimal.fromStr text).map (·.value)

@[simp] theorem readDecimal_text (d : ScaledDecimal) : readDecimal d.text = some d.value := by
  rw [readDecimal, d.fromStr_text, Option.map_some]

namespace OrderBook

def levelOf (l : ScaledDecimal × ScaledDecimal) : PriceLevel := ⟨l.1.text, l.2.text⟩

def snapshot (book : OrderBook) : BookMessage :=
  .snapshot (toString book.assetId) book.market (book.bids.map levelOf) (book.asks.map levelOf) (some book.timestamp)
    book.hash

def bidPrices (book : OrderBook) : Set Decimal := {p | ∃ l ∈ book.bids, l.1.value = p}
def askPrices (book : OrderBook) : Set Decimal := {p | ∃ l ∈ book.asks, l.1.value = p}

def IsReadIn (book : OrderBook) (held : BookSnapshot) : Prop :=
  (∀ p, held.bestBid readDecimal = some p ↔ IsGreatest book.bidPrices p) ∧
    ∀ p, held.bestAsk readDecimal = some p ↔ IsLeast book.askPrices p

/-- The price that stands first when a side has been sorted is the one that comes before all. -/
theorem head_price_iff (r : Decimal → Decimal → Prop) [DecidableRel r] [Std.Total r] [IsTrans Decimal r]
    [Std.Antisymm r] (side : List (ScaledDecimal × ScaledDecimal)) (worst p : Decimal) :
    (((side.map levelOf).insertionSort fun a b =>
        r ((readDecimal a.price).getD worst) ((readDecimal b.price).getD worst)).head?.bind
          fun l => readDecimal l.price) = some p ↔
      (∃ l ∈ side, l.1.value = p) ∧ ∀ l ∈ side, r p l.1.value := by
  have hmap := List.map_insertionSort (fun a b : ScaledDecimal × ScaledDecimal => r a.1.value b.1.value)
    (fun a b : PriceLevel => r ((readDecimal a.price).getD worst) ((readDecimal b.price).getD worst)) levelOf side
    fun a _ b _ => by simp [levelOf]
  rw [← hmap, List.head?_map, Option.bind_map,
    ← head_insertionSort_iff (fun l : ScaledDecimal × ScaledDecimal => l.1.value)]
  simp only [Function.comp_def, levelOf, readDecimal_text, Option.map_eq_bind]

/-- A book that has been put in is read as it was sent. -/
theorem exists_getBook_take (books : OrderBookState) (book : OrderBook) :
    ∃ held, (books.take readDecimal book.snapshot).getBook (toString book.assetId) = some held ∧
      book.IsReadIn held := by
  refine ⟨_, AList.lookup_insert books, fun p => ?_, fun p => ?_⟩
  · refine (head_price_iff (fun a b => b ≤ a) book.bids 0 p).trans (and_congr_right fun _ => ⟨?_, ?_⟩)
    · rintro hall _ ⟨l, hl, rfl⟩
      exact hall l hl
    · exact fun hupper l hl => hupper ⟨l, hl, rfl⟩
  · refine (head_price_iff (fun a b => a ≤ b) book.asks Decimal.max p).trans (and_congr_right fun _ => ⟨?_, ?_⟩)
    · rintro hall _ ⟨l, hl, rfl⟩
      exact hall l hl
    · exact fun hlower l hl => hlower ⟨l, hl, rfl⟩

theorem getBook_take_ne (books : OrderBookState) {book : OrderBook} {tokenId : TokenId}
    (h : toString book.assetId ≠ tokenId) :
    (books.take readDecimal book.snapshot).getBook tokenId = books.getBook tokenId :=
  AList.lookup_insert_ne (Ne.symm h)

def last (received : List OrderBook) (tokenId : TokenId) : Option OrderBook :=
  received.reverse.find? fun book => toString book.assetId = tokenId

/-- The book that is held for a token is the last one put in, and none is held if there was none. -/
theorem rel_last (received : List OrderBook) (tokenId : TokenId) :
    Option.Rel IsReadIn (last received tokenId)
      ((received.foldl (fun books book => books.take readDecimal book.snapshot) ∅ : OrderBookState).getBook
        tokenId) := by
  induction received using List.reverseRecOn with
  | nil => exact .none
  | append_singleton received book ih =>
    rw [List.foldl_append, last, List.reverse_append, List.reverse_singleton, List.singleton_append, List.find?_cons]
    by_cases htoken : toString book.assetId = tokenId
    · subst htoken
      obtain ⟨held, hheld, hread⟩ := exists_getBook_take
        (received.foldl (fun books book => books.take readDecimal book.snapshot) ∅) book
      rw [decide_eq_true rfl, List.foldl_cons, List.foldl_nil, hheld]
      exact .some hread
    · rw [decide_eq_false htoken, List.foldl_cons, List.foldl_nil, getBook_take_ne _ htoken]
      exact ih

end OrderBook

end PolyBot
