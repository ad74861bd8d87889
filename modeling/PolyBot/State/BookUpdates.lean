import PolyBot.State.OrderBook
import PolyBot.Websocket.User
import Mathlib.Data.List.Sort

/-! How snapshots and level messages change the order books. -/

namespace PolyBot
open Websocket (toUppercase)

def sideOf (side : String) : Option Side :=
  if toUppercase side = "BUY" then some .Buy else if toUppercase side = "SELL" then some .Sell else none

namespace BookSnapshot

def levels (b : BookSnapshot) : Side → List PriceLevel
  | .Buy => b.bids
  | .Sell => b.asks

def setLevels (b : BookSnapshot) (side : Side) (levels : List PriceLevel) : BookSnapshot :=
  match side with
  | .Buy => { b with bids := levels }
  | .Sell => { b with asks := levels }

@[simp] theorem levels_setLevels_self (b : BookSnapshot) (side : Side) (levels : List PriceLevel) :
    (b.setLevels side levels).levels side = levels := by
  cases side <;> rfl

theorem levels_setLevels_ne (b : BookSnapshot) {side side' : Side} (h : side' ≠ side) (levels : List PriceLevel) :
    (b.setLevels side levels).levels side' = b.levels side' := by
  cases side <;> cases side' <;> first | rfl | exact absurd rfl h

end BookSnapshot

variable (parse : String → Option Decimal)

/-- Where the level of a price stands; a level whose price is no number is at no price. -/
def existingIdx (levels : List PriceLevel) (price : Decimal) : Option ℕ :=
  levels.findIdx? fun l => parse l.price = some price

/-- Where a new price goes: bids descend, asks ascend, and a level whose price is no number stays behind. -/
def placeIdx (side : Side) (levels : List PriceLevel) (price : Decimal) : ℕ :=
  match side with
  | .Buy => levels.findIdx fun l => ((parse l.price).map fun p => decide (p < price)).getD true
  | .Sell => levels.findIdx fun l => ((parse l.price).map fun p => decide (price < p)).getD true

/-- The levels of one side after a message with this price and size; a size of zero removes. -/
def changeLevel (side : Side) (levels : List PriceLevel) (new : PriceLevel) (price size : Decimal) : List PriceLevel :=
  if size = 0 then
    match existingIdx parse levels price with
    | some idx => levels.eraseIdx idx
    | none => levels
  else
    match existingIdx parse levels price with
    | some idx => levels.set idx new
    | none => levels.insertIdx (placeIdx parse side levels price) new

namespace OrderBookState

/-- A snapshot replaces the book. Its levels are sorted stably; a price that is no number counts as zero among the bids
and as the largest decimal among the asks. -/
def updateBook (books : OrderBookState) (tokenId : TokenId) (market : ConditionId) (bids asks : List PriceLevel)
    (timestamp : Option ℤ) (hash : Option String) : OrderBookState :=
  books.insert tokenId
    { tokenId := tokenId
      market := market
      bids := bids.insertionSort fun a b => (parse b.price).getD 0 ≤ (parse a.price).getD 0
      asks := asks.insertionSort fun a b => (parse a.price).getD Decimal.max ≤ (parse b.price).getD Decimal.max
      lastUpdate := timestamp
      hash := hash }

/-- The book that a level message changes, with its time and hash; a book without levels if there is none. -/
def stampedBook (books : OrderBookState) (tokenId : TokenId) (market : ConditionId) (timestamp : Option ℤ)
    (hash : Option String) : BookSnapshot :=
  { (books.getBook tokenId).getD ⟨tokenId, market, [], [], timestamp, none⟩ with lastUpdate := timestamp, hash := hash }

/-- A price, size or side that cannot be read leaves the levels alone. -/
def updateLevel (books : OrderBookState) (tokenId : TokenId) (market : ConditionId) (side price size : String)
    (timestamp : Option ℤ) (hash : Option String) : OrderBookState :=
  let book := books.stampedBook tokenId market timestamp hash
  books.insert tokenId (match parse price, parse size, sideOf side with
    | some p, some s, some sd => book.setLevels sd (changeLevel parse sd (book.levels sd) ⟨price, size⟩ p s)
    | _, _, _ => book)

def levels (books : OrderBookState) (tokenId : TokenId) (side : Side) : List PriceLevel :=
  match books.getBook tokenId with
  | none => []
  | some book => book.levels side

theorem levels_insert_self (books : OrderBookState) (tokenId : TokenId) (book : BookSnapshot) (side : Side) :
    levels (books.insert tokenId book) tokenId side = book.levels side := by
  rw [levels, getBook, AList.lookup_insert]

theorem levels_insert_ne (books : OrderBookState) {tokenId tokenId' : TokenId} (h : tokenId' ≠ tokenId)
    (book : BookSnapshot) (side : Side) :
    levels (books.insert tokenId book) tokenId' side = books.levels tokenId' side := by
  rw [levels, getBook, AList.lookup_insert_ne h]
  rfl

theorem levels_stampedBook (books : OrderBookState) (tokenId : TokenId) (market : ConditionId) (timestamp : Option ℤ)
    (hash : Option String) (side : Side) :
    (books.stampedBook tokenId market timestamp hash).levels side = books.levels tokenId side := by
  unfold stampedBook levels
  cases books.getBook tokenId <;> cases side <;> rfl

end OrderBookState

inductive BookMessage where
  | snapshot (tokenId : TokenId) (market : ConditionId) (bids asks : List PriceLevel) (timestamp : Option ℤ)
      (hash : Option String)
  | level (tokenId : TokenId) (market : ConditionId) (side price size : String) (timestamp : Option ℤ)
      (hash : Option String)

def BookMessage.subject : BookMessage → ConditionId × TokenId
  | .snapshot tokenId market _ _ _ _ => (market, tokenId)
  | .level tokenId market _ _ _ _ _ => (market, tokenId)

def OrderBookState.take (books : OrderBookState) : BookMessage → OrderBookState
  | .snapshot tokenId market bids asks timestamp hash => books.updateBook parse tokenId market bids asks timestamp hash
  | .level tokenId market side price size timestamp hash =>
    books.updateLevel parse tokenId market side price size timestamp hash

end PolyBot
