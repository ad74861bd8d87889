import PolyBot.General.KeyedStore
import PolyBot.Types

/-! Order books. Prices and sizes arrive as text; `parse` is the decimal parser, which fails on text that
is not a decimal. -/

namespace PolyBot
open General.KeyedStore

structure PriceLevel where
  price : String
  size : String
  deriving DecidableEq, Repr

structure BookSnapshot where
  tokenId : TokenId
  market : ConditionId
  bids : List PriceLevel
  asks : List PriceLevel
  lastUpdate : Option ℤ
  hash : Option String
  deriving DecidableEq, Repr

namespace BookSnapshot

variable (parse : String → Option Decimal)

def bestBid (b : BookSnapshot) : Option Decimal := b.bids.head?.bind fun level => parse level.price
def bestAsk (b : BookSnapshot) : Option Decimal := b.asks.head?.bind fun level => parse level.price

def spread (b : BookSnapshot) : Option Decimal := do
  let bid ← b.bestBid parse
  let ask ← b.bestAsk parse
  pure (ask - bid)

/-- The size at the best ask, zero when there is none. -/
def askDepth (b : BookSnapshot) : Decimal := (b.asks.head?.bind fun level => parse level.size).getD 0

def isTwoSided (b : BookSnapshot) : Bool := !b.bids.isEmpty && !b.asks.isEmpty

end BookSnapshot

abbrev OrderBookState := Store TokenId BookSnapshot

namespace OrderBookState

def getBook (books : OrderBookState) (tokenId : TokenId) : Option BookSnapshot := books.lookup tokenId

def bestAsk (parse : String → Option Decimal) (books : OrderBookState) (tokenId : TokenId) : Option Decimal :=
  (books.getBook tokenId).bind (·.bestAsk parse)

def bestBid (parse : String → Option Decimal) (books : OrderBookState) (tokenId : TokenId) : Option Decimal :=
  (books.getBook tokenId).bind (·.bestBid parse)

theorem bestAsk_of_getBook (parse : String → Option Decimal) {books : OrderBookState} {tokenId : TokenId}
    {book : BookSnapshot} (h : books.getBook tokenId = some book) :
    books.bestAsk parse tokenId = book.bestAsk parse := by
  rw [bestAsk, h, Option.bind_some]

def midPrice (parse : String → Option Decimal) (books : OrderBookState) (tokenId : TokenId) : Option Decimal := do
  let bid ← books.bestBid parse tokenId
  let ask ← books.bestAsk parse tokenId
  pure ((bid + ask) / 2)

def bidDepth (parse : String → Option Decimal) (books : OrderBookState) (tokenId : TokenId) : Option Decimal :=
  (books.getBook tokenId).bind fun book => book.bids.head?.bind fun level => parse level.size

def askDepth (parse : String → Option Decimal) (books : OrderBookState) (tokenId : TokenId) : Option Decimal :=
  (books.getBook tokenId).bind fun book => book.asks.head?.bind fun level => parse level.size

end OrderBookState

end PolyBot
