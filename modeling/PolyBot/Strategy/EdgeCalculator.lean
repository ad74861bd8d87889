import PolyBot.State.OrderBook

namespace PolyBot

def DEFAULT_MIN_EDGE : Decimal := 3 / 100
def THIN_BOOK_EXTRA_MARGIN : Decimal := 1 / 100
def MAKER_MIN_EDGE : Decimal := 1 / 100

structure EdgeConfig where
  minEdge : Decimal
  thinBookMargin : Decimal
  minDepthThreshold : Decimal
  slippageFactor : Decimal
  isMaker : Bool
  deriving DecidableEq, Repr

namespace EdgeConfig

def taker : EdgeConfig := ⟨DEFAULT_MIN_EDGE, THIN_BOOK_EXTRA_MARGIN, 100, 1 / 2, false⟩
def maker : EdgeConfig := { taker with minEdge := MAKER_MIN_EDGE, isMaker := true }

end EdgeConfig

structure EdgeComponents where
  fees : Decimal
  slippage : Decimal
  partialFillRisk : Decimal
  spreadPenalty : Decimal
  deriving DecidableEq, Repr

structure EdgeCalculation where
  requiredEdge : Decimal
  actualEdge : Decimal
  isProfitable : Bool
  maxSize : Decimal
  components : EdgeComponents
  deriving DecidableEq, Repr

namespace EdgeConfig

variable (parse : String → Option Decimal)

def calculateFees (c : EdgeConfig) (feeRateBps : ℕ) (combinedCost : Decimal) : Decimal :=
  if c.isMaker then 0 else (feeRateBps : Decimal) / 10000 * combinedCost

def averageSpread (fallback : Decimal) (yesBook noBook : BookSnapshot) : Decimal :=
  ((yesBook.spread parse).getD fallback + (noBook.spread parse).getD fallback) / 2

def minDepth (yesBook noBook : BookSnapshot) : Decimal := min (yesBook.askDepth parse) (noBook.askDepth parse)

def estimateSlippage (c : EdgeConfig) (yesBook noBook : BookSnapshot) (intendedSize : Decimal) : Decimal :=
  let depth := minDepth parse yesBook noBook
  if depth = 0 then 1 / 10
  else if depth < intendedSize then
    min ((intendedSize - depth) / depth * averageSpread parse (5 / 100) yesBook noBook * c.slippageFactor) (1 / 10)
  else 0

def partialFillMargin (c : EdgeConfig) (yesBook noBook : BookSnapshot) : Decimal :=
  let depth := minDepth parse yesBook noBook
  if depth < c.minDepthThreshold then c.thinBookMargin
  else if depth < c.minDepthThreshold * 2 then c.thinBookMargin / 2
  else 0

def spreadPenalty (yesBook noBook : BookSnapshot) : Decimal :=
  let avgSpread := averageSpread parse (1 / 10) yesBook noBook
  if 5 / 100 < avgSpread then (avgSpread - 5 / 100) * (1 / 2) else 0

/-- The edge of buying one share of each token at the best asks, against the edge required. -/
def calculate (c : EdgeConfig) (yesBook noBook : BookSnapshot) (feeRateBps : ℕ) (intendedSize : Decimal) :
    EdgeCalculation :=
  let combinedCost := (yesBook.bestAsk parse).getD 1 + (noBook.bestAsk parse).getD 1
  let actualEdge := 1 - combinedCost
  let fees := c.calculateFees feeRateBps combinedCost
  let slippage := c.estimateSlippage parse yesBook noBook intendedSize
  let partialFillRisk := c.partialFillMargin parse yesBook noBook
  let penalty := spreadPenalty parse yesBook noBook
  let requiredEdge := max (fees + slippage + partialFillRisk + penalty) c.minEdge
  let maxSize := minDepth parse yesBook noBook
  { requiredEdge := requiredEdge
    actualEdge := actualEdge
    isProfitable := requiredEdge ≤ actualEdge ∧ intendedSize ≤ maxSize
    maxSize := maxSize
    components := ⟨fees, slippage, partialFillRisk, penalty⟩ }

/-- The two asks and the edge between them, when it is worth the full calculation. -/
def quickCheck (c : EdgeConfig) (books : OrderBookState) (yesToken noToken : TokenId) :
    Option (Decimal × Decimal × Decimal) :=
  match books.bestAsk parse yesToken, books.bestAsk parse noToken with
  | some yesAsk, some noAsk =>
    let combined := yesAsk + noAsk
    let edge := 1 - combined
    if 1 ≤ combined then none
    else if edge < c.minEdge then none
    else some (yesAsk, noAsk, edge)
  | _, _ => none

/-- The quick check reads the asks off the two books. -/
theorem bestAsk_of_quickCheck {c : EdgeConfig} {books : OrderBookState} {yesToken noToken : TokenId}
    {yesBook noBook : BookSnapshot} {yesAsk noAsk edge : Decimal} (hyes : books.getBook yesToken = some yesBook)
    (hno : books.getBook noToken = some noBook)
    (h : c.quickCheck parse books yesToken noToken = some (yesAsk, noAsk, edge)) :
    yesBook.bestAsk parse = some yesAsk ∧ noBook.bestAsk parse = some noAsk := by
  unfold quickCheck at h
  rw [OrderBookState.bestAsk_of_getBook parse hyes, OrderBookState.bestAsk_of_getBook parse hno] at h
  split at h
  · rename_i yes no hyesAsk hnoAsk
    dsimp only at h
    split_ifs at h
    cases h
    exact ⟨hyesAsk, hnoAsk⟩
  · cases h

end EdgeConfig

end PolyBot
