import PolyBot.State.BookViews
import PolyBot.Strategy.EdgeChecks
import PolyBot.Strategy.MathArb

/-! What the bot says of its markets: the states on the dashboard, the edge diagnostics of the heartbeat, and how both
relate to what the arbitrage strategy trades. -/

namespace PolyBot.Bot.Diagnostics

def takerMinEdge : Decimal := 3 / 100

def feeCost (pair : MarketPair) (combined : Decimal) : Decimal := (pair.feeRateBps : Decimal) / 10000 * combined

variable (parse : String → Option Decimal) (books : OrderBookState)

def midSum (pair : MarketPair) : Option Decimal := do
  let yesAsk ← books.bestAsk parse pair.yesTokenId
  let yesBid ← books.bestBid parse pair.yesTokenId
  let noAsk ← books.bestAsk parse pair.noTokenId
  let noBid ← books.bestBid parse pair.noTokenId
  pure ((yesAsk + yesBid) / 2 + (noAsk + noBid) / 2)

section Dashboard

inductive MarketStatus where
  | noData
  | thinBook
  | noArb
  | belowMinEdge
  | tradeable
  deriving DecidableEq, Repr

def MarketStatus.text : MarketStatus → String
  | noData => "no_data"
  | thinBook => "thin_book"
  | noArb => "no_arb"
  | belowMinEdge => "below_min_edge"
  | tradeable => "tradeable"

structure MarketInfo where
  conditionId : ConditionId
  feeRateBps : ℕ
  yesAsk : Option Decimal
  yesBid : Option Decimal
  noAsk : Option Decimal
  noBid : Option Decimal
  combinedAsk : Option Decimal
  midSum : Option Decimal
  rawEdge : Option Decimal
  status : MarketStatus
  deriving DecidableEq, Repr

def marketStatus (pair : MarketPair) : MarketStatus :=
  match books.bestAsk parse pair.yesTokenId, books.bestAsk parse pair.noTokenId with
  | some yesAsk, some noAsk =>
    let combined := yesAsk + noAsk
    if 3 / 2 < combined then .thinBook
    else if 1 ≤ combined then .noArb
    else if feeCost pair combined + takerMinEdge ≤ 1 - combined then .tradeable
    else .belowMinEdge
  | _, _ => .noData

def marketInfo (pair : MarketPair) : MarketInfo :=
  let yesAsk := books.bestAsk parse pair.yesTokenId
  let noAsk := books.bestAsk parse pair.noTokenId
  let combined := yesAsk.bind fun yes => noAsk.map fun no => yes + no
  { conditionId := pair.conditionId
    feeRateBps := pair.feeRateBps
    yesAsk := yesAsk
    yesBid := books.bestBid parse pair.yesTokenId
    noAsk := noAsk
    noBid := books.bestBid parse pair.noTokenId
    combinedAsk := combined
    midSum := midSum parse books pair
    rawEdge := combined.map fun c => 1 - c
    status := marketStatus parse books pair }

def buildMarkets (registry : MarketPairRegistry) : List MarketInfo := registry.allPairs.map (marketInfo parse books)

end Dashboard

section Heartbeat

structure EdgeDiag where
  market : String
  yesAsk : Decimal
  noAsk : Decimal
  combined : Decimal
  midSum : Option Decimal
  rawEdge : Decimal
  feeCost : Decimal
  required : Decimal
  bookAge : Option ℤ
  label : String
  yesLevels : List (Decimal × Decimal) × List (Decimal × Decimal)
  noLevels : List (Decimal × Decimal) × List (Decimal × Decimal)
  deriving DecidableEq, Repr

structure EdgeReport where
  markets : List EdgeDiag
  noBooksYet : Bool
  allFeeBlocked : Bool
  deriving DecidableEq, Repr

def shortId (conditionId : ConditionId) : String := .ofList (conditionId.toList.take 12)

/-- The age of the younger book, as far as a time is known. -/
def bookAge (pair : MarketPair) (nowMs : ℤ) : Option ℤ :=
  let age (tokenId : TokenId) : Option ℤ := ((books.getBook tokenId).bind (·.lastUpdate)).map (nowMs - ·)
  match age pair.yesTokenId, age pair.noTokenId with
  | some yes, some no => some (min yes no)
  | some yes, none => some yes
  | none, no => no

def edgeLabel (combined : Decimal) (tradeable : Bool) : String :=
  if 3 / 2 < combined then "thin book — stale protective orders (combined >> 1)"
  else if 1 ≤ combined then "combined≥1.00 — no arb (efficient market)"
  else if !tradeable then "edge < fees+min_edge"
  else "TRADEABLE"

def edgeDiag (nowMs : ℤ) (pair : MarketPair) : Option EdgeDiag := do
  let yesAsk ← books.bestAsk parse pair.yesTokenId
  let noAsk ← books.bestAsk parse pair.noTokenId
  let combined := yesAsk + noAsk
  let required := feeCost pair combined + takerMinEdge
  pure
    { market := shortId pair.conditionId
      yesAsk := yesAsk
      noAsk := noAsk
      combined := combined
      midSum := midSum parse books pair
      rawEdge := 1 - combined
      feeCost := feeCost pair combined
      required := required
      bookAge := bookAge books pair nowMs
      label := edgeLabel combined (required ≤ 1 - combined)
      yesLevels := books.topLevels parse pair.yesTokenId 3
      noLevels := books.topLevels parse pair.noTokenId 3 }

def feeBlocked (pair : MarketPair) : Bool :=
  match books.bestAsk parse pair.yesTokenId, books.bestAsk parse pair.noTokenId with
  | some yesAsk, some noAsk =>
    let combined := yesAsk + noAsk
    1 ≤ combined || decide (1 - combined < feeCost pair combined + takerMinEdge)
  | _, _ => true

/-- Nothing is logged when no pair is registered. -/
def logEdgeDiagnostics (registry : MarketPairRegistry) (nowMs : ℤ) : Option EdgeReport :=
  let pairs := registry.allPairs
  if pairs.isEmpty then none
  else
    let markets := pairs.filterMap (edgeDiag parse books nowMs)
    some ⟨markets, markets.isEmpty, pairs.all (feeBlocked parse books)⟩

end Heartbeat

/-- What the heartbeat calls a market in this state, if it mentions it. -/
def MarketStatus.label : MarketStatus → Option String
  | noData => none
  | thinBook => some "thin book — stale protective orders (combined >> 1)"
  | noArb => some "combined≥1.00 — no arb (efficient market)"
  | belowMinEdge => some "edge < fees+min_edge"
  | tradeable => some "TRADEABLE"

variable {parse books}

theorem marketStatus_of_asks {pair : MarketPair} {yesAsk noAsk : Decimal}
    (hyes : books.bestAsk parse pair.yesTokenId = some yesAsk)
    (hno : books.bestAsk parse pair.noTokenId = some noAsk) :
    marketStatus parse books pair =
      if 3 / 2 < yesAsk + noAsk then .thinBook
      else if 1 ≤ yesAsk + noAsk then .noArb
      else if feeCost pair (yesAsk + noAsk) + takerMinEdge ≤ 1 - (yesAsk + noAsk) then .tradeable
      else .belowMinEdge := by
  rw [marketStatus, hyes, hno]

theorem marketStatus_noData {pair : MarketPair}
    (h : books.bestAsk parse pair.yesTokenId = none ∨ books.bestAsk parse pair.noTokenId = none) :
    marketStatus parse books pair = .noData := by
  unfold marketStatus
  split
  · rename_i hyes hno
    rw [hyes, hno] at h
    rcases h with h | h <;> cases h
  · rfl

/-- The heartbeat mentions the markets for which the dashboard has data, in the words that go with their states. -/
theorem label_edgeDiag (parse : String → Option Decimal) (books : OrderBookState) (nowMs : ℤ) (pair : MarketPair) :
    (edgeDiag parse books nowMs pair).map (fun d => (d.market, d.label)) =
      (marketStatus parse books pair).label.map fun label => (shortId pair.conditionId, label) := by
  cases hyes : books.bestAsk parse pair.yesTokenId with
  | none =>
    rw [marketStatus_noData (.inl hyes), edgeDiag, hyes]
    rfl
  | some yesAsk =>
    cases hno : books.bestAsk parse pair.noTokenId with
    | none =>
      rw [marketStatus_noData (.inr hno), edgeDiag, hyes, hno]
      rfl
    | some noAsk =>
      rw [marketStatus_of_asks hyes hno, edgeDiag, hyes, hno]
      simp only [Option.bind_eq_bind, Option.bind_some, Option.pure_def, Option.map_some, edgeLabel]
      split_ifs <;> simp_all [MarketStatus.label]

theorem edgeDiag_eq_none_iff (nowMs : ℤ) (pair : MarketPair) :
    edgeDiag parse books nowMs pair = none ↔ marketStatus parse books pair = .noData := by
  have hnone := congrArg Option.isNone (label_edgeDiag parse books nowMs pair)
  rw [Option.isNone_map, Option.isNone_map] at hnone
  rw [← Option.isNone_iff_eq_none, hnone]
  cases marketStatus parse books pair <;> simp [MarketStatus.label]

theorem feeBlocked_iff (pair : MarketPair) :
    feeBlocked parse books pair = true ↔ marketStatus parse books pair ≠ .tradeable := by
  cases hyes : books.bestAsk parse pair.yesTokenId with
  | none =>
    rw [marketStatus_noData (.inl hyes), feeBlocked, hyes]
    simp
  | some yesAsk =>
    cases hno : books.bestAsk parse pair.noTokenId with
    | none =>
      rw [marketStatus_noData (.inr hno), feeBlocked, hyes, hno]
      simp
    | some noAsk =>
      rw [marketStatus_of_asks hyes hno, feeBlocked, hyes, hno]
      simp only [Bool.or_eq_true, decide_eq_true_eq]
      split_ifs with hthin hnone hedge
      · exact iff_of_true (.inl (by linarith)) (by decide)
      · exact iff_of_true (.inl hnone) (by decide)
      · exact iff_of_false (not_or.mpr ⟨hnone, not_lt.mpr hedge⟩) (by simp)
      · exact iff_of_true (.inr (not_le.mp hedge)) (by decide)

section Trades

def IsBuiltIn (c : EdgeConfig) : Prop := c = .taker ∨ c = .maker

theorem IsBuiltIn.minEdge {c : EdgeConfig} (h : IsBuiltIn c) : 0 < c.minEdge ∧ c.minEdge ≤ takerMinEdge := by
  rcases h with rfl | rfl <;> exact ⟨by decide +kernel, by decide +kernel⟩

/-- A strategy that buys a pair has found an edge, though it may be less than the dashboard demands. -/
theorem status_of_opportunity {s : MathArbStrategy} (hs : IsBuiltIn s.edgeCalculator) {pair : MarketPair}
    {ctx : StrategyContext} {yesBook noBook : BookSnapshot} {yesRaw noRaw size : Decimal}
    (h : s.Opportunity parse pair ctx yesBook noBook yesRaw noRaw size) :
    marketStatus parse ctx.books pair = .tradeable ∨ marketStatus parse ctx.books pair = .belowMinEdge := by
  have hyes : ctx.books.bestAsk parse pair.yesTokenId = some yesRaw :=
    (OrderBookState.bestAsk_of_getBook parse h.yes_book).trans h.yes_ask
  have hno : ctx.books.bestAsk parse pair.noTokenId = some noRaw :=
    (OrderBookState.bestAsk_of_getBook parse h.no_book).trans h.no_ask
  have hcombined : EdgeConfig.combinedAsk parse yesBook noBook = yesRaw + noRaw := by
    rw [EdgeConfig.combinedAsk, h.yes_ask, h.no_ask]
    rfl
  obtain ⟨-, hedge, -⟩ := EdgeConfig.isProfitable_iff.mp h.profitable
  rw [hcombined] at hedge
  have hmin := hs.minEdge.1
  rw [marketStatus_of_asks hyes hno, if_neg (not_lt.mpr (by linarith)), if_neg (not_le.mpr (by linarith))]
  split
  · exact .inl rfl
  · exact .inr rfl

/-- What the dashboard shows as tradeable passes the quick check of the strategy. -/
theorem quickCheck_of_tradeable {c : EdgeConfig} (hc : IsBuiltIn c) {pair : MarketPair}
    (h : marketStatus parse books pair = .tradeable)
    (hnonneg : ∀ tokenId, ∀ ask ∈ books.bestAsk parse tokenId, 0 ≤ ask) :
    (c.quickCheck parse books pair.yesTokenId pair.noTokenId).isSome = true := by
  cases hyes : books.bestAsk parse pair.yesTokenId with
  | none =>
    rw [marketStatus_noData (.inl hyes)] at h
    cases h
  | some yesAsk =>
    cases hno : books.bestAsk parse pair.noTokenId with
    | none =>
      rw [marketStatus_noData (.inr hno)] at h
      cases h
    | some noAsk =>
      rw [marketStatus_of_asks hyes hno] at h
      split_ifs at h with hthin hnone hedge
      have hcost : 0 ≤ feeCost pair (yesAsk + noAsk) :=
        mul_nonneg (by positivity) (add_nonneg (hnonneg _ _ hyes) (hnonneg _ _ hno))
      have hmin := hc.minEdge.2
      rw [EdgeConfig.quickCheck, hyes, hno]
      simp only [if_neg hnone, if_neg (not_lt.mpr (show c.minEdge ≤ 1 - (yesAsk + noAsk) by linarith)),
        Option.isSome_some]

end Trades

/-- What is said of the markets fits together, and with what is traded. -/
structure DiagnosticsAgree (parse : String → Option Decimal) (books : OrderBookState) (registry : MarketPairRegistry)
    (nowMs : ℤ) : Prop where
  /-- The heartbeat mentions, in the same order, the markets of the dashboard that have data. -/
  mentioned : ∀ report ∈ logEdgeDiagnostics parse books registry nowMs,
    report.markets.map (fun d => (d.market, d.label)) = (buildMarkets parse books registry).filterMap fun m =>
      m.status.label.map fun label => (shortId m.conditionId, label)
  silent : logEdgeDiagnostics parse books registry nowMs = none ↔ buildMarkets parse books registry = []
  noBooksYet : ∀ report ∈ logEdgeDiagnostics parse books registry nowMs,
    (report.noBooksYet = true ↔ ∀ m ∈ buildMarkets parse books registry, m.status = .noData)
  allFeeBlocked : ∀ report ∈ logEdgeDiagnostics parse books registry nowMs,
    (report.allFeeBlocked = true ↔ ∀ m ∈ buildMarkets parse books registry, m.status ≠ .tradeable)
  /-- The strategy buys no market without data, with a thin book or without arbitrage. -/
  traded : ∀ s : MathArbStrategy, IsBuiltIn s.edgeCalculator → ∀ ctx, ctx.books = books →
    ∀ marketId tokenId uuid, (s.onBookUpdate parse marketId tokenId ctx uuid).1 ≠ [] →
      ∃ pair, s.registry.getByToken tokenId = some pair ∧
        (marketStatus parse books pair = .tradeable ∨ marketStatus parse books pair = .belowMinEdge)
  /-- No market is shown as tradeable that the strategy would not look into. -/
  checked : (∀ tokenId, ∀ ask ∈ books.bestAsk parse tokenId, 0 ≤ ask) → ∀ c, IsBuiltIn c → ∀ pair,
    marketStatus parse books pair = .tradeable →
      (c.quickCheck parse books pair.yesTokenId pair.noTokenId).isSome = true

theorem logEdgeDiagnostics_eq {registry : MarketPairRegistry} {nowMs : ℤ} {report : EdgeReport}
    (h : report ∈ logEdgeDiagnostics parse books registry nowMs) :
    report.markets = registry.allPairs.filterMap (edgeDiag parse books nowMs) ∧
      report.noBooksYet = report.markets.isEmpty ∧
        report.allFeeBlocked = registry.allPairs.all (feeBlocked parse books) := by
  unfold logEdgeDiagnostics at h
  dsimp only at h
  split at h
  · cases h
  · cases h
    exact ⟨rfl, rfl, rfl⟩

theorem diagnostics_agree (parse : String → Option Decimal) (books : OrderBookState) (registry : MarketPairRegistry)
    (nowMs : ℤ) : DiagnosticsAgree parse books registry nowMs where
  mentioned report hreport := by
    rw [(logEdgeDiagnostics_eq hreport).1, List.map_filterMap, buildMarkets, List.filterMap_map]
    exact List.filterMap_congr fun pair _ => label_edgeDiag parse books nowMs pair
  silent := by
    unfold logEdgeDiagnostics buildMarkets
    dsimp only
    rw [List.map_eq_nil_iff, ← List.isEmpty_iff]
    split <;> simp_all
  noBooksYet report hreport := by
    obtain ⟨hmarkets, hnone, -⟩ := logEdgeDiagnostics_eq hreport
    rw [hnone, List.isEmpty_iff, hmarkets, List.filterMap_eq_nil_iff, buildMarkets, List.forall_mem_map]
    exact forall₂_congr fun pair _ => edgeDiag_eq_none_iff nowMs pair
  allFeeBlocked report hreport := by
    rw [(logEdgeDiagnostics_eq hreport).2.2, List.all_eq_true, buildMarkets, List.forall_mem_map]
    exact forall₂_congr fun pair _ => feeBlocked_iff pair
  traded s hs ctx hbooks marketId tokenId uuid hne := by
    subst hbooks
    rcases s.onBookUpdate_cases parse marketId tokenId ctx uuid with hnone | ⟨pair, intents, s', hpair, -, hcheck, -⟩
    · rw [hnone] at hne
      exact absurd rfl hne
    · obtain ⟨yesBook, noBook, yesRaw, noRaw, size, hopportunity, -⟩ :=
        MathArbStrategy.checkArbOpportunity_inv parse hcheck
      exact ⟨pair, hpair, status_of_opportunity hs hopportunity⟩
  checked hnonneg c hc pair h := quickCheck_of_tradeable hc h hnonneg

private def readCents (text : String) : Option Decimal :=
  if text = "0.44" then some (44 / 100)
  else if text = "0.45" then some (45 / 100)
  else if text = "1000" then some 1000
  else none

private def quotes (tokenId : TokenId) : BookSnapshot :=
  ⟨tokenId, "m1", [⟨"0.44", "1000"⟩], [⟨"0.45", "1000"⟩], none, none⟩

private def tenCents : OrderBookState := AList.insert "no" (quotes "no") (AList.insert "yes" (quotes "yes") ∅)

/-- With fees of ten percent, an edge of ten cents is bought though the dashboard shows it as below the least edge. -/
example : let pair := MarketPair.newUpDown "m1" "yes" "no"
    marketStatus readCents tenCents pair = .belowMinEdge ∧
      ((MathArbStrategy.withConfig (.register .new pair) .taker).onBookUpdate readCents "m1" "yes"
        ⟨tenCents, Ledger.new 1000, 0⟩ "1").1.length = 2 := by
  decide +kernel

end PolyBot.Bot.Diagnostics
