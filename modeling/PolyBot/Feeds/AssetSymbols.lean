import PolyBot.Feeds.BinanceFeed
import PolyBot.Websocket.MarketDiscovery

/-! The asset that a discovered market is about, and the price record that its trades go by. -/

namespace PolyBot

/-- The lower case of a text is an argument. -/
def Feeds.detectAssetFromText (toLowercase : String → String) (text : String) : Option String :=
  let lower := toLowercase text
  if containsText lower "btc" || containsText lower "bitcoin" then some "BTC"
  else if containsText lower "eth" || containsText lower "ethereum" || containsText lower "ether" then some "ETH"
  else if containsText lower "sol" || containsText lower "solana" then some "SOL"
  else none

def DiscoveredMarket.assetSymbol (toLowercase : String → String) (market : DiscoveredMarket) : Option String :=
  (Feeds.detectAssetFromText toLowercase market.eventSlug).or
    (Feeds.detectAssetFromText toLowercase market.question)

namespace Feeds.AssetSymbols
open General.KeyedStore BinanceFeed

def IsSlugChar (c : Char) : Prop := c.isLower = true ∨ c.isDigit = true ∨ c = '-'

instance (c : Char) : Decidable (IsSlugChar c) := inferInstanceAs (Decidable (_ ∨ _))

/-- A time frame of lower case letters and digits, without a letter of "btc" or "eth" that the slug of another asset
lacks. -/
structure PlainTimeframe (timeframe : String) : Prop where
  slug : ∀ c ∈ timeframe.toList, IsSlugChar c
  noC : 'c' ∉ timeframe.toList
  noT : 't' ∉ timeframe.toList

def tradesOf (decode : String → Option (String × String)) (parse : String → Option Decimal) (ticker : String)
    (messages : List (Instant × String)) : List (Instant × Decimal) :=
  messages.filterMap fun message =>
    match decode message.2 with
    | none => none
    | some (symbol, price) =>
      if symbol.toLower = ticker then (parse price).map fun newPrice => (message.1, newPrice) else none

def symbolOf : List (String × String) := [("btc", "BTC"), ("eth", "ETH"), ("sol", "SOL")]

theorem toList_cryptoSlug (asset timeframe : String) (ts : ℕ) :
    (GammaClient.cryptoSlug asset timeframe ts).toList =
      asset.toList ++ "-updown-".toList ++ timeframe.toList ++ ['-'] ++ Nat.toDigits 10 ts := by
  have hdigits : (toString ts).toList = Nat.toDigits 10 ts := Nat.toList_repr
  have htext : GammaClient.cryptoSlug asset timeframe ts =
      "" ++ asset ++ "-updown-" ++ timeframe ++ "-" ++ toString ts :=
    rfl
  rw [htext, String.toList_append, String.toList_append, String.toList_append, String.toList_append,
    String.toList_append, hdigits]
  rfl

theorem not_containsText_of_notMem {text piece : String} {c : Char} (hpiece : c ∈ piece.toList)
    (htext : c ∉ text.toList) : containsText text piece = false :=
  decide_eq_false fun h => htext (h.subset hpiece)

theorem containsText_of_append {text piece : String} {rest : List Char} (h : text.toList = piece.toList ++ rest) :
    containsText text piece = true :=
  decide_eq_true ⟨[], rest, by simpa using h.symm⟩

/-- Checked letter by letter: the instance that goes through all characters does not evaluate. -/
theorem isSlugChar_of_all {cs : List Char} (h : (cs.all fun c => decide (IsSlugChar c)) = true) :
    ∀ c ∈ cs, IsSlugChar c :=
  fun c hc => of_decide_eq_true (List.all_eq_true.mp h c hc)

section Slug
variable {timeframe : String} (ts : ℕ)

theorem isSlugChar_cryptoSlug (hplain : PlainTimeframe timeframe) {asset : String}
    (hasset : asset ∈ GammaClient.CRYPTO_ASSETS) :
    ∀ c ∈ (GammaClient.cryptoSlug asset timeframe ts).toList, IsSlugChar c := by
  intro c hc
  rw [toList_cryptoSlug] at hc
  simp only [List.mem_append, List.mem_singleton] at hc
  have hassets : ∀ a ∈ GammaClient.CRYPTO_ASSETS, (a.toList.all fun c => decide (IsSlugChar c)) = true := by decide
  have hupdown : ∀ c ∈ "-updown-".toList, IsSlugChar c := isSlugChar_of_all (by decide)
  rcases hc with (((hc | hc) | hc) | rfl) | hc
  · exact isSlugChar_of_all (hassets asset hasset) c hc
  · exact hupdown c hc
  · exact hplain.slug c hc
  · exact .inr (.inr rfl)
  · exact .inr (.inl (Nat.isDigit_of_mem_toDigits (by decide) (by decide) hc))

/-- A letter that neither the asset nor the time frame has does not occur in a slug. -/
theorem notMem_cryptoSlug {asset : String} {c : Char} (hletter : c.isDigit = false) (hasset : c ∉ asset.toList)
    (hupdown : c ∉ "-updown-".toList) (htimeframe : c ∉ timeframe.toList) :
    c ∉ (GammaClient.cryptoSlug asset timeframe ts).toList := by
  intro hc
  rw [toList_cryptoSlug] at hc
  simp only [List.mem_append, List.mem_singleton] at hc
  rcases hc with (((hc | hc) | hc) | rfl) | hc
  · exact hasset hc
  · exact hupdown hc
  · exact htimeframe hc
  · exact hupdown (by decide)
  · exact absurd (Nat.isDigit_of_mem_toDigits (by decide) (by decide) hc) (by simp [hletter])

variable {toLowercase : String → String} {asset symbol : String}

/-- The slug of a market names its asset and no other. -/
theorem detectAssetFromText_slug (hlower : ∀ text : String, (∀ c ∈ text.toList, IsSlugChar c) → toLowercase text = text)
    (hplain : PlainTimeframe timeframe) (hasset : (asset, symbol) ∈ symbolOf) :
    detectAssetFromText toLowercase (GammaClient.cryptoSlug asset timeframe ts) = some symbol := by
  have hprobed : asset ∈ GammaClient.CRYPTO_ASSETS := List.mem_map_of_mem (f := Prod.fst) hasset
  have htext : (GammaClient.cryptoSlug asset timeframe ts).toList =
      asset.toList ++ ("-updown-".toList ++ timeframe.toList ++ ['-'] ++ Nat.toDigits 10 ts) := by
    rw [toList_cryptoSlug]
    simp
  have hnames : containsText (GammaClient.cryptoSlug asset timeframe ts) asset = true := containsText_of_append htext
  rw [detectAssetFromText, hlower _ (isSlugChar_cryptoSlug ts hplain hprobed)]
  have hletterless : ∀ {piece : String} {c : Char}, c ∈ piece.toList → c.isDigit = false → c ∉ asset.toList →
      c ∉ "-updown-".toList → c ∉ timeframe.toList →
      containsText (GammaClient.cryptoSlug asset timeframe ts) piece = false :=
    fun hpiece hletter hin hupdown htimeframe =>
      not_containsText_of_notMem hpiece (notMem_cryptoSlug ts hletter hin hupdown htimeframe)
  simp only [symbolOf, List.mem_cons, Prod.mk.injEq, List.not_mem_nil, or_false] at hasset
  rcases hasset with ⟨rfl, rfl⟩ | ⟨rfl, rfl⟩ | ⟨rfl, rfl⟩
  · rw [hnames, Bool.true_or, if_pos rfl]
  · have hbtc : ∀ piece : String, 'c' ∈ piece.toList →
        containsText (GammaClient.cryptoSlug "eth" timeframe ts) piece = false :=
      fun piece hpiece => hletterless hpiece (by decide) (by decide) (by decide) hplain.noC
    rw [hbtc "btc" (by decide), hbtc "bitcoin" (by decide), hnames]
    rfl
  · have hother : ∀ piece : String, 't' ∈ piece.toList →
        containsText (GammaClient.cryptoSlug "sol" timeframe ts) piece = false :=
      fun piece hpiece => hletterless hpiece (by decide) (by decide) (by decide) hplain.noT
    rw [hother "btc" (by decide), hother "bitcoin" (by decide), hother "eth" (by decide), hother "ethereum" (by decide),
      hother "ether" (by decide), hnames]
    rfl

end Slug

section Trades
variable {asset symbol : String}

/-- A ticker is read as the symbol of the asset that it quotes in dollars. -/
theorem binanceSymbolToAsset_eq_iff (hasset : (asset, symbol) ∈ symbolOf) (ticker : String) :
    binanceSymbolToAsset ticker = some symbol ↔ ticker.toLower = asset ++ "usdt" := by
  have hbtc : "BTCUSDT".toLower = "btcusdt" := by decide +kernel
  have heth : "ETHUSDT".toLower = "ethusdt" := by decide +kernel
  have hsol : "SOLUSDT".toLower = "solusdt" := by decide +kernel
  simp only [symbolOf, List.mem_cons, Prod.mk.injEq, List.not_mem_nil, or_false] at hasset
  simp only [binanceSymbolToAsset, TRACKED_SYMBOLS, List.find?_cons, List.find?_nil, hbtc, heth, hsol]
  by_cases h1 : ticker.toLower = "btcusdt"
  · rcases hasset with ⟨rfl, rfl⟩ | ⟨rfl, rfl⟩ | ⟨rfl, rfl⟩ <;> simp [h1]
  · by_cases h2 : ticker.toLower = "ethusdt"
    · rcases hasset with ⟨rfl, rfl⟩ | ⟨rfl, rfl⟩ | ⟨rfl, rfl⟩ <;> simp [h2]
    · by_cases h3 : ticker.toLower = "solusdt"
      · rcases hasset with ⟨rfl, rfl⟩ | ⟨rfl, rfl⟩ | ⟨rfl, rfl⟩ <;> simp [h3]
      · rcases hasset with ⟨rfl, rfl⟩ | ⟨rfl, rfl⟩ | ⟨rfl, rfl⟩ <;> simp [h1, h2, h3]

theorem filterMap_quoteOf (hasset : (asset, symbol) ∈ symbolOf) (decode : String → Option (String × String))
    (parse : String → Option Decimal) (messages : List (Instant × String)) :
    messages.filterMap (quoteOf decode parse symbol) = tradesOf decode parse (asset ++ "usdt") messages := by
  refine List.filterMap_congr fun message _ => ?_
  rw [quoteOf]
  cases decode message.2 with
  | none => rfl
  | some trade => simp only [binanceSymbolToAsset_eq_iff hasset]

end Trades

def externalPrices (prices : Store String FeedRecord) : ExternalPriceStore :=
  (prices.entries.map (.map id fun _ r => r.toExternalPriceRecord)).toAList

theorem lookup_externalPrices (prices : Store String FeedRecord) (symbol : String) :
    (externalPrices prices).lookup symbol = (prices.lookup symbol).map (·.toExternalPriceRecord) :=
  (AList.lookup_to_alist _).trans (List.dlookup_map₂ symbol)

/-- An intent follows the trades of a ticker: their record is fresh and has moved by the threshold at least, and the
token is the one that the market lists first if the price rose, the other if it fell. -/
def FollowsTicker (s : TemporalArbStrategy) (market : DiscoveredMarket) (now : Instant) (symbol : String)
    (trades : List (Instant × Decimal)) (intent : OrderIntent) : Prop :=
  ∃ r, recordOf symbol trades = some r ∧ r.isFresh s.config.maxFeedAgeSecs now = true ∧
    s.config.thresholdBps ≤ |r.changeBps| ∧
    intent.tokenId = if 0 < r.changeBps then market.firstTokenId else market.secondTokenId

theorem tokenId_of_staleToken {s : TemporalArbStrategy} {pair : MarketPair} {changeBps : ℤ}
    {yesAsk noAsk ask : Decimal} {tokenId : TokenId}
    (h : s.staleToken pair changeBps yesAsk noAsk = some (tokenId, ask)) :
    tokenId = if 0 < changeBps then pair.yesTokenId else pair.noTokenId := by
  unfold TemporalArbStrategy.staleToken at h
  dsimp only at h
  split at h
  · rename_i hrise
    split at h
    · cases h
    · cases h
      rw [if_pos hrise]
  · rename_i hfall
    split at h
    · cases h
    · cases h
      rw [if_neg hfall]

theorem checkOpportunity_reads {parse : String → Option Decimal} {assetSymbol : MarketPair → Option String}
    {s s' : TemporalArbStrategy} {prices : ExternalPriceStore} {pair : MarketPair} {ctx : StrategyContext}
    {symbol : String} {intent : OrderIntent} (hsymbol : assetSymbol pair = some symbol)
    (h : s.checkOpportunity parse assetSymbol prices pair ctx = some (intent, s')) :
    ∃ ext, prices.lookup symbol = some ext ∧ ext.isFresh s.config.maxFeedAgeSecs ctx.now = true ∧
      s.config.thresholdBps ≤ |ext.changeBps| ∧
      intent.tokenId = if 0 < ext.changeBps then pair.yesTokenId else pair.noTokenId := by
  simp only [TemporalArbStrategy.checkOpportunity, hsymbol, Option.bind_eq_bind, Option.bind_some,
    Option.bind_eq_some_iff, Option.guard_eq_some'] at h
  obtain ⟨ext, hlookup, _, hfresh, _, hmoved, _, -, _, -, _, -, ⟨tokenId, ask⟩, hstale, _, -, hintent⟩ := h
  obtain ⟨rfl, -⟩ := Prod.mk.inj (Option.some.inj hintent)
  exact ⟨ext, hlookup, hfresh, hmoved, tokenId_of_staleToken hstale⟩

/-- Whatever the feed has received, over whatever connections, the temporal strategy trades a market that was
discovered under the slug of an asset, in a plain time frame, by the trades of that asset's ticker. -/
theorem trades_by_own_ticker (decode : String → Option (String × String)) (parsePrice : String → Option Decimal)
    (connections : List (Option Stream)) (toLowercase : String → String)
    (hlower : ∀ text : String, (∀ c ∈ text.toList, IsSlugChar c) → toLowercase text = text) (asset timeframe : String)
    (hasset : asset ∈ GammaClient.CRYPTO_ASSETS) (hplain : PlainTimeframe timeframe) (ts : ℕ)
    (market : DiscoveredMarket) (hslug : market.eventSlug = GammaClient.cryptoSlug asset timeframe ts)
    (parse : String → Option Decimal) (assetSymbol : MarketPair → Option String)
    (hpair : assetSymbol market.toMarketPair = market.assetSymbol toLowercase) (s s' : TemporalArbStrategy)
    (ctx : StrategyContext) (intent : OrderIntent)
    (hcheck : s.checkOpportunity parse assetSymbol (externalPrices (run decode parsePrice connections).prices)
      market.toMarketPair ctx = some (intent, s')) :
    ∃ symbol, (asset, symbol) ∈ symbolOf ∧ FollowsTicker s market ctx.now symbol
      (tradesOf decode parsePrice (asset ++ "usdt") (allDelivered connections)) intent := by
  obtain ⟨⟨_, symbol⟩, hsymbolOf, rfl⟩ := List.mem_map.mp (show asset ∈ symbolOf.map Prod.fst from hasset)
  have hsymbol : assetSymbol market.toMarketPair = some symbol := by
    rw [hpair, DiscoveredMarket.assetSymbol, hslug, detectAssetFromText_slug ts hlower hplain hsymbolOf]
    rfl
  obtain ⟨ext, hlookup, hfresh, hmoved, htoken⟩ := checkOpportunity_reads hsymbol hcheck
  rw [lookup_externalPrices, (follows_streams decode parsePrice connections).record,
    filterMap_quoteOf hsymbolOf, Option.map_eq_some_iff] at hlookup
  obtain ⟨r, hrecord, rfl⟩ := hlookup
  exact ⟨symbol, hsymbolOf, r, hrecord, hfresh, hmoved, htoken⟩

private def quotedText (text : String) : Option (String × String) :=
  if text ∈ ["100", "102"] then some ("BTCUSDT", text) else none

private def wholeNumber (text : String) : Option Decimal :=
  if text = "100" then some 100 else if text = "102" then some 102 else if text = "0.5" then some (1 / 2) else none

private def rising : Option Stream := some [(0, some (.text "100")), (Duration.fromSecs 3, some (.text "102"))]

private def bitcoinMarket : DiscoveredMarket :=
  ⟨"0x1", "Up or Down?", "11", "12", "Up", "Down", .UpDown, 1000, true, "btc-updown-15m-900"⟩

private def evenOdds : StrategyContext where
  books := AList.insert "11" ⟨"11", "0x1", [], [⟨"0.5", "50"⟩], none, none⟩
    (AList.insert "12" ⟨"12", "0x1", [], [⟨"0.5", "50"⟩], none, none⟩ ∅)
  ledger := .new 1000
  now := Duration.fromSecs 4

private def risen : Option (OrderIntent × TemporalArbStrategy) :=
  (TemporalArbStrategy.withConfig .default).checkOpportunity wholeNumber (fun _ => some "BTC")
    (externalPrices (run quotedText wholeNumber [none, rising]).prices) bitcoinMarket.toMarketPair evenOdds

/-- Bitcoin rises by two percent, and the strategy buys the Up token of its market, which is listed first. -/
theorem rise_buys_up : ∃ intent s' symbol, risen = some (intent, s') ∧ intent.tokenId = "11" ∧
    FollowsTicker (.withConfig .default) bitcoinMarket evenOdds.now symbol
      (tradesOf quotedText wholeNumber "btcusdt" (allDelivered [none, rising])) intent := by
  have hplain : PlainTimeframe "15m" := ⟨isSlugChar_of_all (by decide), by decide, by decide⟩
  have htoken : risen.map (fun emitted => emitted.1.tokenId) = some "11" := by decide +kernel
  obtain ⟨⟨intent, s'⟩, hrisen, hup⟩ := Option.map_eq_some_iff.mp htoken
  obtain ⟨symbol, -, hfollows⟩ := trades_by_own_ticker quotedText wholeNumber [none, rising] id (fun _ _ => rfl) "btc"
    "15m" (by decide) hplain 900 bitcoinMarket (by decide +kernel) wholeNumber (fun _ => some "BTC")
    (by decide +kernel) (.withConfig .default) s' evenOdds intent hrisen
  exact ⟨intent, s', symbol, hrisen, hup, hfollows⟩

end Feeds.AssetSymbols

end PolyBot
