import PolyBot.Orchestrator.ExitControl
import PolyBot.Orchestrator.MarketRefresh
import PolyBot.Websocket.CryptoIntervals
import PolyBot.Websocket.Discovery

/-! Which markets a discovery finds among the events of the Gamma API, and what the bot trades after every refresh. The
API, the reader of JSON texts and the conversions of texts and floats are arguments. -/

namespace PolyBot

/-- A market with what its event says of it besides its texts; `F` is the type of the numbers that were sent. -/
structure GammaListing (F : Type*) extends GammaMarket where
  active : Bool
  closed : Bool
  archived : Bool
  acceptingOrders : Bool
  volume24hr : F
  liquidity : F

structure GammaEvent (F : Type*) where
  slug : String
  markets : List (GammaListing F)

def GammaListing.isTradeable {F : Type*} (m : GammaListing F) : Bool :=
  m.active && !m.closed && !m.archived && m.acceptingOrders

/-- Exactly two outcomes. -/
def GammaMarket.isBinary (parseJson : String → Except String (List String)) (m : GammaMarket) : Bool :=
  match m.parseOutcomes parseJson with
  | .ok outcomes => outcomes.length = 2
  | .error _ => false

structure MarketFilter where
  outcomeTypes : Option (List OutcomeType)
  assets : Option (List String)
  minVolume24h : Option Decimal
  minLiquidity : Option Decimal
  crypto15minOnly : Bool
  limit : Option ℕ

namespace MarketFilter

def new : MarketFilter := ⟨none, none, none, none, false, none⟩

/-- No assets means all of them. -/
def withAssets (filter : MarketFilter) (assets : List String) : MarketFilter :=
  if assets = [] then filter else { filter with assets := some assets }

end MarketFilter

structure MeasuredMarket extends DiscoveredMarket where
  volume24h : Decimal
  liquidity : Decimal

def containsText (text piece : String) : Bool := piece.toList <:+: text.toList

namespace MarketDiscovery

section Events
variable {F : Type*} (parseJson : String → Except String (List String)) (tryFrom : F → Option Decimal)
  (toLowercase : String → String)

/-- A volume or liquidity that is no decimal counts as zero. -/
def tryConvertListing (m : GammaListing F) (eventSlug : String) : Except BotError MeasuredMarket :=
  (tryConvertMarket parseJson m.toGammaMarket eventSlug).map fun d =>
    ⟨d, (tryFrom m.volume24hr).getD 0, (tryFrom m.liquidity).getD 0⟩

def namesAsset (market : MeasuredMarket) (assets : List String) : Bool :=
  assets.any fun a => containsText (toLowercase market.eventSlug) a || containsText (toLowercase market.question) a

def passesFilter (market : MeasuredMarket) (filter : MarketFilter) : Bool :=
  filter.outcomeTypes.all (·.contains market.outcomeType) &&
  filter.assets.all (namesAsset toLowercase market) &&
  !(filter.crypto15minOnly && !market.isCrypto15min) &&
  filter.minVolume24h.all (fun minVolume => !(market.volume24h < minVolume)) &&
  filter.minLiquidity.all (fun minLiquidity => !(market.liquidity < minLiquidity))

/-- What one market of an event adds; a market that cannot be converted is skipped. -/
def discoverListing (filter : MarketFilter) (eventSlug : String) (m : GammaListing F) : Option MeasuredMarket :=
  if !m.isTradeable then none
  else if !m.isBinary parseJson then none
  else
    match tryConvertListing parseJson tryFrom m eventSlug with
    | .ok dm => if passesFilter toLowercase dm filter then some dm else none
    | .error _ => none

def discoveredIn (events : List (GammaEvent F)) (filter : MarketFilter) : List MeasuredMarket :=
  events.flatMap fun event => event.markets.filterMap (discoverListing parseJson tryFrom toLowercase filter event.slug)

def processEvents (events : List (GammaEvent F)) (filter : MarketFilter) : List MeasuredMarket :=
  let discovered := discoveredIn parseJson tryFrom toLowercase events filter
  match filter.limit with
  | some limit => discovered.take limit
  | none => discovered

end Events

end MarketDiscovery

structure GammaClient (σ ε F : Type*) where
  fetchEvents : σ → String → Except ε (List (GammaEvent F)) × σ

namespace GammaClient
variable {σ ε F : Type*} (c : GammaClient σ ε F)

def CRYPTO_ASSETS : List String := ["btc", "eth", "sol"]

def getEventBySlug (x : σ) (slug : String) : Except ε (Option (GammaEvent F)) × σ :=
  ((c.fetchEvents x slug).1.map List.head?, (c.fetchEvents x slug).2)

def cryptoSlug (asset timeframe : String) (ts : ℕ) : String := s!"{asset}-updown-{timeframe}-{ts}"

/-- An interval and the next two. Sums wrap around at 64 bits. -/
def intervals (currentInterval intervalSecs : ℕ) : List ℕ :=
  [currentInterval, (currentInterval + intervalSecs) % 2 ^ 64, (currentInterval + 2 * intervalSecs) % 2 ^ 64]

def probedSlugs (assets : List String) (timeframe : String) (intervals : List ℕ) : List String :=
  assets.flatMap fun asset => intervals.map (cryptoSlug asset timeframe)

/-- Only an event with a tradeable market is kept; a failed request is skipped. -/
def probe (s : List (GammaEvent F) × σ) (slug : String) : List (GammaEvent F) × σ :=
  match c.getEventBySlug s.2 slug with
  | (.ok (some event), x) => if event.markets.any (·.isTradeable) then (s.1 ++ [event], x) else (s.1, x)
  | (.ok none, x) => (s.1, x)
  | (.error _, x) => (s.1, x)

/-- There is no result at an interval of no seconds, by which the current time is divided. -/
def discoverCryptoMarkets (assets : List String) (timeframe : String) (intervalSecs now : ℕ) (x : σ) :
    Option (List (GammaEvent F) × σ) :=
  (currentIntervalChecked now intervalSecs).map fun currentInterval =>
    (probedSlugs assets timeframe (intervals currentInterval intervalSecs)).foldl c.probe ([], x)

def answers : σ → List String → List (Except ε (Option (GammaEvent F)))
  | _, [] => []
  | x, slug :: slugs => (c.getEventBySlug x slug).1 :: answers (c.getEventBySlug x slug).2 slugs

def tradeableEvent (answer : Except ε (Option (GammaEvent F))) : Option (GammaEvent F) :=
  match answer with
  | .ok (some event) => if event.markets.any (·.isTradeable) then some event else none
  | _ => none

end GammaClient

structure MarketConfig where
  marketAssets : List String
  marketTimeframe : String
  marketIntervalSecs : ℕ
  marketLimit : ℕ
  deriving DecidableEq, Repr

namespace MarketConfig

def probedAssets (config : MarketConfig) : List String :=
  if config.marketAssets = [] then GammaClient.CRYPTO_ASSETS else config.marketAssets

def filter (config : MarketConfig) : MarketFilter :=
  { MarketFilter.new with outcomeTypes := some [.UpDown], limit := some config.marketLimit }.withAssets
    config.marketAssets

end MarketConfig

structure DiscoveryServices (σ ε F : Type*) where
  gamma : GammaClient σ ε F
  parseJson : String → Except String (List String)
  tryFrom : F → Option Decimal
  toLowercase : String → String

namespace MarketDiscovery
variable {σ ε F : Type*} (sv : DiscoveryServices σ ε F)

def discoverFromConfig (config : MarketConfig) (now : ℕ) (x : σ) : Option (List MeasuredMarket × σ) :=
  (sv.gamma.discoverCryptoMarkets config.probedAssets config.marketTimeframe config.marketIntervalSecs now x).map
    fun (events, x) => (processEvents sv.parseJson sv.tryFrom sv.toLowercase events config.filter, x)

def slugs (config : MarketConfig) (now : ℕ) : List String :=
  GammaClient.probedSlugs config.probedAssets config.marketTimeframe
    (GammaClient.intervals (currentInterval now config.marketIntervalSecs) config.marketIntervalSecs)

/-- A listing as a tradeable Up/Down market that names one of the configured assets, if it is one. -/
def offer (config : MarketConfig) (eventSlug : String) (listing : GammaListing F) : Option MeasuredMarket :=
  match tryConvertListing sv.parseJson sv.tryFrom listing eventSlug with
  | .ok market =>
    if listing.isTradeable ∧ market.outcomeType = .UpDown ∧
      (config.marketAssets ≠ [] → namesAsset sv.toLowercase market config.marketAssets = true) then some market
    else none
  | .error _ => none

def offersOf (config : MarketConfig) : Except ε (Option (GammaEvent F)) → List MeasuredMarket
  | .ok (some event) => event.markets.filterMap (offer sv config event.slug)
  | .ok none | .error _ => []

/-- What the API offers at a time, in the order of the requests. -/
def offers (config : MarketConfig) (now : ℕ) (x : σ) : List MeasuredMarket :=
  (sv.gamma.answers x (slugs config now)).flatMap (offersOf sv config)

/-- The markets to trade: the first ones that are offered. -/
def wanted (config : MarketConfig) (now : ℕ) (x : σ) : List MeasuredMarket :=
  (offers sv config now x).take config.marketLimit

end MarketDiscovery

namespace GammaClient
variable {σ ε F : Type*} (c : GammaClient σ ε F)

theorem probe_eq (events : List (GammaEvent F)) (x : σ) (slug : String) :
    c.probe (events, x) slug =
      (events ++ (tradeableEvent (c.getEventBySlug x slug).1).toList, (c.getEventBySlug x slug).2) := by
  unfold probe tradeableEvent
  rcases c.getEventBySlug x slug with ⟨_ | _ | event, y⟩
  · simp
  · simp
  · dsimp only
    split <;> simp

/-- The events found are the tradeable ones among the answers, in the order of the requests. -/
theorem foldl_probe (slugs : List String) (events : List (GammaEvent F)) (x : σ) :
    (slugs.foldl c.probe (events, x)).1 = events ++ (c.answers x slugs).filterMap tradeableEvent := by
  induction slugs generalizing events x with
  | nil => simp [answers]
  | cons slug slugs ih =>
    rw [List.foldl_cons, probe_eq, ih, answers, List.filterMap_cons]
    cases tradeableEvent (c.getEventBySlug x slug).1 <;> simp

end GammaClient

namespace MarketDiscovery
open General.CheckedDivision

section Events
variable {F : Type*} {parseJson : String → Except String (List String)} {tryFrom : F → Option Decimal}
  {toLowercase : String → String}

/-- A market that can be converted has two outcomes. -/
theorem isBinary_of_tryConvertListing {m : GammaListing F} {eventSlug : String} {dm : MeasuredMarket}
    (h : tryConvertListing parseJson tryFrom m eventSlug = .ok dm) : m.isBinary parseJson = true := by
  unfold tryConvertListing at h
  cases hconvert : tryConvertMarket parseJson m.toGammaMarket eventSlug with
  | error e =>
    rw [hconvert] at h
    cases h
  | ok d =>
    obtain ⟨_, _, _, _, houtcomes, -, -⟩ := Discovery.tryConvertMarket_eq_ok_iff.mp hconvert
    rw [GammaMarket.isBinary, houtcomes]
    rfl

theorem passesFilter_config {config : MarketConfig} {market : MeasuredMarket} :
    passesFilter toLowercase market config.filter = true ↔ market.outcomeType = .UpDown ∧
      (config.marketAssets ≠ [] → namesAsset toLowercase market config.marketAssets = true) := by
  by_cases hall : config.marketAssets = []
  · simp [passesFilter, MarketConfig.filter, MarketFilter.withAssets, MarketFilter.new, hall]
  · simp [passesFilter, MarketConfig.filter, MarketFilter.withAssets, MarketFilter.new, hall]

end Events

section Found
variable {σ ε F : Type} {sv : DiscoveryServices σ ε F} {config : MarketConfig}

theorem discoverListing_eq (eventSlug : String) (listing : GammaListing F) :
    discoverListing sv.parseJson sv.tryFrom sv.toLowercase config.filter eventSlug listing =
      offer sv config eventSlug listing := by
  unfold discoverListing offer
  cases hconvert : tryConvertListing sv.parseJson sv.tryFrom listing eventSlug with
  | error e => simp
  | ok market =>
    rw [isBinary_of_tryConvertListing hconvert]
    cases listing.isTradeable with
    | false => simp
    | true => simp [← passesFilter_config]

/-- An event without a tradeable market offers nothing, so it may be left out. -/
theorem offersOf_eq (answer : Except ε (Option (GammaEvent F))) :
    (GammaClient.tradeableEvent answer).toList.flatMap
        (fun event => event.markets.filterMap (offer sv config event.slug)) = offersOf sv config answer := by
  rcases answer with e | _ | event
  · rfl
  · rfl
  · rw [GammaClient.tradeableEvent, offersOf]
    split
    · simp
    · rename_i hnone
      rw [List.any_eq_true] at hnone
      refine (List.filterMap_eq_nil_iff.mpr fun listing hlisting => ?_).symm
      have huntradeable : ¬listing.isTradeable = true := fun h => hnone ⟨listing, hlisting, h⟩
      unfold offer
      split
      · rw [if_neg fun h => huntradeable h.1]
      · rfl

/-- Discovery finds the markets to trade, unless the interval has no seconds. -/
theorem exactly_discoverFromConfig (sv : DiscoveryServices σ ε F) (config : MarketConfig) (now : ℕ) (x : σ) :
    ∃ y, Exactly (discoverFromConfig sv config now x) (wanted sv config now x, y) (config.marketIntervalSecs ≠ 0) := by
  have hlimit : config.filter.limit = some config.marketLimit := by
    unfold MarketConfig.filter MarketFilter.withAssets
    split <;> rfl
  have hoffers : ∀ answers : List (Except ε (Option (GammaEvent F))),
      discoveredIn sv.parseJson sv.tryFrom sv.toLowercase (answers.filterMap GammaClient.tradeableEvent) config.filter =
        answers.flatMap (offersOf sv config) := by
    intro answers
    induction answers with
    | nil => rfl
    | cons answer answers ih =>
      rw [List.flatMap_cons, ← ih, ← offersOf_eq, discoveredIn, discoveredIn, List.filterMap_cons]
      cases GammaClient.tradeableEvent answer <;> simp [discoverListing_eq]
  have hfound : processEvents sv.parseJson sv.tryFrom sv.toLowercase
      ((slugs config now).foldl sv.gamma.probe ([], x)).1 config.filter = wanted sv config now x := by
    rw [GammaClient.foldl_probe, List.nil_append]
    dsimp only [processEvents]
    rw [hlimit, hoffers]
    rfl
  have hasked := (((Exactly.divide now config.marketIntervalSecs).map (· * config.marketIntervalSecs)).map
    fun currentInterval => (GammaClient.probedSlugs config.probedAssets config.marketTimeframe
      (GammaClient.intervals currentInterval config.marketIntervalSecs)).foldl sv.gamma.probe ([], x)).map
    fun asked => (processEvents sv.parseJson sv.tryFrom sv.toLowercase asked.1 config.filter, asked.2)
  exact ⟨((slugs config now).foldl sv.gamma.probe ([], x)).2, hfound ▸ hasked⟩

end Found

end MarketDiscovery

end PolyBot
