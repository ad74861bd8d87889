import PolyBot.Websocket.MarketDiscovery

/-! What the bot trades from its launch on, refresh after refresh. -/

namespace PolyBot.Bot.DiscoveryRuns
open General.CheckedDivision MarketRefresh MarketDiscovery MarketPairRegistry ExitControl

variable {σ ε F β : Type}

def fallback : MarketPair :=
  .newUpDown "0x_fallback_test" "91146426612524606788185897426983484145854573836093539884347307480474597236733"
    "42146376778762047477642266233020835044794863565048464944940190870964136665187"

def marketsToTrade (mode : OperatingMode) (discovered : List MeasuredMarket) :
    Except String (List MarketPair × List TokenId) :=
  if discovered ≠ [] then
    .ok (discovered.map (·.toMarketPair), discovered.flatMap fun dm => [dm.firstTokenId, dm.secondTokenId])
  else
    match mode with
    | .Live => .error "No markets discovered in live mode — refusing to use hardcoded fallback"
    | .Paper => .ok ([fallback], [fallback.yesTokenId, fallback.noTokenId])

structure State (σ β : Type*) where
  feeds : Feeds β
  world : σ

/-- The bot is launched over what the first discovery finds, if it gets through; `parseId` reads the ids for the user
websocket. -/
def launch (sv : DiscoveryServices σ ε F) (parseId : ConditionId → Option β) (config : MarketConfig)
    (mode : OperatingMode) (credentials : Bool) (now : ℕ) (x : σ) : Option (Except String (State σ β)) :=
  (discoverFromConfig sv config now x).map fun (discovered, world) =>
    (marketsToTrade mode discovered).map fun (pairs, tokens) => ⟨newBot parseId tokens pairs credentials, world⟩

def refresh (sv : DiscoveryServices σ ε F) (config : MarketConfig) (s : State σ β) (now : ℕ) : Option (State σ β) :=
  (discoverFromConfig sv config now s.world).map fun (discovered, world) =>
    ⟨refreshMarkets s.feeds (some (discovered.map (·.toMarketPair))), world⟩

/-- Refreshes at some times, as long as they get through. -/
def run (sv : DiscoveryServices σ ε F) (config : MarketConfig) (s : State σ β) (times : List ℕ) : Option (State σ β) :=
  times.foldlM (refresh sv config) s

/-- A condition is registered exactly if it is that of a market to trade, with the pair that was known already or else
with the one that is listed last. Every token of a registered pair is in the market feed. If all requests failed, none
is registered. -/
structure TradesOffered (sv : DiscoveryServices σ ε F) (config : MarketConfig) (now : ℕ) (x : σ)
    (known : ConditionId → Option MarketPair) (feeds : Feeds β) : Prop where
  registered : ∀ id, feeds.registry.getByCondition id =
    ((wanted sv config now x).reverse.find? (·.conditionId = id)).map fun market =>
      (known id).getD market.toMarketPair
  bounded : feeds.registry.allConditionIds.length ≤ config.marketLimit
  covered : MarketCovered feeds
  outage : (∀ answer ∈ sv.gamma.answers x (slugs config now), ∃ e, answer = .error e) →
    feeds.registry.allConditionIds = []

/-- The market feed is subscribed to the tokens of the registered pairs, and to no others. -/
def ExactlySubscribed (feeds : Feeds β) : Prop :=
  ∀ token, token ∈ feeds.marketFeed ↔ ∃ pair ∈ feeds.registry.allPairs, pair.contains token = true

theorem find?_map_toMarketPair (markets : List MeasuredMarket) (id : ConditionId) :
    (markets.map (·.toMarketPair)).reverse.find? (·.conditionId = id) =
      (markets.reverse.find? (·.conditionId = id)).map (·.toMarketPair) := by
  rw [← List.map_reverse, List.find?_map]
  rfl

theorem mem_tokensOf_iff {pairs : List MarketPair} {token : TokenId} :
    token ∈ MarketRefresh.tokensOf pairs ↔ ∃ pair ∈ pairs, pair.contains token = true := by
  simp [MarketRefresh.tokensOf, MarketPair.contains]

theorem tokensOf_map (discovered : List MeasuredMarket) :
    MarketRefresh.tokensOf (discovered.map (·.toMarketPair)) =
      discovered.flatMap fun dm => [dm.firstTokenId, dm.secondTokenId] := by
  rw [MarketRefresh.tokensOf, List.flatMap_map]
  rfl

/-- A refresh leaves the feeds alone or subscribes to the registered pairs. -/
theorem refreshMarkets_subscribes (feeds : Feeds β) (discovered : List MarketPair) :
    refreshMarkets feeds (some discovered) = feeds ∨ ExactlySubscribed (refreshMarkets feeds (some discovered)) := by
  unfold refreshMarkets
  dsimp only
  split
  · exact .inl rfl
  · exact .inr fun token => mem_tokensOf_iff

variable {sv : DiscoveryServices σ ε F} {config : MarketConfig} {now : ℕ} {x : σ}

theorem wanted_of_outage (h : ∀ answer ∈ sv.gamma.answers x (slugs config now), ∃ e, answer = .error e) :
    wanted sv config now x = [] := by
  have hnone : offers sv config now x = [] := by
    refine List.flatMap_eq_nil_iff.mpr fun answer hanswer => ?_
    obtain ⟨e, rfl⟩ := h answer hanswer
    rfl
  rw [wanted, hnone, List.take_nil]

/-- What holds when the registered pairs are those of the markets to trade. -/
theorem tradesOffered_of_registered {feeds : Feeds β} (hkept : Kept feeds) {known : ConditionId → Option MarketPair}
    (hregistered : ∀ id, feeds.registry.getByCondition id =
      ((wanted sv config now x).reverse.find? (·.conditionId = id)).map fun market =>
        (known id).getD market.toMarketPair) :
    TradesOffered sv config now x known feeds := by
  have hids : feeds.registry.allConditionIds ⊆ (wanted sv config now x).map (·.conditionId) := by
    intro id hid
    obtain ⟨pair, hpair⟩ := mem_allConditionIds.mp hid
    rw [hregistered, Option.map_eq_some_iff] at hpair
    obtain ⟨market, hmarket, -⟩ := hpair
    exact List.mem_map.mpr ⟨market, List.mem_reverse.mp (List.mem_of_find?_eq_some hmarket), by
      simpa using List.find?_some hmarket⟩
  refine ⟨hregistered, ?_, hkept.covered, fun houtage => ?_⟩
  · calc feeds.registry.allConditionIds.length
        ≤ ((wanted sv config now x).map (·.conditionId)).length :=
          (List.Nodup.subperm feeds.registry.byCondition.keys_nodup hids).length_le
      _ ≤ config.marketLimit := by
          rw [List.length_map]
          exact List.length_take_le _ _
  · rw [wanted_of_outage houtage] at hids
    exact List.subset_nil.mp hids

/-- A refresh gets through unless the interval has no seconds. -/
theorem exactly_refresh (sv : DiscoveryServices σ ε F) (config : MarketConfig) (s : State σ β) (now : ℕ) :
    ∃ world, Exactly (refresh sv config s now)
      ⟨refreshMarkets s.feeds (some ((wanted sv config now s.world).map (·.toMarketPair))), world⟩
      (config.marketIntervalSecs ≠ 0) := by
  obtain ⟨world, hdiscover⟩ := exactly_discoverFromConfig sv config now s.world
  exact ⟨world, hdiscover.map _⟩

theorem exactly_launch (sv : DiscoveryServices σ ε F) (parseId : ConditionId → Option β) (config : MarketConfig)
    (mode : OperatingMode) (credentials : Bool) (now : ℕ) (x : σ) :
    ∃ world, Exactly (launch sv parseId config mode credentials now x)
      ((marketsToTrade mode (wanted sv config now x)).map fun (pairs, tokens) =>
        ⟨newBot parseId tokens pairs credentials, world⟩) (config.marketIntervalSecs ≠ 0) := by
  obtain ⟨world, hdiscover⟩ := exactly_discoverFromConfig sv config now x
  exact ⟨world, hdiscover.map _⟩

/-- The step lemma: what a refresh registers, and what it subscribes to. -/
theorem refresh_trades (h : config.marketIntervalSecs ≠ 0) {s : State σ β} (hkept : Kept s.feeds) (now : ℕ) :
    ∃ after, refresh sv config s now = some after ∧ Kept after.feeds ∧
      TradesOffered sv config now s.world s.feeds.registry.getByCondition after.feeds ∧
      (after.feeds = s.feeds ∨ ExactlySubscribed after.feeds) := by
  obtain ⟨world, hrefresh⟩ := exactly_refresh sv config s now
  have hafter := hkept.refresh (some ((wanted sv config now s.world).map (·.toMarketPair)))
  refine ⟨_, hrefresh.through h, hafter, tradesOffered_of_registered hafter fun id => ?_,
    refreshMarkets_subscribes _ _⟩
  rw [getByCondition_refresh, find?_map_toMarketPair, Option.map_map]
  rfl

/-- The run lemma: refreshes get through, and the market feed is the one from before or has been renewed. -/
theorem run_subscribes (h : config.marketIntervalSecs ≠ 0) {s : State σ β} (hkept : Kept s.feeds) (times : List ℕ) :
    ∃ after, run sv config s times = some after ∧ Kept after.feeds ∧
      (after.feeds = s.feeds ∨ ExactlySubscribed after.feeds) := by
  induction times generalizing s with
  | nil => exact ⟨s, rfl, hkept, .inl rfl⟩
  | cons now times ih =>
    obtain ⟨next, hnext, hkeptNext, -, hsubscribed⟩ := refresh_trades h hkept now
    obtain ⟨after, hafter, hkeptAfter, hrest⟩ := ih hkeptNext
    refine ⟨after, by rw [run, List.foldlM_cons, hnext]; exact hafter, hkeptAfter, ?_⟩
    rcases hrest with hsame | hexact
    · rw [hsame]
      exact hsubscribed
    · exact .inr hexact

theorem run_concat (s : State σ β) (times : List ℕ) (last : ℕ) :
    run sv config s (times ++ [last]) = (run sv config s times).bind fun before => refresh sv config before last := by
  rw [run, List.foldlM_append]
  simp only [List.foldlM_cons, List.foldlM_nil, bind_pure]
  rfl

/-- A launch without a market to trade is on paper, over the fallback market. -/
theorem launch_cases {parseId : ConditionId → Option β} {mode : OperatingMode} {credentials : Bool} {s : State σ β}
    (h : launch sv parseId config mode credentials now x = some (.ok s)) : config.marketIntervalSecs ≠ 0 ∧
      (s.feeds = start parseId ((wanted sv config now x).map (·.toMarketPair)) credentials ∨
        wanted sv config now x = [] ∧ mode = .Paper ∧ s.feeds = start parseId [fallback] credentials) := by
  obtain ⟨world, hlaunch⟩ := exactly_launch sv parseId config mode credentials now x
  have hsecs : config.marketIntervalSecs ≠ 0 := fun hzero => by
    rw [hlaunch.stops (not_not.mpr hzero)] at h
    cases h
  refine ⟨hsecs, ?_⟩
  rw [hlaunch.through hsecs, Option.some.injEq] at h
  unfold marketsToTrade at h
  split at h
  · cases h
    left
    rw [start, tokensOf_map]
  · rename_i hnone
    cases mode with
    | Live => cases h
    | Paper =>
      cases h
      exact .inr ⟨not_not.mp hnone, rfl, rfl⟩

theorem launch_eq_none_iff (parseId : ConditionId → Option β) (mode : OperatingMode) (credentials : Bool) :
    launch sv parseId config mode credentials now x = none ↔ config.marketIntervalSecs = 0 := by
  obtain ⟨world, hexact⟩ := exactly_launch sv parseId config mode credentials now x
  refine ⟨fun hnone => ?_, fun hzero => hexact.stops (not_not.mpr hzero)⟩
  by_contra hsecs
  cases (hexact.through hsecs).symm.trans hnone

/-- A launch over offered markets registers them and subscribes to all their tokens. -/
theorem launch_trades {parseId : ConditionId → Option β} {credentials : Bool} {feeds : Feeds β}
    (hfeeds : feeds = start parseId ((wanted sv config now x).map (·.toMarketPair)) credentials) :
    TradesOffered sv config now x (fun _ => none) feeds ∧ ∀ token, token ∈ feeds.marketFeed ↔
      ∃ market ∈ wanted sv config now x, token = market.firstTokenId ∨ token = market.secondTokenId := by
  constructor
  · refine tradesOffered_of_registered (hfeeds ▸ kept_start _ _) fun id => ?_
    rw [hfeeds, start, newBot, getByCondition_foldl_register, find?_map_toMarketPair]
    exact Option.or_none
  · intro token
    rw [hfeeds, start, newBot, tokensOf_map]
    simp

/-- The bot is not launched over an interval of no seconds. From its launch on it trades the first markets that the API
offered last, except on paper before the first refresh if it offered none. It is subscribed to their tokens and to no
others, but for those of other listings of the same conditions that the launch has found, until a refresh finds a
change. -/
theorem trades_what_is_offered (sv : DiscoveryServices σ ε F) (parseId : ConditionId → Option β) (config : MarketConfig)
    (mode : OperatingMode) (credentials : Bool) (now : ℕ) (x : σ) :
    (launch sv parseId config mode credentials now x = none ↔ config.marketIntervalSecs = 0) ∧
      ∀ s, launch sv parseId config mode credentials now x = some (.ok s) →
        ((TradesOffered sv config now x (fun _ => none) s.feeds ∧ ∀ token, token ∈ s.feeds.marketFeed ↔
            ∃ market ∈ wanted sv config now x, token = market.firstTokenId ∨ token = market.secondTokenId) ∨
          mode = .Paper ∧ wanted sv config now x = [] ∧ s.feeds = start parseId [fallback] credentials) ∧
        ∀ times last, ∃ before after, run sv config s times = some before ∧
          run sv config s (times ++ [last]) = some after ∧
          TradesOffered sv config last before.world before.feeds.registry.getByCondition after.feeds ∧
          (after.feeds = s.feeds ∨ ExactlySubscribed after.feeds) := by
  refine ⟨launch_eq_none_iff parseId mode credentials, fun s hlaunch => ?_⟩
  obtain ⟨hsecs, hfeeds⟩ := launch_cases hlaunch
  have hkept : Kept s.feeds := by
    rcases hfeeds with hfeeds | ⟨-, -, hfeeds⟩ <;> rw [hfeeds] <;> exact kept_start _ _
  refine ⟨?_, fun times last => ?_⟩
  · rcases hfeeds with hfeeds | ⟨hnone, hmode, hfeeds⟩
    · exact .inl (launch_trades hfeeds)
    · exact .inr ⟨hmode, hnone, hfeeds⟩
  · obtain ⟨before, hbefore, hkeptBefore, hsame⟩ := run_subscribes hsecs hkept times
    obtain ⟨after, hafter, -, htrades, hsubscribed⟩ := refresh_trades hsecs hkeptBefore last
    refine ⟨before, after, hbefore, ?_, htrades, ?_⟩
    · rw [run_concat, hbefore]
      exact hafter
    · rcases hsubscribed with heq | hexact
      · rw [heq]
        exact hsame
      · exact .inr hexact

private def listed (text : String) : Except String (List String) :=
  if text = "[\"Up\", \"Down\"]" then .ok ["Up", "Down"]
  else if text = "[\"1001\", \"1002\"]" then .ok ["1001", "1002"]
  else .error "expected value at line 1 column 1"

/-- The API lists one market of the first interval, and fails at every other request. -/
private def services : DiscoveryServices Unit String Decimal where
  gamma := ⟨fun _ slug =>
    (if slug = "btc-updown-15m-900" then
      .ok [⟨slug, [⟨⟨"0x1", "BTC up or down?", "[\"Up\", \"Down\"]", "[\"1001\", \"1002\"]", none⟩,
        true, false, false, true, 250, 90⟩]⟩]
    else .error "503 Service Unavailable", ())⟩
  parseJson := listed
  tryFrom := some
  toLowercase := String.toLower

private def fifteenMinutes : MarketConfig := ⟨["btc"], "15m", 900, 5⟩

private def launched : State Unit ConditionId where
  feeds := start some [(MarketPair.new "0x1" "1001" "1002").withFeeRate 1000] true
  world := ()

/-- The market is traded until its interval has passed and the API no longer answers. -/
theorem market_until_outage :
    launched.feeds.registry.allConditionIds = ["0x1"] ∧ ∃ after,
      run services fifteenMinutes launched ([1300] ++ [2000]) = some after ∧
        after.feeds.registry.allConditionIds = [] := by
  have htrades := (trades_what_is_offered services some fifteenMinutes .Live true 1000 ()).2 launched
    (by with_unfolding_all rfl)
  obtain ⟨_, after, -, hafter, hoffered, -⟩ := htrades.2 [1300] 2000
  refine ⟨by decide +kernel, after, hafter, hoffered.outage ?_⟩
  intro answer hanswer
  have hanswers : answer ∈ List.replicate 3 (Except.error "503 Service Unavailable") := by
    have hall : services.gamma.answers () (slugs fifteenMinutes 2000) =
        List.replicate 3 (.error "503 Service Unavailable") := by
      with_unfolding_all rfl
    exact hall ▸ hanswer
  exact ⟨_, List.eq_of_mem_replicate hanswers⟩

end PolyBot.Bot.DiscoveryRuns
