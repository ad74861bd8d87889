import PolyBot.General.AdditiveRuns
import PolyBot.Strategy.MarketPair

/-! The markets of the bot and the two websockets that report on them. What a discovery finds is an argument. -/

namespace PolyBot.Bot.MarketRefresh
open General.AdditiveRuns General.KeyedStore MarketPairRegistry

/-- `β` is how a condition id is sent to the exchange. -/
structure Feeds (β : Type*) where
  registry : MarketPairRegistry
  marketFeed : List TokenId
  userFeed : Option (List β)

def tokensOf (pairs : List MarketPair) : List TokenId := pairs.flatMap fun pair => [pair.yesTokenId, pair.noTokenId]

variable {β : Type*} (parse : ConditionId → Option β)

def userWebSocket (conditionIds : List ConditionId) : List β := conditionIds.filterMap parse

def newBot (tokenIds : List TokenId) (marketPairs : List MarketPair) (credentials : Bool) : Feeds β where
  registry := marketPairs.foldl register .new
  marketFeed := tokenIds
  userFeed := if credentials then some (userWebSocket parse (marketPairs.map (·.conditionId))) else none

def start (marketPairs : List MarketPair) (credentials : Bool) : Feeds β :=
  newBot parse (tokensOf marketPairs) marketPairs credentials

/-- A discovery that fails changes nothing, and neither does one that finds the markets already registered. -/
def refreshMarkets (s : Feeds β) : Option (List MarketPair) → Feeds β
  | none => s
  | some discovered =>
    let newIds := discovered.map (·.conditionId)
    let existingIds := s.registry.allConditionIds
    if (∀ id ∈ newIds, id ∈ existingIds) ∧ ∀ id ∈ existingIds, id ∈ newIds then s
    else
      let registered := (discovered.filter fun d => d.conditionId ∉ existingIds).foldl register s.registry
      let registry := (existingIds.filter (· ∉ newIds)).foldl unregister registered
      { s with registry := registry, marketFeed := tokensOf registry.allPairs }

def MarketCovered (s : Feeds β) : Prop :=
  ∀ pair ∈ s.registry.allPairs, pair.yesTokenId ∈ s.marketFeed ∧ pair.noTokenId ∈ s.marketFeed

def Subscribed (feed : List β) (conditionId : ConditionId) : Prop := ∃ b ∈ feed, parse conditionId = some b

def Covered (s : Feeds β) : Prop :=
  MarketCovered s ∧ ∀ pair ∈ s.registry.allPairs, ∀ feed ∈ s.userFeed, Subscribed parse feed pair.conditionId

/-- A discovery brings no market that the user websocket is not subscribed to, unless it is registered already. -/
def BringsSubscribed (s : Feeds β) (discovered : Option (List MarketPair)) : Prop :=
  ∀ pairs, discovered = some pairs → ∀ pair ∈ pairs, pair.conditionId ∉ s.registry.allConditionIds →
    ∀ feed ∈ s.userFeed, Subscribed parse feed pair.conditionId

variable {parse}

theorem mem_tokensOf {pairs : List MarketPair} {pair : MarketPair} (h : pair ∈ pairs) :
    pair.yesTokenId ∈ tokensOf pairs ∧ pair.noTokenId ∈ tokensOf pairs :=
  ⟨List.mem_flatMap.mpr ⟨pair, h, by simp⟩, List.mem_flatMap.mpr ⟨pair, h, by simp⟩⟩

private theorem mem_of_mem_allPairs_foldl_register {pairs : List MarketPair} {r : MarketPairRegistry}
    {pair : MarketPair} (h : pair ∈ (pairs.foldl register r).allPairs) : pair ∈ pairs ∨ pair ∈ r.allPairs := by
  induction pairs generalizing r with
  | nil => exact .inr h
  | cons first pairs ih =>
    rcases ih h with hlater | hfirst
    · exact .inl (List.mem_cons_of_mem _ hlater)
    · rcases mem_values_insert hfirst with rfl | hold
      · exact .inl List.mem_cons_self
      · exact .inr hold

private theorem keyed_foldl_register {r : MarketPairRegistry} (h : r.Keyed) (pairs : List MarketPair) :
    (pairs.foldl register r).Keyed := by
  induction pairs generalizing r with
  | nil => exact h
  | cons pair pairs ih => exact ih (h.register pair)

private theorem keyed_foldl_unregister {r : MarketPairRegistry} (h : r.Keyed) (ids : List ConditionId) :
    (ids.foldl unregister r).Keyed := by
  induction ids generalizing r with
  | nil => exact h
  | cons id ids ih => exact ih (h.unregister id)

/-- What every refresh keeps: pairs are under their own condition, and the market feed covers them. -/
structure Kept (s : Feeds β) : Prop where
  keyed : s.registry.Keyed
  covered : MarketCovered s

theorem kept_start (marketPairs : List MarketPair) (credentials : Bool) :
    Kept (start parse marketPairs credentials) where
  keyed := keyed_foldl_register keyed_new marketPairs
  covered pair hpair := by
    rcases mem_of_mem_allPairs_foldl_register hpair with hpair | hnone
    · exact mem_tokensOf hpair
    · cases hnone

theorem Kept.refresh {s : Feeds β} (h : Kept s) (discovered : Option (List MarketPair)) :
    Kept (refreshMarkets s discovered) := by
  unfold refreshMarkets
  split
  · exact h
  · dsimp only
    split
    · exact h
    · exact ⟨keyed_foldl_unregister (keyed_foldl_register h.keyed _) _, fun _ hpair => mem_tokensOf hpair⟩

@[simp] theorem userFeed_refresh (s : Feeds β) (discovered : Option (List MarketPair)) :
    (refreshMarkets s discovered).userFeed = s.userFeed := by
  unfold refreshMarkets
  split
  · rfl
  · dsimp only
    split <;> rfl

theorem mem_allConditionIds_start {marketPairs : List MarketPair} {credentials : Bool} {conditionId : ConditionId} :
    conditionId ∈ (start parse marketPairs credentials).registry.allConditionIds ↔
      conditionId ∈ marketPairs.map (·.conditionId) := by
  refine mem_allConditionIds_foldl_register.trans (or_iff_right ?_)
  intro h
  cases h

/-- After a discovery the registered markets are those that it found. -/
theorem mem_allConditionIds_refresh {s : Feeds β} {discovered : List MarketPair} {conditionId : ConditionId} :
    conditionId ∈ (refreshMarkets s (some discovered)).registry.allConditionIds ↔
      conditionId ∈ discovered.map (·.conditionId) := by
  unfold refreshMarkets
  dsimp only
  split
  · rename_i hsame
    exact ⟨hsame.2 conditionId, hsame.1 conditionId⟩
  · rw [mem_allConditionIds_foldl_unregister, mem_allConditionIds_foldl_register]
    have hadded : conditionId ∈ (discovered.filter fun d => d.conditionId ∉ s.registry.allConditionIds).map
        (·.conditionId) ↔ conditionId ∈ discovered.map (·.conditionId) ∧ conditionId ∉ s.registry.allConditionIds := by
      simp only [List.mem_map, List.mem_filter, decide_eq_true_eq]
      constructor
      · rintro ⟨pair, ⟨hpair, hnew⟩, rfl⟩
        exact ⟨⟨pair, hpair, rfl⟩, hnew⟩
      · rintro ⟨⟨pair, hpair, rfl⟩, hnew⟩
        exact ⟨pair, ⟨hpair, hnew⟩, rfl⟩
    rw [hadded, List.mem_filter, decide_eq_true_iff]
    tauto

/-- Of the pairs whose condition is not among some ids, the first of a condition. -/
private theorem find?_filter_condition (pairs : List MarketPair) (ids : List ConditionId) (conditionId : ConditionId) :
    (pairs.filter fun pair => pair.conditionId ∉ ids).find? (·.conditionId = conditionId) =
      if conditionId ∈ ids then none else pairs.find? (·.conditionId = conditionId) := by
  rw [List.find?_filter]
  split
  · rename_i hin
    refine List.find?_eq_none.mpr fun pair _ hboth => ?_
    simp only [decide_eq_true_eq] at hboth
    exact hboth.1 (hboth.2 ▸ hin)
  · rename_i hout
    congr 1
    funext pair
    by_cases hid : pair.conditionId = conditionId
    · simp [hid, hout]
    · simp [hid]

theorem mem_map_conditionId_iff {pairs : List MarketPair} {conditionId : ConditionId} :
    conditionId ∈ pairs.map (·.conditionId) ↔
      ∃ pair, pairs.reverse.find? (·.conditionId = conditionId) = some pair := by
  rw [← Option.isSome_iff_exists]
  simp

/-- New pairs are registered and old ones unregistered: a condition that was registered keeps its pair, and of a new one
the pair that is listed last is taken. -/
theorem getByCondition_renewed (registry : MarketPairRegistry) (discovered : List MarketPair)
    (conditionId : ConditionId) :
    ((registry.allConditionIds.filter (· ∉ discovered.map (·.conditionId))).foldl unregister
        ((discovered.filter (·.conditionId ∉ registry.allConditionIds)).foldl register registry)).getByCondition
          conditionId =
      (discovered.reverse.find? (·.conditionId = conditionId)).map fun pair =>
        (registry.getByCondition conditionId).getD pair := by
  rw [getByCondition_foldl_unregister, getByCondition_foldl_register, ← List.filter_reverse, find?_filter_condition]
  by_cases hold : conditionId ∈ registry.allConditionIds
  · obtain ⟨old, hlookup⟩ := mem_allConditionIds.mp hold
    have hdropped : conditionId ∈ registry.allConditionIds.filter (· ∉ discovered.map (·.conditionId)) ↔
        ¬∃ pair, discovered.reverse.find? (·.conditionId = conditionId) = some pair := by
      rw [List.mem_filter, and_iff_right hold, decide_eq_true_iff, mem_map_conditionId_iff]
    rw [if_pos hold, hlookup]
    cases hfind : discovered.reverse.find? (·.conditionId = conditionId) with
    | none =>
      rw [if_pos (hdropped.mpr (by simp [hfind]))]
      rfl
    | some pair =>
      rw [if_neg fun hin => hdropped.mp hin ⟨pair, hfind⟩]
      rfl
  · have hunknown : registry.getByCondition conditionId = none :=
      Option.eq_none_iff_forall_ne_some.mpr fun pair hpair => hold (mem_allConditionIds.mpr ⟨pair, hpair⟩)
    rw [if_neg hold, hunknown, if_neg fun hmem => hold (List.mem_filter.mp hmem).1]
    simp

/-- So it is after a refresh, which does nothing where the conditions stay the same. -/
theorem getByCondition_refresh (s : Feeds β) (discovered : List MarketPair) (conditionId : ConditionId) :
    (refreshMarkets s (some discovered)).registry.getByCondition conditionId =
      (discovered.reverse.find? (·.conditionId = conditionId)).map fun pair =>
        (s.registry.getByCondition conditionId).getD pair := by
  unfold refreshMarkets
  dsimp only
  split
  · rename_i hsame
    have hiff : conditionId ∈ discovered.map (·.conditionId) ↔ conditionId ∈ s.registry.allConditionIds :=
      ⟨hsame.1 conditionId, hsame.2 conditionId⟩
    rw [mem_allConditionIds, mem_map_conditionId_iff] at hiff
    cases hfind : discovered.reverse.find? (·.conditionId = conditionId) with
    | none =>
      refine Option.eq_none_iff_forall_ne_some.mpr fun pair hpair => ?_
      obtain ⟨_, hsome⟩ := hiff.mpr ⟨pair, hpair⟩
      cases hfind.symm.trans hsome
    | some pair =>
      obtain ⟨old, hold⟩ := hiff.mp ⟨pair, hfind⟩
      simp [hold]
  · exact getByCondition_renewed s.registry discovered conditionId

/-- Every registered market is in every list of the user websocket. -/
theorem Kept.covered_iff {s : Feeds β} (h : Kept s) : Covered parse s ↔
    ∀ conditionId ∈ s.registry.allConditionIds, ∀ feed ∈ s.userFeed, Subscribed parse feed conditionId := by
  rw [Covered, and_iff_right h.covered]
  constructor
  · intro hpairs conditionId hid
    obtain ⟨pair, hpair, rfl⟩ := h.keyed.mem_allConditionIds_iff.mp hid
    exact hpairs pair hpair
  · intro hids pair hpair
    exact hids pair.conditionId (h.keyed.mem_allConditionIds_iff.mpr ⟨pair, hpair, rfl⟩)

theorem covered_start_iff (marketPairs : List MarketPair) (credentials : Bool) :
    Covered parse (start parse marketPairs credentials) ↔
      (credentials = true → ∀ pair ∈ marketPairs, (parse pair.conditionId).isSome = true) := by
  rw [(kept_start marketPairs credentials).covered_iff]
  simp only [mem_allConditionIds_start, List.forall_mem_map]
  cases credentials with
  | false => simp [start, newBot]
  | true =>
    have hfeed : ∀ pair ∈ marketPairs, Subscribed parse (userWebSocket parse (marketPairs.map (·.conditionId)))
        pair.conditionId ↔ (parse pair.conditionId).isSome = true := by
      intro pair hpair
      rw [Option.isSome_iff_exists]
      constructor
      · rintro ⟨b, -, hb⟩
        exact ⟨b, hb⟩
      · rintro ⟨b, hb⟩
        exact ⟨b, List.mem_filterMap.mpr ⟨pair.conditionId, List.mem_map_of_mem hpair, hb⟩, hb⟩
    simp only [start, newBot, if_true, Option.mem_some_iff, forall_eq', forall_const]
    exact forall₂_congr hfeed

/-- The step lemma: a refresh keeps the coverage exactly if it brings no market that the user websocket lacks. -/
theorem covered_refresh_iff {s : Feeds β} (h : Kept s) (hcovered : Covered parse s)
    (discovered : Option (List MarketPair)) :
    Covered parse (refreshMarkets s discovered) ↔ BringsSubscribed parse s discovered := by
  cases discovered with
  | none => exact iff_of_true hcovered nofun
  | some pairs =>
    rw [(h.refresh _).covered_iff, userFeed_refresh]
    simp only [mem_allConditionIds_refresh, List.forall_mem_map, BringsSubscribed, Option.some.injEq, forall_eq']
    refine forall₂_congr fun pair _ => ?_
    constructor
    · exact fun hsubscribed _ => hsubscribed
    · intro hbrings
      by_cases hold : pair.conditionId ∈ s.registry.allConditionIds
      · exact h.covered_iff.mp hcovered pair.conditionId hold
      · exact hbrings hold

/-- In every state of a run both websockets cover every registered market exactly if, when there is a user websocket,
the ids of the first markets parse and no refresh brings a market that was not among them. -/
theorem subscriptions_cover_iff (parse : ConditionId → Option β) (marketPairs : List MarketPair) (credentials : Bool)
    (results : List (Option (List MarketPair))) :
    (∀ p, p <+: results → Covered parse (p.foldl refreshMarkets (start parse marketPairs credentials))) ↔
      (credentials = true → ∀ pair ∈ marketPairs, (parse pair.conditionId).isSome = true) ∧
        Throughout refreshMarkets (BringsSubscribed parse) (start parse marketPairs credentials) results := by
  rw [forall_prefix_iff, ← covered_start_iff]
  refine and_congr_right fun hcovered => ?_
  refine throughout_congr (fun s => Kept s ∧ Covered parse s) ?_ ?_ ⟨kept_start marketPairs credentials, hcovered⟩
  · exact fun s discovered hs hnext => ⟨hs.1.refresh discovered, hnext⟩
  · exact fun s discovered hs => covered_refresh_iff hs.1 hs.2 discovered

def conditionOf (digit : Char) : ConditionId := "0x" ++ .ofList (List.replicate 64 digit)

/-- A market that comes with a refresh is not in the list of the user websocket. -/
theorem new_market_not_subscribed :
    let first := MarketPair.newUpDown (conditionOf '1') "11" "12"
    let second := MarketPair.newUpDown (conditionOf '2') "21" "22"
    ¬∀ p, p <+: [some [first, second]] → Covered some (p.foldl refreshMarkets (start some [first] true)) := by
  intro first second hall
  have hcovered := (hall _ List.prefix_rfl).2
  obtain ⟨b, hb, hparse⟩ := hcovered second (by decide +kernel) _ rfl
  cases hparse
  revert hb
  decide +kernel

end PolyBot.Bot.MarketRefresh
