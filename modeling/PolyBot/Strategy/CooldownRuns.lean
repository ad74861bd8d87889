import PolyBot.General.AdditiveRuns
import PolyBot.Strategy.StrategyRuns

/-! The cooldown of every strategy over runs: how far its entries of a market are apart, and how many of them one book
update emits. -/

namespace PolyBot
open General.KeyedStore General.Cooldown General.AdditiveRuns

namespace LateEntryStrategy
variable {parse : String → Option Decimal} {registry : MarketPairRegistry} {ctx : StrategyContext}

def openEntry (parse : String → Option Decimal) (registry : MarketPairRegistry) (ctx : StrategyContext)
    (s : LateEntryStrategy) (tokenId : TokenId) : Option OrderIntent :=
  (registry.getByToken tokenId).bind fun pair => s.entryOf parse pair tokenId ctx

/-- All gates of an entry but the cooldown are open for a token, which is registered in the market given. -/
def Qualifies (parse : String → Option Decimal) (registry : MarketPairRegistry) (ctx : StrategyContext)
    (s : LateEntryStrategy) (tokenId : TokenId) (conditionId : ConditionId) : Prop :=
  ∃ pair complementId ask, registry.getByToken tokenId = some pair ∧ pair.conditionId = conditionId ∧
    (ctx.position tokenId).isFlat = true ∧ pair.complement tokenId = some complementId ∧
    (ctx.position complementId).isFlat = true ∧ s.entryTracking.lookup tokenId = none ∧
    ctx.bestAsk parse tokenId = some ask ∧ s.config.minEntryPrice ≤ ask ∧ ask < 99 / 100 ∧
    (ctx.bestBid parse tokenId).isSome = true ∧
    s.config.minAskDepth ≤ (ctx.books.askDepth parse tokenId).getD 0 ∧ 0 < s.shares ask

theorem openEntry_iff {s : LateEntryStrategy} {tokenId : TokenId} {conditionId : ConditionId} :
    (∃ i, s.openEntry parse registry ctx tokenId = some i ∧ i.marketId = conditionId) ↔
      s.Qualifies parse registry ctx tokenId conditionId := by
  simp only [openEntry, entryOf, Option.bind_eq_bind, Option.bind_eq_some_iff, Option.guard_eq_some',
    Option.pure_def, Option.some.injEq, Option.isNone_iff_eq_none]
  constructor
  · rintro ⟨i, ⟨pair, hpair, _, hflat, complementId, hcomplement, _, hother, _, hfresh, ask, hask, _, hleast, _, hmost,
      bid, hbid, _, hdepth, _, hshares, rfl⟩, hmarket⟩
    exact ⟨pair, complementId, ask, hpair, hmarket, hflat, hcomplement, hother, hfresh, hask, hleast, hmost,
      Option.isSome_iff_exists.mpr ⟨bid, hbid⟩, hdepth, hshares⟩
  · rintro ⟨pair, complementId, ask, hpair, rfl, hflat, hcomplement, hother, hfresh, hask, hleast, hmost, hbid, hdepth,
      hshares⟩
    obtain ⟨bid, hbid⟩ := Option.isSome_iff_exists.mp hbid
    exact ⟨_, ⟨pair, hpair, (), hflat, complementId, hcomplement, (), hother, (), hfresh, ask, hask, (), hleast, (),
      hmost, bid, hbid, (), hdepth, (), hshares, rfl⟩, rfl⟩

/-- Tokens that are not tried would not be entered either. -/
theorem openEntry_eq_none {s : LateEntryStrategy} {tokenId : TokenId}
    (h : ∀ ask, ctx.bestAsk parse tokenId = some ask → ¬(s.config.minEntryPrice ≤ ask ∧ ask < 99 / 100)) :
    s.openEntry parse registry ctx tokenId = none := by
  refine Option.eq_none_iff_forall_ne_some.mpr fun i hi => ?_
  obtain ⟨pair, -, hentry⟩ := Option.bind_eq_some_iff.mp hi
  obtain ⟨ask, hbest, hgate, -⟩ := entryOf_inv hentry
  exact h ask hbest hgate

variable (parse registry ctx) in
/-- Without a cooldown the check of a token comes to its other gates, and touches the time of the last trade only. -/
theorem checkEntry_of_no_cooldown {s : LateEntryStrategy} (hzero : s.config.cooldownMs = 0) (tokenId : TokenId) :
    ∃ lastTrade, s.checkEntry parse registry tokenId ctx =
      (s.openEntry parse registry ctx tokenId, { s with lastTrade := lastTrade }) := by
  rcases checkEntry_cases parse registry ctx s tokenId with ⟨hkeep, hwhy⟩ | ⟨pair, hpair, -, hcheck⟩
  · have hunknown := hwhy.resolve_right (by rw [hzero]; exact Nat.not_lt_zero 0)
    refine ⟨s.lastTrade, ?_⟩
    rw [hkeep, openEntry, hunknown]
    rfl
  · refine ⟨s.lastTrade.insert pair.conditionId ctx.now, ?_⟩
    rw [hcheck, openEntry, hpair]
    rfl

/-- Without a cooldown every token is entered whose other gates are open. -/
theorem tryEntries_fst {s : LateEntryStrategy} (hzero : s.config.cooldownMs = 0) (tokenIds : List TokenId) :
    (s.tryEntries parse registry ctx tokenIds).1 = tokenIds.filterMap (s.openEntry parse registry ctx) := by
  induction tokenIds generalizing s with
  | nil => rfl
  | cons tokenId tokenIds ih =>
    unfold tryEntries
    split
    · rename_i hnone
      rw [List.filterMap_cons_none (openEntry_eq_none fun ask hask => by rw [hnone] at hask; cases hask)]
      exact ih hzero
    · rename_i ask hask
      split
      · obtain ⟨lastTrade, hcheck⟩ := checkEntry_of_no_cooldown parse registry ctx hzero tokenId
        rw [hcheck]
        cases hopen : s.openEntry parse registry ctx tokenId with
        | none =>
          rw [List.filterMap_cons_none hopen]
          exact ih hzero
        | some i =>
          rw [List.filterMap_cons_some hopen]
          exact congrArg (i :: ·) (ih hzero)
      · rename_i hgate
        have hnone : s.openEntry parse registry ctx tokenId = none :=
          openEntry_eq_none fun ask' hask' => Option.some.inj (hask.symm.trans hask') ▸ hgate
        rw [List.filterMap_cons_none hnone]
        exact ih hzero

/-- Both tokens of the pair that a book update looks up are to be entered in one market, and no cooldown keeps the
second one back. -/
def EntersBoth (parse : String → Option Decimal) (s : LateEntryStrategy) (around : AllStrategies.Surroundings)
    (tokenId : TokenId) : Prop :=
  s.config.cooldownMs = 0 ∧ s.IsActive around.utcNow ∧
    ∃ pair conditionId, around.registry.getByToken tokenId = some pair ∧
      s.Qualifies parse around.registry around.ctx pair.yesTokenId conditionId ∧
      s.Qualifies parse around.registry around.ctx pair.noTokenId conditionId

/-- Two tokens that are tried without a cooldown give at most one entry a market exactly if they do not qualify in the
same one. -/
theorem tryEntries_single_iff {s : LateEntryStrategy} (hzero : s.config.cooldownMs = 0) (first second : TokenId) :
    (∀ c, entriesFor c (s.tryEntries parse registry ctx [first, second]).1 ≤ 1) ↔
      ¬∃ c, s.Qualifies parse registry ctx first c ∧ s.Qualifies parse registry ctx second c := by
  rw [tryEntries_fst hzero]
  have hbuy : ∀ {t i}, s.openEntry parse registry ctx t = some i → i.side = .Buy ∧ i.groupId = none := by
    intro t i hi
    obtain ⟨pair, -, hentry⟩ := Option.bind_eq_some_iff.mp hi
    obtain ⟨_, -, -, rfl⟩ := entryOf_inv hentry
    exact ⟨rfl, rfl⟩
  simp only [← openEntry_iff]
  cases hfirst : s.openEntry parse registry ctx first with
  | none =>
    cases hsecond : s.openEntry parse registry ctx second with
    | none => exact iff_of_true (by simp [hfirst, hsecond, entriesFor]) (by simp)
    | some j =>
      rw [List.filterMap_cons_none hfirst, List.filterMap_cons_some hsecond, List.filterMap_nil]
      exact iff_of_true (entriesFor_le_one_of_nodup (by simpa using (hbuy hsecond).2) (by simp)) (by simp)
  | some i =>
    cases hsecond : s.openEntry parse registry ctx second with
    | none =>
      rw [List.filterMap_cons_some hfirst, List.filterMap_cons_none hsecond, List.filterMap_nil]
      exact iff_of_true (entriesFor_le_one_of_nodup (by simpa using (hbuy hfirst).2) (by simp)) (by simp)
    | some j =>
      rw [List.filterMap_cons_some hfirst, List.filterMap_cons_some hsecond, List.filterMap_nil,
        entriesFor_two (hbuy hfirst) (hbuy hsecond)]
      simp [eq_comm]

/-- One book update enters each market at most once, unless both tokens of a pair are to be entered and there is no
cooldown. -/
theorem onBookUpdate_single_iff (s : LateEntryStrategy) (around : AllStrategies.Surroundings) (tokenId : TokenId) :
    (∀ c, entriesFor c (s.onBookUpdate parse around.registry tokenId around.ctx around.utcNow).1 ≤ 1) ↔
      ¬s.EntersBoth parse around tokenId := by
  rcases Nat.eq_zero_or_pos s.config.cooldownMs with hzero | hpos
  · by_cases hactive : s.IsActive around.utcNow
    · cases hpair : around.registry.getByToken tokenId with
      | none =>
        rcases s.onBookUpdate_split tokenId around.utcNow with hnone | ⟨_, -, hsome, -⟩
        · rw [hnone]
          exact iff_of_true (by simp [entriesFor]) (by simp [EntersBoth, hpair])
        · rw [hpair] at hsome
          cases hsome
      | some pair =>
        have hboth : s.EntersBoth parse around tokenId ↔
            ∃ c, s.Qualifies parse around.registry around.ctx pair.yesTokenId c ∧
              s.Qualifies parse around.registry around.ctx pair.noTokenId c := by
          simp [EntersBoth, hzero, hactive, hpair]
        rw [onBookUpdate_of_active hactive hpair, hboth, StrategyContext.tokensByAskAsc]
        split_ifs
        · exact tryEntries_single_iff hzero _ _
        · refine (tryEntries_single_iff hzero _ _).trans (not_congr (exists_congr fun _ => And.comm))
    · rcases s.onBookUpdate_split tokenId around.utcNow with hnone | ⟨_, hactive', -⟩
      · rw [hnone]
        exact iff_of_true (by simp [entriesFor]) fun hboth => hactive hboth.2.1
      · exact absurd hactive' hactive
  · have htried := onBookUpdate_tried parse around.registry around.ctx s tokenId around.utcNow
    exact iff_of_true (entriesFor_le_one_of_nodup (fun i hi => (htried.buys i hi).2) (htried.distinct hpos))
      fun hboth => hpos.ne' hboth.1

end LateEntryStrategy

def OneEntry (pair : MarketPair) (intents : List OrderIntent) : Prop :=
  (∀ i ∈ intents, i.marketId = pair.conditionId) ∧ ∀ c, entriesFor c intents ≤ 1

/-- A single order without a group. -/
theorem oneEntry_singleton {pair : MarketPair} {i : OrderIntent} (hmarket : i.marketId = pair.conditionId)
    (hgroup : i.groupId = none) : OneEntry pair [i] :=
  ⟨by simpa using hmarket, entriesFor_le_one_of_nodup (by simpa using hgroup) (List.nodup_singleton _)⟩

/-- Two orders of one group. -/
theorem oneEntry_legs {pair : MarketPair} {groupId : String} {i j : OrderIntent}
    (hi : i.marketId = pair.conditionId ∧ i.groupId = some groupId)
    (hj : j.marketId = pair.conditionId ∧ j.groupId = some groupId) : OneEntry pair [i, j] := by
  have hboth : ∀ k ∈ [i, j], k.marketId = pair.conditionId ∧ k.groupId = some groupId := by
    intro k hk
    rcases List.mem_pair.mp hk with rfl | rfl
    · exact hi
    · exact hj
  exact ⟨fun k hk => (hboth k hk).1, entriesFor_le_one_of_group fun k hk => (hboth k hk).2⟩

theorem ExitRules.OneBuy.oneEntry {parse : String → Option Decimal} {ctx : StrategyContext}
    {maxBetUsd minBetUsd : Decimal} {rules : ExitRules} {tokenId : TokenId} {pair : MarketPair}
    {intents : List OrderIntent} (h : rules.OneBuy parse ctx maxBetUsd minBetUsd tokenId pair intents) :
    OneEntry pair intents := by
  obtain ⟨_, _, -, -, rfl⟩ := h
  exact oneEntry_singleton rfl rfl

theorem MathArbStrategy.Legs.oneEntry {s : MathArbStrategy} {groupId : String} {pair : MarketPair}
    {intents : List OrderIntent} (h : s.Legs groupId pair intents) : OneEntry pair intents := by
  obtain ⟨_, _, _, rfl⟩ := h
  exact oneEntry_legs ⟨rfl, rfl⟩ ⟨rfl, rfl⟩

theorem MakerRebateArbStrategy.Legs.oneEntry {groupId : String} {pair : MarketPair} {intents : List OrderIntent}
    (h : Legs groupId pair intents) : OneEntry pair intents := by
  obtain ⟨_, _, _, rfl⟩ := h
  exact oneEntry_legs ⟨rfl, rfl⟩ ⟨rfl, rfl⟩

theorem TemporalArbStrategy.OneBuy.oneEntry {parse : String → Option Decimal} {ctx : StrategyContext}
    {s : TemporalArbStrategy} {pair : MarketPair} {intents : List OrderIntent} (h : s.OneBuy parse ctx pair intents) :
    OneEntry pair intents := by
  obtain ⟨_, _, -, rfl⟩ := h
  exact oneEntry_singleton rfl rfl

def ExitStrategy.lastTrade : ExitStrategy → Store ConditionId Instant
  | contrarian s => s.lastTrade
  | tboTrend s => s.lastTrade
  | tbtDivergence s => s.lastTrade
  | lateEntry s => s.lastTrade

def ExitStrategy.cooldownMs : ExitStrategy → ℕ
  | contrarian s => s.config.cooldownMs
  | tboTrend s => s.config.cooldownMs
  | tbtDivergence s => s.config.cooldownMs
  | lateEntry s => s.config.cooldownMs

namespace AllStrategies.Strategy
variable {parse : String → Option Decimal} {assetSymbol : MarketPair → Option String}

def lastTrade : Strategy → Store ConditionId Instant
  | mathArb s => s.lastTrade
  | makerRebateArb s => s.lastTrade
  | temporalArb s => s.lastTrade
  | exit s => s.lastTrade

def cooldownMs : Strategy → ℕ
  | mathArb s => s.config.cooldownMs
  | makerRebateArb s => s.config.cooldownMs
  | temporalArb s => s.config.cooldownMs
  | exit s => s.cooldownMs

/-- The orders keep to the cooldowns, which stay as long as they were. -/
def KeepsCooldown (s : Strategy) (now : Instant) (result : List OrderIntent × Strategy) : Prop :=
  Paced (Duration.fromMillis s.cooldownMs) now (fun c => s.lastTrade.lookup c) (fun c => result.2.lastTrade.lookup c)
    (Enters result.1) ∧ result.2.cooldownMs = s.cooldownMs

/-- Sales touch no cooldown. -/
theorem keepsCooldown_of_sells {s : Strategy} {now : Instant} {result : List OrderIntent × Strategy}
    (hsells : ∀ i ∈ result.1, i.side = .Sell) (hlast : result.2.lastTrade = s.lastTrade)
    (hcooldown : result.2.cooldownMs = s.cooldownMs) : s.KeepsCooldown now result := by
  refine ⟨?_, hcooldown⟩
  rw [hlast]
  refine Paced.refl _ _ _ fun c hc => ?_
  obtain ⟨i, hi, hside, -⟩ := hc
  rw [hsells i hi] at hside
  cases hside

theorem onFill_keeps (s : Strategy) (f : Fill) (now : Instant) :
    (s.onFill f now).lastTrade = s.lastTrade ∧ (s.onFill f now).cooldownMs = s.cooldownMs := by
  cases s with
  | mathArb s =>
    simp only [onFill, MathArbStrategy.onFill, lastTrade, cooldownMs]
    split <;> exact ⟨rfl, rfl⟩
  | makerRebateArb s =>
    simp only [onFill, MakerRebateArbStrategy.onFill, lastTrade, cooldownMs]
    split <;> exact ⟨rfl, rfl⟩
  | temporalArb s =>
    simp only [onFill, TemporalArbStrategy.onFill, lastTrade, cooldownMs]
    split <;> exact ⟨rfl, rfl⟩
  | exit s =>
    cases s with
    | contrarian s | tboTrend s | tbtDivergence s => exact ⟨rfl, rfl⟩
    | lateEntry s =>
      simp only [onFill, ExitStrategy.onFill, LateEntryStrategy.onFill, lastTrade, cooldownMs, ExitStrategy.lastTrade,
        ExitStrategy.cooldownMs]
      split
      · split <;> exact ⟨rfl, rfl⟩
      · exact ⟨rfl, rfl⟩

variable (parse) in
/-- Expiring pairs touches nothing but the exposure. -/
theorem expireAll_keeps (s : MakerRebateArbStrategy) (ctx : StrategyContext) (expired : List PendingArb) :
    (MakerRebateArbStrategy.expireAll parse ctx s expired).2.lastTrade = s.lastTrade ∧
      (MakerRebateArbStrategy.expireAll parse ctx s expired).2.config = s.config := by
  induction expired generalizing s with
  | nil => exact ⟨rfl, rfl⟩
  | cons p rest ih =>
    have hone : (s.expireArb parse ctx p).2.lastTrade = s.lastTrade ∧
        (s.expireArb parse ctx p).2.config = s.config := by
      rcases s.expireArb_cases parse ctx p with hsame | hreleased
      · rw [hsame]
        exact ⟨rfl, rfl⟩
      · rw [hreleased]
        exact ⟨rfl, rfl⟩
    have hrest := ih (s.expireArb parse ctx p).2
    exact ⟨hrest.1.trans hone.1, hrest.2.trans hone.2⟩

variable (parse) in
theorem onTick_keeps (s : Strategy) (around : Surroundings) :
    (s.onTick parse around).2.lastTrade = s.lastTrade ∧ (s.onTick parse around).2.cooldownMs = s.cooldownMs := by
  cases s with
  | mathArb s | temporalArb s => exact ⟨rfl, rfl⟩
  | makerRebateArb s =>
    simp only [onTick, MakerRebateArbStrategy.onTick, Prod.map, lastTrade, cooldownMs]
    split
    · exact ⟨rfl, rfl⟩
    · obtain ⟨hlast, hconfig⟩ := expireAll_keeps parse s around.ctx (s.expiredArbs around.ctx.now)
      exact ⟨hlast, congrArg MakerRebateConfig.cooldownMs hconfig⟩
  | exit s =>
    cases s with
    | contrarian s =>
      simp only [onTick, ExitStrategy.onTick, ContrarianStrategy.onTick, Prod.map]
      split <;> exact ⟨rfl, rfl⟩
    | tboTrend s =>
      simp only [onTick, ExitStrategy.onTick, TboTrendStrategy.onTick, Prod.map]
      split <;> exact ⟨rfl, rfl⟩
    | tbtDivergence s =>
      simp only [onTick, ExitStrategy.onTick, TbtDivergenceStrategy.onTick, Prod.map]
      split <;> exact ⟨rfl, rfl⟩
    | lateEntry s =>
      simp only [onTick, ExitStrategy.onTick, LateEntryStrategy.onTick, Prod.map]
      split
      · exact ⟨rfl, rfl⟩
      · split <;> exact ⟨rfl, rfl⟩

variable (parse assetSymbol) in
/-- The book updates of all strategies but the late entry. -/
theorem onBookUpdate_enters {s : Strategy} (hlate : ∀ late, s ≠ exit (.lateEntry late)) (around : Surroundings)
    (marketId : ConditionId) (tokenId : TokenId) :
    EntersAtMost s.cooldownMs around.registry tokenId around.ctx.now s.lastTrade
        (s.onBookUpdate parse assetSymbol around marketId tokenId).2.lastTrade OneEntry
        (s.onBookUpdate parse assetSymbol around marketId tokenId).1 ∧
      (s.onBookUpdate parse assetSymbol around marketId tokenId).2.cooldownMs = s.cooldownMs := by
  cases s with
  | mathArb s =>
    obtain ⟨henters, hconfig⟩ := { s with registry := around.registry }.onBookUpdate_enters parse marketId tokenId
      around.ctx around.uuid
    exact ⟨henters.mono fun _ h => h.oneEntry, congrArg MathArbConfig.cooldownMs hconfig⟩
  | makerRebateArb s =>
    obtain ⟨henters, hconfig⟩ := { s with registry := around.registry }.onBookUpdate_enters parse marketId tokenId
      around.ctx around.uuid
    exact ⟨henters.mono fun _ h => h.oneEntry, congrArg MakerRebateConfig.cooldownMs hconfig⟩
  | temporalArb s =>
    obtain ⟨henters, hconfig⟩ := s.onBookUpdate_enters parse marketId tokenId around.ctx assetSymbol around.registry
      around.prices
    exact ⟨henters.mono fun _ h => h.oneEntry, congrArg TemporalArbConfig.cooldownMs hconfig⟩
  | exit s =>
    cases s with
    | contrarian s =>
      obtain ⟨henters, hconfig⟩ := s.onBookUpdate_enters parse around.registry tokenId around.ctx
      exact ⟨henters.mono fun _ h => h.oneEntry, congrArg ContrarianConfig.cooldownMs hconfig⟩
    | tboTrend s =>
      obtain ⟨henters, hconfig⟩ := s.onBookUpdate_enters parse around.registry tokenId around.ctx
      exact ⟨henters.mono fun _ h => h.oneEntry, congrArg TboConfig.cooldownMs hconfig⟩
    | tbtDivergence s =>
      obtain ⟨henters, hconfig⟩ := s.onBookUpdate_enters parse around.registry tokenId around.ctx
      exact ⟨henters.mono fun _ h => h.oneEntry, congrArg TbtConfig.cooldownMs hconfig⟩
    | lateEntry s => exact absurd rfl (hlate s)

variable (parse assetSymbol) in
/-- Whatever a strategy receives, it enters only markets whose cooldown has run out, and starts it again. -/
theorem handle_keepsCooldown (s : Strategy) (e : StrategyEvent) :
    s.KeepsCooldown e.now (s.handle parse assetSymbol e) := by
  cases e with
  | bookUpdate around marketId tokenId =>
    by_cases hlate : ∃ late, s = exit (.lateEntry late)
    · obtain ⟨late, rfl⟩ := hlate
      have htried := late.onBookUpdate_tried parse around.registry around.ctx tokenId around.utcNow
      exact ⟨htried.paced, congrArg LateEntryConfig.cooldownMs htried.config⟩
    · obtain ⟨henters, hcooldown⟩ := onBookUpdate_enters parse assetSymbol
        (not_exists.mp hlate) around marketId tokenId
      exact ⟨henters.paced fun _ h => h.1, hcooldown⟩
  | fill f now =>
    obtain ⟨hlast, hcooldown⟩ := s.onFill_keeps f now
    exact keepsCooldown_of_sells (fun i hi => by cases hi) hlast hcooldown
  | tick around =>
    obtain ⟨hlast, hcooldown⟩ := s.onTick_keeps parse around
    exact keepsCooldown_of_sells (fun i hi => side_of_mem_onTick hi) hlast hcooldown

/-- It is no book update at which the late entry is to enter both tokens of a pair and has no cooldown. -/
def EntersOneSide (parse : String → Option Decimal) (s : Strategy) : StrategyEvent → Prop
  | .bookUpdate around _ tokenId => ∀ late, s = exit (.lateEntry late) → ¬late.EntersBoth parse around tokenId
  | .fill _ _ | .tick _ => True

theorem handle_single_iff (s : Strategy) (e : StrategyEvent) :
    (∀ c, entriesFor c (s.handle parse assetSymbol e).1 ≤ 1) ↔ s.EntersOneSide parse e := by
  cases e with
  | bookUpdate around marketId tokenId =>
    by_cases hlate : ∃ late, s = exit (.lateEntry late)
    · obtain ⟨late, rfl⟩ := hlate
      refine (late.onBookUpdate_single_iff around tokenId).trans ⟨fun h other hother => ?_, fun h => h late rfl⟩
      cases hother
      exact h
    · obtain ⟨henters, -⟩ := onBookUpdate_enters parse assetSymbol
        (not_exists.mp hlate) around marketId tokenId
      refine iff_of_true (fun c => ?_) fun late heq => absurd ⟨late, heq⟩ hlate
      rcases henters with ⟨hnone, -⟩ | ⟨pair, -, -, hone, -⟩
      · change entriesFor c (s.onBookUpdate parse assetSymbol around marketId tokenId).1 ≤ 1
        rw [hnone]
        exact Nat.zero_le 1
      · exact hone.2 c
  | fill f now => exact iff_of_true (fun c => Nat.zero_le 1) trivial
  | tick around =>
    refine iff_of_true (fun c => ?_) trivial
    have hnone : (s.onTick parse around).1.filter (fun i => i.side = .Buy ∧ i.marketId = c) = [] := by
      refine List.filter_eq_nil_iff.mpr fun i hi => ?_
      rw [side_of_mem_onTick hi]
      simp
    change entriesFor c (s.onTick parse around).1 ≤ 1
    rw [entriesFor, hnone]
    exact Nat.zero_le 1

/-- The entries of one market are at least its cooldown apart, and no call emits two of them. -/
structure CooldownHolds (parse : String → Option Decimal) (assetSymbol : MarketPair → Option String) (s : Strategy)
    (events : List StrategyEvent) : Prop where
  spaced : ∀ before first between second after c, events = before ++ first :: (between ++ second :: after) →
    Enters ((s.run parse assetSymbol before).handle parse assetSymbol first).1 c →
    Enters ((s.run parse assetSymbol (before ++ first :: between)).handle parse assetSymbol second).1 c →
    Duration.fromMillis s.cooldownMs ≤ first.now.elapsed second.now
  single : Throughout (step parse assetSymbol)
    (fun s e => ∀ c, entriesFor c (s.handle parse assetSymbol e).1 ≤ 1) s events

/-- The cooldown holds over a run exactly if a late entry without a cooldown never finds both tokens of a pair to be
entered. -/
theorem cooldown_holds_iff (parse : String → Option Decimal) (assetSymbol : MarketPair → Option String) (s : Strategy)
    (events : List StrategyEvent) :
    s.CooldownHolds parse assetSymbol events ↔
      Throughout (step parse assetSymbol) (EntersOneSide parse) s events := by
  have hsingle : Throughout (step parse assetSymbol)
      (fun s e => ∀ c, entriesFor c (s.handle parse assetSymbol e).1 ≤ 1) s events ↔
      Throughout (step parse assetSymbol) (EntersOneSide parse) s events :=
    throughout_congr (fun _ => True) (fun _ _ _ _ => trivial) (fun s e _ => s.handle_single_iff e) trivial
  refine ⟨fun h => hsingle.mp h.single, fun h => ⟨?_, hsingle.mpr h⟩⟩
  rintro before first between second after c - hfirst hsecond
  -- the length of the cooldown is the invariant of the run
  have hkeep : ∀ (t : Strategy) e, t.cooldownMs = s.cooldownMs →
      (step parse assetSymbol t e).cooldownMs = s.cooldownMs :=
    fun t e ht => (t.handle_keepsCooldown parse assetSymbol e).2.trans ht
  have hpaced : ∀ (t : Strategy) (e : StrategyEvent), t.cooldownMs = s.cooldownMs →
      Paced (Duration.fromMillis s.cooldownMs) e.now (fun c => t.lastTrade.lookup c)
        (fun c => (step parse assetSymbol t e).lastTrade.lookup c) (Enters (t.handle parse assetSymbol e).1) :=
    fun t e ht => ht ▸ (t.handle_keepsCooldown parse assetSymbol e).1
  have hstart : (s.run parse assetSymbol before).cooldownMs = s.cooldownMs :=
    List.foldlRecOn (motive := fun t => t.cooldownMs = s.cooldownMs) before _ rfl fun t ht e _ => hkeep t e ht
  rw [run, List.foldl_append, List.foldl_cons] at hsecond
  exact claims_spaced hkeep hpaced hstart hfirst hsecond

private def winnerText (text : String) : Option Decimal :=
  if text = "0.92" then some (92 / 100)
  else if text = "0.90" then some (90 / 100)
  else if text = "1000" then some 1000
  else none

private def bothWinning : Surroundings where
  registry := MarketPairRegistry.new.register (MarketPair.new "m1" "yes" "no")
  prices := ∅
  ctx := {
    books :=
      ((∅ : OrderBookState).insert "yes" ⟨"yes", "m1", [⟨"0.90", "1000"⟩], [⟨"0.92", "1000"⟩], none, none⟩).insert
        "no" ⟨"no", "m1", [⟨"0.90", "1000"⟩], [⟨"0.92", "1000"⟩], none, none⟩
    ledger := Ledger.new 1000
    now := 0 }
  utcNow := 800
  uuid := "1"

private def uncooledEntry : Strategy :=
  .exit (.lateEntry (LateEntryStrategy.withConfig { LateEntryConfig.default with cooldownMs := 0 }))

/-- Without a cooldown one book update buys both tokens, each asked at 0.92. -/
theorem both_sides_bought_at_once :
    ¬uncooledEntry.CooldownHolds winnerText (fun _ => none) [.bookUpdate bothWinning "m1" "yes"] := by
  intro h
  have hone := h.single.1 "m1"
  have htwo : entriesFor "m1"
      (uncooledEntry.handle winnerText (fun _ => none) (.bookUpdate bothWinning "m1" "yes")).1 = 2 := by decide +kernel
  rw [htwo] at hone
  exact absurd hone (by decide)

end AllStrategies.Strategy

end PolyBot
