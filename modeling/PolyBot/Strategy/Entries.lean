import PolyBot.General.Cooldown
import PolyBot.Strategy.AllStrategies

/-! What the book updates of each strategy order, and when: an entry buys in the market that was looked up, once the
cooldown of that market has run out, and starts it again. -/

namespace PolyBot
open General.KeyedStore General.Cooldown

def Enters (intents : List OrderIntent) (conditionId : ConditionId) : Prop :=
  ∃ i ∈ intents, i.side = .Buy ∧ i.marketId = conditionId

/-- The entries of a market: the legs of a group are one entry. -/
def entriesFor (conditionId : ConditionId) (intents : List OrderIntent) : ℕ :=
  let own := intents.filter fun i => i.side = .Buy ∧ i.marketId = conditionId
  (own.filter fun i => i.groupId = none).length + (own.filterMap (·.groupId)).dedup.length

/-- Orders without a group, in markets of their own, are one entry for each market at most. -/
theorem entriesFor_le_one_of_nodup {intents : List OrderIntent} (hnone : ∀ i ∈ intents, i.groupId = none)
    (hnodup : (intents.map (·.marketId)).Nodup) (conditionId : ConditionId) : entriesFor conditionId intents ≤ 1 := by
  have hgroups : (intents.filter fun i => i.side = .Buy ∧ i.marketId = conditionId).filterMap (·.groupId) = [] :=
    List.filterMap_eq_nil_iff.mpr fun i hi => hnone i (List.mem_of_mem_filter hi)
  have hown : (intents.filter fun i => i.side = .Buy ∧ i.marketId = conditionId).length ≤
      (intents.map (·.marketId)).count conditionId := by
    rw [List.count, List.countP_map, List.countP_eq_length_filter]
    refine (List.monotone_filter_right intents fun i hi => ?_).length_le
    simp only [Bool.decide_and, Bool.and_eq_true, decide_eq_true_eq] at hi
    simp [hi.2]
  unfold entriesFor
  dsimp only
  rw [hgroups, List.dedup_nil, List.length_nil, Nat.add_zero]
  exact (List.length_filter_le _ _).trans (hown.trans (List.nodup_iff_count_le_one.mp hnodup conditionId))

/-- The orders of one group are one entry at most. -/
theorem entriesFor_le_one_of_group {intents : List OrderIntent} {groupId : String}
    (hgroup : ∀ i ∈ intents, i.groupId = some groupId) (conditionId : ConditionId) :
    entriesFor conditionId intents ≤ 1 := by
  have hungrouped : (intents.filter fun i => i.side = .Buy ∧ i.marketId = conditionId).filter
      (fun i => i.groupId = none) = [] := by
    refine List.filter_eq_nil_iff.mpr fun i hi => ?_
    simp [hgroup i (List.mem_of_mem_filter hi)]
  have hsame : ∀ g ∈ ((intents.filter fun i => i.side = .Buy ∧ i.marketId = conditionId).filterMap
      (·.groupId)).dedup, g = groupId := by
    intro g hg
    obtain ⟨i, hi, hig⟩ := List.mem_filterMap.mp (List.mem_dedup.mp hg)
    exact Option.some.inj (hig.symm.trans (hgroup i (List.mem_of_mem_filter hi)))
  have hlength := List.nodup_iff_count_le_one.mp (List.nodup_dedup
    ((intents.filter fun i => i.side = .Buy ∧ i.marketId = conditionId).filterMap (·.groupId))) groupId
  rw [List.count_eq_length.mpr fun g hg => (hsame g hg).symm] at hlength
  unfold entriesFor
  dsimp only
  rw [hungrouped, List.length_nil, Nat.zero_add]
  exact hlength

theorem entriesFor_two {i j : OrderIntent} (hi : i.side = .Buy ∧ i.groupId = none)
    (hj : j.side = .Buy ∧ j.groupId = none) : (∀ c, entriesFor c [i, j] ≤ 1) ↔ i.marketId ≠ j.marketId := by
  constructor
  · intro h hsame
    have htwo : entriesFor j.marketId [i, j] = 2 := by
      simp [entriesFor, hi.1, hi.2, hj.1, hj.2, hsame]
    exact absurd (h j.marketId) (by rw [htwo]; decide)
  · intro hne
    refine entriesFor_le_one_of_nodup ?_ ?_
    · rintro k hk
      rcases List.mem_pair.mp hk with rfl | rfl
      · exact hi.2
      · exact hj.2
    · simpa using hne

theorem elapsed_of_not_onCooldown {lastTrade : Store ConditionId Instant} {cooldownMs : ℕ} {conditionId : ConditionId}
    {now : Instant} (h : isOnCooldown lastTrade cooldownMs conditionId now = false) :
    Elapsed (Duration.fromMillis cooldownMs) (lastTrade.lookup conditionId) now := by
  intro last hlast
  rw [isOnCooldown, hlast] at h
  have hle : cooldownMs ≤ (now - last) / Duration.fromMillis 1 := not_lt.mp (of_decide_eq_false h)
  exact (Nat.le_div_iff_mul_le (by decide)).mp hle

/-- Entering one market whose cooldown has run out, and noting the time. -/
theorem paced_insert {lastTrade : Store ConditionId Instant} {cooldownMs : ℕ} {conditionId : ConditionId}
    {now : Instant} (h : isOnCooldown lastTrade cooldownMs conditionId now = false) :
    Paced (Duration.fromMillis cooldownMs) now (fun c => lastTrade.lookup c)
      (fun c => (lastTrade.insert conditionId now).lookup c) (· = conditionId) := by
  have hgap := elapsed_of_not_onCooldown h
  constructor
  · intro c
    rcases eq_or_ne c conditionId with rfl | hne
    · exact .inr ⟨AList.lookup_insert _, hgap⟩
    · exact .inl (AList.lookup_insert_ne hne)
  · rintro c rfl
    exact ⟨AList.lookup_insert _, hgap⟩

theorem not_enters_nil (conditionId : ConditionId) : ¬Enters [] conditionId := by
  rintro ⟨i, hi, -⟩
  cases hi

def EntersAtMost (cooldownMs : ℕ) (registry : MarketPairRegistry) (tokenId : TokenId) (now : Instant)
    (before after : Store ConditionId Instant) (make : MarketPair → List OrderIntent → Prop)
    (intents : List OrderIntent) : Prop :=
  intents = [] ∧ after = before ∨
    ∃ pair, registry.getByToken tokenId = some pair ∧
      isOnCooldown before cooldownMs pair.conditionId now = false ∧ make pair intents ∧
      after = before.insert pair.conditionId now

theorem EntersAtMost.paced {cooldownMs : ℕ} {registry : MarketPairRegistry} {tokenId : TokenId} {now : Instant}
    {before after : Store ConditionId Instant} {make : MarketPair → List OrderIntent → Prop}
    {intents : List OrderIntent} (h : EntersAtMost cooldownMs registry tokenId now before after make intents)
    (hmake : ∀ pair, make pair intents → ∀ i ∈ intents, i.marketId = pair.conditionId) :
    Paced (Duration.fromMillis cooldownMs) now (fun c => before.lookup c) (fun c => after.lookup c)
      (Enters intents) := by
  rcases h with ⟨rfl, rfl⟩ | ⟨pair, -, hready, hmade, rfl⟩
  · exact Paced.refl _ _ _ not_enters_nil
  · refine (paced_insert hready).mono fun c hc => ?_
    obtain ⟨i, hi, -, rfl⟩ := hc
    exact hmake pair hmade i hi

theorem EntersAtMost.mono {cooldownMs : ℕ} {registry : MarketPairRegistry} {tokenId : TokenId} {now : Instant}
    {before after : Store ConditionId Instant} {make make' : MarketPair → List OrderIntent → Prop}
    {intents : List OrderIntent} (h : EntersAtMost cooldownMs registry tokenId now before after make intents)
    (himp : ∀ pair, make pair intents → make' pair intents) :
    EntersAtMost cooldownMs registry tokenId now before after make' intents :=
  h.imp_right fun ⟨pair, hpair, hready, hmade, hafter⟩ => ⟨pair, hpair, hready, himp pair hmade, hafter⟩

/-- Orders are made in the pair of the token that was updated. -/
theorem EntersAtMost.exists_pair {cooldownMs : ℕ} {registry : MarketPairRegistry} {tokenId : TokenId} {now : Instant}
    {before after : Store ConditionId Instant} {make : MarketPair → List OrderIntent → Prop}
    {intents : List OrderIntent} (h : EntersAtMost cooldownMs registry tokenId now before after make intents)
    {i : OrderIntent} (hi : i ∈ intents) : ∃ pair, registry.getByToken tokenId = some pair ∧ make pair intents := by
  rcases h with ⟨rfl, -⟩ | ⟨pair, hpair, -, hmade, -⟩
  · cases hi
  · exact ⟨pair, hpair, hmade⟩

section Timed
variable {parse : String → Option Decimal} {registry : MarketPairRegistry} {tokenId : TokenId} {ctx : StrategyContext}

def ExitRules.OneBuy (parse : String → Option Decimal) (ctx : StrategyContext) (maxBetUsd minBetUsd : Decimal)
    (rules : ExitRules) (tokenId : TokenId) (pair : MarketPair) (intents : List OrderIntent) : Prop :=
  ∃ ask shares, ctx.bestAsk parse tokenId = some ask ∧ entrySize maxBetUsd minBetUsd ask = some shares ∧
    intents = [rules.buy pair tokenId ask shares]

theorem ContrarianStrategy.checkEntry_inv {s : ContrarianStrategy} {i : OrderIntent}
    (h : s.checkEntry parse registry tokenId ctx = some i) :
    ∃ pair, registry.getByToken tokenId = some pair ∧
      isOnCooldown s.lastTrade s.config.cooldownMs pair.conditionId ctx.now = false ∧
      s.exitRules.OneBuy parse ctx s.config.maxBetUsd s.config.minBetUsd tokenId pair [i] := by
  simp only [checkEntry, Option.bind_eq_bind, Option.bind_eq_some_iff, Option.guard_eq_some', Option.pure_def,
    Option.some.injEq] at h
  obtain ⟨pair, hpair, _, hready, _, _, _, _, _, _, _, _, _, _, ask, hask, _, _, _, _, _, _, _, _, shares, hshares, rfl⟩ := h
  exact ⟨pair, hpair, hready, ask, shares, hask, hshares, rfl⟩

theorem TboTrendStrategy.checkEntry_inv {s : TboTrendStrategy} {i : OrderIntent}
    (h : s.checkEntry parse registry tokenId ctx = some i) :
    ∃ pair, registry.getByToken tokenId = some pair ∧
      isOnCooldown s.lastTrade s.config.cooldownMs pair.conditionId ctx.now = false ∧
      s.exitRules.OneBuy parse ctx s.config.maxBetUsd s.config.minBetUsd tokenId pair [i] := by
  simp only [checkEntry, Option.bind_eq_bind, Option.bind_eq_some_iff, Option.guard_eq_some', Option.pure_def,
    Option.some.injEq] at h
  obtain ⟨pair, hpair, _, hready, _, _, _, _, _, _, _, _, _, _, ask, hask, _, _, shares, hshares, rfl⟩ := h
  exact ⟨pair, hpair, hready, ask, shares, hask, hshares, rfl⟩

theorem TbtDivergenceStrategy.checkEntry_inv {s : TbtDivergenceStrategy} {i : OrderIntent}
    (h : s.checkEntry parse registry tokenId ctx = some i) :
    ∃ pair, registry.getByToken tokenId = some pair ∧
      isOnCooldown s.lastTrade s.config.cooldownMs pair.conditionId ctx.now = false ∧
      s.exitRules.OneBuy parse ctx s.config.maxBetUsd s.config.minBetUsd tokenId pair [i] := by
  simp only [checkEntry, Option.bind_eq_bind, Option.bind_eq_some_iff, Option.guard_eq_some', Option.pure_def,
    Option.some.injEq] at h
  obtain ⟨pair, hpair, _, hready, _, _, _, _, _, _, _, _, _, _, ask, hask, _, _, shares, hshares, rfl⟩ := h
  exact ⟨pair, hpair, hready, ask, shares, hask, hshares, rfl⟩

/-- An entry that a check lets through, noted as the last trade of its market. -/
theorem entersAtMost_of_buy {rules : ExitRules} {maxBetUsd minBetUsd : Decimal} {cooldownMs : ℕ}
    {lastTrade : Store ConditionId Instant} {i : OrderIntent}
    (h : ∃ pair, registry.getByToken tokenId = some pair ∧
      isOnCooldown lastTrade cooldownMs pair.conditionId ctx.now = false ∧
      rules.OneBuy parse ctx maxBetUsd minBetUsd tokenId pair [i]) :
    EntersAtMost cooldownMs registry tokenId ctx.now lastTrade (lastTrade.insert i.marketId ctx.now)
      (rules.OneBuy parse ctx maxBetUsd minBetUsd tokenId) [i] := by
  obtain ⟨pair, hpair, hready, ask, shares, hask, hshares, hbuy⟩ := h
  obtain rfl := List.singleton_inj.mp hbuy
  exact .inr ⟨pair, hpair, hready, ⟨ask, shares, hask, hshares, rfl⟩, rfl⟩

variable (parse registry tokenId ctx) in
theorem ContrarianStrategy.onBookUpdate_enters (s : ContrarianStrategy) :
    EntersAtMost s.config.cooldownMs registry tokenId ctx.now s.lastTrade
        (s.onBookUpdate parse registry tokenId ctx).2.lastTrade
        (s.exitRules.OneBuy parse ctx s.config.maxBetUsd s.config.minBetUsd tokenId)
        (s.onBookUpdate parse registry tokenId ctx).1 ∧
      (s.onBookUpdate parse registry tokenId ctx).2.config = s.config := by
  unfold onBookUpdate
  split
  · exact ⟨.inl ⟨rfl, rfl⟩, rfl⟩
  · split
    · exact ⟨.inl ⟨rfl, rfl⟩, rfl⟩
    · dsimp only
      split
      · exact ⟨.inl ⟨rfl, rfl⟩, rfl⟩
      · rename_i hcheck
        have hentry := checkEntry_inv hcheck
        exact ⟨entersAtMost_of_buy hentry, rfl⟩

variable (parse registry tokenId ctx) in
theorem TboTrendStrategy.confirmBreakout_enters (s : TboTrendStrategy) :
    EntersAtMost s.config.cooldownMs registry tokenId ctx.now s.lastTrade
        (s.confirmBreakout parse registry tokenId ctx).2.lastTrade
        (s.exitRules.OneBuy parse ctx s.config.maxBetUsd s.config.minBetUsd tokenId)
        (s.confirmBreakout parse registry tokenId ctx).1 ∧
      (s.confirmBreakout parse registry tokenId ctx).2.config = s.config := by
  rcases s.confirmBreakout_cases parse registry tokenId ctx with ⟨heq, -⟩ | ⟨_, -, hcheck, heq⟩
  · rw [heq]
    exact ⟨.inl ⟨rfl, rfl⟩, rfl⟩
  · rw [heq]
    exact ⟨entersAtMost_of_buy (checkEntry_inv hcheck), rfl⟩

theorem TboTrendStrategy.config_updateComplement (s : TboTrendStrategy) :
    (s.updateComplement parse registry tokenId ctx).config = s.config := by
  rcases s.updateComplement_cases parse registry tokenId ctx with heq | ⟨_, _, -, heq⟩
  · rw [heq]
  · rw [heq]
    rfl

theorem TboTrendStrategy.lastTrade_updateComplement (s : TboTrendStrategy) :
    (s.updateComplement parse registry tokenId ctx).lastTrade = s.lastTrade := by
  rcases s.updateComplement_cases parse registry tokenId ctx with heq | ⟨_, _, -, heq⟩
  · rw [heq]
  · rw [heq]
    rfl

variable (parse registry tokenId ctx) in
theorem TboTrendStrategy.onBookUpdate_enters (s : TboTrendStrategy) :
    EntersAtMost s.config.cooldownMs registry tokenId ctx.now s.lastTrade
        (s.onBookUpdate parse registry tokenId ctx).2.lastTrade
        (s.exitRules.OneBuy parse ctx s.config.maxBetUsd s.config.minBetUsd tokenId)
        (s.onBookUpdate parse registry tokenId ctx).1 ∧
      (s.onBookUpdate parse registry tokenId ctx).2.config = s.config := by
  unfold onBookUpdate
  split
  · exact ⟨.inl ⟨rfl, rfl⟩, rfl⟩
  · split
    · exact ⟨.inl ⟨rfl, rfl⟩, rfl⟩
    · rename_i mid _
      have hconfig : ((s.updatePriceHistory tokenId mid).updateComplement parse registry tokenId ctx).config =
          s.config := config_updateComplement _
      have hlast : ((s.updatePriceHistory tokenId mid).updateComplement parse registry tokenId ctx).lastTrade =
          s.lastTrade := lastTrade_updateComplement _
      have hconfirm := ((s.updatePriceHistory tokenId mid).updateComplement parse registry tokenId
        ctx).confirmBreakout_enters parse registry tokenId ctx
      rw [exitRules, hconfig, hlast] at hconfirm
      dsimp only
      split
      · exact ⟨.inl ⟨rfl, hlast⟩, hconfig⟩
      · split
        · exact hconfirm
        · exact ⟨.inl ⟨rfl, hlast⟩, hconfig⟩

theorem TbtDivergenceStrategy.followSignal_enters (s : TbtDivergenceStrategy) (mid : Decimal)
    (signal : DivergenceSignal) :
    EntersAtMost s.config.cooldownMs registry tokenId ctx.now s.lastTrade
        (s.followSignal parse registry tokenId ctx mid signal).2.lastTrade
        (s.exitRules.OneBuy parse ctx s.config.maxBetUsd s.config.minBetUsd tokenId)
        (s.followSignal parse registry tokenId ctx mid signal).1 ∧
      (s.followSignal parse registry tokenId ctx mid signal).2.config = s.config := by
  rcases s.followSignal_cases parse registry tokenId ctx mid signal with heq | heq | ⟨_, hcheck, -, -, heq⟩
  · rw [heq]
    exact ⟨.inl ⟨rfl, rfl⟩, rfl⟩
  · rw [heq]
    exact ⟨.inl ⟨rfl, rfl⟩, rfl⟩
  · rw [heq]
    exact ⟨entersAtMost_of_buy (checkEntry_inv hcheck), rfl⟩

variable (parse registry tokenId ctx) in
theorem TbtDivergenceStrategy.onBookUpdate_enters (s : TbtDivergenceStrategy) :
    EntersAtMost s.config.cooldownMs registry tokenId ctx.now s.lastTrade
        (s.onBookUpdate parse registry tokenId ctx).2.lastTrade
        (s.exitRules.OneBuy parse ctx s.config.maxBetUsd s.config.minBetUsd tokenId)
        (s.onBookUpdate parse registry tokenId ctx).1 ∧
      (s.onBookUpdate parse registry tokenId ctx).2.config = s.config := by
  unfold onBookUpdate
  split
  · exact ⟨.inl ⟨rfl, rfl⟩, rfl⟩
  · split
    · exact ⟨.inl ⟨rfl, rfl⟩, rfl⟩
    · rename_i mid _
      dsimp only
      split
      · exact ⟨.inl ⟨rfl, rfl⟩, rfl⟩
      · split
        · exact (s.updatePriceHistory tokenId mid).followSignal_enters mid _
        · split <;> exact ⟨.inl ⟨rfl, rfl⟩, rfl⟩

end Timed

section Arbitrage
variable {parse : String → Option Decimal} {marketId : ConditionId} {tokenId : TokenId} {ctx : StrategyContext}

def MathArbStrategy.Legs (s : MathArbStrategy) (groupId : String) (pair : MarketPair) (intents : List OrderIntent) :
    Prop :=
  ∃ yesAsk noAsk size,
    intents = [s.leg pair groupId pair.yesTokenId yesAsk size, s.leg pair groupId pair.noTokenId noAsk size]

variable (parse marketId tokenId ctx) in
theorem MathArbStrategy.onBookUpdate_enters (s : MathArbStrategy) (uuid : String) :
    EntersAtMost s.config.cooldownMs s.registry tokenId ctx.now s.lastTrade
        (s.onBookUpdate parse marketId tokenId ctx uuid).2.lastTrade (s.Legs ("arb-" ++ uuid))
        (s.onBookUpdate parse marketId tokenId ctx uuid).1 ∧
      (s.onBookUpdate parse marketId tokenId ctx uuid).2.config = s.config := by
  rcases s.onBookUpdate_cases parse marketId tokenId ctx uuid with
    hnone | ⟨pair, intents, s', hpair, hready, hcheck, hnext⟩
  · rw [hnone]
    exact ⟨.inl ⟨rfl, rfl⟩, rfl⟩
  · obtain ⟨_, _, _, _, _, -, hlegs, rfl⟩ := checkArbOpportunity_inv parse hcheck
    rw [hnext]
    exact ⟨.inr ⟨pair, hpair, hready, ⟨_, _, _, hlegs⟩, rfl⟩, rfl⟩

def MakerRebateArbStrategy.Legs (groupId : String) (pair : MarketPair) (intents : List OrderIntent) : Prop :=
  ∃ yesPost noPost size,
    intents = [leg pair groupId pair.yesTokenId yesPost size, leg pair groupId pair.noTokenId noPost size]

variable (parse marketId tokenId ctx) in
theorem MakerRebateArbStrategy.onBookUpdate_enters (s : MakerRebateArbStrategy) (uuid : String) :
    EntersAtMost s.config.cooldownMs s.registry tokenId ctx.now s.lastTrade
        (s.onBookUpdate parse marketId tokenId ctx uuid).2.lastTrade (Legs ("maker-arb-" ++ uuid))
        (s.onBookUpdate parse marketId tokenId ctx uuid).1 ∧
      (s.onBookUpdate parse marketId tokenId ctx uuid).2.config = s.config := by
  rcases s.onBookUpdate_cases parse marketId tokenId ctx uuid with
    hnone | ⟨pair, intents, s', hpair, hready, hcheck, hnext⟩
  · rw [hnone]
    exact ⟨.inl ⟨rfl, rfl⟩, rfl⟩
  · obtain ⟨_, _, _, _, _, -, hlegs, rfl⟩ := checkArbOpportunity_inv parse hcheck
    rw [hnext]
    exact ⟨.inr ⟨pair, hpair, hready, ⟨_, _, _, hlegs⟩, rfl⟩, rfl⟩

def TemporalArbStrategy.OneBuy (parse : String → Option Decimal) (ctx : StrategyContext) (s : TemporalArbStrategy)
    (pair : MarketPair) (intents : List OrderIntent) : Prop :=
  ∃ tokenId ask, ctx.bestAsk parse tokenId = some ask ∧ intents = [buy pair tokenId ask (s.tradeSize ask)]

theorem TemporalArbStrategy.staleToken_inv {s : TemporalArbStrategy} {pair : MarketPair} {changeBps : ℤ}
    {yesAsk noAsk : Decimal} {stale : TokenId × Decimal} (h : s.staleToken pair changeBps yesAsk noAsk = some stale) :
    stale = (pair.yesTokenId, yesAsk) ∨ stale = (pair.noTokenId, noAsk) := by
  unfold staleToken at h
  dsimp only at h
  split_ifs at h
  · exact .inl (Option.some.inj h).symm
  · exact .inr (Option.some.inj h).symm

theorem TemporalArbStrategy.checkOpportunity_inv {assetSymbol : MarketPair → Option String} {s : TemporalArbStrategy}
    {prices : ExternalPriceStore} {pair : MarketPair} {emitted : OrderIntent × TemporalArbStrategy}
    (h : s.checkOpportunity parse assetSymbol prices pair ctx = some emitted) :
    isOnCooldown s.lastTrade s.config.cooldownMs pair.conditionId ctx.now = false ∧
      s.OneBuy parse ctx pair [emitted.1] ∧
      emitted.2.lastTrade = s.lastTrade.insert pair.conditionId ctx.now ∧ emitted.2.config = s.config := by
  simp only [checkOpportunity, Option.bind_eq_bind, Option.bind_eq_some_iff, Option.guard_eq_some', Option.pure_def,
    Option.some.injEq] at h
  obtain ⟨_, _, _, _, _, _, _, _, yesAsk, hyes, noAsk, hno, _, hready, ⟨tokenId, ask⟩, hstale, _, _, rfl⟩ := h
  refine ⟨hready, ⟨tokenId, ask, ?_, rfl⟩, rfl, rfl⟩
  rcases staleToken_inv hstale with heq | heq
  · obtain ⟨rfl, rfl⟩ := Prod.mk.injEq _ _ _ _ ▸ heq
    exact hyes
  · obtain ⟨rfl, rfl⟩ := Prod.mk.injEq _ _ _ _ ▸ heq
    exact hno

variable (parse marketId tokenId ctx) in
theorem TemporalArbStrategy.onBookUpdate_enters (assetSymbol : MarketPair → Option String) (s : TemporalArbStrategy)
    (registry : MarketPairRegistry) (prices : ExternalPriceStore) :
    EntersAtMost s.config.cooldownMs registry tokenId ctx.now s.lastTrade
        (s.onBookUpdate parse assetSymbol registry prices marketId tokenId ctx).2.lastTrade (s.OneBuy parse ctx)
        (s.onBookUpdate parse assetSymbol registry prices marketId tokenId ctx).1 ∧
      (s.onBookUpdate parse assetSymbol registry prices marketId tokenId ctx).2.config = s.config := by
  unfold onBookUpdate
  split
  · exact ⟨.inl ⟨rfl, rfl⟩, rfl⟩
  · split
    · exact ⟨.inl ⟨rfl, rfl⟩, rfl⟩
    · rename_i pair hpair
      split_ifs
      · exact ⟨.inl ⟨rfl, rfl⟩, rfl⟩
      · exact ⟨.inl ⟨rfl, rfl⟩, rfl⟩
      · split
        · exact ⟨.inl ⟨rfl, rfl⟩, rfl⟩
        · rename_i hcheck
          obtain ⟨hready, hbuy, hlast, hconfig⟩ := checkOpportunity_inv hcheck
          exact ⟨.inr ⟨pair, hpair, hready, hbuy, hlast⟩, hconfig⟩

end Arbitrage

namespace LateEntryStrategy
variable {parse : String → Option Decimal} {registry : MarketPairRegistry} {ctx : StrategyContext}

theorem entryOf_inv {s : LateEntryStrategy} {pair : MarketPair} {tokenId : TokenId} {i : OrderIntent}
    (h : s.entryOf parse pair tokenId ctx = some i) :
    ∃ ask, ctx.bestAsk parse tokenId = some ask ∧ (s.config.minEntryPrice ≤ ask ∧ ask < 99 / 100) ∧
      i = buy pair tokenId ask (s.shares ask) := by
  simp only [entryOf, Option.bind_eq_bind, Option.bind_eq_some_iff, Option.guard_eq_some', Option.pure_def,
    Option.some.injEq] at h
  obtain ⟨_, _, _, _, _, _, _, _, ask, hask, _, hleast, _, hmost, _, _, _, _, _, _, rfl⟩ := h
  exact ⟨ask, hask, ⟨hleast, hmost⟩, rfl⟩

variable (parse registry ctx) in
/-- What a call for one token comes to: the market stays on its cooldown, or its cooldown starts again. -/
theorem checkEntry_cases (s : LateEntryStrategy) (tokenId : TokenId) :
    (s.checkEntry parse registry tokenId ctx = (none, s) ∧
      (registry.getByToken tokenId = none ∨ 0 < s.config.cooldownMs)) ∨
    ∃ pair, registry.getByToken tokenId = some pair ∧
      isOnCooldown s.lastTrade s.config.cooldownMs pair.conditionId ctx.now = false ∧
      s.checkEntry parse registry tokenId ctx = (s.entryOf parse pair tokenId ctx,
        { s with lastTrade := s.lastTrade.insert pair.conditionId ctx.now }) := by
  unfold checkEntry
  cases hpair : registry.getByToken tokenId with
  | none => exact .inl ⟨rfl, .inl rfl⟩
  | some pair =>
    dsimp only
    cases hready : isOnCooldown s.lastTrade s.config.cooldownMs pair.conditionId ctx.now with
    | true =>
      refine .inl ⟨rfl, .inr (Nat.pos_of_ne_zero fun hzero => ?_)⟩
      rw [isOnCooldown, hzero] at hready
      split at hready <;> simp at hready
    | false => exact .inr ⟨pair, rfl, hready, rfl⟩

/-- The orders of a call for some tokens: purchases in the pairs of tokens, each of a market whose cooldown had run
out. -/
structure Tried (parse : String → Option Decimal) (registry : MarketPairRegistry) (ctx : StrategyContext)
    (s : LateEntryStrategy) (result : List OrderIntent × LateEntryStrategy) : Prop where
  paced : Paced (Duration.fromMillis s.config.cooldownMs) ctx.now (fun c => s.lastTrade.lookup c)
    (fun c => result.2.lastTrade.lookup c) (Enters result.1)
  config : result.2.config = s.config
  bought : ∀ i ∈ result.1, ∃ pair tokenId ask, registry.getByToken tokenId = some pair ∧
    ctx.bestAsk parse tokenId = some ask ∧ ask < 99 / 100 ∧ i = buy pair tokenId ask (s.shares ask)
  distinct : 0 < s.config.cooldownMs → (result.1.map (·.marketId)).Nodup

theorem Tried.buys {s : LateEntryStrategy} {result : List OrderIntent × LateEntryStrategy}
    (h : Tried parse registry ctx s result) : ∀ i ∈ result.1, i.side = .Buy ∧ i.groupId = none := by
  intro i hi
  obtain ⟨_, _, _, -, -, -, rfl⟩ := h.bought i hi
  exact ⟨rfl, rfl⟩

theorem tried_nil (s : LateEntryStrategy) : Tried parse registry ctx s ([], s) where
  paced := Paced.refl _ _ _ not_enters_nil
  config := rfl
  bought := fun i hi => by cases hi
  distinct := fun _ => List.nodup_nil

/-- The cooldown of a market starts again without an entry. -/
theorem tried_skip {s : LateEntryStrategy} {conditionId : ConditionId}
    (hready : isOnCooldown s.lastTrade s.config.cooldownMs conditionId ctx.now = false)
    {result : List OrderIntent × LateEntryStrategy}
    (hrest : Tried parse registry ctx { s with lastTrade := s.lastTrade.insert conditionId ctx.now } result) :
    Tried parse registry ctx s result :=
  ⟨((paced_insert hready).trans hrest.paced).mono fun _ => .inr, hrest.config, hrest.bought, hrest.distinct⟩

/-- One more market is entered. -/
theorem tried_cons {s : LateEntryStrategy} {pair : MarketPair} {tokenId : TokenId} {i : OrderIntent}
    (hpair : registry.getByToken tokenId = some pair)
    (hready : isOnCooldown s.lastTrade s.config.cooldownMs pair.conditionId ctx.now = false)
    (hentry : s.entryOf parse pair tokenId ctx = some i) {result : List OrderIntent × LateEntryStrategy}
    (hrest : Tried parse registry ctx
      { s with lastTrade := s.lastTrade.insert pair.conditionId ctx.now, tradeCount := s.tradeCount + 1 } result) :
    Tried parse registry ctx s (i :: result.1, result.2) := by
  obtain ⟨ask, hask, hgate, rfl⟩ := entryOf_inv hentry
  have hfirst := paced_insert hready
  refine ⟨?_, hrest.config, fun j hj => ?_, fun hpos => List.nodup_cons.mpr ⟨fun hagain => ?_, hrest.distinct hpos⟩⟩
  · refine (hfirst.trans hrest.paced).mono fun c hc => ?_
    obtain ⟨j, hj, hside, rfl⟩ := hc
    rcases List.mem_cons.mp hj with rfl | hj
    · exact .inl rfl
    · exact .inr ⟨j, hj, hside, rfl⟩
  · rcases List.mem_cons.mp hj with rfl | hj
    · exact ⟨pair, tokenId, ask, hpair, hask, hgate.2, rfl⟩
    · exact hrest.bought j hj
  · obtain ⟨j, hj, hsame⟩ := List.mem_map.mp hagain
    have hgap : 0 < Duration.fromMillis s.config.cooldownMs := Nat.mul_pos hpos (by decide)
    exact hfirst.not_claimed_again hgap hrest.paced rfl ⟨j, hj, (hrest.buys j hj).1, hsame⟩

theorem tryEntries_tried (s : LateEntryStrategy) (tokenIds : List TokenId) :
    Tried parse registry ctx s (s.tryEntries parse registry ctx tokenIds) := by
  induction tokenIds generalizing s with
  | nil => exact tried_nil s
  | cons tokenId tokenIds ih =>
    unfold tryEntries
    split
    · exact ih s
    · split
      · rcases checkEntry_cases parse registry ctx s tokenId with ⟨hkeep, -⟩ | ⟨pair, hpair, hready, hcheck⟩
        · rw [hkeep]
          exact ih s
        · rw [hcheck]
          cases hentry : s.entryOf parse pair tokenId ctx with
          | none => exact tried_skip hready (ih _)
          | some i => exact tried_cons hpair hready hentry (ih _)
      · exact ih s

def IsActive (s : LateEntryStrategy) (utcNow : ℕ) : Prop :=
  s.enabled = true ∧ s.secsToResolution utcNow ≤ s.entryWindowSecs ∧ 5 ≤ s.secsToResolution utcNow

theorem onBookUpdate_of_active {s : LateEntryStrategy} {utcNow : ℕ} (hactive : s.IsActive utcNow) {tokenId : TokenId}
    {pair : MarketPair} (hpair : registry.getByToken tokenId = some pair) :
    s.onBookUpdate parse registry tokenId ctx utcNow =
      s.tryEntries parse registry ctx (ctx.tokensByAskAsc parse pair).reverse := by
  obtain ⟨henabled, hwindow, hlast⟩ := hactive
  rw [onBookUpdate, henabled, if_neg Bool.noConfusion, if_neg (not_lt.mpr hwindow), if_neg (not_lt.mpr hlast), hpair]

/-- A book update either does nothing or tries both tokens of a pair. -/
theorem onBookUpdate_split (s : LateEntryStrategy) (tokenId : TokenId) (utcNow : ℕ) :
    s.onBookUpdate parse registry tokenId ctx utcNow = ([], s) ∨
      ∃ pair, s.IsActive utcNow ∧ registry.getByToken tokenId = some pair ∧
        s.onBookUpdate parse registry tokenId ctx utcNow =
          s.tryEntries parse registry ctx (ctx.tokensByAskAsc parse pair).reverse := by
  by_cases hactive : s.IsActive utcNow
  · cases hpair : registry.getByToken tokenId with
    | some pair => exact .inr ⟨pair, hactive, rfl, onBookUpdate_of_active hactive hpair⟩
    | none =>
      refine .inl ?_
      obtain ⟨henabled, hwindow, hlast⟩ := hactive
      rw [onBookUpdate, henabled, if_neg Bool.noConfusion, if_neg (not_lt.mpr hwindow), if_neg (not_lt.mpr hlast),
        hpair]
  · refine .inl ?_
    unfold onBookUpdate
    split_ifs with henabled hwindow hlast
    · rfl
    · rfl
    · rfl
    · exact absurd ⟨Bool.not_eq_false _ ▸ henabled, not_lt.mp hwindow, not_lt.mp hlast⟩ hactive

variable (parse registry ctx) in
theorem onBookUpdate_tried (s : LateEntryStrategy) (tokenId : TokenId) (utcNow : ℕ) :
    Tried parse registry ctx s (s.onBookUpdate parse registry tokenId ctx utcNow) := by
  rcases s.onBookUpdate_split tokenId utcNow with hnone | ⟨pair, -, -, htry⟩
  · rw [hnone]
    exact tried_nil s
  · rw [htry]
    exact tryEntries_tried s _

end LateEntryStrategy

end PolyBot
