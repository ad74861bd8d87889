import PolyBot.Strategy.Entries

/-! Runs of one strategy: the book updates, fills and ticks it receives, and the orders it emits on ticks. -/

namespace PolyBot
open General.KeyedStore

section Exits
variable {parse : String → Option Decimal} {rules : ExitRules} {registry : MarketPairRegistry} {ctx : StrategyContext}

/-- An exit that is ordered is that of one of the entries, and nothing that was pending before stood against it. -/
theorem exists_of_mem_checkExits {entries : List (Sigma fun _ : TokenId => Decimal × Instant)}
    {pending : Store TokenId Instant} {i : OrderIntent}
    (h : i ∈ (rules.checkExits parse registry ctx entries pending).1) :
    ∃ entry ∈ entries, ∃ pending', rules.exitOf parse registry ctx pending' entry.1 entry.2 = some i ∧
      (pending'.lookup entry.1 = none → pending.lookup entry.1 = none) := by
  induction entries generalizing pending with
  | nil => cases h
  | cons head entries ih =>
    obtain ⟨u, other⟩ := head
    rw [ExitRules.checkExits] at h
    cases hexit : rules.exitOf parse registry ctx pending u other with
    | none =>
      rw [hexit] at h
      obtain ⟨entry, hmem, hrest⟩ := ih h
      exact ⟨entry, List.mem_cons_of_mem _ hmem, hrest⟩
    | some intent =>
      rw [hexit] at h
      rcases List.mem_cons.mp h with rfl | hmore
      · exact ⟨⟨u, other⟩, List.mem_cons_self, pending, hexit, id⟩
      · obtain ⟨entry, hmem, pending', hexit', hfree⟩ := ih hmore
        refine ⟨entry, List.mem_cons_of_mem _ hmem, pending', hexit', fun hnone => ?_⟩
        have hinserted := hfree hnone
        rcases eq_or_ne entry.1 u with heq | hne
        · rw [heq, AList.lookup_insert] at hinserted
          cases hinserted
        · rwa [AList.lookup_insert_ne hne] at hinserted

/-- Every order of a tick of the timed exits sells a tracked position that was not being sold. -/
theorem ExitTracking.onTick_inv {x : ExitTracking} {i : OrderIntent}
    (h : i ∈ (x.onTick parse rules registry ctx).1) :
    ∃ tokenId pair bid, registry.getByToken tokenId = some pair ∧
      (x.cleanUp ctx).pendingExit.lookup tokenId = none ∧ 0 < Decimal.truncDp 2 (ctx.position tokenId).shares ∧
      i = rules.sell pair tokenId bid (Decimal.truncDp 2 (ctx.position tokenId).shares) := by
  obtain ⟨entry, -, pending, hexit, hfree⟩ := exists_of_mem_checkExits h
  obtain ⟨pair, bid, hpair, hpending, hsize, rfl⟩ := exitOf_inv hexit
  exact ⟨entry.1, pair, bid, hpair, hfree hpending, hsize, rfl⟩

/-- A stop-loss of a late entry sells the whole of an open position. -/
theorem LateEntryStrategy.exitOf_inv {s : LateEntryStrategy} {tokenId : TokenId} {i : OrderIntent}
    (h : s.exitOf parse registry ctx tokenId = some i) :
    ∃ pair bid, registry.getByToken tokenId = some pair ∧ ctx.bestBid parse tokenId = some bid ∧
      bid ≤ s.config.stopLossPrice ∧ (ctx.position tokenId).isFlat = false ∧
      i = sell pair tokenId bid |(ctx.position tokenId).shares| := by
  simp only [exitOf, Option.bind_eq_bind, Option.bind_eq_some_iff, Option.guard_eq_some', Option.pure_def,
    Option.some.injEq] at h
  obtain ⟨bid, hbid, _, hstop, _, hopen, pair, hpair, rfl⟩ := h
  exact ⟨pair, bid, hpair, hbid, hstop, hopen, rfl⟩

/-- Every order of a tick of the late entry is the stop-loss of a tracked position. -/
theorem LateEntryStrategy.onTick_inv {s : LateEntryStrategy} {i : OrderIntent}
    (h : i ∈ (s.onTick parse registry ctx).1) :
    ∃ tokenId price pair bid, s.entryTracking.lookup tokenId = some price ∧ registry.getByToken tokenId = some pair ∧
      bid ≤ s.config.stopLossPrice ∧ (ctx.position tokenId).isFlat = false ∧
      i = sell pair tokenId bid |(ctx.position tokenId).shares| := by
  unfold onTick at h
  split at h
  · cases h
  · dsimp only at h
    split at h
    · cases h
    · obtain ⟨⟨tokenId, price⟩, hentry, hexit⟩ := List.mem_filterMap.mp h
      obtain ⟨pair, bid, hpair, -, hstop, hopen, rfl⟩ := LateEntryStrategy.exitOf_inv hexit
      have hkept := AList.mem_lookup_iff.mpr hentry
      rw [lookup_retain] at hkept
      exact ⟨tokenId, price, pair, bid, (Option.filter_eq_some_iff.mp hkept).1, hpair, hstop, hopen, rfl⟩

end Exits

/-- Every order of a tick of the maker strategy sells one leg of a pair that has expired. -/
theorem MakerRebateArbStrategy.onTick_inv {parse : String → Option Decimal} {s : MakerRebateArbStrategy}
    {ctx : StrategyContext} {i : OrderIntent} (h : i ∈ (s.onTick parse ctx).1) :
    ∃ p tokenId shares, i ∈ unwindLeg parse ctx p tokenId shares := by
  by_cases henabled : s.enabled = true
  · rw [onTick_fst henabled] at h
    obtain ⟨p, -, hi⟩ := List.mem_flatMap.mp h
    rcases mem_expirySales_iff.mp hi with ⟨-, hleg⟩ | ⟨-, hleg⟩
    · exact ⟨p, _, _, hleg⟩
    · exact ⟨p, _, _, hleg⟩
  · rw [onTick, if_pos (eq_false_of_ne_true henabled)] at h
    cases h

structure TimedExits where
  enabled : Bool
  exits : ExitTracking
  rules : ExitRules

namespace TimedExits

def onTick (x : TimedExits) (parse : String → Option Decimal) (registry : MarketPairRegistry) (ctx : StrategyContext) :
    List OrderIntent × TimedExits :=
  if x.enabled = false then ([], x)
  else ((x.exits.onTick parse x.rules registry ctx).1,
    { x with exits := (x.exits.onTick parse x.rules registry ctx).2 })

end TimedExits

theorem ExitRules.OneBuy.inv {parse : String → Option Decimal} {ctx : StrategyContext}
    {maxBetUsd minBetUsd : Decimal} {rules : ExitRules} {tokenId : TokenId} {pair : MarketPair}
    {intents : List OrderIntent} (h : rules.OneBuy parse ctx maxBetUsd minBetUsd tokenId pair intents) :
    ∀ i ∈ intents, i.side = .Buy ∧ i.tokenId = tokenId ∧ i.tickSize = pair.tickSize := by
  obtain ⟨_, _, -, -, rfl⟩ := h
  intro i hi
  rw [List.mem_singleton.mp hi]
  exact ⟨rfl, rfl, rfl⟩

namespace ExitStrategy
variable {parse : String → Option Decimal} {registry : MarketPairRegistry}

def timed : ExitStrategy → Option TimedExits
  | contrarian s => some ⟨s.enabled, s.exits, s.exitRules⟩
  | tboTrend s => some ⟨s.enabled, s.exits, s.exitRules⟩
  | tbtDivergence s => some ⟨s.enabled, s.exits, s.exitRules⟩
  | lateEntry _ => none

theorem eq_lateEntry {s : ExitStrategy} (h : s.timed = none) : ∃ late, s = lateEntry late := by
  cases s with
  | contrarian s | tboTrend s | tbtDivergence s => cases h
  | lateEntry s => exact ⟨s, rfl⟩

variable (parse registry) in
theorem timed_onTick {s : ExitStrategy} {x : TimedExits} (h : s.timed = some x) (ctx : StrategyContext) :
    (s.onTick parse registry ctx).1 = (x.onTick parse registry ctx).1 ∧
      (s.onTick parse registry ctx).2.timed = some (x.onTick parse registry ctx).2 := by
  cases s with
  | contrarian s =>
    cases h
    simp only [ExitStrategy.onTick, ContrarianStrategy.onTick, TimedExits.onTick]
    split <;> exact ⟨rfl, rfl⟩
  | tboTrend s =>
    cases h
    simp only [ExitStrategy.onTick, TboTrendStrategy.onTick, TimedExits.onTick]
    split <;> exact ⟨rfl, rfl⟩
  | tbtDivergence s =>
    cases h
    simp only [ExitStrategy.onTick, TbtDivergenceStrategy.onTick, TimedExits.onTick]
    split <;> exact ⟨rfl, rfl⟩
  | lateEntry s => cases h

/-- An order of a book update buys, with the tick of its token's pair. -/
theorem onBookUpdate_inv {s : ExitStrategy} {tokenId : TokenId} {ctx : StrategyContext} {utcNow : ℕ} {i : OrderIntent}
    (h : i ∈ (s.onBookUpdate parse registry tokenId ctx utcNow).1) :
    i.side = .Buy ∧ ∃ pair, registry.getByToken i.tokenId = some pair ∧ i.tickSize = pair.tickSize := by
  cases s with
  | contrarian s | tboTrend s | tbtDivergence s =>
    obtain ⟨pair, hpair, hbuy⟩ := (s.onBookUpdate_enters parse registry tokenId ctx).1.exists_pair h
    obtain ⟨hside, htoken, htick⟩ := hbuy.inv i h
    exact ⟨hside, pair, htoken ▸ hpair, htick⟩
  | lateEntry s =>
    obtain ⟨pair, _, _, hpair, -, -, rfl⟩ := (s.onBookUpdate_tried parse registry ctx tokenId utcNow).bought i h
    exact ⟨rfl, pair, hpair, rfl⟩

/-- An order of a tick sells, with the tick of its token's pair. -/
theorem onTick_inv {s : ExitStrategy} {ctx : StrategyContext} {i : OrderIntent}
    (h : i ∈ (s.onTick parse registry ctx).1) :
    i.side = .Sell ∧ ∃ pair, registry.getByToken i.tokenId = some pair ∧ i.tickSize = pair.tickSize := by
  cases hx : s.timed with
  | some x =>
    rw [(timed_onTick parse registry hx ctx).1, TimedExits.onTick] at h
    split at h
    · cases h
    · obtain ⟨_, pair, _, hpair, -, -, rfl⟩ := ExitTracking.onTick_inv h
      exact ⟨rfl, pair, hpair, rfl⟩
  | none =>
    obtain ⟨s, rfl⟩ := eq_lateEntry hx
    obtain ⟨_, _, pair, _, -, hpair, -, -, rfl⟩ := LateEntryStrategy.onTick_inv h
    exact ⟨rfl, pair, hpair, rfl⟩

end ExitStrategy

namespace AllStrategies

inductive StrategyEvent where
  | bookUpdate (around : Surroundings) (marketId : ConditionId) (tokenId : TokenId)
  | fill (f : Fill) (now : Instant)
  | tick (around : Surroundings)

def StrategyEvent.now : StrategyEvent → Instant
  | bookUpdate around _ _ => around.ctx.now
  | fill _ now => now
  | tick around => around.ctx.now

namespace Strategy

def onFill (f : Fill) (now : Instant) : Strategy → Strategy
  | mathArb s => mathArb (s.onFill f)
  | makerRebateArb s => makerRebateArb (s.onFill f)
  | temporalArb s => temporalArb (s.onFill f)
  | exit s => exit (s.onFill f now)

variable (parse : String → Option Decimal) (assetSymbol : MarketPair → Option String)

def handle (s : Strategy) : StrategyEvent → List OrderIntent × Strategy
  | .bookUpdate around marketId tokenId => s.onBookUpdate parse assetSymbol around marketId tokenId
  | .fill f now => ([], s.onFill f now)
  | .tick around => s.onTick parse around

def step (s : Strategy) (e : StrategyEvent) : Strategy := (s.handle parse assetSymbol e).2

def run (s : Strategy) (events : List StrategyEvent) : Strategy := events.foldl (step parse assetSymbol) s

variable {parse assetSymbol}

/-- Ticks only sell. -/
theorem side_of_mem_onTick {s : Strategy} {around : Surroundings} {i : OrderIntent}
    (h : i ∈ (s.onTick parse around).1) : i.side = .Sell := by
  cases s with
  | mathArb s => cases h
  | temporalArb s => cases h
  | makerRebateArb s =>
    obtain ⟨_, _, _, hleg⟩ := MakerRebateArbStrategy.onTick_inv h
    obtain ⟨_, -, rfl⟩ := (MakerRebateArbStrategy.mem_unwindLeg_iff parse).mp hleg
    rfl
  | exit s => exact (ExitStrategy.onTick_inv h).1

end Strategy

end AllStrategies

end PolyBot
