import Mathlib.Algebra.Order.BigOperators.Group.List
import PolyBot.Strategy.CheckedEntries
import PolyBot.Strategy.Divergences

/-! The book updates of the divergence strategy with divisions that stop at zero: the momentum is divided by its
period, which nothing keeps from being zero. -/

namespace PolyBot.TbtDivergenceStrategy
open General.CheckedDivision General.KeyedStore

def computeRsiChecked (prices : List Decimal) (period : ℕ) : Option (Option Decimal) :=
  if prices.length < period + 1 then some none
  else
    let changes := (List.zipWith (fun newer older => newer - older) prices (prices.drop 1)).take period
    (divide (changes.map fun change => if 0 < change then change else 0).sum (period : Decimal)).bind fun avgGain =>
    (divide (changes.map fun change => if 0 < change then 0 else |change|).sum (period : Decimal)).bind fun avgLoss =>
    if avgLoss = 0 then some (some 100)
    else (divide avgGain avgLoss).bind fun rs => (divide 100 (1 + rs)).map fun rest => some (100 - rest)

/-- Averages are not negative, so that neither of the last two divisors is zero. -/
theorem strength_checked {avgGain avgLoss : Decimal} (hgain : 0 ≤ avgGain) (hloss : 0 ≤ avgLoss) :
    (if avgLoss = 0 then some (some 100)
      else (divide avgGain avgLoss).bind fun rs => (divide 100 (1 + rs)).map fun rest => some (100 - rest)) =
      some (if avgLoss = 0 then some 100 else some (100 - 100 / (1 + avgGain / avgLoss))) := by
  by_cases hzero : avgLoss = 0
  · rw [if_pos hzero, if_pos hzero]
  · have hsum : 1 + avgGain / avgLoss ≠ 0 := (add_pos_of_pos_of_nonneg one_pos (div_nonneg hgain hloss)).ne'
    rw [if_neg hzero, if_neg hzero, (Exactly.divide _ _).through hzero, Option.bind_some,
      (Exactly.divide _ _).through hsum]
    rfl

theorem average_nonneg {f : Decimal → Decimal} (hf : ∀ change, 0 ≤ f change) (changes : List Decimal) (period : ℕ) :
    0 ≤ (changes.map f).sum / (period : Decimal) := by
  refine div_nonneg (List.sum_nonneg fun x hx => ?_) period.cast_nonneg
  obtain ⟨change, -, rfl⟩ := List.mem_map.mp hx
  exact hf change

theorem exactly_computeRsiChecked (prices : List Decimal) (period : ℕ) :
    Exactly (computeRsiChecked prices period) (computeRsi prices period)
      (period + 1 ≤ prices.length → period ≠ 0) := by
  rw [computeRsiChecked, computeRsi, ← not_lt]
  refine .otherwise fun _ => ?_
  have hgain : ∀ change : Decimal, 0 ≤ if 0 < change then change else 0 := by
    intro change
    split_ifs with hpos
    · exact hpos.le
    · exact le_rfl
  have hloss : ∀ change : Decimal, 0 ≤ if 0 < change then 0 else |change| := by
    intro change
    split_ifs
    · exact le_rfl
    · exact abs_nonneg change
  have hperiod : (period : Decimal) ≠ 0 ∧ (period : Decimal) ≠ 0 ↔ period ≠ 0 := and_self_iff.trans Nat.cast_ne_zero
  refine Exactly.congr (.bind (.divide _ _) (.andThen (.divide _ _) ?_)) hperiod
  exact strength_checked (average_nonneg hgain _ period) (average_nonneg hloss _ period)

def detectDivergenceChecked (s : TbtDivergenceStrategy) (prices : List Decimal) : Option Bool :=
  if prices.length < s.config.lookbackTicks then some false
  else
    let half := prices.length / 2
    match lowest? (prices.take half), lowest? (prices.drop half) with
    | some (recentIdx, recentLow), some (olderIdx, olderLow) =>
      (divide |olderLow - recentLow| (max olderLow (1 / 100))).bind fun gap =>
      let gapBps := gap * 10000
      if gapBps < s.config.divergenceMinGapBps then some false
      else if olderLow ≤ recentLow then some false
      else
        let rsiFrom := fun start =>
          computeRsiChecked ((prices.drop start).take (s.config.rsiPeriod + 1)) s.config.rsiPeriod
        (rsiFrom recentIdx).bind fun
          | none => some false
          | some rsiRecent => (rsiFrom (half + olderIdx)).map fun
            | none => false
            | some rsiOld => rsiOld < rsiRecent
    | _, _ => some false

/-- A full history whose lows differ by the least gap, the recent one being lower: the momentum at them is compared. -/
def ComparesMomentum (s : TbtDivergenceStrategy) (prices : List Decimal) : Prop :=
  s.config.lookbackTicks ≤ prices.length ∧ ∃ recentIdx recentLow olderIdx olderLow,
    lowest? (prices.take (prices.length / 2)) = some (recentIdx, recentLow) ∧
    lowest? (prices.drop (prices.length / 2)) = some (olderIdx, olderLow) ∧
    s.config.divergenceMinGapBps ≤ |olderLow - recentLow| / max olderLow (1 / 100) * 10000 ∧ recentLow < olderLow

/-- The window at the recent low has a price at least, so that a period of zero is divided by. -/
theorem exactly_rsiFrom {prices : List Decimal} {recentIdx : ℕ} (hrecent : recentIdx < prices.length)
    (period olderIdx : ℕ) :
    Exactly
      ((computeRsiChecked ((prices.drop recentIdx).take (period + 1)) period).bind fun
        | none => some false
        | some rsiRecent => (computeRsiChecked ((prices.drop olderIdx).take (period + 1)) period).map fun
          | none => false
          | some rsiOld => decide (rsiOld < rsiRecent))
      (match computeRsi ((prices.drop recentIdx).take (period + 1)) period,
          computeRsi ((prices.drop olderIdx).take (period + 1)) period with
        | some rsiRecent, some rsiOld => decide (rsiOld < rsiRecent)
        | _, _ => false)
      (period ≠ 0) where
  through hperiod := by
    rw [(exactly_computeRsiChecked _ _).through fun _ => hperiod,
      (exactly_computeRsiChecked _ _).through fun _ => hperiod]
    cases computeRsi ((prices.drop recentIdx).take (period + 1)) period with
    | none => rfl
    | some rsiRecent => cases computeRsi ((prices.drop olderIdx).take (period + 1)) period <;> rfl
  stops hzero := by
    obtain rfl := not_not.mp hzero
    have hwindow : 0 + 1 ≤ ((prices.drop recentIdx).take (0 + 1)).length := by
      rw [List.length_take, List.length_drop]
      omega
    rw [(exactly_computeRsiChecked _ _).stops fun himp => himp hwindow rfl]
    rfl

theorem exactly_detectDivergenceChecked (s : TbtDivergenceStrategy) (prices : List Decimal) :
    Exactly (s.detectDivergenceChecked prices) (s.detectDivergence prices)
      (s.ComparesMomentum prices → s.config.rsiPeriod ≠ 0) := by
  rw [detectDivergenceChecked, detectDivergence, ComparesMomentum]
  by_cases hshort : prices.length < s.config.lookbackTicks
  · rw [if_pos hshort, if_pos hshort]
    exact .of_eq rfl fun hfull => absurd hshort (not_lt.mpr hfull.1)
  rw [if_neg hshort, if_neg hshort]
  dsimp only
  cases hrecent : lowest? (prices.take (prices.length / 2)) with
  | none => exact .of_eq rfl (by simp)
  | some recent =>
    obtain ⟨recentIdx, recentLow⟩ := recent
    cases holder : lowest? (prices.drop (prices.length / 2)) with
    | none => exact .of_eq rfl (by simp)
    | some older =>
      obtain ⟨olderIdx, olderLow⟩ := older
      have hmax : max olderLow (1 / 100 : Decimal) ≠ 0 := (lt_max_of_lt_right (by norm_num)).ne'
      have hindex : recentIdx < prices.length := by
        have hsome := (List.getElem?_eq_some_iff.mp (lowAt_of_lowest? hrecent).reached).1
        rw [List.length_take] at hsome
        omega
      have hcompare := exactly_rsiFrom hindex s.config.rsiPeriod (prices.length / 2 + olderIdx)
      dsimp only
      rw [(Exactly.divide _ _).through hmax, Option.bind_some]
      refine (Exactly.otherwise fun _ => .otherwise fun _ => hcompare).congr ⟨?_, ?_⟩
      · rintro hopen ⟨-, _, _, _, _, hsame, hsame', hgap, hlower⟩
        cases hsame
        cases hsame'
        exact hopen (not_lt.mpr hgap) (not_le.mpr hlower)
      · intro hopen hgap hlower
        exact hopen ⟨not_lt.mp hshort, _, _, _, _, rfl, rfl, not_lt.mp hgap, not_le.mp hlower⟩

def gates (s : TbtDivergenceStrategy) : EntryGates where
  lastTrade := s.lastTrade
  cooldownMs := s.config.cooldownMs
  pendingExit := s.exits.pendingExit
  minAskDepth := s.config.minAskDepth
  maxBetUsd := s.config.maxBetUsd
  minBetUsd := s.config.minBetUsd
  rules := s.exitRules

variable (parse : String → Option Decimal)

def checkEntryChecked (s : TbtDivergenceStrategy) (registry : MarketPairRegistry) (tokenId : TokenId)
    (ctx : StrategyContext) : Option (Option OrderIntent) := s.gates.checkEntryChecked parse registry tokenId ctx

theorem exactly_checkEntryChecked (s : TbtDivergenceStrategy) (registry : MarketPairRegistry) (tokenId : TokenId)
    (ctx : StrategyContext) :
    Exactly (s.checkEntryChecked parse registry tokenId ctx) (s.checkEntry parse registry tokenId ctx)
      (∀ ask ∈ s.gates.entryAsk parse registry tokenId ctx, ask ≠ 0) :=
  s.gates.exactly_checkEntryChecked parse registry tokenId ctx

def followSignalChecked (s : TbtDivergenceStrategy) (registry : MarketPairRegistry) (tokenId : TokenId)
    (ctx : StrategyContext) (mid : Decimal) (signal : DivergenceSignal) :
    Option (List OrderIntent × TbtDivergenceStrategy) :=
  let signal := { signal with ticksSince := signal.ticksSince + 1 }
  let spent := { s with divergenceSignal := s.divergenceSignal.erase tokenId }
  if s.config.signalExpiryTicks < signal.ticksSince then some ([], spent)
  else if mid ≤ signal.detectionMid - signal.detectionMid * s.config.pullbackBps / 10000 then
    (spent.checkEntryChecked parse registry tokenId ctx).map fun
      | none => ([], spent)
      | some intent => ([intent], { spent with
          lastTrade := spent.lastTrade.insert intent.marketId ctx.now
          tradeCount := spent.tradeCount + 1 })
  else some ([], { s with divergenceSignal := s.divergenceSignal.insert tokenId signal })

/-- The signal is in time, and the price has come back from it. -/
def TriesEntry (s : TbtDivergenceStrategy) (mid : Decimal) (signal : DivergenceSignal) : Prop :=
  signal.ticksSince + 1 ≤ s.config.signalExpiryTicks ∧
    mid ≤ signal.detectionMid - signal.detectionMid * s.config.pullbackBps / 10000

theorem exactly_followSignalChecked (s : TbtDivergenceStrategy) (registry : MarketPairRegistry) (tokenId : TokenId)
    (ctx : StrategyContext) (mid : Decimal) (signal : DivergenceSignal) :
    Exactly (s.followSignalChecked parse registry tokenId ctx mid signal)
      (s.followSignal parse registry tokenId ctx mid signal)
      (s.TriesEntry mid signal → ∀ ask ∈ s.gates.entryAsk parse registry tokenId ctx, ask ≠ 0) := by
  rw [followSignalChecked, followSignal, TriesEntry]
  have hcheck := exactly_checkEntryChecked parse
    { s with divergenceSignal := s.divergenceSignal.erase tokenId } registry tokenId ctx
  refine (Exactly.otherwise fun _ => .ite (fun _ => hcheck.map _) fun _ => .pure _).congr ?_
  rw [not_lt]
  tauto

def onBookUpdateChecked (s : TbtDivergenceStrategy) (registry : MarketPairRegistry) (tokenId : TokenId)
    (ctx : StrategyContext) : Option (List OrderIntent × TbtDivergenceStrategy) :=
  if s.enabled = false then some ([], s)
  else match ctx.midPrice parse tokenId with
    | none => some ([], s)
    | some mid =>
      let s := s.updatePriceHistory tokenId mid
      let history := (s.priceHistory.lookup tokenId).getD []
      if history.length < s.config.lookbackTicks then some ([], s)
      else match s.divergenceSignal.lookup tokenId with
        | some signal => s.followSignalChecked parse registry tokenId ctx mid signal
        | none => (s.detectDivergenceChecked history).map fun detected =>
          if detected then ([], { s with divergenceSignal := s.divergenceSignal.insert tokenId ⟨mid, 0⟩ })
          else ([], s)

/-- No entry is sized at an ask of zero, and the momentum is not compared over a period of zero. -/
def NonzeroDivisors (s : TbtDivergenceStrategy) (registry : MarketPairRegistry) (tokenId : TokenId)
    (ctx : StrategyContext) : Prop :=
  s.enabled = true → ∀ mid ∈ ctx.midPrice parse tokenId,
    let updated := s.updatePriceHistory tokenId mid
    let history := (updated.priceHistory.lookup tokenId).getD []
    s.config.lookbackTicks ≤ history.length →
      (∀ signal ∈ s.divergenceSignal.lookup tokenId,
        s.TriesEntry mid signal → ∀ ask ∈ s.gates.entryAsk parse registry tokenId ctx, ask ≠ 0) ∧
      (s.divergenceSignal.lookup tokenId = none → s.ComparesMomentum history → s.config.rsiPeriod ≠ 0)

theorem exactly_onBookUpdateChecked (s : TbtDivergenceStrategy) (registry : MarketPairRegistry) (tokenId : TokenId)
    (ctx : StrategyContext) :
    Exactly (s.onBookUpdateChecked parse registry tokenId ctx) (s.onBookUpdate parse registry tokenId ctx)
      (s.NonzeroDivisors parse registry tokenId ctx) := by
  rw [onBookUpdateChecked, onBookUpdate, NonzeroDivisors, ← Bool.not_eq_false]
  refine .otherwise fun _ => ?_
  cases ctx.midPrice parse tokenId with
  | none => exact .nothing rfl
  | some mid =>
    refine .reached ?_
    dsimp only
    rw [← not_lt]
    refine .otherwise fun _ => ?_
    have hsignals : (s.updatePriceHistory tokenId mid).divergenceSignal = s.divergenceSignal := rfl
    rw [hsignals]
    cases s.divergenceSignal.lookup tokenId with
    | some signal =>
      have hfollow :=
        (s.updatePriceHistory tokenId mid).exactly_followSignalChecked parse registry tokenId ctx mid signal
      exact hfollow.reached.congr ⟨fun hall => ⟨hall, fun hnone => absurd hnone (Option.some_ne_none signal)⟩, And.left⟩
    | none =>
      have hdetect := (s.updatePriceHistory tokenId mid).exactly_detectDivergenceChecked
        (((s.updatePriceHistory tokenId mid).priceHistory.lookup tokenId).getD [])
      exact (hdetect.map _).congr ⟨fun hperiod => ⟨fun signal hsignal => absurd hsignal (Option.not_mem_none signal),
        fun _ => hperiod⟩, fun hboth => hboth.2 rfl⟩

end PolyBot.TbtDivergenceStrategy
