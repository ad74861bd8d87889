import PolyBot.Execution.Policy
import PolyBot.Strategy.ArbSizing
import PolyBot.Strategy.EdgeCalculator
import PolyBot.Strategy.MarketPair

namespace PolyBot
open General.KeyedStore

structure MathArbConfig where
  minEdge : Decimal
  limits : SizingLimits
  cooldownMs : ℕ
  useMakerExecution : Bool
  deriving DecidableEq, Repr

namespace MathArbConfig

def taker : MathArbConfig := ⟨3 / 100, ⟨500, 1, 5, 2000⟩, 1000, false⟩
def maker : MathArbConfig := { taker with minEdge := 1 / 100, useMakerExecution := true }

end MathArbConfig

structure MathArbStrategy where
  config : MathArbConfig
  registry : MarketPairRegistry
  edgeCalculator : EdgeConfig
  enabled : Bool
  lastTrade : Store ConditionId Instant
  tradeCount : ℕ
  currentExposure : Decimal

namespace MathArbStrategy

def withConfig (registry : MarketPairRegistry) (config : MathArbConfig) : MathArbStrategy where
  config := config
  registry := registry
  edgeCalculator := if config.useMakerExecution then .maker else .taker
  enabled := true
  lastTrade := ∅
  tradeCount := 0
  currentExposure := 0

def isOnCooldown (s : MathArbStrategy) (conditionId : ConditionId) (now : Instant) : Bool :=
  match s.lastTrade.lookup conditionId with
  | none => false
  | some last => last.elapsed now / Duration.fromMillis 1 < s.config.cooldownMs

def recordTrade (s : MathArbStrategy) (conditionId : ConditionId) (now : Instant) : MathArbStrategy :=
  { s with lastTrade := s.lastTrade.insert conditionId now, tradeCount := s.tradeCount + 1 }

def checkExposureLimit (s : MathArbStrategy) (additional : Decimal) : Bool :=
  s.currentExposure + additional ≤ s.config.limits.maxTotalExposure

def setEnabled (s : MathArbStrategy) (enabled : Bool) : MathArbStrategy := { s with enabled := enabled }

def addExposure (s : MathArbStrategy) (amount : Decimal) : MathArbStrategy :=
  { s with currentExposure := s.currentExposure + amount }

def leg (s : MathArbStrategy) (pair : MarketPair) (groupId : String) (tokenId : TokenId) (ask size : Decimal) :
    OrderIntent :=
  let urgency := if s.config.useMakerExecution then Urgency.Passive else .Immediate
  (((OrderIntent.new pair.conditionId tokenId .Buy ask size urgency "MathArbStrategy").withGroup groupId).withPriority
    100).withTickSize pair.tickSize

variable (parse : String → Option Decimal)

def checkArbOpportunity (s : MathArbStrategy) (pair : MarketPair) (ctx : StrategyContext) (uuid : String) :
    Option (List OrderIntent × MathArbStrategy) :=
  match ctx.books.getBook pair.yesTokenId, ctx.books.getBook pair.noTokenId with
  | some yesBook, some noBook =>
    if !yesBook.isTwoSided || !noBook.isTwoSided then none
    else match s.edgeCalculator.quickCheck parse ctx.books pair.yesTokenId pair.noTokenId with
      | none => none
      | some (yesAskRaw, noAskRaw, _) =>
        let yesAsk := roundUpToTick yesAskRaw pair.tickSize
        let noAsk := roundUpToTick noAskRaw pair.tickSize
        let combinedAsk := yesAsk + noAsk
        if (yesAsk ≠ yesAskRaw ∨ noAsk ≠ noAskRaw) ∧ (1 ≤ combinedAsk ∨ 1 - combinedAsk < s.config.minEdge) then none
        else
          let edgeCalc := s.edgeCalculator.calculate parse yesBook noBook pair.feeRateBps s.config.limits.minPositionSize
          if edgeCalc.isProfitable = false then none
          else
            let tradeSize :=
              s.config.limits.tradeSize edgeCalc.maxSize s.currentExposure ctx.availableCash combinedAsk
            if tradeSize < s.config.limits.effectiveMin yesAsk noAsk then none
            else
              let totalNotional := combinedAsk * tradeSize
              if s.checkExposureLimit totalNotional = false then none
              else
                let groupId := "arb-" ++ uuid
                some ([s.leg pair groupId pair.yesTokenId yesAsk tradeSize,
                    s.leg pair groupId pair.noTokenId noAsk tradeSize],
                  (s.recordTrade pair.conditionId ctx.now).addExposure totalNotional)
  | _, _ => none

def onBookUpdate (s : MathArbStrategy) (marketId : ConditionId) (tokenId : TokenId) (ctx : StrategyContext)
    (uuid : String) : List OrderIntent × MathArbStrategy :=
  if s.enabled = false then ([], s)
  else match s.registry.getByToken tokenId with
    | none => ([], s)
    | some pair =>
      if pair.conditionId ≠ marketId then ([], s)
      else if s.isOnCooldown marketId ctx.now then ([], s)
      else (s.checkArbOpportunity parse pair ctx uuid).getD ([], s)

def onFill (s : MathArbStrategy) (f : Fill) : MathArbStrategy :=
  match f.side with
  | .Sell => { s with currentExposure := max (s.currentExposure - f.notional) 0 }
  | .Buy => s

def onTick (s : MathArbStrategy) (_ : StrategyContext) : List OrderIntent × MathArbStrategy := ([], s)

structure Opportunity (s : MathArbStrategy) (pair : MarketPair) (ctx : StrategyContext)
    (yesBook noBook : BookSnapshot) (yesRaw noRaw size : Decimal) : Prop where
  yes_book : ctx.books.getBook pair.yesTokenId = some yesBook
  no_book : ctx.books.getBook pair.noTokenId = some noBook
  yes_ask : yesBook.bestAsk parse = some yesRaw
  no_ask : noBook.bestAsk parse = some noRaw
  rechecked : roundUpToTick yesRaw pair.tickSize ≠ yesRaw ∨ roundUpToTick noRaw pair.tickSize ≠ noRaw →
    s.config.minEdge ≤ 1 - (roundUpToTick yesRaw pair.tickSize + roundUpToTick noRaw pair.tickSize)
  profitable : (s.edgeCalculator.calculate parse yesBook noBook pair.feeRateBps
    s.config.limits.minPositionSize).isProfitable = true
  admitted : s.config.limits.Admits (EdgeConfig.minDepth parse yesBook noBook) s.currentExposure ctx.availableCash
    (roundUpToTick yesRaw pair.tickSize) (roundUpToTick noRaw pair.tickSize) size

/-- Everything an emission says: the checks it passed, its legs and the strategy after it. -/
theorem checkArbOpportunity_inv {s s' : MathArbStrategy} {pair : MarketPair} {ctx : StrategyContext} {uuid : String}
    {intents : List OrderIntent} (h : s.checkArbOpportunity parse pair ctx uuid = some (intents, s')) :
    ∃ yesBook noBook yesRaw noRaw size,
      let yesAsk := roundUpToTick yesRaw pair.tickSize
      let noAsk := roundUpToTick noRaw pair.tickSize
      s.Opportunity parse pair ctx yesBook noBook yesRaw noRaw size ∧
        intents = [s.leg pair ("arb-" ++ uuid) pair.yesTokenId yesAsk size,
          s.leg pair ("arb-" ++ uuid) pair.noTokenId noAsk size] ∧
        s' = (s.recordTrade pair.conditionId ctx.now).addExposure ((yesAsk + noAsk) * size) := by
  unfold checkArbOpportunity at h
  split at h
  · rename_i yesBook noBook hyes hno
    obtain ⟨-, h⟩ := Option.ite_none_left_eq_some.mp h
    split at h
    · cases h
    · rename_i yesRaw noRaw edge hquick
      obtain ⟨hyesAsk, hnoAsk⟩ := s.edgeCalculator.bestAsk_of_quickCheck parse hyes hno hquick
      -- the gates one after the other: the recheck after rounding, the costs, the least size, the exposure
      obtain ⟨hround, h⟩ := Option.ite_none_left_eq_some.mp h
      obtain ⟨hprofit, h⟩ := Option.ite_none_left_eq_some.mp h
      obtain ⟨hmin, h⟩ := Option.ite_none_left_eq_some.mp h
      obtain ⟨hlimit, h⟩ := Option.ite_none_left_eq_some.mp h
      cases h
      refine ⟨yesBook, noBook, yesRaw, noRaw, _, ⟨hyes, hno, hyesAsk, hnoAsk, ?_, ?_, rfl, ?_, ?_⟩, rfl, rfl⟩
      · intro hmoved
        exact not_lt.mp fun hlt => hround ⟨hmoved, .inr hlt⟩
      · exact eq_true_of_ne_false hprofit
      · exact not_lt.mp hmin
      · exact of_decide_eq_true (eq_true_of_ne_false hlimit)
  · cases h

/-- A book update changes nothing, or it is an emission. -/
theorem onBookUpdate_cases (s : MathArbStrategy) (marketId : ConditionId) (tokenId : TokenId) (ctx : StrategyContext)
    (uuid : String) :
    s.onBookUpdate parse marketId tokenId ctx uuid = ([], s) ∨
      ∃ pair intents s', s.registry.getByToken tokenId = some pair ∧
        s.isOnCooldown pair.conditionId ctx.now = false ∧
        s.checkArbOpportunity parse pair ctx uuid = some (intents, s') ∧
        s.onBookUpdate parse marketId tokenId ctx uuid = (intents, s') := by
  unfold onBookUpdate
  split
  · exact .inl rfl
  · split
    · exact .inl rfl
    · rename_i pair hpair
      split_ifs with hother hcooldown
      · exact .inl rfl
      · exact .inl rfl
      · have hready : s.isOnCooldown pair.conditionId ctx.now = false := by
          rw [not_not.mp hother]
          exact eq_false_of_ne_true hcooldown
        cases hcheck : s.checkArbOpportunity parse pair ctx uuid with
        | none => exact .inl rfl
        | some emitted => exact .inr ⟨pair, emitted.1, emitted.2, hpair, hready, hcheck, rfl⟩

end MathArbStrategy

end PolyBot
