import Mathlib.Data.Finset.Dedup
import Mathlib.Data.Finset.Insert
import PolyBot.Strategy.MarketPair
import PolyBot.Strategy.Router

/-! The router's subscriptions: which strategies a book update reaches. -/

namespace PolyBot.Subscriptions
open General.KeyedStore

inductive StrategyKind where
  | MathArb
  | MakerRebateArb
  | TemporalArb
  | Contrarian
  | TboTrend
  | TbtDivergence
  | LateEntry
  deriving DecidableEq, Repr

namespace StrategyKind

def name : StrategyKind → String
  | MathArb => "MathArbStrategy"
  | MakerRebateArb => "MakerRebateArbStrategy"
  | TemporalArb => "TemporalArbStrategy"
  | Contrarian => "contrarian"
  | TboTrend => "tbo_trend"
  | TbtDivergence => "tbt_divergence"
  | LateEntry => "late_entry"

/-- The arbitrage strategies subscribe to the markets that they find registered; the others leave the default. -/
def subscribedMarkets (registry : MarketPairRegistry) : StrategyKind → List ConditionId
  | MathArb => registry.allConditionIds
  | MakerRebateArb => registry.allConditionIds
  | TemporalArb => registry.allConditionIds
  | _ => []

def subscribesToAll : StrategyKind → Bool
  | MathArb | MakerRebateArb | TemporalArb => true
  | _ => false

theorem name_injective : Function.Injective name := by
  intro a b h
  cases a <;> cases b <;> first | rfl | exact absurd h (by decide)

theorem subscribedMarkets_of_subscribesToAll {kind : StrategyKind} (h : kind.subscribesToAll = true)
    (registry : MarketPairRegistry) : kind.subscribedMarkets registry = registry.allConditionIds := by
  cases kind <;> first | rfl | cases h

end StrategyKind

/-- A registered strategy; `isEnabled` is its own switch, and no subscription means all markets. -/
structure RegisteredStrategy where
  isEnabled : Bool
  enabled : Bool
  subscribedMarkets : Finset ConditionId
  evalCount : ℕ
  intentCount : ℕ

inductive RouterError where
  | StrategyAlreadyRegistered (name : String)
  | StrategyNotFound (name : String)
  deriving DecidableEq, Repr

abbrev StrategyRouter := Store String RegisteredStrategy

namespace StrategyRouter

def register (r : StrategyRouter) (kind : StrategyKind) (registry : MarketPairRegistry) :
    Except RouterError StrategyRouter :=
  if (r.lookup kind.name).isSome then .error (.StrategyAlreadyRegistered kind.name)
  else .ok (r.insert kind.name ⟨true, true, (kind.subscribedMarkets registry).toFinset, 0, 0⟩)

def setEnabled (r : StrategyRouter) (name : String) (enabled : Bool) : Except RouterError StrategyRouter :=
  match r.lookup name with
  | none => .error (.StrategyNotFound name)
  | some reg => .ok (r.insert name { reg with enabled := enabled })

def enable (r : StrategyRouter) (name : String) : Except RouterError StrategyRouter := r.setEnabled name true
def disable (r : StrategyRouter) (name : String) : Except RouterError StrategyRouter := r.setEnabled name false

def isEnabled (r : StrategyRouter) (name : String) : Bool :=
  match r.lookup name with
  | none => false
  | some reg => reg.enabled && reg.isEnabled

def evaluates (marketId : ConditionId) (reg : RegisteredStrategy) : Bool :=
  (reg.enabled && reg.isEnabled) && (reg.subscribedMarkets = ∅ ∨ marketId ∈ reg.subscribedMarkets)

/-- The resolved intents of the strategies called, `answer` being what each of them returns. -/
def onBookUpdate (answer : String → List OrderIntent) (r : StrategyRouter) (marketId : ConditionId) :
    List OrderIntent × StrategyRouter :=
  (PolyBot.StrategyRouter.resolveConflicts
    (r.entries.flatMap fun e => if evaluates marketId e.2 then answer e.1 else []),
    mapValues (fun name reg =>
      if evaluates marketId reg then
        { reg with evalCount := reg.evalCount + 1, intentCount := reg.intentCount + (answer name).length }
      else reg) r)

end StrategyRouter

end PolyBot.Subscriptions
