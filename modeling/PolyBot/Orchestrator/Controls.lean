import PolyBot.Orchestrator.ExitControl
import PolyBot.Strategy.AllStrategies

/-! The configuration of the bot, the strategies built from it, and the controls that the API changes at runtime. -/

namespace PolyBot.Bot
open AllStrategies ExitControl

structure Config where
  mode : OperatingMode
  maxBetUsd : Decimal
  maxPositionPerMarketUsd : Decimal
  maxTotalExposureUsd : Decimal
  maxDailyLossUsd : Decimal
  maxOpenOrders : ℕ
  mathArbEnabled : Bool
  useMakerMode : Bool
  makerRebateEnabled : Bool
  makerOrderTtlSecs : ℕ
  temporalArbEnabled : Bool
  temporalArbThresholdBps : ℤ
  temporalArbSensitivityBps : ℤ
  exits : ExitConfigs

namespace Config

/-- The configuration of an environment that sets nothing. -/
def default : Config where
  mode := .Paper
  maxBetUsd := 100
  maxPositionPerMarketUsd := 500
  maxTotalExposureUsd := 2000
  maxDailyLossUsd := 100
  maxOpenOrders := 10
  mathArbEnabled := true
  useMakerMode := false
  makerRebateEnabled := false
  makerOrderTtlSecs := 120
  temporalArbEnabled := false
  temporalArbThresholdBps := 100
  temporalArbSensitivityBps := 2000
  exits := ⟨none, none, none, none⟩

def mathArbConfig (config : Config) : MathArbConfig :=
  let arbConfig := if config.useMakerMode then MathArbConfig.maker else .taker
  { arbConfig with limits := { arbConfig.limits with maxBetUsd := config.maxBetUsd } }

def rebateConfig (config : Config) : MakerRebateConfig :=
  { MakerRebateConfig.default with
    ttlSecs := config.makerOrderTtlSecs
    limits := { MakerRebateConfig.default.limits with maxBetUsd := config.maxBetUsd } }

/-- The sizes of the temporal strategy are not configured. -/
def temporalConfig (config : Config) : TemporalArbConfig :=
  { TemporalArbConfig.default with
    thresholdBps := config.temporalArbThresholdBps
    sensitivityBps := config.temporalArbSensitivityBps }

def strategies (config : Config) (registry : MarketPairRegistry) : List Strategy :=
  (if config.mathArbEnabled then [.mathArb (.withConfig registry config.mathArbConfig)] else []) ++
    (if config.makerRebateEnabled then [.makerRebateArb (.withConfig registry config.rebateConfig)] else []) ++
    (if config.temporalArbEnabled then [.temporalArb (.withConfig config.temporalConfig)] else []) ++
    (config.exits.contrarian.map fun c => Strategy.exit (.contrarian (.withConfig c))).toList ++
    (config.exits.tboTrend.map fun c => Strategy.exit (.tboTrend (.withConfig c))).toList ++
    (config.exits.tbtDivergence.map fun c => Strategy.exit (.tbtDivergence (.withConfig c))).toList ++
    (config.exits.lateEntry.map fun c => Strategy.exit (.lateEntry (.withConfig c))).toList

def setup (config : Config) (registry : MarketPairRegistry) : AllStrategies.StrategyRouter :=
  (config.strategies registry).foldl (AllStrategies.StrategyRouter.register registry) []

theorem untracked_strategies (config : Config) (registry : MarketPairRegistry) :
    ∀ s ∈ config.strategies registry, s.Untracked := by
  intro s hs
  simp only [strategies, List.mem_append, Option.mem_toList, Option.map_eq_some_iff] at hs
  rcases hs with (((((hmath | hmaker) | htemporal) | ⟨c, -, rfl⟩) | ⟨c, -, rfl⟩) | ⟨c, -, rfl⟩) | ⟨c, -, rfl⟩
  · split_ifs at hmath
    · rw [List.mem_singleton.mp hmath]
      trivial
    · cases hmath
  · split_ifs at hmaker
    · rw [List.mem_singleton.mp hmaker]
      trivial
    · cases hmaker
  · split_ifs at htemporal
    · rw [List.mem_singleton.mp htemporal]
      trivial
    · cases htemporal
  all_goals rfl

/-- Nothing is tracked at the start. -/
theorem untracked_setup (config : Config) (registry : MarketPairRegistry) :
    ∀ reg ∈ config.setup registry, reg.strategy.Untracked :=
  AllStrategies.StrategyRouter.forall_foldl_register (fun _ hreg => by cases hreg)
    (config.untracked_strategies registry)

end Config

structure RuntimeConfig where
  maxBetUsd : Decimal
  maxPositionPerMarketUsd : Decimal
  maxTotalExposureUsd : Decimal
  maxDailyLossUsd : Decimal
  maxOpenOrders : ℕ
  useMakerMode : Bool
  temporalArbEnabled : Bool
  temporalArbThresholdBps : ℤ
  temporalArbSensitivityBps : ℤ
  deriving DecidableEq, Repr

def RuntimeConfig.fromConfig (config : Config) : RuntimeConfig where
  maxBetUsd := config.maxBetUsd
  maxPositionPerMarketUsd := config.maxPositionPerMarketUsd
  maxTotalExposureUsd := config.maxTotalExposureUsd
  maxDailyLossUsd := config.maxDailyLossUsd
  maxOpenOrders := config.maxOpenOrders
  useMakerMode := config.useMakerMode
  temporalArbEnabled := config.temporalArbEnabled
  temporalArbThresholdBps := config.temporalArbThresholdBps
  temporalArbSensitivityBps := config.temporalArbSensitivityBps

/-- A partial update; the amounts are floats. -/
structure ConfigPatch (F : Type*) where
  maxBetUsd : Option F
  maxPositionPerMarketUsd : Option F
  maxTotalExposureUsd : Option F
  maxDailyLossUsd : Option F
  maxOpenOrders : Option ℕ
  useMakerMode : Option Bool
  temporalArbEnabled : Option Bool
  temporalArbThresholdBps : Option ℤ
  temporalArbSensitivityBps : Option ℤ

structure ControlState where
  tradingPaused : Bool
  runtimeConfig : RuntimeConfig
  deriving DecidableEq, Repr

namespace ControlState

def new (config : Config) : ControlState := ⟨false, .fromConfig config⟩

def isPaused (c : ControlState) : Bool := c.tradingPaused
def pause (c : ControlState) : ControlState := { c with tradingPaused := true }
def resume (c : ControlState) : ControlState := { c with tradingPaused := false }

variable {F : Type*}

def applyPatch (tryFrom : F → Option Decimal) (c : ControlState) (patch : ConfigPatch F) : ControlState :=
  let amount (v : Option F) (old : Decimal) : Decimal := (v.bind tryFrom).getD old
  let cfg := c.runtimeConfig
  { c with
    runtimeConfig :=
      { maxBetUsd := amount patch.maxBetUsd cfg.maxBetUsd
        maxPositionPerMarketUsd := amount patch.maxPositionPerMarketUsd cfg.maxPositionPerMarketUsd
        maxTotalExposureUsd := amount patch.maxTotalExposureUsd cfg.maxTotalExposureUsd
        maxDailyLossUsd := amount patch.maxDailyLossUsd cfg.maxDailyLossUsd
        maxOpenOrders := patch.maxOpenOrders.getD cfg.maxOpenOrders
        useMakerMode := patch.useMakerMode.getD cfg.useMakerMode
        temporalArbEnabled := patch.temporalArbEnabled.getD cfg.temporalArbEnabled
        temporalArbThresholdBps := patch.temporalArbThresholdBps.getD cfg.temporalArbThresholdBps
        temporalArbSensitivityBps := patch.temporalArbSensitivityBps.getD cfg.temporalArbSensitivityBps } }

end ControlState

end PolyBot.Bot
