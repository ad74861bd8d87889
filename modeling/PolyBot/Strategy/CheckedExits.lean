import PolyBot.General.CheckedDivision
import PolyBot.Strategy.Contrarian
import PolyBot.Strategy.TboTrend
import PolyBot.Strategy.TbtDivergence

/-! The ticks of the timed strategies with divisions that stop at zero. An entry price that is not positive has no
relative profit, so none of them stops. -/

namespace PolyBot
open General.CheckedDivision General.KeyedStore

namespace ExitRules

def reasonChecked (rules : ExitRules) (entryPrice mid : Decimal) (elapsedSecs : ℕ) : Option (Option ExitReason) :=
  (if 0 < entryPrice then divide (mid - entryPrice) entryPrice else some 0).map fun unrealizedPct =>
    if rules.maxHoldSecs ≤ elapsedSecs then some .time
    else if rules.profitTargetPct ≤ unrealizedPct then some .profit
    else if unrealizedPct ≤ -rules.stopLossPct then some .stopLoss
    else none

theorem reasonChecked_eq (rules : ExitRules) (entryPrice mid : Decimal) (elapsedSecs : ℕ) :
    rules.reasonChecked entryPrice mid elapsedSecs = some (rules.reason entryPrice mid elapsedSecs) := by
  rw [reasonChecked, reason]
  by_cases hpos : 0 < entryPrice
  · rw [if_pos hpos, if_pos hpos, (Exactly.divide _ _).through hpos.ne']
    rfl
  · rw [if_neg hpos, if_neg hpos]
    rfl

variable (parse : String → Option Decimal)

def exitOfChecked (rules : ExitRules) (registry : MarketPairRegistry) (ctx : StrategyContext)
    (pending : Store TokenId Instant) (tokenId : TokenId) (entry : Decimal × Instant) : Option (Option OrderIntent) :=
  let pos := ctx.position tokenId
  if pos.isFlat then some none
  else if (pending.lookup tokenId).isSome then some none
  else match ctx.midPrice parse tokenId with
    | none => some none
    | some mid => do
      match ← rules.reasonChecked entry.1 mid (entry.2.elapsedSecs ctx.now) with
      | none => some none
      | some _ =>
        match ctx.bestBid parse tokenId with
        | none => some none
        | some bid =>
          let sellSize := Decimal.truncDp 2 pos.shares
          if sellSize ≤ 0 then some none
          else match registry.getByToken tokenId with
            | none => some none
            | some pair => some (some (rules.sell pair tokenId bid sellSize))

theorem exitOfChecked_eq (rules : ExitRules) (registry : MarketPairRegistry) (ctx : StrategyContext)
    (pending : Store TokenId Instant) (tokenId : TokenId) (entry : Decimal × Instant) :
    rules.exitOfChecked parse registry ctx pending tokenId entry =
      some (rules.exitOf parse registry ctx pending tokenId entry) := by
  rw [exitOfChecked, exitOf]
  cases ctx.midPrice parse tokenId with
  | none => split_ifs <;> rfl
  | some mid =>
    dsimp only
    rw [reasonChecked_eq]
    cases rules.reason entry.1 mid (entry.2.elapsedSecs ctx.now) with
    | none => split_ifs <;> rfl
    | some _ =>
      cases ctx.bestBid parse tokenId with
      | none => split_ifs <;> rfl
      | some bid => cases registry.getByToken tokenId <;> split_ifs <;> simp_all

def checkExitsChecked (rules : ExitRules) (registry : MarketPairRegistry) (ctx : StrategyContext) :
    List (Sigma fun _ : TokenId => Decimal × Instant) → Store TokenId Instant →
      Option (List OrderIntent × Store TokenId Instant)
  | [], pending => some ([], pending)
  | ⟨tokenId, entry⟩ :: entries, pending => do
    match ← rules.exitOfChecked parse registry ctx pending tokenId entry with
    | none => rules.checkExitsChecked registry ctx entries pending
    | some intent =>
      let (intents, pending) ← rules.checkExitsChecked registry ctx entries (pending.insert tokenId ctx.now)
      some (intent :: intents, pending)

theorem checkExitsChecked_eq (rules : ExitRules) (registry : MarketPairRegistry) (ctx : StrategyContext)
    (entries : List (Sigma fun _ : TokenId => Decimal × Instant)) (pending : Store TokenId Instant) :
    rules.checkExitsChecked parse registry ctx entries pending =
      some (rules.checkExits parse registry ctx entries pending) := by
  induction entries generalizing pending with
  | nil => rfl
  | cons head entries ih =>
    obtain ⟨tokenId, entry⟩ := head
    rw [checkExitsChecked, checkExits, exitOfChecked_eq]
    cases rules.exitOf parse registry ctx pending tokenId entry with
    | none => exact ih pending
    | some intent =>
      dsimp only [Option.bind_eq_bind, Option.bind_some]
      rw [ih]
      rfl

end ExitRules

namespace ExitTracking
variable (parse : String → Option Decimal)

def onTickChecked (x : ExitTracking) (rules : ExitRules) (registry : MarketPairRegistry) (ctx : StrategyContext) :
    Option (List OrderIntent × ExitTracking) :=
  let x := x.cleanUp ctx
  (rules.checkExitsChecked parse registry ctx x.entryTracking.entries x.pendingExit).map fun (intents, pending) =>
    (intents, { x with pendingExit := pending })

theorem onTickChecked_eq (x : ExitTracking) (rules : ExitRules) (registry : MarketPairRegistry)
    (ctx : StrategyContext) :
    x.onTickChecked parse rules registry ctx = some (x.onTick parse rules registry ctx) := by
  rw [onTickChecked, ExitRules.checkExitsChecked_eq]
  rfl

end ExitTracking

section Ticks
variable {σ : Type} (parse : String → Option Decimal)

/-- The tick that the timed strategies share: one that is switched off does nothing. -/
def timedTickChecked (s : σ) (enabled : Bool) (exits : ExitTracking) (withExits : ExitTracking → σ) (rules : ExitRules)
    (registry : MarketPairRegistry) (ctx : StrategyContext) : Option (List OrderIntent × σ) :=
  if enabled = false then some ([], s)
  else (exits.onTickChecked parse rules registry ctx).map fun (intents, exits) => (intents, withExits exits)

theorem timedTickChecked_eq (s : σ) (enabled : Bool) (exits : ExitTracking) (withExits : ExitTracking → σ)
    (rules : ExitRules) (registry : MarketPairRegistry) (ctx : StrategyContext) :
    timedTickChecked parse s enabled exits withExits rules registry ctx =
      some (if enabled = false then ([], s) else (exits.onTick parse rules registry ctx).map id withExits) := by
  rw [timedTickChecked, ExitTracking.onTickChecked_eq]
  split_ifs <;> rfl

def ContrarianStrategy.onTickChecked (s : ContrarianStrategy) (registry : MarketPairRegistry) (ctx : StrategyContext) :
    Option (List OrderIntent × ContrarianStrategy) :=
  timedTickChecked parse s s.enabled s.exits (fun exits => { s with exits := exits }) s.exitRules registry ctx

theorem ContrarianStrategy.onTickChecked_eq (s : ContrarianStrategy) (registry : MarketPairRegistry)
    (ctx : StrategyContext) : s.onTickChecked parse registry ctx = some (s.onTick parse registry ctx) :=
  timedTickChecked_eq parse s _ _ _ _ registry ctx

def TboTrendStrategy.onTickChecked (s : TboTrendStrategy) (registry : MarketPairRegistry) (ctx : StrategyContext) :
    Option (List OrderIntent × TboTrendStrategy) :=
  timedTickChecked parse s s.enabled s.exits (fun exits => { s with exits := exits }) s.exitRules registry ctx

theorem TboTrendStrategy.onTickChecked_eq (s : TboTrendStrategy) (registry : MarketPairRegistry)
    (ctx : StrategyContext) : s.onTickChecked parse registry ctx = some (s.onTick parse registry ctx) :=
  timedTickChecked_eq parse s _ _ _ _ registry ctx

def TbtDivergenceStrategy.onTickChecked (s : TbtDivergenceStrategy) (registry : MarketPairRegistry)
    (ctx : StrategyContext) : Option (List OrderIntent × TbtDivergenceStrategy) :=
  timedTickChecked parse s s.enabled s.exits (fun exits => { s with exits := exits }) s.exitRules registry ctx

theorem TbtDivergenceStrategy.onTickChecked_eq (s : TbtDivergenceStrategy) (registry : MarketPairRegistry)
    (ctx : StrategyContext) : s.onTickChecked parse registry ctx = some (s.onTick parse registry ctx) :=
  timedTickChecked_eq parse s _ _ _ _ registry ctx

end Ticks

end PolyBot
