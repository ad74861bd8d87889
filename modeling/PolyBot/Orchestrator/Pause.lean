import PolyBot.General.AdditiveRuns
import PolyBot.Orchestrator.Handlers

/-! The pause: which events generate intents while it lasts. -/

namespace PolyBot.Bot.Pause
open General.AdditiveRuns AllStrategies Handlers Handlers.State

variable {F : Type*} (parse : String → Option Decimal) (assetSymbol : MarketPair → Option String)
  (tryFrom : F → Option Decimal)

/-- One leg of a pair is filled by half or more, the other is not, and there is a bid to sell the first one at. -/
def UnwindDue (ctx : StrategyContext) (p : PendingArb) : Prop :=
  let yes := (ctx.position p.yesTokenId).shares
  let no := (ctx.position p.noTokenId).shares
  (p.size / 2 ≤ yes ∧ no < p.size / 2 ∧ (ctx.bestBid parse p.yesTokenId).isSome = true) ∨
    (yes < p.size / 2 ∧ p.size / 2 ≤ no ∧ (ctx.bestBid parse p.noTokenId).isSome = true)

def Silent (s : State) (event : Event F) : Prop :=
  s.controls.isPaused = true → (∀ moment, event ≠ .shutdown moment) → s.generated parse assetSymbol tryFrom event = []

/-- At a tick of a paused bot, no maker strategy that is enabled has an expired pair with an unwind due. -/
def QuietTick (s : State) (event : Event F) : Prop :=
  ∀ moment, event = .tick moment → s.controls.isPaused = true →
    ∀ reg ∈ s.router, reg.isEnabled = true → ∀ maker, reg.strategy = .makerRebateArb maker →
      ∀ p ∈ maker.expiredArbs moment.now, ¬UnwindDue parse (s.context moment.now) p

instance (ctx : StrategyContext) (p : PendingArb) : Decidable (UnwindDue parse ctx p) := inferInstanceAs (Decidable (_ ∨ _))

variable {parse assetSymbol tryFrom} {s : State}

theorem unwindLeg_eq_nil_iff {ctx : StrategyContext} {p : PendingArb} {tokenId : TokenId} {shares : Decimal} :
    MakerRebateArbStrategy.unwindLeg parse ctx p tokenId shares = [] ↔ ¬(ctx.bestBid parse tokenId).isSome = true := by
  unfold MakerRebateArbStrategy.unwindLeg
  cases ctx.bestBid parse tokenId <;> simp

/-- An expired pair emits nothing exactly if no unwind is due. -/
theorem expirySales_eq_nil_iff {ctx : StrategyContext} {p : PendingArb} :
    MakerRebateArbStrategy.expirySales parse ctx p = [] ↔ ¬UnwindDue parse ctx p := by
  unfold MakerRebateArbStrategy.expirySales UnwindDue
  dsimp only
  split_ifs with hyes hno
  · rw [unwindLeg_eq_nil_iff, not_iff_not]
    have hother : ¬(ctx.position p.yesTokenId).shares < p.size / 2 := not_lt.mpr hyes.1
    simp only [hyes.1, hyes.2, hother, true_and, false_and, or_false]
  · have hother : ¬p.size / 2 ≤ (ctx.position p.yesTokenId).shares := not_le.mpr hno.1
    rw [unwindLeg_eq_nil_iff, not_iff_not]
    simp only [hno.1, hno.2, hother, true_and, false_and, false_or]
  · refine iff_of_true rfl ?_
    rintro (⟨hfilled, hless, -⟩ | ⟨hless, hfilled, -⟩)
    · exact hyes ⟨hfilled, hless⟩
    · exact hno ⟨hless, hfilled⟩

/-- Without tracked entries, a tick generates nothing exactly if no enabled maker strategy has an unwind due. -/
theorem handleTick_eq_nil_iff (parse : String → Option Decimal)
    (huntracked : ∀ reg ∈ s.router, reg.strategy.Untracked) (moment : Moment) :
    (s.handleTick parse moment).1 = [] ↔
      ∀ reg ∈ s.router, reg.isEnabled = true → ∀ maker, reg.strategy = .makerRebateArb maker →
        ∀ p ∈ maker.expiredArbs moment.now, ¬UnwindDue parse (s.context moment.now) p := by
  change (AllStrategies.StrategyRouter.dispatch _ _ s.router).1 = [] ↔ _
  rw [AllStrategies.StrategyRouter.dispatch_eq_nil_iff]
  refine forall₂_congr fun reg hreg => imp_congr_right fun henabled => ?_
  have hmaker : ∀ maker, reg.strategy = .makerRebateArb maker →
      ((reg.strategy.onTick parse (s.surroundings moment)).1 = [] ↔
        ∀ p ∈ maker.expiredArbs moment.now, ¬UnwindDue parse (s.context moment.now) p) := by
    intro maker hstrategy
    rw [AllStrategies.RegisteredStrategy.onTick_maker henabled hstrategy (s.surroundings moment),
      List.flatMap_eq_nil_iff]
    exact forall₂_congr fun p _ => expirySales_eq_nil_iff
  constructor
  · intro hnone maker hstrategy
    exact (hmaker maker hstrategy).mp hnone
  · intro hquiet
    rcases ((huntracked reg hreg).onTick parse (s.surroundings moment)).2 with hnone | ⟨maker, hstrategy⟩
    · exact hnone
    · exact (hmaker maker hstrategy).mpr (hquiet maker hstrategy)

/-- The step lemma. -/
theorem silent_iff (huntracked : ∀ reg ∈ s.router, reg.strategy.Untracked) (event : Event F) :
    Silent parse assetSymbol tryFrom s event ↔ QuietTick parse s event := by
  cases event with
  | tick moment =>
    have hiff := handleTick_eq_nil_iff parse huntracked moment
    constructor
    · rintro hsilent _ ⟨⟩ hpaused
      exact hiff.mp (hsilent hpaused nofun)
    · intro hquiet hpaused _
      exact hiff.mpr (hquiet moment rfl hpaused)
  | marketMessage msg moment =>
    refine iff_of_true (fun hpaused _ => ?_) nofun
    cases msg with
    | Connected | Reconnecting => rfl
    | Book msg => exact congrArg Prod.fst (if_pos hpaused)
  | shutdown moment => exact iff_of_true (fun _ hnot => absurd rfl (hnot moment)) nofun
  | _ => exact iff_of_true (fun _ _ => rfl) nofun

/-- In every run of a bot from its start, no event but the shutdown generates intents during a pause, exactly if no
tick of a pause finds an expired pair with an unwind due in an enabled maker strategy. -/
theorem pause_is_effective_iff (hbuilt : s.Built) (events : List (Event F)) :
    (∀ before event, before ++ [event] <+: events →
        Silent parse assetSymbol tryFrom (before.foldl (step parse assetSymbol tryFrom) s) event) ↔
      Throughout (step parse assetSymbol tryFrom) (QuietTick parse) s events := by
  rw [← throughout_iff_prefixes]
  exact throughout_congr (fun s => ∀ reg ∈ s.router, reg.strategy.Untracked)
    (fun s event h _ => untracked_step h event) (fun s event h => silent_iff h event) hbuilt.untracked

private def readText (text : String) : Option Decimal :=
  if text = "0.48" then some (48 / 100)
  else if text = "0.49" then some (49 / 100)
  else if text = "1000" then some 1000
  else none

private def makerConfig : Config :=
  { Config.default with maxBetUsd := 5, mathArbEnabled := false, makerRebateEnabled := true }

private def registry : MarketPairRegistry := MarketPairRegistry.new.register (.new "m1" "up" "down")

private def makerBot : State := .new makerConfig 1000 registry

private def atSecs (secs : ℕ) : Moment := ⟨Duration.fromSecs secs, secs, "1", ∅⟩

private def quoted (tokenId : TokenId) (secs : ℕ) : Event Unit :=
  .marketMessage (.Book (.snapshot tokenId "m1" [⟨"0.48", "1000"⟩] [⟨"0.49", "1000"⟩] none none)) (atSecs secs)

private def bought (tokenId : TokenId) (tradeId : String) : Event Unit :=
  .userMessage (.Trade ⟨tradeId, "o1", tokenId, "BUY", "5.20", "0.48", "0", "MATCHED", "TAKER"⟩)

private def after (events : List (Event Unit)) : State :=
  events.foldl (step readText (fun _ => none) fun _ => none) makerBot

private def expiredPairs (s : State) (moment : Moment) : List PendingArb :=
  s.router.flatMap fun reg =>
    match reg.strategy with
    | .makerRebateArb maker => maker.expiredArbs moment.now
    | _ => []

private theorem quietTick_of_expiredPairs {moment : Moment}
    (h : ∀ p ∈ expiredPairs s moment, ¬UnwindDue readText (s.context moment.now) p) :
    QuietTick readText s (.tick moment : Event Unit) := by
  rintro _ ⟨⟩ - reg hreg - maker hmaker p hp
  refine h p (List.mem_flatMap.mpr ⟨reg, hreg, ?_⟩)
  rw [hmaker]
  exact hp

/-- A pair is posted, both legs of it are bought, the bot is paused, and another quote and the tick after the time to
live find it silent. -/
theorem filled_pair_expires_silently :
    let posted := [quoted "up" 0, quoted "down" 0, bought "up" "t1", bought "down" "t2", .pause, quoted "up" 60]
    (after posted).controls.isPaused = true ∧ (expiredPairs (after posted) (atSecs 120)).length = 1 ∧
      ∀ before event, before ++ [event] <+: posted ++ [.tick (atSecs 120)] →
        Silent readText (fun _ => none) (fun _ : Unit => none) (after before) event := by
  intro posted
  refine ⟨by decide +kernel, by decide +kernel, ?_⟩
  have hquiet : Throughout (step readText (fun _ => none) fun _ : Unit => none) (QuietTick readText) makerBot
      (posted ++ [.tick (atSecs 120)]) := by
    refine ⟨nofun, nofun, nofun, nofun, nofun, nofun, ?_, trivial⟩
    exact quietTick_of_expiredPairs (s := after posted) (by decide +kernel)
  exact (pause_is_effective_iff (built_new makerConfig 1000 registry) _).mpr hquiet

/-- A pair is posted, one leg of it is bought, the bot is paused, and the tick after the time to live sells the leg. -/
theorem expiry_sells_during_pause :
    let paused := after [quoted "up" 0, quoted "down" 0, bought "up" "t1", .pause]
    paused.controls.isPaused = true ∧
      (paused.executed readText (fun _ => none) (fun _ : Unit => none) (.tick (atSecs 120))).map
        (fun i => (i.side, i.tokenId, i.price, i.size)) = [(.Sell, "up", 48 / 100, 52 / 10)] ∧
      ¬Silent readText (fun _ => none) (fun _ : Unit => none) paused (.tick (atSecs 120)) := by
  intro paused
  have hpaused : paused.controls.isPaused = true := by decide +kernel
  have hgenerated : paused.generated readText (fun _ => none) (fun _ : Unit => none) (.tick (atSecs 120)) ≠ [] := by
    decide +kernel
  exact ⟨hpaused, by decide +kernel, fun hsilent => hgenerated (hsilent hpaused nofun)⟩

end PolyBot.Bot.Pause
