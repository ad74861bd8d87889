import PolyBot.General.AdditiveRuns
import PolyBot.Strategy.ExitRuns

/-! Two runs of a registered exit strategy, one of which also hears of the purchases of the other strategies. -/

namespace PolyBot
open General.AdditiveRuns AllStrategies

namespace RegisteredStrategy

def receive (parse : String → Option Decimal) (reg : RegisteredStrategy) (e : StrategyEvent) :
    List OrderIntent × RegisteredStrategy :=
  StrategyRouter.call (·.handle parse e) reg

/-- The strategy is switched on, and is no late entry without a stop-loss. -/
def CanSell (reg : RegisteredStrategy) : Prop :=
  reg.enabled = true ∧ reg.strategy.isEnabled = true ∧
    ∀ late, reg.strategy = .lateEntry late → late.config.stopLossPrice ≠ 0

variable {parse : String → Option Decimal} {reg : RegisteredStrategy}

variable (parse) in
/-- Without a stop-loss a late entry sells nothing, and stays without one. -/
theorem lateEntry_without_stopLoss {late : LateEntryStrategy} (hstop : late.config.stopLossPrice = 0)
    (e : StrategyEvent) :
    ((ExitStrategy.lateEntry late).handle parse e).1.filter (·.side = .Sell) = [] ∧
      ∃ late', ((ExitStrategy.lateEntry late).handle parse e).2 = .lateEntry late' ∧
        late'.config.stopLossPrice = 0 := by
  cases e with
  | bookUpdate around marketId tokenId =>
    have hbuys : ∀ i ∈ ((ExitStrategy.lateEntry late).handle parse (.bookUpdate around marketId tokenId)).1,
        i.side = .Buy := fun i hi => (ExitStrategy.onBookUpdate_inv hi).1
    have hconfig := (late.onBookUpdate_tried parse around.registry around.ctx tokenId around.utcNow).config
    refine ⟨List.filter_eq_nil_iff.mpr fun i hi => ?_,
      (late.onBookUpdate parse around.registry tokenId around.ctx around.utcNow).2, rfl, ?_⟩
    · rw [hbuys i hi]
      decide
    · rw [hconfig]
      exact hstop
  | fill f now =>
    refine ⟨rfl, _, rfl, ?_⟩
    unfold LateEntryStrategy.onFill
    split
    · split <;> exact hstop
    · exact hstop
  | tick around =>
    simp only [ExitStrategy.handle, ExitStrategy.onTick, LateEntryStrategy.onTick, Prod.map, hstop]
    split
    · exact ⟨rfl, _, rfl, hstop⟩
    · exact ⟨rfl, _, rfl, hstop⟩

/-- A strategy that cannot sell neither sells on an event nor becomes able to. -/
theorem receive_of_not_canSell (h : ¬reg.CanSell) (e : StrategyEvent) :
    (reg.receive parse e).1.filter (·.side = .Sell) = [] ∧ ¬(reg.receive parse e).2.CanSell := by
  unfold receive StrategyRouter.call
  split_ifs with hoff
  · exact ⟨rfl, h⟩
  · obtain ⟨henabled, hon⟩ := not_or.mp hoff
    have hlate : ∃ late, reg.strategy = .lateEntry late ∧ late.config.stopLossPrice = 0 := by
      by_contra hnone
      exact h ⟨Bool.not_eq_false _ ▸ henabled, Bool.not_eq_false _ ▸ hon,
        fun late hs hstop => hnone ⟨late, hs, hstop⟩⟩
    obtain ⟨late, hs, hstop⟩ := hlate
    obtain ⟨hnone, late', hnext, hstop'⟩ := lateEntry_without_stopLoss parse hstop e
    rw [hs]
    exact ⟨hnone, fun hcan => hcan.2.2 late' hnext hstop'⟩

variable (parse) in
/-- The fill of a purchase changes nothing in a strategy that tracks the token. -/
theorem receive_of_tracked {f : Fill} (hbuy : f.side = .Buy) (htracked : reg.strategy.tracks f.tokenId = true)
    (now : Instant) : (reg.receive parse (.fill f now)).2 = reg := by
  have hexits : ∀ x : ExitTracking, (x.entryTracking.lookup f.tokenId).isSome = true → x.onFill f now = x := by
    intro x hx
    rw [ExitTracking.onFill, hbuy]
    exact if_pos hx
  have hkept : reg.strategy.onFill f now = reg.strategy := by
    cases hs : reg.strategy with
    | contrarian s =>
      rw [hs] at htracked
      exact congrArg (fun x => ExitStrategy.contrarian { s with exits := x }) (hexits s.exits htracked)
    | tboTrend s =>
      rw [hs] at htracked
      exact congrArg (fun x => ExitStrategy.tboTrend { s with exits := x }) (hexits s.exits htracked)
    | tbtDivergence s =>
      rw [hs] at htracked
      exact congrArg (fun x => ExitStrategy.tbtDivergence { s with exits := x }) (hexits s.exits htracked)
    | lateEntry s =>
      rw [hs] at htracked
      rw [ExitStrategy.onFill, LateEntryStrategy.onFill, hbuy]
      exact congrArg _ (if_pos htracked)
  unfold receive StrategyRouter.call
  split_ifs
  · rfl
  · exact congrArg (fun s => { reg with strategy := s }) hkept

end RegisteredStrategy

/-- What happens around the two runs: an event that both see, or the fill of a purchase by another strategy, of which
only the second one hears. -/
inductive TwoRunEvent where
  | shared (e : StrategyEvent)
  | foreign (f : Fill) (now : Instant) (buys : f.side = .Buy)

structure TwoRuns where
  without : RegisteredStrategy
  heard : RegisteredStrategy

namespace TwoRuns
variable (parse : String → Option Decimal)

def step (runs : TwoRuns) : TwoRunEvent → TwoRuns
  | .shared e => ⟨(runs.without.receive parse e).2, (runs.heard.receive parse e).2⟩
  | .foreign f now _ => ⟨runs.without, (runs.heard.receive parse (.fill f now)).2⟩

def SameExits (runs : TwoRuns) : TwoRunEvent → Prop
  | .shared e => (runs.heard.receive parse e).1.filter (·.side = .Sell) =
      (runs.without.receive parse e).1.filter (·.side = .Sell)
  | .foreign f now _ => (runs.heard.receive parse (.fill f now)).1.filter (·.side = .Sell) = []

/-- It is no purchase by another strategy of a token that a strategy which can sell does not track yet. -/
def ForeignTracked (runs : TwoRuns) : TwoRunEvent → Prop
  | .shared _ => True
  | .foreign f _ _ => runs.heard.CanSell → runs.heard.strategy.tracks f.tokenId = true

def Aligned (runs : TwoRuns) : Prop :=
  runs.heard = runs.without ∨ ¬runs.heard.CanSell ∧ ¬runs.without.CanSell

variable {parse}

theorem Aligned.step {runs : TwoRuns} (h : runs.Aligned) {e : TwoRunEvent} (htracked : runs.ForeignTracked e) :
    (runs.step parse e).Aligned := by
  cases e with
  | shared e =>
    rcases h with heq | ⟨hheard, hwithout⟩
    · exact .inl (congrArg (fun reg => (reg.receive parse e).2) heq)
    · exact .inr ⟨(RegisteredStrategy.receive_of_not_canSell hheard e).2,
        (RegisteredStrategy.receive_of_not_canSell hwithout e).2⟩
  | foreign f now hbuy =>
    by_cases hcan : runs.heard.CanSell
    · have hsame := RegisteredStrategy.receive_of_tracked parse hbuy (htracked hcan) now
      exact .inl (hsame.trans (h.resolve_right fun hcannot => hcannot.1 hcan))
    · have hwithout : ¬runs.without.CanSell := h.elim (fun heq => heq ▸ hcan) And.right
      exact .inr ⟨(RegisteredStrategy.receive_of_not_canSell hcan (.fill f now)).2, hwithout⟩

theorem Aligned.sameExits {runs : TwoRuns} (h : runs.Aligned) (e : TwoRunEvent) : runs.SameExits parse e := by
  cases e with
  | shared e =>
    rcases h with heq | ⟨hheard, hwithout⟩
    · exact congrArg (fun reg => (reg.receive parse e).1.filter (·.side = .Sell)) heq
    · exact (RegisteredStrategy.receive_of_not_canSell hheard e).1.trans
        (RegisteredStrategy.receive_of_not_canSell hwithout e).1.symm
  | foreign f now hbuy =>
    change (StrategyRouter.call _ _).1.filter _ = []
    unfold StrategyRouter.call
    split_ifs <;> rfl

/-- A strategy that is told of no purchase by others but of tokens that it tracks exits as if it had not been told. -/
theorem foreign_purchases_change_no_exit (parse : String → Option Decimal) (reg : RegisteredStrategy)
    (events : List TwoRunEvent) (h : Throughout (step parse) ForeignTracked ⟨reg, reg⟩ events) :
    Throughout (step parse) (SameExits parse) ⟨reg, reg⟩ events :=
  throughout_imp Aligned (fun _ _ hruns htracked => hruns.step htracked) (fun _ e hruns _ => hruns.sameExits e)
    (.inl rfl) h

private def legText (text : String) : Option Decimal :=
  if text = "0.40" then some (40 / 100)
  else if text = "0.42" then some (42 / 100)
  else if text = "1000" then some 1000
  else none

private def legFill : Fill := ⟨"f1", "o1", "yes", .Buy, 48 / 100, 20, 0, none, 0⟩

private def legHeld : Surroundings where
  registry := MarketPairRegistry.new.register (MarketPair.new "m1" "yes" "no")
  prices := ∅
  ctx := {
    books := (∅ : OrderBookState).insert "yes" ⟨"yes", "m1", [⟨"0.40", "1000"⟩], [⟨"0.42", "1000"⟩], none, none⟩
    ledger := { Ledger.new 1000 with positions := Positions.new.applyFill legFill }
    now := Duration.fromSecs 1 }
  utcNow := 0
  uuid := "1"

/-- The contrarian strategy bought the token itself before it hears of the leg. -/
theorem tracked_purchase_changes_no_exit :
    Throughout (step legText) (SameExits legText)
      ⟨⟨.contrarian (.withConfig .default), true⟩, ⟨.contrarian (.withConfig .default), true⟩⟩
      [.shared (.fill legFill 0), .foreign legFill 1 rfl, .shared (.tick legHeld)] :=
  foreign_purchases_change_no_exit legText _ _ ⟨trivial, fun _ => by decide, trivial, trivial⟩

/-- A leg bought at 0.48 by another strategy and now worth 0.41 is sold on the stop-loss of the contrarian strategy. -/
theorem foreign_leg_is_sold :
    ¬Throughout (step legText) (SameExits legText)
      ⟨⟨.contrarian (.withConfig .default), true⟩, ⟨.contrarian (.withConfig .default), true⟩⟩
      [.foreign legFill 0 rfl, .shared (.tick legHeld)] := by
  rintro ⟨-, hsame, -⟩
  have hsold : ((RegisteredStrategy.receive legText
      ((RegisteredStrategy.receive legText ⟨.contrarian (.withConfig .default), true⟩ (.fill legFill 0)).2)
      (.tick legHeld)).1.filter (·.side = .Sell)).length = 1 := by decide +kernel
  have hquiet : (RegisteredStrategy.receive legText ⟨.contrarian (.withConfig .default), true⟩
      (.tick legHeld)).1.filter (·.side = .Sell) = [] := by decide +kernel
  have hnone := congrArg List.length (hsame.trans hquiet)
  exact absurd (hsold.symm.trans hnone) (by decide)

end TwoRuns

end PolyBot
