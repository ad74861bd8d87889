import PolyBot.Orchestrator.Handlers

/-! The daily loss limit over runs of the bot. Nothing but the breaker stops the execution of intents. -/

namespace PolyBot.Bot.DailyLoss
open AllStrategies Handlers Handlers.State

def OpensOrAdds (p : Position) (i : OrderIntent) : Prop :=
  (i.side = .Buy ∧ (0 ≤ p.shares ∨ -p.shares < i.size)) ∨ (i.side = .Sell ∧ (p.shares ≤ 0 ∨ p.shares < i.size))

instance (p : Position) (i : OrderIntent) : Decidable (OpensOrAdds p i) := inferInstanceAs (Decidable (_ ∨ _))

/-- Realized and unrealized profit together are below the limit. -/
def LossExceeded (s : State) : Prop :=
  s.ledger.positions.totalRealizedPnl + s.ledger.positions.totalUnrealizedPnl <
    -s.controls.runtimeConfig.maxDailyLossUsd

instance (s : State) : Decidable (LossExceeded s) := inferInstanceAs (Decidable (_ < _))

variable {F : Type*} (parse : String → Option Decimal) (assetSymbol : MarketPair → Option String)
  (tryFrom : F → Option Decimal)

def run (s : State) (events : List (Event F)) : State := events.foldl (step parse assetSymbol tryFrom) s

/-- A heartbeat has found the loss exceeded, and nobody has intervened since then. -/
def Stopped (manual : Event F → Prop) (s : State) (before : List (Event F)) : Prop :=
  ∃ earlier now later, before = earlier ++ .heartbeat now :: later ∧
    LossExceeded (run parse assetSymbol tryFrom s (earlier ++ [.heartbeat now])) ∧ ∀ event ∈ later, ¬manual event

def OpensNothing (s : State) (event : Event F) : Prop :=
  ∀ i ∈ s.executed parse assetSymbol tryFrom event, ¬OpensOrAdds (s.ledger.getPosition i.tokenId) i

/-- When intents that open a position or add to one are to be processed, the breaker refuses, or there is nothing to
trade with. -/
def RefusesOpening (s : State) (event : Event F) : Prop :=
  (∃ i ∈ s.generated parse assetSymbol tryFrom event, OpensOrAdds (s.ledger.getPosition i.tokenId) i) →
    ¬s.Admits event.now

variable {parse assetSymbol tryFrom} {s : State}

/-- The step lemma. -/
theorem opensNothing_iff (event : Event F) :
    OpensNothing parse assetSymbol tryFrom s event ↔ RefusesOpening parse assetSymbol tryFrom s event := by
  constructor
  · rintro hnothing ⟨i, hi, hopens⟩ hadmits
    exact hnothing i (mem_executed_iff.mpr ⟨hi, hadmits⟩) hopens
  · intro hrefuses i hi hopens
    obtain ⟨hgenerated, hadmits⟩ := mem_executed_iff.mp hi
    exact hrefuses ⟨i, hgenerated, hopens⟩ hadmits

/-- In every run, from a heartbeat with the loss exceeded until somebody intervenes, nothing is executed that opens a
position or adds to one, exactly if the breaker happens to refuse whenever such intents are processed. -/
theorem loss_stops_opening_iff (manual : Event F → Prop) (s : State) (events : List (Event F)) :
    (∀ before event, before ++ [event] <+: events → Stopped parse assetSymbol tryFrom manual s before → ¬manual event →
        OpensNothing parse assetSymbol tryFrom (run parse assetSymbol tryFrom s before) event) ↔
      ∀ before event, before ++ [event] <+: events → Stopped parse assetSymbol tryFrom manual s before →
        ¬manual event → RefusesOpening parse assetSymbol tryFrom (run parse assetSymbol tryFrom s before) event := by
  refine forall₄_congr fun before event _ _ => imp_congr_right fun _ => ?_
  exact opensNothing_iff event

private def priceOf (text : String) : Option Decimal :=
  if text = "0.48" then some (48 / 100)
  else if text = "0.49" then some (49 / 100)
  else if text = "1000" then some 1000
  else none

private def lossConfig : Config :=
  { Config.default with maxBetUsd := 5, mathArbEnabled := false, makerRebateEnabled := true }

private def pairs : MarketPairRegistry := MarketPairRegistry.new.register (.new "m1" "up" "down")

private def losingBot : State := .new lossConfig 1000 pairs

private def quote (tokenId : TokenId) : Event Unit :=
  .marketMessage (.Book (.snapshot tokenId "m1" [⟨"0.48", "1000"⟩] [⟨"0.49", "1000"⟩] none none)) ⟨0, 0, "1", ∅⟩

private def losses : List (Event Unit) :=
  [quote "up", .userMessage (.Trade ⟨"t1", "o1", "up", "BUY", "1000", "0.60", "0", "MATCHED", "TAKER"⟩), .heartbeat 0]

private def stopped : State := run priceOf (fun _ => none) (fun _ : Unit => none) losingBot losses

private theorem losses_stop (manual : Event Unit → Prop) :
    Stopped priceOf (fun _ => none) (fun _ : Unit => none) manual losingBot losses := by
  have hloss : LossExceeded stopped := by decide +kernel
  exact ⟨losses.dropLast, 0, [], rfl, hloss, fun _ hmem => by cases hmem⟩

/-- A thousand shares bought at 0.60 and marked at 0.485 lose 115 dollars, and the next quote is still bought. -/
theorem losing_bot_buys :
    losingBot.Built ∧ Stopped priceOf (fun _ => none) (fun _ : Unit => none) (fun _ => False) losingBot losses ∧
      (stopped.executed priceOf (fun _ => none) (fun _ : Unit => none) (quote "down")).map (·.tokenId) =
        ["up", "down"] ∧
      ¬OpensNothing priceOf (fun _ => none) (fun _ : Unit => none) stopped (quote "down") := by
  have hopens : ∃ i ∈ stopped.executed priceOf (fun _ => none) (fun _ : Unit => none) (quote "down"),
      OpensOrAdds (stopped.ledger.getPosition i.tokenId) i := by
    decide +kernel
  obtain ⟨i, hi, hadds⟩ := hopens
  exact ⟨built_new lossConfig 1000 pairs, losses_stop _, by decide +kernel, fun hnothing => hnothing i hi hadds⟩

end PolyBot.Bot.DailyLoss
