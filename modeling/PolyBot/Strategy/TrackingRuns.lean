import PolyBot.Strategy.ExitRuns

/-! How long the exit strategies track a position: over runs in which the ledger books every fill before the strategy
hears of it. -/

namespace PolyBot
open General.KeyedStore AllStrategies

def AllStrategies.StrategyEvent.withLedger (l : Ledger) : StrategyEvent → StrategyEvent
  | bookUpdate around marketId tokenId =>
    bookUpdate { around with ctx := { around.ctx with ledger := l } } marketId tokenId
  | fill f now => fill f now
  | tick around => tick { around with ctx := { around.ctx with ledger := l } }

theorem isSome_lookup_insert {α : Type} {tracking : Store TokenId α} {t u : TokenId} {entry : α}
    (htracked : (tracking.lookup t).isSome = true) : ((tracking.insert u entry).lookup t).isSome = true :=
  AList.lookup_isSome.mpr ((AList.mem_insert _).mpr (.inr (AList.lookup_isSome.mp htracked)))

theorem isSome_lookup_erase {α : Type} {tracking : Store TokenId α} {t u : TokenId} (hne : u ≠ t)
    (htracked : (tracking.lookup t).isSome = true) : ((tracking.erase u).lookup t).isSome = true := by
  rw [AList.lookup_erase_ne hne.symm]
  exact htracked

/-- The clean-up of a tick keeps the entries of open positions. -/
theorem isSome_lookup_retain {α : Type} {tracking : Store TokenId α} {t : TokenId} {ctx : StrategyContext}
    (htracked : (tracking.lookup t).isSome = true) (hopen : (ctx.position t).isFlat = false) :
    ((retain (fun tokenId _ => !(ctx.position tokenId).isFlat) tracking).lookup t).isSome = true := by
  obtain ⟨entry, hentry⟩ := Option.isSome_iff_exists.mp htracked
  rw [lookup_retain, hentry, Option.filter_some, hopen]
  rfl

namespace ExitStrategy
variable {parse : String → Option Decimal} {registry : MarketPairRegistry} {t : TokenId}

theorem tracks_onBookUpdate (s : ExitStrategy) (tokenId : TokenId) (ctx : StrategyContext) (utcNow : ℕ) :
    (s.onBookUpdate parse registry tokenId ctx utcNow).2.tracks t = s.tracks t := by
  cases s with
  | contrarian s | tboTrend s | tbtDivergence s =>
    exact congrArg (fun x : ExitTracking => (x.entryTracking.lookup t).isSome)
      (s.exits_onBookUpdate parse registry tokenId ctx)
  | lateEntry s =>
    exact congrArg (fun tracking => (AList.lookup t tracking).isSome)
      (s.entryTracking_onBookUpdate parse registry tokenId ctx utcNow)

theorem timed_tracks {s : ExitStrategy} {x : TimedExits} (h : s.timed = some x) :
    s.tracks t = (x.exits.entryTracking.lookup t).isSome := by
  cases s with
  | contrarian s | tboTrend s | tbtDivergence s =>
    cases h
    rfl
  | lateEntry s => cases h

variable (parse registry) in
theorem tracks_onTick {s : ExitStrategy} {ctx : StrategyContext} (htracked : s.tracks t = true)
    (hopen : (ctx.position t).isFlat = false) : (s.onTick parse registry ctx).2.tracks t = true := by
  cases hx : s.timed with
  | some x =>
    rw [timed_tracks hx] at htracked
    rw [timed_tracks (timed_onTick parse registry hx ctx).2, TimedExits.onTick]
    split_ifs
    · exact htracked
    · exact isSome_lookup_retain htracked hopen
  | none =>
    obtain ⟨late, rfl⟩ := eq_lateEntry hx
    simp only [onTick, LateEntryStrategy.onTick, Prod.map]
    split_ifs
    · exact htracked
    · exact isSome_lookup_retain htracked hopen
    · exact isSome_lookup_retain htracked hopen

/-- Only the fill of a sale takes the tracking of a token away. -/
theorem tracks_onFill_of_tracked {s : ExitStrategy} {f : Fill} (now : Instant) (htracked : s.tracks t = true)
    (hsale : ¬IsSale t (.fill f now)) : (s.onFill f now).tracks t = true := by
  have htracking : ∀ x : ExitTracking, (x.entryTracking.lookup t).isSome = true →
      ((x.onFill f now).entryTracking.lookup t).isSome = true := by
    intro x hx
    unfold ExitTracking.onFill
    split
    · split
      · exact hx
      · exact isSome_lookup_insert hx
    · rename_i hsell
      exact isSome_lookup_erase (fun heq => hsale ⟨hsell, heq⟩) hx
  cases s with
  | contrarian s | tboTrend s | tbtDivergence s => exact htracking s.exits htracked
  | lateEntry s =>
    rw [tracks] at htracked
    rw [onFill, tracks]
    unfold LateEntryStrategy.onFill
    split
    · split
      · exact htracked
      · exact isSome_lookup_insert htracked
    · rename_i hsell
      exact isSome_lookup_erase (fun heq => hsale ⟨hsell, heq⟩) htracked

/-- The fill of a sale ends the tracking, however much it leaves of the position. -/
theorem not_tracks_onFill (s : ExitStrategy) {f : Fill} (hsell : f.side = .Sell) (now : Instant) :
    (s.onFill f now).tracks f.tokenId = false := by
  have htracking : ∀ x : ExitTracking, ((x.onFill f now).entryTracking.lookup f.tokenId).isSome = false := by
    intro x
    rw [ExitTracking.onFill, hsell]
    dsimp only
    rw [AList.lookup_erase]
    rfl
  cases s with
  | contrarian s | tboTrend s | tbtDivergence s => exact htracking s.exits
  | lateEntry s =>
    rw [onFill, LateEntryStrategy.onFill, hsell, tracks, AList.lookup_erase]
    rfl

end ExitStrategy

structure TrackedRun where
  strategy : ExitStrategy
  ledger : Ledger

namespace TrackedRun

def step (parse : String → Option Decimal) (run : TrackedRun) (e : StrategyEvent) : TrackedRun where
  strategy := run.strategy.step parse (e.withLedger run.ledger)
  ledger := match e with
    | .fill f _ => run.ledger.processFill f
    | .bookUpdate _ _ _ | .tick _ => run.ledger

def after (parse : String → Option Decimal) (run : TrackedRun) (events : List StrategyEvent) : TrackedRun :=
  events.foldl (step parse) run

def IsOpen (run : TrackedRun) (t : TokenId) : Prop := (run.ledger.getPosition t).isFlat = false

instance (run : TrackedRun) (t : TokenId) : Decidable (run.IsOpen t) := inferInstanceAs (Decidable (_ = false))

/-- A purchase opens the position of its token, which then stays open over some events. -/
structure OpenedBy (parse : String → Option Decimal) (run : TrackedRun) (f : Fill) (now : Instant)
    (between : List StrategyEvent) : Prop where
  buys : f.side = .Buy
  flat : ¬run.IsOpen f.tokenId
  stays : ∀ p, p <+: between → (run.after parse (.fill f now :: p)).IsOpen f.tokenId

/-- Every position that a purchase has opened is tracked as long as it is open. -/
def KeptWhileOpen (parse : String → Option Decimal) (run : TrackedRun) (events : List StrategyEvent) : Prop :=
  ∀ before f now between later, events = before ++ .fill f now :: (between ++ later) →
    (run.after parse before).OpenedBy parse f now between →
      ((run.after parse before).after parse (.fill f now :: between)).strategy.tracks f.tokenId = true

/-- No sale of a position that a purchase has opened leaves a part of it open. -/
def SoldInFull (parse : String → Option Decimal) (run : TrackedRun) (events : List StrategyEvent) : Prop :=
  ∀ before f now between g now' later,
    events = before ++ .fill f now :: (between ++ .fill g now' :: later) →
    (run.after parse before).OpenedBy parse f now between → g.side = .Sell → g.tokenId = f.tokenId →
      ¬((run.after parse before).after parse (.fill f now :: (between ++ [.fill g now']))).IsOpen f.tokenId

variable {parse : String → Option Decimal} {t : TokenId}

theorem after_append (run : TrackedRun) (events events' : List StrategyEvent) :
    run.after parse (events ++ events') = (run.after parse events).after parse events' :=
  List.foldl_append

/-- An event that sells nothing of a tracked position that is open leaves it tracked. -/
theorem tracks_step {run : TrackedRun} {e : StrategyEvent} (htracked : run.strategy.tracks t = true)
    (hopen : run.IsOpen t) (hsale : ¬ExitStrategy.IsSale t e) : (run.step parse e).strategy.tracks t = true := by
  cases e with
  | bookUpdate around marketId tokenId =>
    exact (run.strategy.tracks_onBookUpdate tokenId _ around.utcNow).trans htracked
  | fill f now => exact ExitStrategy.tracks_onFill_of_tracked now htracked hsale
  | tick around => exact ExitStrategy.tracks_onTick parse around.registry htracked hopen

/-- The tracking lasts over events that sell a position in full only. -/
theorem tracks_after {run : TrackedRun} {f : Fill} {now : Instant} {between : List StrategyEvent}
    (hopened : run.OpenedBy parse f now between)
    (hsold : ∀ p g now', p ++ [.fill g now'] <+: between → g.side = .Sell → g.tokenId = f.tokenId →
      ¬(run.after parse (.fill f now :: (p ++ [.fill g now']))).IsOpen f.tokenId) :
    (run.after parse (.fill f now :: between)).strategy.tracks f.tokenId = true := by
  induction between using List.reverseRecOn with
  | nil => exact run.strategy.tracks_onFill hopened.buys now
  | append_singleton between e ih =>
    have hprefix : between <+: between ++ [e] := List.prefix_append _ _
    have htracked := ih ⟨hopened.buys, hopened.flat, fun p hp => hopened.stays p (hp.trans hprefix)⟩
      fun p g now' hp => hsold p g now' (hp.trans hprefix)
    have hopen := hopened.stays between hprefix
    rw [← List.cons_append, after_append]
    refine tracks_step htracked hopen fun hsale => ?_
    cases e with
    | fill g now' =>
      exact hsold between g now' List.prefix_rfl hsale.1 hsale.2 (hopened.stays _ List.prefix_rfl)
    | bookUpdate _ _ _ | tick _ => exact hsale

/-- Positions are tracked as long as they are open exactly if sales never leave a part of one. -/
theorem kept_while_open_iff (parse : String → Option Decimal) (run : TrackedRun) (events : List StrategyEvent) :
    run.KeptWhileOpen parse events ↔ run.SoldInFull parse events := by
  constructor
  · intro h before f now between g now' later heq hopened hsell htoken hopen
    have hkept := h before f now (between ++ [.fill g now']) later (by simpa using heq)
      ⟨hopened.buys, hopened.flat, fun p hp => ?_⟩
    · rw [← List.cons_append, after_append] at hkept
      have hended := ((run.after parse before).after parse (.fill f now :: between)).strategy.not_tracks_onFill
        hsell now'
      rw [htoken] at hended
      exact Bool.noConfusion (hended.symm.trans hkept)
    · rcases List.prefix_concat_iff.mp hp with rfl | hp
      · exact hopen
      · exact hopened.stays p hp
  · intro h before f now between later heq hopened
    refine tracks_after hopened fun p g now' hp hsell htoken => ?_
    obtain ⟨rest, rfl⟩ := hp
    refine h before f now p g now' (rest ++ later) (by simpa using heq) ⟨hopened.buys, hopened.flat, fun q hq => ?_⟩
      hsell htoken
    exact hopened.stays q (hq.trans (by simp))

private def entryFill : Fill := ⟨"f1", "o1", "yes", .Buy, 1 / 2, 100, 0, none, 0⟩
private def partialExit : Fill := ⟨"f2", "o2", "yes", .Sell, 2 / 5, 40, 0, none, 0⟩

private def KeptWhenSoldInPart (s : ExitStrategy) : Prop :=
  (TrackedRun.mk s (.new 1000)).KeptWhileOpen (fun _ => none) [.fill entryFill 0, .fill partialExit 1]

private theorem not_keptWhenSoldInPart {s : ExitStrategy}
    (hended : ((s.onFill entryFill 0).onFill partialExit 1).tracks "yes" = false) : ¬KeptWhenSoldInPart s := by
  intro h
  have hbought : (((Ledger.new 1000).processFill entryFill).getPosition "yes").isFlat = false := by decide +kernel
  have hleft : ((((Ledger.new 1000).processFill entryFill).processFill partialExit).getPosition "yes").isFlat =
      false := by decide +kernel
  have hflat : ((Ledger.new 1000).getPosition "yes").isFlat = true := by decide +kernel
  have hkept := h [] entryFill 0 [.fill partialExit 1] [] rfl
    ⟨rfl, fun hopen => Bool.noConfusion (hflat.symm.trans hopen), fun p hp => ?_⟩
  · exact Bool.noConfusion (hended.symm.trans hkept)
  · rcases List.prefix_cons_iff.mp hp with rfl | ⟨q, rfl, hq⟩
    · exact hbought
    · rw [List.prefix_nil.mp hq]
      exact hleft

/-- Whichever strategy has bought a hundred shares, the sale of forty of them leaves sixty that it does not track. -/
theorem partial_exit_ends_tracking :
    ¬KeptWhenSoldInPart (.contrarian (.withConfig .default)) ∧
      ¬KeptWhenSoldInPart (.tboTrend (.withConfig .default)) ∧
      ¬KeptWhenSoldInPart (.tbtDivergence (.withConfig .default)) ∧
      ¬KeptWhenSoldInPart (.lateEntry (.withConfig .default)) :=
  ⟨not_keptWhenSoldInPart (by decide +kernel), not_keptWhenSoldInPart (by decide +kernel),
    not_keptWhenSoldInPart (by decide +kernel), not_keptWhenSoldInPart (by decide +kernel)⟩

end TrackedRun

end PolyBot
