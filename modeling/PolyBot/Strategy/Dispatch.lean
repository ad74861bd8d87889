import PolyBot.Strategy.Contrarian
import PolyBot.Strategy.LateEntry
import PolyBot.Strategy.Router
import PolyBot.Strategy.TboTrend
import PolyBot.Strategy.TbtDivergence

/-! The router's dispatch of book updates, fills and ticks to the strategies that exit their own positions. -/

namespace PolyBot
open General.KeyedStore

inductive ExitStrategy where
  | contrarian (s : ContrarianStrategy)
  | tboTrend (s : TboTrendStrategy)
  | tbtDivergence (s : TbtDivergenceStrategy)
  | lateEntry (s : LateEntryStrategy)

namespace ExitStrategy

def name : ExitStrategy → String
  | contrarian _ => ContrarianStrategy.name
  | tboTrend _ => TboTrendStrategy.name
  | tbtDivergence _ => TbtDivergenceStrategy.name
  | lateEntry _ => LateEntryStrategy.name

def isEnabled : ExitStrategy → Bool
  | contrarian s => s.enabled
  | tboTrend s => s.enabled
  | tbtDivergence s => s.enabled
  | lateEntry s => s.enabled

def tracks (t : TokenId) : ExitStrategy → Bool
  | contrarian s => (s.exits.entryTracking.lookup t).isSome
  | tboTrend s => (s.exits.entryTracking.lookup t).isSome
  | tbtDivergence s => (s.exits.entryTracking.lookup t).isSome
  | lateEntry s => (s.entryTracking.lookup t).isSome

def onFill (f : Fill) (now : Instant) : ExitStrategy → ExitStrategy
  | contrarian s => contrarian (s.onFill f now)
  | tboTrend s => tboTrend (s.onFill f now)
  | tbtDivergence s => tbtDivergence (s.onFill f now)
  | lateEntry s => lateEntry (s.onFill f)

variable (parse : String → Option Decimal) (registry : MarketPairRegistry)

def onBookUpdate (tokenId : TokenId) (ctx : StrategyContext) (utcNow : ℕ) :
    ExitStrategy → List OrderIntent × ExitStrategy
  | contrarian s => (s.onBookUpdate parse registry tokenId ctx).map id contrarian
  | tboTrend s => (s.onBookUpdate parse registry tokenId ctx).map id tboTrend
  | tbtDivergence s => (s.onBookUpdate parse registry tokenId ctx).map id tbtDivergence
  | lateEntry s => (s.onBookUpdate parse registry tokenId ctx utcNow).map id lateEntry

def onTick (ctx : StrategyContext) : ExitStrategy → List OrderIntent × ExitStrategy
  | contrarian s => (s.onTick parse registry ctx).map id contrarian
  | tboTrend s => (s.onTick parse registry ctx).map id tboTrend
  | tbtDivergence s => (s.onTick parse registry ctx).map id tbtDivergence
  | lateEntry s => (s.onTick parse registry ctx).map id lateEntry

def Untracked : ExitStrategy → Prop
  | contrarian s => s.exits.entryTracking = ∅
  | tboTrend s => s.exits.entryTracking = ∅
  | tbtDivergence s => s.exits.entryTracking = ∅
  | lateEntry s => s.entryTracking = ∅

variable {parse registry}

theorem Untracked.not_tracks {s : ExitStrategy} (h : s.Untracked) (t : TokenId) : s.tracks t = false := by
  cases s <;> (simp only [Untracked] at h; simp [tracks, h])

theorem Untracked.onBookUpdate {s : ExitStrategy} (h : s.Untracked) (tokenId : TokenId) (ctx : StrategyContext)
    (utcNow : ℕ) : (s.onBookUpdate parse registry tokenId ctx utcNow).2.Untracked := by
  cases s with
  | contrarian s | tboTrend s | tbtDivergence s =>
    have hexits := s.exits_onBookUpdate parse registry tokenId ctx
    exact (congrArg ExitTracking.entryTracking hexits).trans h
  | lateEntry s => exact (s.entryTracking_onBookUpdate parse registry tokenId ctx utcNow).trans h

/-- Ticks neither sell nor track anything for a strategy that tracks nothing. -/
theorem Untracked.onTick {s : ExitStrategy} (h : s.Untracked) (ctx : StrategyContext) :
    (s.onTick parse registry ctx).1 = [] ∧ (s.onTick parse registry ctx).2.Untracked := by
  cases s with
  | contrarian s =>
    simp only [ExitStrategy.onTick, ContrarianStrategy.onTick]
    split
    · exact ⟨rfl, h⟩
    · exact ExitTracking.onTick_of_empty h
  | tboTrend s =>
    simp only [ExitStrategy.onTick, TboTrendStrategy.onTick]
    split
    · exact ⟨rfl, h⟩
    · exact ExitTracking.onTick_of_empty h
  | tbtDivergence s =>
    simp only [ExitStrategy.onTick, TbtDivergenceStrategy.onTick]
    split
    · exact ⟨rfl, h⟩
    · exact ExitTracking.onTick_of_empty h
  | lateEntry s =>
    simp only [ExitStrategy.onTick, LateEntryStrategy.onTick]
    simp only [Untracked] at h
    split
    · exact ⟨rfl, h⟩
    · rw [h, retain_empty]
      split <;> exact ⟨rfl, rfl⟩

/-- A strategy that hears of a purchase tracks it. -/
theorem tracks_onFill (s : ExitStrategy) {f : Fill} (hbuy : f.side = .Buy) (now : Instant) :
    (s.onFill f now).tracks f.tokenId = true := by
  cases s with
  | contrarian s => exact s.exits.onFill_tracks hbuy now
  | tboTrend s => exact s.exits.onFill_tracks hbuy now
  | tbtDivergence s => exact s.exits.onFill_tracks hbuy now
  | lateEntry s =>
    simp only [onFill, tracks, LateEntryStrategy.onFill, hbuy]
    split
    · assumption
    · rw [AList.lookup_insert]
      rfl

end ExitStrategy

structure RegisteredStrategy where
  strategy : ExitStrategy
  enabled : Bool

structure StrategyRouter where
  strategies : List RegisteredStrategy

namespace StrategyRouter

def new : StrategyRouter := ⟨[]⟩

def get (r : StrategyRouter) (name : String) : Option RegisteredStrategy :=
  r.strategies.find? fun reg => reg.strategy.name = name

def register (r : StrategyRouter) (s : ExitStrategy) : StrategyRouter :=
  if (r.get s.name).isSome then r else ⟨r.strategies ++ [⟨s, true⟩]⟩

def setEnabled (r : StrategyRouter) (name : String) (enabled : Bool) : StrategyRouter :=
  ⟨r.strategies.map fun reg => if reg.strategy.name = name then { reg with enabled := enabled } else reg⟩

def call (f : ExitStrategy → List OrderIntent × ExitStrategy) (reg : RegisteredStrategy) :
    List OrderIntent × RegisteredStrategy :=
  if reg.enabled = false ∨ reg.strategy.isEnabled = false then ([], reg)
  else ((f reg.strategy).1, { reg with strategy := (f reg.strategy).2 })

def dispatch (r : StrategyRouter) (f : ExitStrategy → List OrderIntent × ExitStrategy) (others : List OrderIntent) :
    List OrderIntent × StrategyRouter :=
  (resolveConflicts (r.strategies.flatMap (fun reg => (call f reg).1) ++ others),
    ⟨r.strategies.map fun reg => (call f reg).2⟩)

variable (parse : String → Option Decimal) (registry : MarketPairRegistry)

def onBookUpdate (r : StrategyRouter) (tokenId : TokenId) (ctx : StrategyContext) (utcNow : ℕ)
    (others : List OrderIntent) : List OrderIntent × StrategyRouter :=
  r.dispatch (·.onBookUpdate parse registry tokenId ctx utcNow) others

def onFill (r : StrategyRouter) (f : Fill) (now : Instant) (others : List OrderIntent) :
    List OrderIntent × StrategyRouter :=
  r.dispatch (fun s => ([], s.onFill f now)) others

def onTick (r : StrategyRouter) (ctx : StrategyContext) (others : List OrderIntent) :
    List OrderIntent × StrategyRouter :=
  r.dispatch (·.onTick parse registry ctx) others

def tracks (r : StrategyRouter) (name : String) (t : TokenId) : Bool :=
  match r.get name with
  | none => false
  | some reg => reg.strategy.tracks t

def Untracked (r : StrategyRouter) : Prop := ∀ reg ∈ r.strategies, reg.strategy.Untracked

variable {parse registry}

theorem Untracked.not_tracks {r : StrategyRouter} (h : r.Untracked) (name : String) (t : TokenId) :
    r.tracks name t = false := by
  unfold tracks
  split
  · rfl
  · rename_i reg hget
    exact (h reg (List.mem_of_find?_eq_some hget)).not_tracks t

theorem Untracked.dispatch {r : StrategyRouter} (h : r.Untracked)
    {f : ExitStrategy → List OrderIntent × ExitStrategy} (hf : ∀ s, s.Untracked → (f s).2.Untracked)
    (others : List OrderIntent) : (r.dispatch f others).2.Untracked := by
  intro reg hreg
  obtain ⟨old, hold, rfl⟩ := List.mem_map.mp hreg
  unfold call
  split
  · exact h old hold
  · exact hf old.strategy (h old hold)

theorem Untracked.setEnabled {r : StrategyRouter} (h : r.Untracked) (name : String) (enabled : Bool) :
    (r.setEnabled name enabled).Untracked := by
  intro reg hreg
  obtain ⟨old, hold, rfl⟩ := List.mem_map.mp hreg
  split
  · exact h old hold
  · exact h old hold

theorem Untracked.register {r : StrategyRouter} (h : r.Untracked) {s : ExitStrategy} (hs : s.Untracked) :
    (r.register s).Untracked := by
  unfold StrategyRouter.register
  split
  · exact h
  · intro reg hreg
    rcases List.mem_append.mp hreg with hold | hnew
    · exact h reg hold
    · obtain rfl := List.mem_singleton.mp hnew
      exact hs

/-- A tick adds nothing to the intents of the other strategies when nothing is tracked. -/
theorem Untracked.onTick_eq {r : StrategyRouter} (h : r.Untracked) (ctx : StrategyContext)
    (others : List OrderIntent) : (r.onTick parse registry ctx others).1 = resolveConflicts others := by
  have hnone : r.strategies.flatMap (fun reg => (call (·.onTick parse registry ctx) reg).1) = [] := by
    rw [List.flatMap_eq_nil_iff]
    intro reg hreg
    unfold call
    split
    · rfl
    · exact ((h reg hreg).onTick ctx).1
  rw [onTick, StrategyRouter.dispatch, hnone, List.nil_append]

/-- A router that is told of a purchase has every enabled strategy track it. -/
theorem tracks_onFill {r : StrategyRouter} {f : Fill} (hbuy : f.side = .Buy) (now : Instant)
    (others : List OrderIntent) {reg : RegisteredStrategy} (hreg : reg ∈ (r.onFill f now others).2.strategies)
    (hon : reg.enabled = true ∧ reg.strategy.isEnabled = true) : reg.strategy.tracks f.tokenId = true := by
  obtain ⟨old, -, rfl⟩ := List.mem_map.mp hreg
  unfold call at hon ⊢
  split
  · rename_i hoff
    rw [if_pos hoff] at hon
    rcases hoff with hoff | hoff
    · cases hoff.symm.trans hon.1
    · cases hoff.symm.trans hon.2
  · exact old.strategy.tracks_onFill hbuy now

end StrategyRouter

end PolyBot
