import PolyBot.Strategy.ArbSizing
import PolyBot.Strategy.MarketPair

/-! The exits that the timed strategies share: an entry is tracked from its fill, and a tracked position is sold on a
time limit, a profit target or a stop-loss. -/

namespace PolyBot
open General.KeyedStore

namespace StrategyContext
variable (parse : String → Option Decimal)

def tokensByAskAsc (ctx : StrategyContext) (pair : MarketPair) : List TokenId :=
  let yesAsk := (ctx.bestAsk parse pair.yesTokenId).getD 1
  let noAsk := (ctx.bestAsk parse pair.noTokenId).getD 1
  if noAsk ≤ yesAsk then [pair.noTokenId, pair.yesTokenId] else [pair.yesTokenId, pair.noTokenId]

end StrategyContext

def isOnCooldown (lastTrade : Store ConditionId Instant) (cooldownMs : ℕ) (conditionId : ConditionId)
    (now : Instant) : Bool :=
  match lastTrade.lookup conditionId with
  | none => false
  | some last => last.elapsedMillis now < cooldownMs

/-- The shares that the bet buys, cut to two decimals, if they are worth ordering. At an ask of zero the source panics. -/
def entrySize (maxBetUsd minBetUsd ask : Decimal) : Option Decimal :=
  let shares := Decimal.truncDp 2 (maxBetUsd / ask)
  if shares ≤ 0 then none else if shares * ask < minBetUsd then none else some shares

/-- What an exit depends on, and the name and priority under which it is ordered. -/
structure ExitRules where
  strategyName : String
  priority : ℕ
  maxHoldSecs : ℕ
  profitTargetPct : Decimal
  stopLossPct : Decimal
  deriving DecidableEq, Repr

inductive ExitReason where
  | time
  | profit
  | stopLoss
  deriving DecidableEq, Repr

structure ExitTracking where
  entryTracking : Store TokenId (Decimal × Instant)
  pendingExit : Store TokenId Instant

/-- Seconds after which an exit that has not filled is taken for failed. -/
def PENDING_EXIT_SECS : ℕ := 60

namespace ExitRules

def reason (rules : ExitRules) (entryPrice mid : Decimal) (elapsedSecs : ℕ) : Option ExitReason :=
  let unrealizedPct := if 0 < entryPrice then (mid - entryPrice) / entryPrice else 0
  if rules.maxHoldSecs ≤ elapsedSecs then some .time
  else if rules.profitTargetPct ≤ unrealizedPct then some .profit
  else if unrealizedPct ≤ -rules.stopLossPct then some .stopLoss
  else none

def sell (rules : ExitRules) (pair : MarketPair) (tokenId : TokenId) (bid size : Decimal) : OrderIntent :=
  ((OrderIntent.new pair.conditionId tokenId .Sell bid size .Normal rules.strategyName).withTickSize
    pair.tickSize).withPriority rules.priority

def buy (rules : ExitRules) (pair : MarketPair) (tokenId : TokenId) (ask size : Decimal) : OrderIntent :=
  ((OrderIntent.new pair.conditionId tokenId .Buy ask size .Normal rules.strategyName).withTickSize
    pair.tickSize).withPriority rules.priority

variable (parse : String → Option Decimal)

/-- The exit of one tracked entry, unless something stands against it. -/
def exitOf (rules : ExitRules) (registry : MarketPairRegistry) (ctx : StrategyContext)
    (pending : Store TokenId Instant) (tokenId : TokenId) (entry : Decimal × Instant) : Option OrderIntent :=
  let pos := ctx.position tokenId
  if pos.isFlat then none
  else if (pending.lookup tokenId).isSome then none
  else match ctx.midPrice parse tokenId with
    | none => none
    | some mid =>
      match rules.reason entry.1 mid (entry.2.elapsedSecs ctx.now) with
      | none => none
      | some _ =>
        match ctx.bestBid parse tokenId with
        | none => none
        | some bid =>
          let sellSize := Decimal.truncDp 2 pos.shares
          if sellSize ≤ 0 then none
          else match registry.getByToken tokenId with
            | none => none
            | some pair => some (rules.sell pair tokenId bid sellSize)

/-- Goes through the tracked entries; each exit that is ordered is pending from then on. -/
def checkExits (rules : ExitRules) (registry : MarketPairRegistry) (ctx : StrategyContext) :
    List (Sigma fun _ : TokenId => Decimal × Instant) → Store TokenId Instant →
      List OrderIntent × Store TokenId Instant
  | [], pending => ([], pending)
  | ⟨tokenId, entry⟩ :: entries, pending =>
    match rules.exitOf parse registry ctx pending tokenId entry with
    | none => rules.checkExits registry ctx entries pending
    | some intent =>
      let (intents, pending) := rules.checkExits registry ctx entries (pending.insert tokenId ctx.now)
      (intent :: intents, pending)

end ExitRules

namespace ExitTracking

def new : ExitTracking := ⟨∅, ∅⟩

/-- A purchase is tracked from its first fill; a sale ends the tracking. -/
def onFill (x : ExitTracking) (f : Fill) (now : Instant) : ExitTracking :=
  match f.side with
  | .Buy =>
    if (x.entryTracking.lookup f.tokenId).isSome then x
    else { x with entryTracking := x.entryTracking.insert f.tokenId (f.price, now) }
  | .Sell => ⟨x.entryTracking.erase f.tokenId, x.pendingExit.erase f.tokenId⟩

/-- Drops pending exits that have not filled in time, and entries whose position was closed elsewhere. -/
def cleanUp (x : ExitTracking) (ctx : StrategyContext) : ExitTracking where
  entryTracking := retain (fun tokenId _ => !(ctx.position tokenId).isFlat) x.entryTracking
  pendingExit := retain (fun _ since => since.elapsedSecs ctx.now < PENDING_EXIT_SECS) x.pendingExit

variable (parse : String → Option Decimal)

def onTick (x : ExitTracking) (rules : ExitRules) (registry : MarketPairRegistry) (ctx : StrategyContext) :
    List OrderIntent × ExitTracking :=
  let x := x.cleanUp ctx
  let (intents, pending) := rules.checkExits parse registry ctx x.entryTracking.entries x.pendingExit
  (intents, { x with pendingExit := pending })

end ExitTracking

section Lemmas
variable {parse : String → Option Decimal} {rules : ExitRules} {registry : MarketPairRegistry} {ctx : StrategyContext}

/-- What an exit of a tracked entry says: a position that is open and not being sold yet is sold in full, cut to two
decimals. -/
theorem exitOf_inv {pending : Store TokenId Instant} {tokenId : TokenId} {entry : Decimal × Instant} {i : OrderIntent}
    (h : rules.exitOf parse registry ctx pending tokenId entry = some i) :
    ∃ pair bid, registry.getByToken tokenId = some pair ∧ pending.lookup tokenId = none ∧
      0 < Decimal.truncDp 2 (ctx.position tokenId).shares ∧
      i = rules.sell pair tokenId bid (Decimal.truncDp 2 (ctx.position tokenId).shares) := by
  unfold ExitRules.exitOf at h
  obtain ⟨-, h⟩ := Option.ite_none_left_eq_some.mp h
  obtain ⟨hpending, h⟩ := Option.ite_none_left_eq_some.mp h
  split at h
  · cases h
  · split at h
    · cases h
    · split at h
      · cases h
      · rename_i bid _
        obtain ⟨hsize, h⟩ := Option.ite_none_left_eq_some.mp h
        split at h
        · cases h
        · rename_i pair hpair
          cases h
          exact ⟨pair, bid, hpair, by simpa using hpending, not_le.mp hsize, rfl⟩

theorem exitOf_sells {pending : Store TokenId Instant} {tokenId : TokenId} {entry : Decimal × Instant}
    {intent : OrderIntent} (h : rules.exitOf parse registry ctx pending tokenId entry = some intent) :
    intent.tokenId = tokenId ∧ intent.side = .Sell := by
  obtain ⟨_, _, -, -, -, rfl⟩ := exitOf_inv h
  exact ⟨rfl, rfl⟩

/-- An exit is pending only if it was so before or is one of the token's own. -/
theorem exitOf_insert_ne {pending : Store TokenId Instant} {t u : TokenId} {entry : Decimal × Instant} {now : Instant}
    (hne : t ≠ u) : rules.exitOf parse registry ctx (pending.insert u now) t entry =
      rules.exitOf parse registry ctx pending t entry := by
  unfold ExitRules.exitOf
  rw [AList.lookup_insert_ne hne]

/-- Every entry whose exit is due is among the exits ordered; those of the other tokens do not stand against it. -/
theorem exitOf_mem_checkExits {entries : List (Sigma fun _ : TokenId => Decimal × Instant)}
    (hkeys : entries.NodupKeys) {pending : Store TokenId Instant} {t : TokenId} {entry : Decimal × Instant}
    {intent : OrderIntent} (hmem : ⟨t, entry⟩ ∈ entries)
    (h : rules.exitOf parse registry ctx pending t entry = some intent) :
    intent ∈ (rules.checkExits parse registry ctx entries pending).1 := by
  induction entries generalizing pending with
  | nil => cases hmem
  | cons head entries ih =>
    obtain ⟨u, other⟩ := head
    obtain ⟨hfresh, hrest⟩ := List.nodupKeys_cons.mp hkeys
    rw [ExitRules.checkExits]
    rcases List.mem_cons.mp hmem with heq | hin
    · obtain ⟨rfl, rfl⟩ : u = t ∧ other = entry := by simpa [eq_comm] using heq
      rw [h]
      exact List.mem_cons_self
    · have hne : t ≠ u := by
        rintro rfl
        have hkey := List.mem_keys_of_mem hin
        exact hfresh hkey
      cases rules.exitOf parse registry ctx pending u other with
      | none => exact ih hrest hin h
      | some _ => exact List.mem_cons_of_mem _ (ih hrest hin ((exitOf_insert_ne hne).trans h))

end Lemmas

namespace ExitTracking
variable {parse : String → Option Decimal} {rules : ExitRules} {registry : MarketPairRegistry} {ctx : StrategyContext}

/-- A tracked position whose exit is due is sold on the next tick. -/
theorem onTick_sells {x : ExitTracking} {t : TokenId} {entry : Decimal × Instant}
    (htracked : x.entryTracking.lookup t = some entry) {intent : OrderIntent}
    (hdue : rules.exitOf parse registry ctx (x.cleanUp ctx).pendingExit t entry = some intent) :
    intent ∈ (x.onTick parse rules registry ctx).1 ∧ intent.tokenId = t ∧ intent.side = .Sell := by
  have hopen : (ctx.position t).isFlat = false := by
    by_contra hflat
    rw [ExitRules.exitOf, if_pos (Bool.not_eq_false _ ▸ hflat)] at hdue
    cases hdue
  have hkept : (x.cleanUp ctx).entryTracking.lookup t = some entry := by
    rw [cleanUp, lookup_retain, htracked, Option.filter_some, hopen]
    rfl
  exact ⟨exitOf_mem_checkExits (x.cleanUp ctx).entryTracking.nodupKeys (AList.mem_lookup_iff.mp hkept) hdue,
    exitOf_sells hdue⟩

/-- Without tracked entries nothing is sold, and ticks do not add any. -/
theorem onTick_of_empty {x : ExitTracking} (h : x.entryTracking = ∅) :
    (x.onTick parse rules registry ctx).1 = [] ∧ (x.onTick parse rules registry ctx).2.entryTracking = ∅ := by
  have hempty : (x.cleanUp ctx).entryTracking = ∅ := by
    rw [cleanUp, h]
    rfl
  simp only [onTick, hempty, AList.empty_entries, ExitRules.checkExits, and_self]

theorem onFill_tracks (x : ExitTracking) {f : Fill} (hbuy : f.side = .Buy) (now : Instant) :
    ((x.onFill f now).entryTracking.lookup f.tokenId).isSome := by
  unfold onFill
  rw [hbuy]
  dsimp only
  split
  · assumption
  · rw [AList.lookup_insert]
    rfl

end ExitTracking

end PolyBot
