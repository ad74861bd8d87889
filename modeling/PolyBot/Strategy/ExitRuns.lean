import PolyBot.Strategy.StrategyRuns

/-! What the exit strategies sell over runs: how many exits of one token they order before one of them fills. -/

namespace PolyBot
open General.KeyedStore AllStrategies

def exitsFor (tokenId : TokenId) (intents : List OrderIntent) : List OrderIntent :=
  intents.filter fun i => i.tokenId = tokenId ∧ i.side = .Sell

section Checks
variable {parse : String → Option Decimal} {rules : ExitRules} {registry : MarketPairRegistry} {ctx : StrategyContext}
  {t : TokenId}

theorem exitsFor_cons_of_ne {i : OrderIntent} {intents : List OrderIntent} (h : i.tokenId ≠ t) :
    exitsFor t (i :: intents) = exitsFor t intents :=
  List.filter_cons_of_neg (by simp [h])

theorem exitsFor_cons_of_sell {i : OrderIntent} {intents : List OrderIntent} (htoken : i.tokenId = t)
    (hside : i.side = .Sell) : exitsFor t (i :: intents) = i :: exitsFor t intents :=
  List.filter_cons_of_pos (by simp [htoken, hside])

theorem exitsFor_of_buys {intents : List OrderIntent} (h : ∀ i ∈ intents, i.side = .Buy) :
    exitsFor t intents = [] := by
  refine List.filter_eq_nil_iff.mpr fun i hi => ?_
  rw [h i hi]
  simp

/-- Cutting a position does not make it larger. -/
theorem truncDp_two_le_abs {shares : Decimal} (hpos : 0 < Decimal.truncDp 2 shares) :
    Decimal.truncDp 2 shares ≤ |shares| := by
  by_cases hneg : 0 ≤ shares
  · rw [Decimal.truncDp, if_pos hneg, div_le_iff₀ (by positivity), abs_of_nonneg hneg]
    exact Int.floor_le _
  · have hceil : ⌈shares * 10 ^ 2⌉ ≤ (0 : ℤ) := Int.ceil_le.mpr (by norm_num; linarith)
    have hcast : ((⌈shares * 10 ^ 2⌉ : ℤ) : Decimal) ≤ 0 := by exact_mod_cast hceil
    rw [Decimal.truncDp, if_neg hneg] at hpos
    exact absurd hpos (not_lt.mpr (div_nonpos_of_nonpos_of_nonneg hcast (by positivity)))

variable (parse rules registry ctx) in
/-- A token whose exit is pending is passed over. -/
theorem checkExits_of_pending (entries : List (Sigma fun _ : TokenId => Decimal × Instant))
    {pending : Store TokenId Instant} {since : Instant} (h : pending.lookup t = some since) :
    exitsFor t (rules.checkExits parse registry ctx entries pending).1 = [] ∧
      (rules.checkExits parse registry ctx entries pending).2.lookup t = some since := by
  induction entries generalizing pending with
  | nil => exact ⟨rfl, h⟩
  | cons head entries ih =>
    obtain ⟨u, entry⟩ := head
    rw [ExitRules.checkExits]
    cases hexit : rules.exitOf parse registry ctx pending u entry with
    | none => exact ih h
    | some intent =>
      obtain ⟨pair, bid, -, hfree, -, rfl⟩ := exitOf_inv hexit
      have hne : u ≠ t := by
        rintro rfl
        rw [h] at hfree
        cases hfree
      obtain ⟨hrest, hlookup⟩ := ih ((AList.lookup_insert_ne hne.symm).trans h)
      exact ⟨(exitsFor_cons_of_ne hne).trans hrest, hlookup⟩

/-- A token is sold at most once, and then its exit is pending. -/
theorem checkExits_once {entries : List (Sigma fun _ : TokenId => Decimal × Instant)}
    {pending : Store TokenId Instant} (h : pending.lookup t = none) :
    exitsFor t (rules.checkExits parse registry ctx entries pending).1 = [] ∨
      ∃ i, exitsFor t (rules.checkExits parse registry ctx entries pending).1 = [i] ∧
        i.size ≤ |(ctx.position t).shares| ∧
        (rules.checkExits parse registry ctx entries pending).2.lookup t = some ctx.now := by
  induction entries generalizing pending with
  | nil => exact .inl rfl
  | cons head entries ih =>
    obtain ⟨u, entry⟩ := head
    rw [ExitRules.checkExits]
    cases hexit : rules.exitOf parse registry ctx pending u entry with
    | none => exact ih h
    | some intent =>
      obtain ⟨pair, bid, -, -, hsize, rfl⟩ := exitOf_inv hexit
      rcases eq_or_ne u t with rfl | hne
      · obtain ⟨hrest, hlookup⟩ := checkExits_of_pending parse rules registry ctx entries
          (AList.lookup_insert (a := u) (b := ctx.now) pending)
        refine .inr ⟨rules.sell pair u bid (Decimal.truncDp 2 (ctx.position u).shares), ?_, truncDp_two_le_abs hsize,
          hlookup⟩
        exact (exitsFor_cons_of_sell rfl rfl).trans (congrArg _ hrest)
      · dsimp only
        rw [exitsFor_cons_of_ne (i := rules.sell pair u bid _) hne]
        exact ih ((AList.lookup_insert_ne hne.symm).trans h)

variable (parse rules registry) in
/-- A pending exit that is not too old yet stays pending over a tick. -/
theorem ExitTracking.onTick_of_pending {x : ExitTracking} {since : Instant} (h : x.pendingExit.lookup t = some since)
    (hrecent : since.elapsedSecs ctx.now < PENDING_EXIT_SECS) :
    exitsFor t (x.onTick parse rules registry ctx).1 = [] ∧
      (x.onTick parse rules registry ctx).2.pendingExit.lookup t = some since := by
  have hkept : (x.cleanUp ctx).pendingExit.lookup t = some since := by
    rw [cleanUp, lookup_retain, h, Option.filter_some, if_pos (decide_eq_true hrecent)]
  exact checkExits_of_pending parse rules registry ctx _ hkept

variable (parse rules registry ctx t) in
theorem ExitTracking.onTick_once (x : ExitTracking) :
    exitsFor t (x.onTick parse rules registry ctx).1 = [] ∨
      ∃ i, exitsFor t (x.onTick parse rules registry ctx).1 = [i] ∧ i.size ≤ |(ctx.position t).shares| ∧
        (x.onTick parse rules registry ctx).2.pendingExit.lookup t = some ctx.now := by
  cases hpending : (x.cleanUp ctx).pendingExit.lookup t with
  | none => exact checkExits_once hpending
  | some since => exact .inl (checkExits_of_pending parse rules registry ctx _ hpending).1

end Checks

/-- The tokens whose exit has been ordered; the late entry keeps no such record. -/
def ExitStrategy.pendingExit : ExitStrategy → Store TokenId Instant
  | contrarian s => s.exits.pendingExit
  | tboTrend s => s.exits.pendingExit
  | tbtDivergence s => s.exits.pendingExit
  | lateEntry _ => ∅

namespace ExitStrategy
variable (parse : String → Option Decimal)

def handle (s : ExitStrategy) : StrategyEvent → List OrderIntent × ExitStrategy
  | .bookUpdate around _ tokenId => s.onBookUpdate parse around.registry tokenId around.ctx around.utcNow
  | .fill f now => ([], s.onFill f now)
  | .tick around => s.onTick parse around.registry around.ctx

def step (s : ExitStrategy) (e : StrategyEvent) : ExitStrategy := (s.handle parse e).2

def run (s : ExitStrategy) (events : List StrategyEvent) : ExitStrategy := events.foldl (step parse) s

def sold (t : TokenId) : ExitStrategy → List StrategyEvent → List OrderIntent
  | _, [] => []
  | s, e :: events => exitsFor t (s.handle parse e).1 ++ sold t (s.step parse e) events

variable {parse} {t : TokenId}

theorem handle_exit (assetSymbol : MarketPair → Option String) (s : ExitStrategy) (e : StrategyEvent) :
    (Strategy.exit s).handle parse assetSymbol e = (s.handle parse e).map id Strategy.exit := by
  cases e <;> rfl

theorem sold_append (s : ExitStrategy) (events events' : List StrategyEvent) :
    sold parse t s (events ++ events') = sold parse t s events ++ sold parse t (s.run parse events) events' := by
  induction events generalizing s with
  | nil => rfl
  | cons e events ih => simp only [List.cons_append, sold, ih, run, List.foldl_cons, List.append_assoc]

theorem exitsFor_onBookUpdate (s : ExitStrategy) (registry : MarketPairRegistry) (tokenId : TokenId)
    (ctx : StrategyContext) (utcNow : ℕ) :
    exitsFor t (s.onBookUpdate parse registry tokenId ctx utcNow).1 = [] :=
  exitsFor_of_buys fun _ hi => (onBookUpdate_inv hi).1

theorem pendingExit_onBookUpdate (s : ExitStrategy) (registry : MarketPairRegistry) (tokenId : TokenId)
    (ctx : StrategyContext) (utcNow : ℕ) :
    (s.onBookUpdate parse registry tokenId ctx utcNow).2.pendingExit = s.pendingExit := by
  cases s with
  | contrarian s | tboTrend s | tbtDivergence s =>
    exact congrArg ExitTracking.pendingExit (s.exits_onBookUpdate parse registry tokenId ctx)
  | lateEntry s => rfl

theorem timed_pendingExit {s : ExitStrategy} {x : TimedExits} (h : s.timed = some x) :
    s.pendingExit = x.exits.pendingExit := by
  cases s with
  | contrarian s | tboTrend s | tbtDivergence s =>
    cases h
    rfl
  | lateEntry s => cases h

theorem isSome_timed_step (s : ExitStrategy) (e : StrategyEvent) : (s.step parse e).timed.isSome = s.timed.isSome := by
  cases s <;> cases e <;> rfl

variable (parse) in
/-- A tick that is not that of a late entry either does nothing or goes through the exits of its tracking. -/
theorem onTick_cases {s : ExitStrategy} {x : TimedExits} (hx : s.timed = some x) (registry : MarketPairRegistry)
    (ctx : StrategyContext) :
    (s.onTick parse registry ctx).1 = [] ∧ (s.onTick parse registry ctx).2.pendingExit = s.pendingExit ∨
      (s.onTick parse registry ctx).1 = (x.exits.onTick parse x.rules registry ctx).1 ∧
        (s.onTick parse registry ctx).2.pendingExit = (x.exits.onTick parse x.rules registry ctx).2.pendingExit := by
  obtain ⟨hfst, hsnd⟩ := timed_onTick parse registry hx ctx
  rw [hfst, timed_pendingExit hsnd, timed_pendingExit hx, TimedExits.onTick]
  split_ifs
  · exact .inl ⟨rfl, rfl⟩
  · exact .inr ⟨rfl, rfl⟩

def IsSale (t : TokenId) : StrategyEvent → Prop
  | .fill f _ => f.side = .Sell ∧ f.tokenId = t
  | .bookUpdate _ _ _ | .tick _ => False

theorem pendingExit_onFill {s : ExitStrategy} {f : Fill} {now : Instant} (hsale : ¬IsSale t (.fill f now)) :
    (s.onFill f now).pendingExit.lookup t = s.pendingExit.lookup t := by
  have htracking : ∀ x : ExitTracking, (x.onFill f now).pendingExit.lookup t = x.pendingExit.lookup t := by
    intro x
    unfold ExitTracking.onFill
    split
    · split <;> rfl
    · rename_i hside
      have hne : t ≠ f.tokenId := fun heq => hsale ⟨hside, heq.symm⟩
      exact AList.lookup_erase_ne hne
  cases s with
  | contrarian s | tboTrend s | tbtDivergence s => exact htracking s.exits
  | lateEntry s => rfl

variable (parse) in
/-- As long as an exit is pending and not too old, no event orders another one. -/
theorem step_of_pending {s : ExitStrategy} (htimed : s.timed.isSome = true) {since : Instant}
    (hpending : s.pendingExit.lookup t = some since) {e : StrategyEvent} (hsale : ¬IsSale t e)
    (hrecent : since.elapsedSecs e.now < PENDING_EXIT_SECS) :
    exitsFor t (s.handle parse e).1 = [] ∧ (s.step parse e).pendingExit.lookup t = some since := by
  cases e with
  | bookUpdate around marketId tokenId =>
    refine ⟨s.exitsFor_onBookUpdate around.registry tokenId around.ctx around.utcNow, ?_⟩
    exact (congrArg (AList.lookup t) (s.pendingExit_onBookUpdate around.registry tokenId around.ctx
      around.utcNow)).trans hpending
  | fill f now => exact ⟨rfl, (pendingExit_onFill hsale).trans hpending⟩
  | tick around =>
    obtain ⟨x, hx⟩ := Option.isSome_iff_exists.mp htimed
    have hlookup : x.exits.pendingExit.lookup t = some since := timed_pendingExit hx ▸ hpending
    obtain ⟨hquiet, hkept⟩ := ExitTracking.onTick_of_pending parse x.rules around.registry hlookup hrecent
    rw [step, handle]
    rcases onTick_cases parse hx around.registry around.ctx with ⟨hnone, hsame⟩ | ⟨hall, hnext⟩
    · rw [hnone, hsame]
      exact ⟨rfl, hpending⟩
    · rw [hall, hnext]
      exact ⟨hquiet, hkept⟩

variable (parse t) in
/-- An event orders at most one exit of a token, in a tick and for no more than the position; then it is pending. -/
theorem handle_once {s : ExitStrategy} (htimed : s.timed.isSome = true) (e : StrategyEvent) :
    exitsFor t (s.handle parse e).1 = [] ∨
      ∃ i around, exitsFor t (s.handle parse e).1 = [i] ∧ e = .tick around ∧
        i.size ≤ |(around.ctx.position t).shares| ∧ (s.step parse e).pendingExit.lookup t = some e.now := by
  cases e with
  | bookUpdate around marketId tokenId =>
    exact .inl (s.exitsFor_onBookUpdate around.registry tokenId around.ctx around.utcNow)
  | fill f now => exact .inl rfl
  | tick around =>
    obtain ⟨x, hx⟩ := Option.isSome_iff_exists.mp htimed
    rw [step, handle]
    rcases onTick_cases parse hx around.registry around.ctx with ⟨hnone, -⟩ | ⟨hall, hnext⟩
    · rw [hnone]
      exact .inl rfl
    · rw [hall, hnext]
      rcases x.exits.onTick_once parse x.rules around.registry around.ctx t with hnone | ⟨i, hone, hsize, hlookup⟩
      · exact .inl hnone
      · exact .inr ⟨i, around, hone, rfl, hsize, hlookup⟩

theorem sold_of_pending {s : ExitStrategy} (htimed : s.timed.isSome = true) {since : Instant}
    (hpending : s.pendingExit.lookup t = some since) {events : List StrategyEvent}
    (hsale : ∀ e ∈ events, ¬IsSale t e) (hrecent : ∀ e ∈ events, since.elapsedSecs e.now < PENDING_EXIT_SECS) :
    sold parse t s events = [] := by
  induction events generalizing s with
  | nil => rfl
  | cons e events ih =>
    obtain ⟨hsale, hsales⟩ := List.forall_mem_cons.mp hsale
    obtain ⟨hnow, hlater⟩ := List.forall_mem_cons.mp hrecent
    obtain ⟨hquiet, hkept⟩ := step_of_pending parse htimed hpending hsale hnow
    have htimed' : (s.step parse e).timed.isSome = true := (isSome_timed_step s e).trans htimed
    rw [sold, hquiet, ih htimed' hkept hsales hlater]
    rfl

theorem isSome_timed_run (s : ExitStrategy) (events : List StrategyEvent) :
    (s.run parse events).timed.isSome = s.timed.isSome := by
  induction events generalizing s with
  | nil => rfl
  | cons e events ih => exact (ih _).trans (isSome_timed_step s e)

/-- If an exit is ordered only where no later one follows, at most one is ordered. -/
theorem sold_le_one {s : ExitStrategy} {period : List StrategyEvent}
    (h : ∀ pre e post, period = pre ++ e :: post →
      exitsFor t ((s.run parse pre).handle parse e).1 = [] ∨
        ∃ i around, exitsFor t ((s.run parse pre).handle parse e).1 = [i] ∧ e = .tick around ∧
          i.size ≤ |(around.ctx.position t).shares| ∧ sold parse t ((s.run parse pre).step parse e) post = []) :
    sold parse t s period = [] ∨ ∃ i around, sold parse t s period = [i] ∧ .tick around ∈ period ∧
      i.size ≤ |(around.ctx.position t).shares| := by
  induction period generalizing s with
  | nil => exact .inl rfl
  | cons e period ih =>
    rw [sold]
    rcases h [] e period rfl with hnone | ⟨i, around, hone, rfl, hsize, hrest⟩
    · have hnone' : exitsFor t (s.handle parse e).1 = [] := hnone
      rw [hnone', List.nil_append]
      rcases ih fun pre e' post heq => h (e :: pre) e' post (congrArg (e :: ·) heq) with
        hquiet | ⟨i, around, hone, hmem, hsize⟩
      · exact .inl hquiet
      · exact .inr ⟨i, around, hone, List.mem_cons_of_mem _ hmem, hsize⟩
    · have hone' : exitsFor t (s.handle parse (.tick around)).1 = [i] := hone
      have hrest' : sold parse t (s.step parse (.tick around)) period = [] := hrest
      rw [hone', hrest']
      exact .inr ⟨i, around, rfl, List.mem_cons_self, hsize⟩

end ExitStrategy

namespace LateEntryStrategy
variable {parse : String → Option Decimal} {registry : MarketPairRegistry} {ctx : StrategyContext} {t : TokenId}

structure StopLossDue (parse : String → Option Decimal) (s : LateEntryStrategy) (around : Surroundings)
    (t : TokenId) : Prop where
  enabled : s.enabled = true
  used : s.config.stopLossPrice ≠ 0
  tracked : (s.entryTracking.lookup t).isSome = true
  opened : (around.ctx.position t).isFlat = false
  reached : ∃ bid, around.ctx.bestBid parse t = some bid ∧ bid ≤ s.config.stopLossPrice
  registered : (around.registry.getByToken t).isSome = true

theorem exitsFor_filterMap {s : LateEntryStrategy} {tokens : List TokenId} (hnodup : tokens.Nodup) :
    exitsFor t (tokens.filterMap (s.exitOf parse registry ctx)) =
      if t ∈ tokens then (s.exitOf parse registry ctx t).toList else [] := by
  induction tokens with
  | nil => rfl
  | cons u tokens ih =>
    obtain ⟨hfresh, hrest⟩ := List.nodup_cons.mp hnodup
    have hih := ih hrest
    rcases eq_or_ne u t with rfl | hne
    · rw [if_neg hfresh] at hih
      rw [if_pos List.mem_cons_self]
      cases hexit : s.exitOf parse registry ctx u with
      | none => rwa [List.filterMap_cons_none hexit]
      | some i =>
        obtain ⟨pair, bid, -, -, -, -, rfl⟩ := exitOf_inv hexit
        rw [List.filterMap_cons_some hexit]
        exact (exitsFor_cons_of_sell rfl rfl).trans (congrArg _ hih)
    · simp only [List.mem_cons, hne.symm, false_or]
      cases hexit : s.exitOf parse registry ctx u with
      | none => rwa [List.filterMap_cons_none hexit]
      | some i =>
        obtain ⟨pair, bid, -, -, -, -, rfl⟩ := exitOf_inv hexit
        rwa [List.filterMap_cons_some hexit, exitsFor_cons_of_ne hne]

/-- The stop-loss of a token that is tracked, at the prices and positions of a tick. -/
theorem exitOf_isSome_iff {s : LateEntryStrategy} :
    (s.exitOf parse registry ctx t).isSome = true ↔
      (∃ bid, ctx.bestBid parse t = some bid ∧ bid ≤ s.config.stopLossPrice) ∧
        (ctx.position t).isFlat = false ∧ (registry.getByToken t).isSome = true := by
  simp only [Option.isSome_iff_exists, exitOf, Option.bind_eq_bind, Option.bind_eq_some_iff, Option.guard_eq_some',
    Option.pure_def, Option.some.injEq]
  constructor
  · rintro ⟨i, bid, hbid, _, hstop, _, hopen, pair, hpair, -⟩
    exact ⟨⟨bid, hbid, hstop⟩, hopen, pair, hpair⟩
  · rintro ⟨⟨bid, hbid, hstop⟩, hopen, pair, hpair⟩
    exact ⟨_, bid, hbid, (), hstop, (), hopen, pair, hpair, rfl⟩

variable (parse) in
/-- A tick sells a token once if its stop-loss is due, and not at all otherwise. -/
theorem exitsFor_onTick (s : LateEntryStrategy) (around : Surroundings) (t : TokenId) :
    (s.StopLossDue parse around t ∧ ∃ i, exitsFor t (s.onTick parse around.registry around.ctx).1 = [i] ∧
      i.size ≤ |(around.ctx.position t).shares|) ∨
    ¬s.StopLossDue parse around t ∧ exitsFor t (s.onTick parse around.registry around.ctx).1 = [] := by
  unfold onTick
  split_ifs with henabled
  · exact .inr ⟨fun hdue => Bool.noConfusion (henabled.symm.trans hdue.enabled), rfl⟩
  · dsimp only
    split_ifs with hstop
    · exact .inr ⟨fun hdue => hdue.used hstop, rfl⟩
    · set kept := retain (fun tokenId _ => !(around.ctx.position tokenId).isFlat) s.entryTracking with hkept
      have hmem : t ∈ kept.keys ↔
          (s.entryTracking.lookup t).isSome = true ∧ (around.ctx.position t).isFlat = false := by
        rw [← AList.mem_keys, ← AList.lookup_isSome, hkept, lookup_retain]
        cases s.entryTracking.lookup t <;> simp [Option.filter]
      have htokens : kept.entries.filterMap (fun entry =>
          LateEntryStrategy.exitOf parse { s with entryTracking := kept } around.registry around.ctx entry.1) =
          kept.keys.filterMap (s.exitOf parse around.registry around.ctx) := by
        rw [AList.keys, List.keys, List.filterMap_map]
        rfl
      rw [htokens, exitsFor_filterMap kept.keys_nodup]
      cases hexit : s.exitOf parse around.registry around.ctx t with
      | none =>
        refine .inr ⟨fun hdue => ?_, by split <;> rfl⟩
        have hsome := exitOf_isSome_iff.mpr ⟨hdue.reached, hdue.opened, hdue.registered⟩
        rw [hexit] at hsome
        cases hsome
      | some i =>
        obtain ⟨hreached, hopen, hregistered⟩ := exitOf_isSome_iff.mp (Option.isSome_of_eq_some hexit)
        obtain ⟨pair, bid, -, -, -, -, rfl⟩ := exitOf_inv hexit
        by_cases htracked : (s.entryTracking.lookup t).isSome = true
        · have hdue : s.StopLossDue parse around t :=
            ⟨Bool.not_eq_false _ ▸ henabled, hstop, htracked, hopen, hreached, hregistered⟩
          rw [if_pos (hmem.mpr ⟨htracked, hopen⟩)]
          exact .inl ⟨hdue, _, rfl, le_refl _⟩
        · rw [if_neg fun hkey => htracked (hmem.mp hkey).1]
          exact .inr ⟨fun hdue => htracked hdue.tracked, rfl⟩

end LateEntryStrategy

namespace ExitStrategy
variable {parse : String → Option Decimal} {t : TokenId}

def StopLossDue (parse : String → Option Decimal) (t : TokenId) : ExitStrategy → StrategyEvent → Prop
  | lateEntry s, .tick around => s.StopLossDue parse around t
  | _, _ => False

theorem not_stopLossDue {s : ExitStrategy} (htimed : s.timed.isSome = true) (e : StrategyEvent) :
    ¬StopLossDue parse t s e := by
  cases s with
  | contrarian s | tboTrend s | tbtDivergence s => exact id
  | lateEntry s => cases htimed

variable (parse t) in
/-- What a late entry orders on an event. -/
theorem handle_of_lateEntry {s : ExitStrategy} (hlate : s.timed = none) (e : StrategyEvent) :
    (StopLossDue parse t s e ∧ ∃ i around, exitsFor t (s.handle parse e).1 = [i] ∧ e = .tick around ∧
      i.size ≤ |(around.ctx.position t).shares|) ∨
    ¬StopLossDue parse t s e ∧ exitsFor t (s.handle parse e).1 = [] := by
  obtain ⟨late, rfl⟩ := eq_lateEntry hlate
  cases e with
  | bookUpdate around marketId tokenId =>
    exact .inr ⟨id, exitsFor_onBookUpdate _ around.registry tokenId around.ctx around.utcNow⟩
  | fill f now => exact .inr ⟨id, rfl⟩
  | tick around =>
    rcases late.exitsFor_onTick parse around t with ⟨hdue, i, hone, hsize⟩ | ⟨hnot, hnone⟩
    · exact .inl ⟨hdue, i, around, hone, rfl, hsize⟩
    · exact .inr ⟨hnot, hnone⟩

theorem timed_run_of_none {s : ExitStrategy} (hlate : s.timed = none) (events : List StrategyEvent) :
    (s.run parse events).timed = none := by
  rw [← Option.not_isSome_iff_eq_none, isSome_timed_run, hlate]
  simp

/-- An exit that a late entry orders in a run is a stop-loss that is due. -/
theorem exists_due_of_sold {s : ExitStrategy} (hlate : s.timed = none) {events : List StrategyEvent}
    (h : sold parse t s events ≠ []) :
    ∃ pre e post, events = pre ++ e :: post ∧ StopLossDue parse t (s.run parse pre) e := by
  induction events generalizing s with
  | nil => exact absurd rfl h
  | cons e events ih =>
    by_cases hdue : StopLossDue parse t s e
    · exact ⟨[], e, events, rfl, hdue⟩
    · have hnone := (handle_of_lateEntry parse t hlate e).resolve_left fun h => hdue h.1
      rw [sold, hnone.2, List.nil_append] at h
      obtain ⟨pre, e', post, rfl, hdue'⟩ := ih (timed_run_of_none hlate [e]) h
      exact ⟨e :: pre, e', post, rfl, hdue'⟩

end ExitStrategy

/-- All of it happens within 60 s. -/
def Brief (period : List StrategyEvent) : Prop :=
  ∀ e ∈ period, ∀ e' ∈ period, e.now.elapsed e'.now < Duration.fromSecs 60

theorem Brief.mono {period period' : List StrategyEvent} (h : Brief period) (hsub : ∀ e ∈ period', e ∈ period) :
    Brief period' :=
  fun e he e' he' => h e (hsub e he) e' (hsub e' he')

namespace ExitStrategy
variable {parse : String → Option Decimal}

/-- In a period shorter than 60 s in which no sale of a token fills, at most one exit of it is ordered, and for no more
than is held. -/
def SoldOnce (parse : String → Option Decimal) (s : ExitStrategy) (events : List StrategyEvent) : Prop :=
  ∀ before period after t, events = before ++ (period ++ after) → Brief period → (∀ e ∈ period, ¬IsSale t e) →
    (sold parse t (s.run parse before) period).length ≤ 1 ∧
      ∀ held, 0 ≤ held → (∀ around, .tick around ∈ period → |(around.ctx.position t).shares| ≤ held) →
        ((sold parse t (s.run parse before) period).map (·.size)).sum ≤ held

def StopLossesApart (parse : String → Option Decimal) (s : ExitStrategy) (events : List StrategyEvent) : Prop :=
  ∀ before first between second after t, events = before ++ first :: (between ++ second :: after) →
    Brief (first :: (between ++ [second])) → (∀ e ∈ between, ¬IsSale t e) →
    StopLossDue parse t (s.run parse before) first →
    ¬StopLossDue parse t (s.run parse (before ++ first :: between)) second

theorem run_append (s : ExitStrategy) (events events' : List StrategyEvent) :
    s.run parse (events ++ events') = (s.run parse events).run parse events' := List.foldl_append

theorem soldOnce_of_sold_le_one {s : ExitStrategy} {period : List StrategyEvent} {t : TokenId}
    (h : sold parse t s period = [] ∨ ∃ i around, sold parse t s period = [i] ∧ .tick around ∈ period ∧
      i.size ≤ |(around.ctx.position t).shares|) :
    (sold parse t s period).length ≤ 1 ∧
      ∀ held, 0 ≤ held → (∀ around, .tick around ∈ period → |(around.ctx.position t).shares| ≤ held) →
        ((sold parse t s period).map (·.size)).sum ≤ held := by
  rcases h with hnone | ⟨i, around, hone, hmem, hsize⟩
  · rw [hnone]
    exact ⟨Nat.zero_le 1, fun held hheld _ => hheld⟩
  · rw [hone]
    refine ⟨le_refl 1, fun held _ hpositions => ?_⟩
    rw [List.map_singleton, List.sum_singleton]
    exact hsize.trans (hpositions around hmem)

theorem elapsedSecs_lt_of_brief {period : List StrategyEvent} (h : Brief period) {e e' : StrategyEvent}
    (he : e ∈ period) (he' : e' ∈ period) : e.now.elapsedSecs e'.now < PENDING_EXIT_SECS :=
  (Nat.div_lt_iff_lt_mul (by decide)).mpr (h e he e' he')

/-- The timed strategies remember an exit for 60 s. -/
theorem soldOnce_of_timed {s : ExitStrategy} (htimed : s.timed.isSome = true) (events : List StrategyEvent) :
    s.SoldOnce parse events := by
  rintro before period after t - hbrief hsales
  refine soldOnce_of_sold_le_one (sold_le_one fun pre e post hperiod => ?_)
  have htimed' : (((s.run parse before).run parse pre).timed).isSome = true := by
    rw [isSome_timed_run, isSome_timed_run, htimed]
  rcases handle_once parse t htimed' e with hnone | ⟨i, around, hone, htick, hsize, hpending⟩
  · exact .inl hnone
  · have hstep : (((s.run parse before).run parse pre).step parse e).timed.isSome = true := by
      rw [isSome_timed_step, htimed']
    have hin : ∀ e' ∈ post, e' ∈ period := fun e' he' => by simp [hperiod, he']
    have he : e ∈ period := by simp [hperiod]
    exact .inr ⟨i, around, hone, htick, hsize, sold_of_pending hstep hpending (fun e' he' => hsales e' (hin e' he'))
      fun e' he' => elapsedSecs_lt_of_brief hbrief he (hin e' he')⟩

/-- Two stop-losses of a late entry that are due in a period are two exits. -/
theorem SoldOnce.stopLossesApart {s : ExitStrategy} (hlate : s.timed = none) {events : List StrategyEvent}
    (h : s.SoldOnce parse events) : s.StopLossesApart parse events := by
  have hordered : ∀ {t : TokenId} {s : ExitStrategy} {e : StrategyEvent}, s.timed = none → StopLossDue parse t s e →
      ∃ i around, exitsFor t (s.handle parse e).1 = [i] ∧ e = .tick around ∧
        i.size ≤ |(around.ctx.position t).shares| :=
    fun hlate hdue => ((handle_of_lateEntry _ _ hlate _).resolve_right fun h => h.1 hdue).2
  intro before first between second after t heq hbrief hsales hfirst hsecond
  obtain ⟨i, a, hi, rfl, -⟩ := hordered (timed_run_of_none hlate before) hfirst
  obtain ⟨j, b, hj, rfl, -⟩ := hordered (timed_run_of_none hlate _) hsecond
  rw [run_append] at hj
  have hlast : sold parse t (((s.run parse before).step parse (.tick a)).run parse between) [.tick b] = [j] := by
    rw [sold, sold, List.append_nil]
    exact hj
  have hnosale : ∀ e ∈ .tick a :: (between ++ [.tick b]), ¬IsSale t e := by
    intro e he
    simp only [List.mem_cons, List.mem_append, List.not_mem_nil, or_false] at he
    rcases he with rfl | he | rfl
    · exact id
    · exact hsales e he
    · exact id
  have hperiod := (h before (.tick a :: (between ++ [.tick b])) after t (by simpa using heq) hbrief hnosale).1
  rw [sold, hi, sold_append, hlast] at hperiod
  simp at hperiod

/-- After an exit of a late entry no stop-loss of the token is due in the rest of a period. -/
theorem StopLossesApart.soldOnce {s : ExitStrategy} (hlate : s.timed = none) {events : List StrategyEvent}
    (h : s.StopLossesApart parse events) : s.SoldOnce parse events := by
  rintro before period after t rfl hbrief hsales
  refine soldOnce_of_sold_le_one (sold_le_one fun pre e post hperiod => ?_)
  have hlate' : ((s.run parse before).run parse pre).timed = none :=
    timed_run_of_none (timed_run_of_none hlate before) pre
  rcases handle_of_lateEntry parse t hlate' e with ⟨hdue, i, around, hone, htick, hsize⟩ | ⟨-, hnone⟩
  · refine .inr ⟨i, around, hone, htick, hsize, ?_⟩
    by_contra hmore
    obtain ⟨between, second, rest, rfl, hsecond⟩ := exists_due_of_sold (timed_run_of_none hlate' [e]) hmore
    subst hperiod
    rw [← run_append] at hdue
    refine h (before ++ pre) e between second (rest ++ after) t (by simp) (hbrief.mono fun e' he' => ?_)
      (fun e' he' => hsales e' (by simp [he'])) hdue ?_
    · simp only [List.mem_cons, List.mem_append, List.not_mem_nil, or_false] at he'
      simp only [List.mem_append, List.mem_cons]
      tauto
    · rw [run_append, run_append]
      exact hsecond
  · exact .inl hnone

/-- A position is sold once exactly if no stop-loss of a late entry is due again before the first sale has filled. -/
theorem sold_once_iff (parse : String → Option Decimal) (s : ExitStrategy) (events : List StrategyEvent) :
    s.SoldOnce parse events ↔ s.StopLossesApart parse events := by
  cases hx : s.timed with
  | none => exact ⟨fun h => h.stopLossesApart hx, fun h => h.soldOnce hx⟩
  | some x =>
    have htimed : s.timed.isSome = true := Option.isSome_of_eq_some hx
    refine iff_of_true (soldOnce_of_timed htimed events) fun before first between second after t _ _ _ hfirst _ => ?_
    exact not_stopLossDue ((isSome_timed_run s before).trans htimed) first hfirst

private def fallText (text : String) : Option Decimal :=
  if text = "0.60" then some (60 / 100)
  else if text = "0.62" then some (62 / 100)
  else if text = "1000" then some 1000
  else none

private def entryFill : Fill := ⟨"f1", "o1", "yes", .Buy, 92 / 100, 100, 0, none, 0⟩

private def fallenAt (millis : ℕ) : Surroundings where
  registry := MarketPairRegistry.new.register (MarketPair.new "m1" "yes" "no")
  prices := ∅
  ctx := {
    books := (∅ : OrderBookState).insert "yes" ⟨"yes", "m1", [⟨"0.60", "1000"⟩], [⟨"0.62", "1000"⟩], none, none⟩
    ledger := { Ledger.new 1000 with positions := Positions.new.applyFill entryFill }
    now := Duration.fromMillis millis }
  utcNow := 0
  uuid := "1"

/-- The stop-loss of a late entry sells the hundred shares on two ticks, 100 ms apart. -/
theorem stop_loss_sells_twice :
    ¬(lateEntry (.withConfig .default)).SoldOnce fallText
      [.fill entryFill 0, .tick (fallenAt 100), .tick (fallenAt 200)] := by
  intro h
  have hbrief : Brief [.tick (fallenAt 100), .tick (fallenAt 200)] := by
    simp only [Brief, List.forall_mem_cons, List.not_mem_nil, false_imp_iff, implies_true, and_true]
    decide
  have hone := (h [.fill entryFill 0] [.tick (fallenAt 100), .tick (fallenAt 200)] [] "yes" rfl hbrief (by
    simp [IsSale])).1
  have htwo : (sold fallText "yes" ((lateEntry (.withConfig .default)).run fallText [.fill entryFill 0])
      [.tick (fallenAt 100), .tick (fallenAt 200)]).length = 2 := by decide +kernel
  rw [htwo] at hone
  exact absurd hone (by decide)

end ExitStrategy

end PolyBot
