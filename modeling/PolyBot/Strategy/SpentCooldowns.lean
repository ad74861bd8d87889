import PolyBot.Strategy.CooldownRuns

/-! The cooldowns that a book update of the late entry starts without entering: they are claimed before the other gates
are tried. -/

namespace PolyBot
open General.KeyedStore

/-- Right after a trade only a market without a cooldown is free for the next one. -/
theorem isOnCooldown_insert {lastTrade : Store ConditionId Instant} {cooldownMs : ℕ} {traded conditionId : ConditionId}
    {now : Instant} (hready : isOnCooldown lastTrade cooldownMs traded now = false) :
    isOnCooldown (lastTrade.insert traded now) cooldownMs conditionId now = false ↔
      isOnCooldown lastTrade cooldownMs conditionId now = false ∧ (conditionId = traded → cooldownMs = 0) := by
  rcases eq_or_ne conditionId traded with rfl | hne
  · rw [isOnCooldown, AList.lookup_insert, hready]
    simp [Instant.elapsedMillis, Instant.elapsed]
  · rw [isOnCooldown, isOnCooldown, AList.lookup_insert_ne hne]
    exact (and_iff_left fun heq => absurd heq hne).symm

namespace LateEntryStrategy
variable {parse : String → Option Decimal} {registry : MarketPairRegistry} {ctx : StrategyContext}

def Claims (parse : String → Option Decimal) (registry : MarketPairRegistry) (ctx : StrategyContext)
    (s : LateEntryStrategy) (tokenId : TokenId) (conditionId : ConditionId) : Prop :=
  (∃ ask, ctx.bestAsk parse tokenId = some ask ∧ s.config.minEntryPrice ≤ ask ∧ ask < 99 / 100) ∧
    (∃ pair, registry.getByToken tokenId = some pair ∧ pair.conditionId = conditionId) ∧
    isOnCooldown s.lastTrade s.config.cooldownMs conditionId ctx.now = false

def claim (s : LateEntryStrategy) (conditionId : ConditionId) (now : Instant) (tradeCount : ℕ) : LateEntryStrategy :=
  { s with lastTrade := s.lastTrade.insert conditionId now, tradeCount := tradeCount }

theorem Claims.unique {s : LateEntryStrategy} {tokenId : TokenId} {c c' : ConditionId}
    (h : s.Claims parse registry ctx tokenId c) (h' : s.Claims parse registry ctx tokenId c') : c' = c := by
  obtain ⟨-, ⟨pair, hpair, rfl⟩, -⟩ := h
  obtain ⟨-, ⟨pair', hpair', rfl⟩, -⟩ := h'
  rw [Option.some.inj (hpair'.symm.trans hpair)]

theorem claims_claim {s : LateEntryStrategy} {traded conditionId : ConditionId} {tokenId : TokenId} {tradeCount : ℕ}
    (hready : isOnCooldown s.lastTrade s.config.cooldownMs traded ctx.now = false) :
    (s.claim traded ctx.now tradeCount).Claims parse registry ctx tokenId conditionId ↔
      s.Claims parse registry ctx tokenId conditionId ∧ (conditionId = traded → s.config.cooldownMs = 0) := by
  unfold Claims claim
  dsimp only
  rw [isOnCooldown_insert hready]
  tauto

/-- A token that is not tried, or whose market is kept back, changes nothing. -/
theorem tryEntries_of_not_claims {s : LateEntryStrategy} {tokenId : TokenId}
    (h : ∀ c, ¬s.Claims parse registry ctx tokenId c) (tokenIds : List TokenId) :
    s.tryEntries parse registry ctx (tokenId :: tokenIds) = s.tryEntries parse registry ctx tokenIds := by
  cases hask : ctx.bestAsk parse tokenId with
  | none => rw [tryEntries, hask]
  | some ask =>
    by_cases hgate : s.config.minEntryPrice ≤ ask ∧ ask < 99 / 100
    · have hkept : s.checkEntry parse registry tokenId ctx = (none, s) := by
        rcases checkEntry_cases parse registry ctx s tokenId with ⟨hkeep, -⟩ | ⟨pair, hpair, hready, -⟩
        · exact hkeep
        · exact absurd ⟨⟨ask, hask, hgate⟩, ⟨pair, hpair, rfl⟩, hready⟩ (h pair.conditionId)
      rw [tryEntries, hask]
      dsimp only
      rw [if_pos hgate, hkept]
    · rw [tryEntries, hask]
      dsimp only
      rw [if_neg hgate]

theorem Claims.checkEntry {s : LateEntryStrategy} {tokenId : TokenId} {conditionId : ConditionId}
    (h : s.Claims parse registry ctx tokenId conditionId) :
    s.checkEntry parse registry tokenId ctx =
      (s.openEntry parse registry ctx tokenId, s.claim conditionId ctx.now s.tradeCount) := by
  obtain ⟨-, ⟨pair, hpair, rfl⟩, hready⟩ := h
  rw [LateEntryStrategy.checkEntry, openEntry, hpair]
  dsimp only
  rw [hready]
  rfl

/-- A claimed market has its cooldown started, whether the token is then refused or entered. -/
theorem Claims.tryEntries {s : LateEntryStrategy} {tokenId : TokenId} {conditionId : ConditionId}
    (h : s.Claims parse registry ctx tokenId conditionId) (tokenIds : List TokenId) :
    s.tryEntries parse registry ctx (tokenId :: tokenIds) =
      match s.openEntry parse registry ctx tokenId with
      | none => (s.claim conditionId ctx.now s.tradeCount).tryEntries parse registry ctx tokenIds
      | some intent => Prod.map (intent :: ·) id
          ((s.claim conditionId ctx.now (s.tradeCount + 1)).tryEntries parse registry ctx tokenIds) := by
  have hcheck := h.checkEntry
  obtain ⟨⟨ask, hask, hgate⟩, -⟩ := h
  rw [LateEntryStrategy.tryEntries, hask]
  dsimp only
  rw [if_pos hgate, hcheck]
  cases s.openEntry parse registry ctx tokenId with
  | none => rfl
  | some intent => rfl

/-- The entry of a claimed token is let through exactly if the token qualifies. -/
theorem Claims.openEntry_eq_none_iff {s : LateEntryStrategy} {tokenId : TokenId} {conditionId : ConditionId}
    (h : s.Claims parse registry ctx tokenId conditionId) :
    s.openEntry parse registry ctx tokenId = none ↔ ¬s.Qualifies parse registry ctx tokenId conditionId := by
  rw [← openEntry_iff]
  constructor
  · rintro hnone ⟨i, hi, -⟩
    rw [hnone] at hi
    cases hi
  · intro hrefused
    refine Option.eq_none_iff_forall_ne_some.mpr fun i hi => hrefused ⟨i, hi, ?_⟩
    obtain ⟨pair, hpair, hentry⟩ := Option.bind_eq_some_iff.mp hi
    obtain ⟨_, -, -, rfl⟩ := entryOf_inv hentry
    obtain ⟨-, ⟨pair', hpair', rfl⟩, -⟩ := h
    rw [Option.some.inj (hpair'.symm.trans hpair)]
    rfl

def Reaches (parse : String → Option Decimal) (registry : MarketPairRegistry) (ctx : StrategyContext)
    (s : LateEntryStrategy) (tokenIds : List TokenId) (tokenId : TokenId) (conditionId : ConditionId) : Prop :=
  ∃ earlier later, tokenIds = earlier ++ tokenId :: later ∧ s.Claims parse registry ctx tokenId conditionId ∧
    (s.config.cooldownMs = 0 ∨ ∀ u ∈ earlier, ¬s.Claims parse registry ctx u conditionId)

theorem not_reaches_nil (s : LateEntryStrategy) (tokenId : TokenId) (conditionId : ConditionId) :
    ¬s.Reaches parse registry ctx [] tokenId conditionId := by
  rintro ⟨earlier, later, hsplit, -⟩
  exact absurd hsplit (by simp)

theorem reaches_cons_of_not_claims {s : LateEntryStrategy} {head : TokenId}
    (h : ∀ c, ¬s.Claims parse registry ctx head c) (tokenIds : List TokenId) (tokenId : TokenId)
    (conditionId : ConditionId) :
    s.Reaches parse registry ctx (head :: tokenIds) tokenId conditionId ↔
      s.Reaches parse registry ctx tokenIds tokenId conditionId := by
  constructor
  · rintro ⟨earlier, later, hsplit, hclaims, hfirst⟩
    cases earlier with
    | nil =>
      obtain ⟨rfl, -⟩ := List.cons.inj hsplit
      exact absurd hclaims (h conditionId)
    | cons _ earlier =>
      obtain ⟨rfl, rfl⟩ := List.cons.inj hsplit
      exact ⟨earlier, later, rfl, hclaims, hfirst.imp_right fun hall u hu => hall u (List.mem_cons_of_mem _ hu)⟩
  · rintro ⟨earlier, later, rfl, hclaims, hfirst⟩
    refine ⟨head :: earlier, later, rfl, hclaims, hfirst.imp_right fun hall u hu => ?_⟩
    rcases List.mem_cons.mp hu with rfl | hu
    · exact h conditionId
    · exact hall u hu

/-- After a refused token the others are reached as far as the cooldown that it started lets them. -/
theorem reaches_cons_of_claims {s : LateEntryStrategy} {head : TokenId} {claimed : ConditionId}
    (h : s.Claims parse registry ctx head claimed) (tokenIds : List TokenId) (tokenId : TokenId)
    (conditionId : ConditionId) (tradeCount : ℕ) :
    s.Reaches parse registry ctx (head :: tokenIds) tokenId conditionId ↔
      tokenId = head ∧ conditionId = claimed ∨
        (s.claim claimed ctx.now tradeCount).Reaches parse registry ctx tokenIds tokenId conditionId := by
  have hclaim : ∀ u c, (s.claim claimed ctx.now tradeCount).Claims parse registry ctx u c ↔
      s.Claims parse registry ctx u c ∧ (c = claimed → s.config.cooldownMs = 0) := fun u c => claims_claim h.2.2
  constructor
  · rintro ⟨earlier, later, hsplit, hclaims, hfirst⟩
    cases earlier with
    | nil =>
      obtain ⟨rfl, -⟩ := List.cons.inj hsplit
      exact .inl ⟨rfl, h.unique hclaims⟩
    | cons _ earlier =>
      obtain ⟨rfl, rfl⟩ := List.cons.inj hsplit
      refine .inr ⟨earlier, later, rfl, (hclaim _ _).mpr ⟨hclaims, ?_⟩, hfirst.imp_right fun hall u hu hu' => ?_⟩
      · rintro rfl
        exact hfirst.resolve_right fun hall => hall head List.mem_cons_self h
      · exact hall u (List.mem_cons_of_mem _ hu) ((hclaim _ _).mp hu').1
  · rintro (⟨rfl, rfl⟩ | ⟨earlier, later, rfl, hclaims, hfirst⟩)
    · exact ⟨[], tokenIds, rfl, h, .inr fun u hu => by cases hu⟩
    · obtain ⟨hclaims, hother⟩ := (hclaim _ _).mp hclaims
      refine ⟨head :: earlier, later, rfl, hclaims, ?_⟩
      rcases Nat.eq_zero_or_pos s.config.cooldownMs with hzero | hpos
      · exact .inl hzero
      · have hne : conditionId ≠ claimed := fun heq => hpos.ne' (hother heq)
        refine .inr fun u hu hu' => ?_
        rcases List.mem_cons.mp hu with rfl | hu
        · exact hne (h.unique hu')
        · exact hfirst.resolve_left hpos.ne' u hu ((hclaim _ _).mpr ⟨hu', fun heq => absurd heq hne⟩)

/-- Something is entered exactly if a token that is reached qualifies. -/
theorem tryEntries_ne_nil_iff (s : LateEntryStrategy) (tokenIds : List TokenId) :
    (s.tryEntries parse registry ctx tokenIds).1 ≠ [] ↔
      ∃ tokenId c, s.Reaches parse registry ctx tokenIds tokenId c ∧ s.Qualifies parse registry ctx tokenId c := by
  induction tokenIds generalizing s with
  | nil =>
    refine iff_of_false (fun h => h rfl) ?_
    rintro ⟨tokenId, c, hreach, -⟩
    exact s.not_reaches_nil tokenId c hreach
  | cons head tokenIds ih =>
    by_cases hclaims : ∃ c, s.Claims parse registry ctx head c
    · obtain ⟨claimed, hclaims⟩ := hclaims
      simp only [reaches_cons_of_claims hclaims tokenIds _ _ s.tradeCount]
      rw [hclaims.tryEntries]
      cases hopen : s.openEntry parse registry ctx head with
      | some intent =>
        have hqualifies : s.Qualifies parse registry ctx head claimed := by
          by_contra hrefused
          rw [hclaims.openEntry_eq_none_iff.mpr hrefused] at hopen
          cases hopen
        exact iff_of_true (List.cons_ne_nil _ _) ⟨head, claimed, .inl ⟨rfl, rfl⟩, hqualifies⟩
      | none =>
        have hrefused := hclaims.openEntry_eq_none_iff.mp hopen
        dsimp only
        rw [ih]
        constructor
        · rintro ⟨tokenId, c, hreach, hqual⟩
          exact ⟨tokenId, c, .inr hreach, hqual⟩
        · rintro ⟨tokenId, c, ⟨rfl, rfl⟩ | hreach, hqual⟩
          · exact absurd hqual hrefused
          · exact ⟨tokenId, c, hreach, hqual⟩
    · have hnone := not_exists.mp hclaims
      simp only [reaches_cons_of_not_claims hnone]
      rw [tryEntries_of_not_claims hnone, ih]

theorem Claims.snd_tryEntries {s : LateEntryStrategy} {tokenId : TokenId} {conditionId : ConditionId}
    (h : s.Claims parse registry ctx tokenId conditionId) (tokenIds : List TokenId) :
    ∃ tradeCount, (s.tryEntries parse registry ctx (tokenId :: tokenIds)).2 =
      ((s.claim conditionId ctx.now tradeCount).tryEntries parse registry ctx tokenIds).2 := by
  rw [h.tryEntries]
  cases s.openEntry parse registry ctx tokenId with
  | none => exact ⟨s.tradeCount, rfl⟩
  | some intent => exact ⟨s.tradeCount + 1, rfl⟩

/-- The cooldown of every claimed market starts, entered or not. -/
theorem lastTrade_tryEntries_of_claims {s : LateEntryStrategy} {tokenIds : List TokenId} {conditionId : ConditionId}
    (h : ∃ tokenId ∈ tokenIds, s.Claims parse registry ctx tokenId conditionId) :
    (s.tryEntries parse registry ctx tokenIds).2.lastTrade.lookup conditionId = some ctx.now := by
  induction tokenIds generalizing s with
  | nil =>
    obtain ⟨_, hmem, -⟩ := h
    cases hmem
  | cons head tokenIds ih =>
    by_cases hclaims : ∃ c, s.Claims parse registry ctx head c
    · obtain ⟨claimed, hclaims⟩ := hclaims
      obtain ⟨tradeCount, hnext⟩ := hclaims.snd_tryEntries tokenIds
      rw [hnext]
      rcases eq_or_ne conditionId claimed with rfl | hne
      · -- what has just been stored is kept or stored again
        have htried : Tried parse registry ctx (s.claim conditionId ctx.now tradeCount) _ := tryEntries_tried _ tokenIds
        have hmoves := htried.paced.moves conditionId
        exact hmoves.elim (fun hkept => hkept.trans (AList.lookup_insert _)) And.left
      · obtain ⟨tokenId, hmem, hother⟩ := h
        refine ih ⟨tokenId, ?_, (claims_claim hclaims.2.2).mpr ⟨hother, fun heq => absurd heq hne⟩⟩
        exact (List.mem_cons.mp hmem).resolve_left fun heq => hne (hclaims.unique (heq ▸ hother))
    · rw [tryEntries_of_not_claims (not_exists.mp hclaims)]
      obtain ⟨tokenId, hmem, hother⟩ := h
      exact ih ⟨tokenId, (List.mem_cons.mp hmem).resolve_left fun heq => hclaims ⟨_, heq ▸ hother⟩, hother⟩

theorem lastTrade_tryEntries_of_not_claims {s : LateEntryStrategy} {tokenIds : List TokenId}
    {conditionId : ConditionId} (h : ∀ tokenId ∈ tokenIds, ¬s.Claims parse registry ctx tokenId conditionId) :
    (s.tryEntries parse registry ctx tokenIds).2.lastTrade.lookup conditionId = s.lastTrade.lookup conditionId := by
  induction tokenIds generalizing s with
  | nil => rfl
  | cons head tokenIds ih =>
    obtain ⟨hhead, htail⟩ := List.forall_mem_cons.mp h
    by_cases hclaims : ∃ c, s.Claims parse registry ctx head c
    · obtain ⟨claimed, hclaims⟩ := hclaims
      obtain ⟨tradeCount, hnext⟩ := hclaims.snd_tryEntries tokenIds
      have hne : conditionId ≠ claimed := by
        rintro rfl
        exact hhead hclaims
      rw [hnext, ih fun tokenId hmem hagain => htail tokenId hmem ((claims_claim hclaims.2.2).mp hagain).1]
      exact AList.lookup_insert_ne hne
    · rw [tryEntries_of_not_claims (not_exists.mp hclaims)]
      exact ih htail

structure SameGates (s s' : LateEntryStrategy) : Prop where
  config : s'.config = s.config
  enabled : s'.enabled = s.enabled
  entryTracking : s'.entryTracking = s.entryTracking
  lastTrade : ∀ c, s'.lastTrade.lookup c = s.lastTrade.lookup c

theorem SameGates.claim {s s' : LateEntryStrategy} (h : SameGates s s') (conditionId : ConditionId) (now : Instant)
    (tradeCount tradeCount' : ℕ) :
    SameGates (s.claim conditionId now tradeCount) (s'.claim conditionId now tradeCount') where
  config := h.config
  enabled := h.enabled
  entryTracking := h.entryTracking
  lastTrade := lookup_insert_congr h.lastTrade conditionId now

theorem SameGates.claims {s s' : LateEntryStrategy} (h : SameGates s s') (tokenId : TokenId)
    (conditionId : ConditionId) :
    s'.Claims parse registry ctx tokenId conditionId ↔ s.Claims parse registry ctx tokenId conditionId := by
  unfold Claims isOnCooldown
  rw [h.config, h.lastTrade]

theorem SameGates.openEntry {s s' : LateEntryStrategy} (h : SameGates s s') (tokenId : TokenId) :
    s'.openEntry parse registry ctx tokenId = s.openEntry parse registry ctx tokenId := by
  unfold LateEntryStrategy.openEntry LateEntryStrategy.entryOf shares
  rw [h.config, h.entryTracking]

theorem SameGates.tryEntries {s s' : LateEntryStrategy} (h : SameGates s s') (tokenIds : List TokenId) :
    (s'.tryEntries parse registry ctx tokenIds).1 = (s.tryEntries parse registry ctx tokenIds).1 := by
  induction tokenIds generalizing s s' with
  | nil => rfl
  | cons tokenId tokenIds ih =>
    by_cases hclaims : ∃ c, s.Claims parse registry ctx tokenId c
    · obtain ⟨claimed, hclaims⟩ := hclaims
      rw [hclaims.tryEntries, ((h.claims tokenId claimed).mpr hclaims).tryEntries, h.openEntry]
      cases s.openEntry parse registry ctx tokenId with
      | none => exact ih (h.claim claimed ctx.now _ _)
      | some intent => exact congrArg (intent :: ·) (ih (h.claim claimed ctx.now _ _))
    · have hnone := not_exists.mp hclaims
      have hnone' : ∀ c, ¬s'.Claims parse registry ctx tokenId c := fun c hc => hnone c ((h.claims tokenId c).mp hc)
      rw [tryEntries_of_not_claims hnone, tryEntries_of_not_claims hnone', ih h]

theorem SameGates.onBookUpdate {s s' : LateEntryStrategy} (h : SameGates s s') (tokenId : TokenId) (utcNow : ℕ) :
    (s'.onBookUpdate parse registry tokenId ctx utcNow).1 = (s.onBookUpdate parse registry tokenId ctx utcNow).1 := by
  have hwindow : s'.entryWindowSecs = s.entryWindowSecs := by rw [entryWindowSecs, entryWindowSecs, h.config]
  have hsecs : s'.secsToResolution utcNow = s.secsToResolution utcNow := by
    rw [secsToResolution, secsToResolution, h.config]
  unfold LateEntryStrategy.onBookUpdate
  rw [h.enabled, hwindow, hsecs]
  split_ifs
  · rfl
  · rfl
  · rfl
  · cases registry.getByToken tokenId with
    | none => rfl
    | some pair => exact h.tryEntries _

theorem enabled_tryEntries (s : LateEntryStrategy) (tokenIds : List TokenId) :
    (s.tryEntries parse registry ctx tokenIds).2.enabled = s.enabled := by
  induction tokenIds generalizing s with
  | nil => rfl
  | cons tokenId tokenIds ih =>
    by_cases hclaims : ∃ c, s.Claims parse registry ctx tokenId c
    · obtain ⟨claimed, hclaims⟩ := hclaims
      obtain ⟨tradeCount, hnext⟩ := hclaims.snd_tryEntries tokenIds
      rw [hnext]
      exact ih _
    · rw [tryEntries_of_not_claims (not_exists.mp hclaims)]
      exact ih s

/-- Trying tokens changes no gate exactly if no cooldown is started that was not started at this very instant. -/
theorem sameGates_tryEntries_iff (s : LateEntryStrategy) (tokenIds : List TokenId) :
    s.SameGates (s.tryEntries parse registry ctx tokenIds).2 ↔
      ∀ t ∈ tokenIds, ∀ c, s.Claims parse registry ctx t c → s.lastTrade.lookup c = some ctx.now := by
  constructor
  · intro h t ht c hclaims
    exact (h.lastTrade c).symm.trans (lastTrade_tryEntries_of_claims ⟨t, ht, hclaims⟩)
  · intro h
    refine ⟨(tryEntries_tried s tokenIds).config, enabled_tryEntries s tokenIds,
      entryTracking_tryEntries parse s registry ctx tokenIds, fun c => ?_⟩
    by_cases hclaims : ∃ t ∈ tokenIds, s.Claims parse registry ctx t c
    · obtain ⟨t, ht, hclaim⟩ := hclaims
      exact (lastTrade_tryEntries_of_claims ⟨t, ht, hclaim⟩).trans (h t ht c hclaim).symm
    · exact lastTrade_tryEntries_of_not_claims fun t ht hclaim => hclaims ⟨t, ht, hclaim⟩

/-- A book update that emits nothing leaves the cooldowns as they were, so that later updates emit what they would have
without it. -/
def SparesCooldown (parse : String → Option Decimal) (registry : MarketPairRegistry) (ctx : StrategyContext)
    (s : LateEntryStrategy) (tokenId : TokenId) (utcNow : ℕ) : Prop :=
  (s.onBookUpdate parse registry tokenId ctx utcNow).1 = [] →
    (∀ c, (s.onBookUpdate parse registry tokenId ctx utcNow).2.lastTrade.lookup c = s.lastTrade.lookup c) ∧
    ∀ registry' tokenId' ctx' utcNow',
      ((s.onBookUpdate parse registry tokenId ctx utcNow).2.onBookUpdate parse registry' tokenId' ctx' utcNow').1 =
        (s.onBookUpdate parse registry' tokenId' ctx' utcNow').1

/-- In the entry window, no market of the tokens tried is off its cooldown, or one that is reached passes all other
gates. A market that traded at this very instant may be claimed again. -/
def SlotsSafe (parse : String → Option Decimal) (registry : MarketPairRegistry) (ctx : StrategyContext)
    (s : LateEntryStrategy) (tokenId : TokenId) (utcNow : ℕ) : Prop :=
  ∀ pair, s.IsActive utcNow → registry.getByToken tokenId = some pair →
    (∀ t ∈ (ctx.tokensByAskAsc parse pair).reverse, ∀ c, s.Claims parse registry ctx t c →
      s.lastTrade.lookup c = some ctx.now) ∨
    ∃ t c, s.Reaches parse registry ctx (ctx.tokensByAskAsc parse pair).reverse t c ∧
      s.Qualifies parse registry ctx t c

theorem sparesCooldown_of_onBookUpdate_eq {s : LateEntryStrategy} {tokenId : TokenId} {utcNow : ℕ}
    (h : s.onBookUpdate parse registry tokenId ctx utcNow = ([], s)) :
    s.SparesCooldown parse registry ctx tokenId utcNow := by
  intro _
  rw [h]
  exact ⟨fun _ => rfl, fun _ _ _ _ => rfl⟩

/-- A book update without an entry spares the cooldowns exactly if it claims none; refusing a token after the cooldown
of its market was found to have run out spends it. -/
theorem spares_cooldown_iff (parse : String → Option Decimal) (registry : MarketPairRegistry) (ctx : StrategyContext)
    (s : LateEntryStrategy) (tokenId : TokenId) (utcNow : ℕ) :
    s.SparesCooldown parse registry ctx tokenId utcNow ↔ s.SlotsSafe parse registry ctx tokenId utcNow := by
  by_cases hactive : s.IsActive utcNow
  · cases hpair : registry.getByToken tokenId with
    | none =>
      refine iff_of_true ?_ fun pair _ hsome => by rw [hpair] at hsome; cases hsome
      rcases s.onBookUpdate_split tokenId utcNow with hnone | ⟨pair, -, hsome, -⟩
      · exact sparesCooldown_of_onBookUpdate_eq hnone
      · rw [hpair] at hsome
        cases hsome
    | some pair =>
      have hsafe : s.SlotsSafe parse registry ctx tokenId utcNow ↔
          s.SameGates (s.tryEntries parse registry ctx (ctx.tokensByAskAsc parse pair).reverse).2 ∨
            (s.tryEntries parse registry ctx (ctx.tokensByAskAsc parse pair).reverse).1 ≠ [] := by
        rw [sameGates_tryEntries_iff, tryEntries_ne_nil_iff]
        refine ⟨fun h => h pair hactive hpair, fun h pair' _ hpair' => ?_⟩
        rw [← Option.some.inj (hpair.symm.trans hpair')]
        exact h
      rw [hsafe, SparesCooldown, onBookUpdate_of_active hactive hpair]
      constructor
      · intro h
        refine or_iff_not_imp_right.mpr fun hnone => ?_
        exact ⟨(tryEntries_tried s _).config, enabled_tryEntries s _, entryTracking_tryEntries parse s registry ctx _,
          (h (not_not.mp hnone)).1⟩
      · intro h hnone
        have hsame := h.resolve_right (not_not.mpr hnone)
        exact ⟨hsame.lastTrade, fun registry' tokenId' ctx' utcNow' => hsame.onBookUpdate tokenId' utcNow'⟩
  · refine iff_of_true ?_ fun _ h => absurd h hactive
    rcases s.onBookUpdate_split tokenId utcNow with hnone | ⟨_, hactive', -⟩
    · exact sparesCooldown_of_onBookUpdate_eq hnone
    · exact absurd hactive' hactive

private def askText (text : String) : Option Decimal :=
  if text = "0.92" then some (92 / 100)
  else if text = "0.90" then some (90 / 100)
  else if text = "1000" then some 1000
  else if text = "1" then some 1
  else none

private def winnerFor (size : String) (now : Instant) : StrategyContext where
  books := (∅ : OrderBookState).insert "yes" ⟨"yes", "m1", [⟨"0.90", "1000"⟩], [⟨"0.92", size⟩], none, none⟩
  ledger := Ledger.new 1000
  now := now

/-- One share on offer is too little to enter; when a thousand are offered a second later, the cooldown of two minutes
keeps the market back, and the entry that would be made then is not. -/
theorem refused_entry_spends_cooldown :
    ¬(withConfig .default).SparesCooldown askText (MarketPairRegistry.new.register (MarketPair.new "m1" "yes" "no"))
      (winnerFor "1" 0) "yes" 800 := by
  intro h
  have hnothing : ((withConfig .default).onBookUpdate askText
      (MarketPairRegistry.new.register (MarketPair.new "m1" "yes" "no")) "yes" (winnerFor "1" 0) 800).1 = [] := by
    decide +kernel
  have hlater := congrArg List.length ((h hnothing).2
    (MarketPairRegistry.new.register (MarketPair.new "m1" "yes" "no")) "yes"
    (winnerFor "1000" (Duration.fromMillis 1000)) 801)
  exact absurd hlater (by decide +kernel)

end LateEntryStrategy

end PolyBot
