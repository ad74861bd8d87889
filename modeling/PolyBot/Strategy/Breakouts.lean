import PolyBot.General.CappedLog
import PolyBot.General.DecimalText
import PolyBot.General.Streaks
import PolyBot.Strategy.ExitRuns

/-! Breakouts over runs: which updates of a token the trending-breakout strategy takes for a sustained breakout. -/

namespace PolyBot
open General.KeyedStore General.AdditiveRuns General.CappedLog General.Streaks AllStrategies

namespace TboTrendStrategy

def mids (s : TboTrendStrategy) (t : TokenId) : List Decimal := (s.priceHistory.lookup t).getD []

def confirmations (s : TboTrendStrategy) (t : TokenId) : ℕ := (s.breakoutConfirm.lookup t).getD 0

variable (parse : String → Option Decimal)

def handle (s : TboTrendStrategy) : StrategyEvent → List OrderIntent × TboTrendStrategy
  | .bookUpdate around _ tokenId => s.onBookUpdate parse around.registry tokenId around.ctx
  | .fill f now => ([], s.onFill f now)
  | .tick around => s.onTick parse around.registry around.ctx

def step (s : TboTrendStrategy) (e : StrategyEvent) : TboTrendStrategy := (s.handle parse e).2

def run (s : TboTrendStrategy) (events : List StrategyEvent) : TboTrendStrategy := events.foldl (step parse) s

theorem handle_tboTrend (s : TboTrendStrategy) (e : StrategyEvent) :
    (ExitStrategy.tboTrend s).handle parse e = (s.handle parse e).map id ExitStrategy.tboTrend := by
  cases e <;> rfl

variable {parse} {registry : MarketPairRegistry} {ctx : StrategyContext} {t u : TokenId}

theorem mids_updatePriceHistory_self (s : TboTrendStrategy) (mid : Decimal) :
    (s.updatePriceHistory t mid).mids t = (mid :: s.mids t).take s.config.lookbackTicks := by
  rw [mids, updatePriceHistory, AList.lookup_insert]
  rfl

theorem mids_updatePriceHistory_ne (s : TboTrendStrategy) (hne : t ≠ u) (mid : Decimal) :
    (s.updatePriceHistory u mid).mids t = s.mids t := by
  rw [mids, updatePriceHistory, AList.lookup_insert_ne hne]
  rfl

/-- What nothing but an update of a token, or of one that it is the complement of, changes. -/
structure SameBreakout (t : TokenId) (s s' : TboTrendStrategy) : Prop where
  config : s'.config = s.config
  enabled : s'.enabled = s.enabled
  mids : s'.mids t = s.mids t
  confirmations : s'.confirmations t = s.confirmations t

theorem SameBreakout.refl (t : TokenId) (s : TboTrendStrategy) : SameBreakout t s s := ⟨rfl, rfl, rfl, rfl⟩

theorem SameBreakout.trans {s s' s'' : TboTrendStrategy} (h : SameBreakout t s s') (h' : SameBreakout t s' s'') :
    SameBreakout t s s'' :=
  ⟨h'.config.trans h.config, h'.enabled.trans h.enabled, h'.mids.trans h.mids, h'.confirmations.trans h.confirmations⟩

theorem sameBreakout_updatePriceHistory (s : TboTrendStrategy) (hne : t ≠ u) (mid : Decimal) :
    SameBreakout t s (s.updatePriceHistory u mid) :=
  ⟨rfl, rfl, s.mids_updatePriceHistory_ne hne mid, rfl⟩

variable (parse ctx) in
theorem sameBreakout_updateComplement (s : TboTrendStrategy)
    (hquiet : (registry.getByToken u).bind (·.complement u) ≠ some t) :
    SameBreakout t s (s.updateComplement parse registry u ctx) := by
  rcases s.updateComplement_cases parse registry u ctx with heq | ⟨complementId, mid, hcomplement, heq⟩
  · rw [heq]
    exact .refl t s
  · rw [heq]
    refine s.sameBreakout_updatePriceHistory ?_ mid
    rintro rfl
    exact hquiet hcomplement

theorem sameBreakout_confirmBreakout (s : TboTrendStrategy) (hne : t ≠ u) :
    SameBreakout t s (s.confirmBreakout parse registry u ctx).2 := by
  have hlookup : ∀ (store : Store TokenId ℕ) (count : ℕ), (store.insert u count).lookup t = store.lookup t :=
    fun _ _ => AList.lookup_insert_ne hne
  rcases s.confirmBreakout_cases parse registry u ctx with ⟨heq, -⟩ | ⟨_, -, -, heq⟩
  · rw [heq]
    exact ⟨rfl, rfl, rfl, by simp only [confirmations, hlookup]⟩
  · rw [heq]
    exact ⟨rfl, rfl, rfl, by simp only [confirmations, hlookup]⟩

/-- The updates of other tokens leave the breakout of a token alone, unless it is their complement. -/
theorem sameBreakout_onBookUpdate (s : TboTrendStrategy) (hne : t ≠ u)
    (hquiet : (registry.getByToken u).bind (·.complement u) ≠ some t) :
    SameBreakout t s (s.onBookUpdate parse registry u ctx).2 := by
  unfold onBookUpdate
  split
  · exact .refl t s
  · split
    · exact .refl t s
    · rename_i mid _
      have hhistory := (s.sameBreakout_updatePriceHistory hne mid).trans
        (sameBreakout_updateComplement parse ctx (s.updatePriceHistory u mid) hquiet)
      dsimp only
      split
      · exact hhistory
      · split
        · exact hhistory.trans (sameBreakout_confirmBreakout _ hne)
        · refine hhistory.trans ⟨rfl, rfl, rfl, ?_⟩
          rw [confirmations, AList.lookup_insert_ne hne]
          rfl

def AboveLevel (config : TboConfig) (high mid : Decimal) : Prop :=
  high * (1 + config.breakoutThresholdBps / 10000) < mid

instance (config : TboConfig) (high mid : Decimal) : Decidable (AboveLevel config high mid) :=
  inferInstanceAs (Decidable (_ < _))

/-- The mid is above the breakout level of the mids recorded before it, of which the window has kept the last. -/
def BreaksOut (config : TboConfig) (history : List Decimal) (mid : Decimal) : Prop :=
  AboveLevel config ((highest? (history.take (config.lookbackTicks - 1))).getD mid) mid

instance (config : TboConfig) (history : List Decimal) (mid : Decimal) : Decidable (BreaksOut config history mid) :=
  inferInstanceAs (Decidable (AboveLevel _ _ _))

def Enters (parse : String → Option Decimal) (registry : MarketPairRegistry) (ctx : StrategyContext)
    (s : TboTrendStrategy) (t : TokenId) : Prop :=
  s.config.minConfirmTicks ≤ s.confirmations t + 1 ∧ (s.checkEntry parse registry t ctx).isSome = true

instance (s : TboTrendStrategy) : Decidable (s.Enters parse registry ctx t) := inferInstanceAs (Decidable (_ ∧ _))

structure Counted (parse : String → Option Decimal) (registry : MarketPairRegistry) (ctx : StrategyContext)
    (s : TboTrendStrategy) (t : TokenId) (result : List OrderIntent × TboTrendStrategy) : Prop where
  enters : s.Enters parse registry ctx t → result.2.confirmations t = 0 ∧
    ∃ intent, s.checkEntry parse registry t ctx = some intent ∧ result.1 = [intent]
  waits : ¬s.Enters parse registry ctx t → result.2.confirmations t = s.confirmations t + 1 ∧ result.1 = []

/-- The counting depends on the confirmations and the gates only. -/
theorem Counted.of_same {s s' : TboTrendStrategy} {result : List OrderIntent × TboTrendStrategy}
    (h : Counted parse registry ctx s' t result) (hconfig : s'.config = s.config)
    (hcount : s'.confirmations t = s.confirmations t)
    (hentry : s'.checkEntry parse registry t ctx = s.checkEntry parse registry t ctx) :
    Counted parse registry ctx s t result := by
  have henters : s'.Enters parse registry ctx t ↔ s.Enters parse registry ctx t := by
    rw [Enters, Enters, hconfig, hcount, hentry]
  constructor
  · intro hs
    obtain ⟨hzero, hemitted⟩ := h.enters (henters.mpr hs)
    exact ⟨hzero, hentry ▸ hemitted⟩
  · intro hs
    obtain ⟨hnext, hnone⟩ := h.waits (mt henters.mp hs)
    exact ⟨hcount ▸ hnext, hnone⟩

variable (parse registry ctx t) in
theorem counted_confirmBreakout (s : TboTrendStrategy) :
    Counted parse registry ctx s t (s.confirmBreakout parse registry t ctx) ∧
      (s.confirmBreakout parse registry t ctx).2.config = s.config ∧
      (s.confirmBreakout parse registry t ctx).2.enabled = s.enabled ∧
      (s.confirmBreakout parse registry t ctx).2.priceHistory = s.priceHistory := by
  have hinsert : ∀ (store : Store TokenId ℕ) (count : ℕ), (store.insert t count).lookup t = some count :=
    fun store _ => AList.lookup_insert store
  rcases s.confirmBreakout_cases parse registry t ctx with ⟨heq, hwaits⟩ | ⟨intent, henough, hentry, heq⟩
  · rw [heq]
    refine ⟨⟨fun henters => absurd henters hwaits, fun _ => ⟨?_, rfl⟩⟩, rfl, rfl, rfl⟩
    simp only [confirmations, hinsert, Option.getD_some]
  · rw [heq]
    refine ⟨⟨fun _ => ⟨?_, intent, hentry, rfl⟩, fun hnot => ?_⟩, rfl, rfl, rfl⟩
    · simp only [confirmations, hinsert, Option.getD_some]
    · exact absurd ⟨henough, Option.isSome_of_eq_some hentry⟩ hnot

variable (parse registry ctx t) in
theorem checkEntry_updateComplement (s : TboTrendStrategy) :
    (s.updateComplement parse registry t ctx).checkEntry parse registry t ctx = s.checkEntry parse registry t ctx := by
  rcases s.updateComplement_cases parse registry t ctx with heq | ⟨_, _, -, heq⟩
  · rw [heq]
  · rw [heq]
    rfl

/-- An update of a token with a full window: a mid above the breakout level is counted, any other starts again. -/
theorem onBookUpdate_of_mid {s : TboTrendStrategy} (henabled : s.enabled = true)
    (hwarm : s.config.lookbackTicks ≤ (s.mids t).length) {mid : Decimal} (hmid : ctx.midPrice parse t = some mid)
    (hquiet : (registry.getByToken t).bind (·.complement t) ≠ some t) :
    (s.onBookUpdate parse registry t ctx).2.config = s.config ∧
      (s.onBookUpdate parse registry t ctx).2.enabled = s.enabled ∧
      (s.onBookUpdate parse registry t ctx).2.mids t = (mid :: s.mids t).take s.config.lookbackTicks ∧
      (BreaksOut s.config (s.mids t) mid → Counted parse registry ctx s t (s.onBookUpdate parse registry t ctx)) ∧
      (¬BreaksOut s.config (s.mids t) mid → (s.onBookUpdate parse registry t ctx).2.confirmations t = 0 ∧
        (s.onBookUpdate parse registry t ctx).1 = []) := by
  have hcomplement := sameBreakout_updateComplement parse ctx (s.updatePriceHistory t mid) hquiet
  have hmids := hcomplement.mids.trans (s.mids_updatePriceHistory_self mid)
  have hentry := checkEntry_updateComplement parse registry ctx t (s.updatePriceHistory t mid)
  set s' := (s.updatePriceHistory t mid).updateComplement parse registry t ctx with hs'
  have hlength : ¬(s'.mids t).length < s'.config.lookbackTicks := by
    rw [hmids, hcomplement.config, List.length_take, List.length_cons]
    exact not_lt.mpr (le_min le_rfl (hwarm.trans (Nat.le_succ _)))
  have hlevel : AboveLevel s'.config ((highest? ((s'.mids t).drop 1)).getD mid) mid ↔
      BreaksOut s.config (s.mids t) mid := by
    rw [hmids, List.drop_take, hcomplement.config]
    rfl
  have hupdate : s.onBookUpdate parse registry t ctx =
      if AboveLevel s'.config ((highest? ((s'.mids t).drop 1)).getD mid) mid then
        s'.confirmBreakout parse registry t ctx
      else ([], { s' with breakoutConfirm := s'.breakoutConfirm.insert t 0 }) := by
    rw [onBookUpdate, henabled, if_neg Bool.noConfusion, hmid]
    exact if_neg hlength
  by_cases hbreaks : BreaksOut s.config (s.mids t) mid
  · rw [hupdate, if_pos (hlevel.mpr hbreaks)]
    obtain ⟨hcounted, hconfig, hstill, hhistory⟩ := counted_confirmBreakout parse registry ctx t s'
    refine ⟨hconfig.trans hcomplement.config, hstill.trans hcomplement.enabled, ?_, fun _ => ?_, absurd hbreaks⟩
    · rw [← hmids, mids, hhistory]
      rfl
    · exact hcounted.of_same hcomplement.config hcomplement.confirmations hentry
  · rw [hupdate, if_neg (mt hlevel.mp hbreaks)]
    refine ⟨hcomplement.config, hcomplement.enabled, hmids, fun hnot => absurd hnot hbreaks, fun _ => ⟨?_, rfl⟩⟩
    rw [confirmations, AList.lookup_insert]
    rfl

section Runs
variable (parse : String → Option Decimal) (t : TokenId)

def IsUpdateOf : StrategyEvent → Bool
  | .bookUpdate _ _ u => u = t
  | .fill _ _ | .tick _ => false

def midOf : StrategyEvent → Option Decimal
  | .bookUpdate around _ u => if u = t then around.ctx.midPrice parse t else none
  | .fill _ _ | .tick _ => none

def Quiet : StrategyEvent → Prop
  | .bookUpdate around _ u => (around.registry.getByToken u).bind (·.complement u) ≠ some t
  | .fill _ _ | .tick _ => True

/-- It is no update of the token at which one confirmation more than `count` is enough and the gates are open. -/
def NotYet (count : ℕ) (s : TboTrendStrategy) : StrategyEvent → Prop
  | .bookUpdate around _ u =>
    u = t → ¬(s.config.minConfirmTicks ≤ count + 1 ∧ (s.checkEntry parse around.registry t around.ctx).isSome = true)
  | .fill _ _ | .tick _ => True

instance (count : ℕ) (s : TboTrendStrategy) (e : StrategyEvent) : Decidable (NotYet parse t count s e) :=
  match e with
  | .bookUpdate _ _ u => inferInstanceAs (Decidable (u = t → _))
  | .fill _ _ | .tick _ => inferInstanceAs (Decidable True)

/-- Every mid is above the breakout level of the mids before it, the latest of which is first. -/
def Sustained (config : TboConfig) : List Decimal → List Decimal → Prop
  | _, [] => True
  | history, mid :: mids => BreaksOut config history mid ∧ Sustained config (mid :: history) mids

instance decidableSustained (config : TboConfig) (history mids : List Decimal) :
    Decidable (Sustained config history mids) :=
  match mids with
  | [] => inferInstanceAs (Decidable True)
  | mid :: mids =>
    have := decidableSustained config (mid :: history) mids
    inferInstanceAs (Decidable (BreaksOut config history mid ∧ Sustained config (mid :: history) mids))

structure Warm (config : TboConfig) (s : TboTrendStrategy) : Prop where
  settings : s.config = config
  enabled : s.enabled = true
  full : config.lookbackTicks ≤ (s.mids t).length

/-- An event that leaves the window of the token to its own updates, which all have a mid. -/
def Undisturbed (e : StrategyEvent) : Prop := Quiet t e ∧ (IsUpdateOf t e = true → ∃ mid, midOf parse t e = some mid)

/-- The mid of an update of the token is above the breakout level, and no entry is due yet. -/
def Confirms (s : TboTrendStrategy) (e : StrategyEvent) : Prop :=
  (∀ mid, midOf parse t e = some mid → BreaksOut s.config (s.mids t) mid) ∧ NotYet parse t (s.confirmations t) s e

end Runs

section
variable {config : TboConfig} {s : TboTrendStrategy} {e : StrategyEvent}

variable (parse s) in
theorem sameBreakout_step (hother : IsUpdateOf t e = false) (hquiet : Quiet t e) :
    SameBreakout t s (s.step parse e) := by
  cases e with
  | bookUpdate around marketId u => exact s.sameBreakout_onBookUpdate (Ne.symm (of_decide_eq_false hother)) hquiet
  | fill f now => exact ⟨rfl, rfl, rfl, rfl⟩
  | tick around =>
    simp only [step, handle, onTick]
    split
    · exact .refl t s
    · exact ⟨rfl, rfl, rfl, rfl⟩

theorem midOf_eq_none (hother : IsUpdateOf t e = false) : midOf parse t e = none := by
  cases e with
  | bookUpdate around marketId u => exact if_neg (of_decide_eq_false hother)
  | fill f now => rfl
  | tick around => rfl

/-- What an update of a token with a full window comes to. -/
theorem step_of_mid (hwarm : Warm t config s) {mid : Decimal} (hmid : midOf parse t e = some mid)
    (hquiet : Quiet t e) :
    (s.step parse e).config = config ∧ (s.step parse e).enabled = true ∧
      (s.step parse e).mids t = (mid :: s.mids t).take config.lookbackTicks ∧
      (Confirms parse t s e → (s.step parse e).confirmations t = s.confirmations t + 1) ∧
      (¬Confirms parse t s e → (s.step parse e).confirmations t = 0) := by
  obtain ⟨rfl, henabled, hfull⟩ := hwarm
  cases e with
  | bookUpdate around marketId u =>
    by_cases hu : u = t
    · subst hu
      rw [midOf, if_pos rfl] at hmid
      obtain ⟨hconfig, hstill, hmids, hcounted, hagain⟩ := onBookUpdate_of_mid henabled hfull hmid hquiet
      refine ⟨hconfig, hstill.trans henabled, hmids, fun hconfirms => ?_, fun hnot => ?_⟩
      · exact ((hcounted (hconfirms.1 mid ((if_pos rfl).trans hmid))).waits (hconfirms.2 rfl)).1
      · by_cases hbreaks : BreaksOut s.config (s.mids u) mid
        · have henters : s.Enters parse around.registry around.ctx u := by
            by_contra hwaits
            refine hnot ⟨fun mid' hmid' => ?_, fun _ => hwaits⟩
            rw [midOf, if_pos rfl, hmid] at hmid'
            exact Option.some.inj hmid' ▸ hbreaks
          exact ((hcounted hbreaks).enters henters).1
        · exact (hagain hbreaks).1
    · rw [midOf, if_neg hu] at hmid
      cases hmid
  | fill f now => cases hmid
  | tick around => cases hmid

theorem Warm.step (hwarm : Warm t config s) (hok : Undisturbed parse t e) : Warm t config (s.step parse e) := by
  obtain ⟨hquiet, hbearing⟩ := hok
  cases hupdate : IsUpdateOf t e with
  | true =>
    obtain ⟨mid, hmid⟩ := hbearing hupdate
    obtain ⟨hconfig, henabled, hmids, -, -⟩ := step_of_mid hwarm hmid hquiet
    refine ⟨hconfig, henabled, ?_⟩
    rw [hmids, List.length_take, List.length_cons]
    exact le_min le_rfl (hwarm.full.trans (Nat.le_succ _))
  | false =>
    have hsame := sameBreakout_step parse s hupdate hquiet
    exact ⟨hsame.config.trans hwarm.settings, hsame.enabled.trans hwarm.enabled, hsame.mids ▸ hwarm.full⟩

variable (parse t config) in
/-- The confirmations are a counter that an update at or below the breakout level, or an entry, sets to zero. -/
theorem streak_confirmations :
    Streak (step parse) (Warm t config) (Undisturbed parse t) (·.confirmations t) (IsUpdateOf t)
      (Confirms parse t) where
  keeps _ _ hwarm hok := hwarm.step hok
  other _ _ _ hok hother := (sameBreakout_step parse _ hother hok.1).confirmations
  success _ _ hwarm hok hupdate hconfirms := by
    obtain ⟨mid, hmid⟩ := hok.2 hupdate
    exact (step_of_mid hwarm hmid hok.1).2.2.2.1 hconfirms
  failure _ _ hwarm hok hupdate hnot := by
    obtain ⟨mid, hmid⟩ := hok.2 hupdate
    exact (step_of_mid hwarm hmid hok.1).2.2.2.2 hnot

theorem breaksOut_congr {history history' : List Decimal}
    (h : history.take config.lookbackTicks = history'.take config.lookbackTicks) (mid : Decimal) :
    BreaksOut config history mid ↔ BreaksOut config history' mid := by
  have hshorter := congrArg (List.take (config.lookbackTicks - 1)) h
  rw [List.take_take, List.take_take, min_eq_left (Nat.sub_le _ _)] at hshorter
  rw [BreaksOut, BreaksOut, hshorter]

/-- The levels that the mids of a run have to exceed are those of the window and the mids before them. -/
theorem throughout_breaksOut_iff {history : List Decimal} {events : List StrategyEvent} (hwarm : Warm t config s)
    (hhistory : (s.mids t).take config.lookbackTicks = history.take config.lookbackTicks)
    (hok : ∀ e ∈ events, Undisturbed parse t e) :
    Throughout (step parse) (fun s e => ∀ mid, midOf parse t e = some mid → BreaksOut s.config (s.mids t) mid) s
        events ↔
      Sustained config history (events.filterMap (midOf parse t)) := by
  induction events generalizing s history with
  | nil => exact Iff.rfl
  | cons e events ih =>
    obtain ⟨hoke, hok⟩ := List.forall_mem_cons.mp hok
    cases hupdate : IsUpdateOf t e with
    | true =>
      obtain ⟨mid, hmid⟩ := hoke.2 hupdate
      obtain ⟨-, -, hmids, -, -⟩ := step_of_mid hwarm hmid hoke.1
      have hnext : ((s.step parse e).mids t).take config.lookbackTicks =
          (mid :: history).take config.lookbackTicks := by
        rw [hmids, List.take_take, min_self]
        exact take_cons_congr hhistory mid
      have hhead : (∀ mid', midOf parse t e = some mid' → BreaksOut s.config (s.mids t) mid') ↔
          BreaksOut config history mid := by
        rw [hwarm.settings, hmid, ← breaksOut_congr hhistory]
        exact ⟨fun h => h mid rfl, fun h mid' hmid' => Option.some.inj hmid' ▸ h⟩
      rw [List.filterMap_cons_some hmid, Sustained, Throughout, hhead, ih (hwarm.step hoke) hnext hok]
    | false =>
      have hsame := sameBreakout_step parse s hupdate hoke.1
      rw [List.filterMap_cons_none (midOf_eq_none hupdate), Throughout,
        ih (hwarm.step hoke) (hsame.mids.symm ▸ hhistory) hok]
      exact and_iff_right fun mid hmid => by rw [midOf_eq_none hupdate] at hmid; cases hmid

/-- The highest price decides, as long as the factor of the level is not negative. -/
theorem aboveLevel_highest?_iff (hfactor : (0 : Decimal) ≤ 1 + config.breakoutThresholdBps / 10000)
    {prices : List Decimal} (hsome : prices ≠ []) (mid : Decimal) :
    AboveLevel config ((highest? prices).getD mid) mid ↔ ∀ price ∈ prices, AboveLevel config price mid := by
  cases prices with
  | nil => exact absurd rfl hsome
  | cons price prices =>
    rw [highest?, Option.getD_some]
    clear hsome
    induction prices generalizing price with
    | nil => simp
    | cons next prices ih =>
      rw [List.foldl_cons, ih, List.forall_mem_cons, List.forall_mem_cons, List.forall_mem_cons]
      simp only [AboveLevel, max_mul_of_nonneg _ _ hfactor, max_lt_iff, and_assoc]

/-- Mids that are all above the breakout level of the window are sustained exactly if each is above that of every one
of them before it; `done` are those already recorded, the latest first. -/
theorem sustained_iff_climbing (hfactor : (0 : Decimal) ≤ 1 + config.breakoutThresholdBps / 10000)
    (hlookback : 2 ≤ config.lookbackTicks) {window done mids : List Decimal}
    (hfull : config.lookbackTicks ≤ window.length)
    (habove : ∀ mid ∈ mids, ∀ old ∈ window.take config.lookbackTicks, AboveLevel config old mid)
    (hfits : done.length + mids.length ≤ config.lookbackTicks) :
    Sustained config (done ++ window) mids ↔
      (∀ mid ∈ mids, ∀ old ∈ done, AboveLevel config old mid) ∧ mids.Pairwise (AboveLevel config) := by
  induction mids generalizing done with
  | nil => simp [Sustained]
  | cons mid mids ih =>
    obtain ⟨hmid, habove⟩ := List.forall_mem_cons.mp habove
    rw [List.length_cons] at hfits
    have hshown : (done ++ window).take (config.lookbackTicks - 1) =
        done ++ window.take (config.lookbackTicks - 1 - done.length) := by
      rw [List.take_append, List.take_of_length_le (by omega)]
    have hsome : (done ++ window).take (config.lookbackTicks - 1) ≠ [] := by
      rw [← List.length_pos_iff, List.length_take, List.length_append]
      omega
    have hhead : BreaksOut config (done ++ window) mid ↔ ∀ old ∈ done, AboveLevel config old mid := by
      rw [BreaksOut, aboveLevel_highest?_iff hfactor hsome, hshown, List.forall_mem_append]
      exact and_iff_left fun old hold => hmid old (List.take_subset_take_left _ (by omega) hold)
    have hlength : (mid :: done).length + mids.length ≤ config.lookbackTicks := by
      rw [List.length_cons]
      omega
    rw [Sustained, hhead, ← List.cons_append, ih habove hlength]
    simp only [List.forall_mem_cons, List.pairwise_cons]
    constructor
    · rintro ⟨hfirst, hothers, hpairs⟩
      exact ⟨⟨hfirst, fun later hlater => (hothers later hlater).2⟩,
        fun later hlater => (hothers later hlater).1, hpairs⟩
    · rintro ⟨⟨hfirst, hothers⟩, hpair, hpairs⟩
      exact ⟨hfirst, fun later hlater => ⟨hpair later hlater, hothers later hlater⟩, hpairs⟩

/-- The situation of a breakout: a full window with its highest mid, and as many updates of the token as confirm an
entry, the last one apart, all above the breakout level of that mid and with no update of the complement among them; at
the last one the gates of an entry are open. -/
structure Breakout (parse : String → Option Decimal) (s : TboTrendStrategy) (t : TokenId) (high : Decimal)
    (earlier : List StrategyEvent) (around : Surroundings) (marketId : ConditionId) : Prop where
  warm : Warm t s.config s
  peak : highest? ((s.mids t).take s.config.lookbackTicks) = some high
  fits : s.config.minConfirmTicks ≤ s.config.lookbackTicks
  count : earlier.countP (IsUpdateOf t) + 1 = s.config.minConfirmTicks
  quiet : ∀ e ∈ earlier ++ [.bookUpdate around marketId t], Quiet t e
  above : ∀ e ∈ earlier ++ [.bookUpdate around marketId t], IsUpdateOf t e = true →
    ∃ mid, midOf parse t e = some mid ∧ AboveLevel s.config high mid
  gates : ((s.run parse earlier).checkEntry parse around.registry t around.ctx).isSome = true

theorem warm_run {events : List StrategyEvent} (hwarm : Warm t config s) (hok : ∀ e ∈ events, Undisturbed parse t e) :
    Warm t config (s.run parse events) := by
  induction events generalizing s with
  | nil => exact hwarm
  | cons e events ih =>
    obtain ⟨hoke, hok⟩ := List.forall_mem_cons.mp hok
    exact ih (hwarm.step hoke) hok

theorem confirms_of_other (hother : IsUpdateOf t e = false) : Confirms parse t s e := by
  refine ⟨fun mid hmid => ?_, ?_⟩
  · rw [midOf_eq_none hother] at hmid
    cases hmid
  · cases e with
    | bookUpdate around marketId u => exact fun hu => absurd hu (of_decide_eq_false hother)
    | fill f now => trivial
    | tick around => trivial

/-- The confirmations have kept up with the updates exactly if all their mids were above the breakout level and at none
of them those left from before made an entry due. -/
theorem countP_le_confirmations_iff {events : List StrategyEvent} (hwarm : Warm t config s)
    (hok : ∀ e ∈ events, Undisturbed parse t e) :
    events.countP (IsUpdateOf t) ≤ (s.run parse events).confirmations t ↔
      Throughout (step parse) (fun s e => ∀ mid, midOf parse t e = some mid → BreaksOut s.config (s.mids t) mid) s
        events ∧ ThroughoutCounted (step parse) (IsUpdateOf t) (NotYet parse t) (s.confirmations t) s events := by
  have hstreak := streak_confirmations parse t config
  have hconfirms : Throughout (step parse) (fun s e => IsUpdateOf t e = true → Confirms parse t s e) s events ↔
      Throughout (step parse) (Confirms parse t) s events := by
    refine throughout_congr (fun _ => True) (fun _ _ _ _ => trivial) (fun s e _ => ?_) trivial
    refine ⟨fun h => ?_, fun h _ => h⟩
    cases hupdate : IsUpdateOf t e with
    | true => exact h hupdate
    | false => exact confirms_of_other hupdate
  rw [run, hstreak.le_count_iff hwarm hok, hconfirms]
  refine throughout_and_iff.trans (and_congr_right fun hbreaks => ?_)
  exact hstreak.throughout_iff_counted (fun _ _ => And.intro) hwarm hok hbreaks

/-- The last update of a breakout enters exactly if every mid of it is above the breakout level of the mids before it,
those of the breakout included, and the confirmations left from before do not make an entry due earlier. -/
theorem enters_on_breakout_iff {high : Decimal} {earlier : List StrategyEvent} {around : Surroundings}
    {marketId : ConditionId} (h : s.Breakout parse t high earlier around marketId) :
    (∃ intent, ((s.run parse earlier).onBookUpdate parse around.registry t around.ctx).1 = [intent] ∧
        (s.run parse earlier).checkEntry parse around.registry t around.ctx = some intent) ↔
      Sustained s.config (s.mids t)
          ((earlier ++ [StrategyEvent.bookUpdate around marketId t]).filterMap (midOf parse t)) ∧
        ThroughoutCounted (step parse) (IsUpdateOf t) (NotYet parse t) (s.confirmations t) s earlier := by
  have hok : ∀ e ∈ earlier ++ [StrategyEvent.bookUpdate around marketId t], Undisturbed parse t e := fun e he =>
    ⟨h.quiet e he, fun hupdate => (h.above e he hupdate).imp fun _ => And.left⟩
  have hearlier : ∀ e ∈ earlier, Undisturbed parse t e := fun e he => hok e (List.mem_append_left _ he)
  have hlast : Undisturbed parse t (.bookUpdate around marketId t) := hok _ (by simp)
  have hwarm := warm_run h.warm hearlier
  obtain ⟨mid, hmid⟩ := hlast.2 (decide_eq_true rfl)
  have hprice : around.ctx.midPrice parse t = some mid := (if_pos rfl).symm.trans hmid
  obtain ⟨-, -, -, hcounted, hagain⟩ := onBookUpdate_of_mid hwarm.enabled (hwarm.settings ▸ hwarm.full) hprice hlast.1
  have henters : (s.run parse earlier).Enters parse around.registry around.ctx t ↔
      earlier.countP (IsUpdateOf t) ≤ (s.run parse earlier).confirmations t := by
    rw [Enters, hwarm.settings, ← h.count, Nat.add_le_add_iff_right, and_iff_left h.gates]
  have hlevel : (∀ mid', midOf parse t (.bookUpdate around marketId t) = some mid' →
      BreaksOut (s.run parse earlier).config ((s.run parse earlier).mids t) mid') ↔
      BreaksOut (s.run parse earlier).config ((s.run parse earlier).mids t) mid := by
    rw [hmid]
    exact ⟨fun hall => hall mid rfl, fun hbreaks mid' hmid' => Option.some.inj hmid' ▸ hbreaks⟩
  rw [← throughout_breaksOut_iff h.warm rfl hok, throughout_append_iff, Throughout, ← run, hlevel, and_right_comm,
    ← countP_le_confirmations_iff h.warm hearlier, ← henters]
  constructor
  · rintro ⟨intent, hemitted, -⟩
    have hbreaks : BreaksOut (s.run parse earlier).config ((s.run parse earlier).mids t) mid := by
      by_contra hnot
      rw [(hagain hnot).2] at hemitted
      cases hemitted
    refine ⟨?_, hbreaks, trivial⟩
    by_contra hwaits
    rw [((hcounted hbreaks).waits hwaits).2] at hemitted
    cases hemitted
  · rintro ⟨hdue, hbreaks, -⟩
    obtain ⟨-, intent, hentry, hemitted⟩ := (hcounted hbreaks).enters hdue
    exact ⟨intent, hemitted, hentry⟩

/-- In a breakout the window does not matter: each mid has to be above the breakout level of those of the breakout
before it. -/
theorem Breakout.sustained_iff {high : Decimal} {earlier : List StrategyEvent} {around : Surroundings}
    {marketId : ConditionId} (h : s.Breakout parse t high earlier around marketId)
    (hfactor : (0 : Decimal) ≤ 1 + s.config.breakoutThresholdBps / 10000) (hlookback : 2 ≤ s.config.lookbackTicks) :
    Sustained s.config (s.mids t)
        ((earlier ++ [StrategyEvent.bookUpdate around marketId t]).filterMap (midOf parse t)) ↔
      ((earlier ++ [StrategyEvent.bookUpdate around marketId t]).filterMap (midOf parse t)).Pairwise
        (AboveLevel s.config) := by
  have hupdate : ∀ {e mid}, midOf parse t e = some mid → IsUpdateOf t e = true := by
    intro e mid hmid
    by_contra hother
    rw [midOf_eq_none (Bool.eq_false_iff.mpr hother)] at hmid
    cases hmid
  have hsome : (s.mids t).take s.config.lookbackTicks ≠ [] := by
    have hfull := h.warm.full
    rw [← List.length_pos_iff, List.length_take]
    omega
  have hlength : ((earlier ++ [StrategyEvent.bookUpdate around marketId t]).filterMap (midOf parse t)).length ≤
      s.config.lookbackTicks := by
    have hcount := List.countP_mono_left (l := earlier ++ [StrategyEvent.bookUpdate around marketId t])
      (p := fun e => (midOf parse t e).isSome) (q := IsUpdateOf t)
      fun e _ hsome => (Option.isSome_iff_exists.mp hsome).elim fun _ => hupdate
    rw [List.length_filterMap_eq_countP]
    refine hcount.trans (le_trans (le_of_eq ?_) h.fits)
    rw [← h.count, List.countP_append, List.countP_singleton, IsUpdateOf, decide_eq_true rfl, if_pos rfl]
  have habove : ∀ mid ∈ (earlier ++ [StrategyEvent.bookUpdate around marketId t]).filterMap (midOf parse t),
      ∀ old ∈ (s.mids t).take s.config.lookbackTicks, AboveLevel s.config old mid := by
    intro mid hmid
    obtain ⟨e, he, hmid⟩ := List.mem_filterMap.mp hmid
    obtain ⟨mid', hmid', habove⟩ := h.above e he (hupdate hmid)
    rw [hmid] at hmid'
    cases hmid'
    exact (aboveLevel_highest?_iff hfactor hsome mid).mp (h.peak ▸ habove)
  have hclimbing : Sustained s.config ([] ++ s.mids t) _ ↔ _ :=
    sustained_iff_climbing hfactor hlookback h.warm.full habove (by simpa using hlength)
  exact hclimbing.trans (and_iff_right fun _ _ _ hnone => nomatch hnone)

end

private def parseQuote (text : String) : Option Decimal :=
  (General.DecimalText.ScaledDecimal.fromStr text).map (·.value)

private def quoted (bid ask : String) : Surroundings where
  registry := MarketPairRegistry.new.register (.new "m1" "yes" "no")
  prices := ∅
  ctx := {
    books := (∅ : OrderBookState).insert "yes" ⟨"yes", "m1", [⟨bid, "100"⟩], [⟨ask, "100"⟩], none, none⟩
    ledger := Ledger.new 1000
    now := Duration.fromSecs 1 }
  utcNow := 0
  uuid := "1"

/-- Three mids of 0.50, a breakout of five per cent, and two updates to confirm it. -/
private def warmedUp : TboTrendStrategy :=
  (withConfig ⟨3, 500, 2, 1, 10, 1, 180, 6 / 100, 4 / 100, 1000⟩).run parseQuote
    (List.replicate 3 (.bookUpdate (quoted "0.49" "0.51") "m1" "yes"))

private def firstBreakout : StrategyEvent := .bookUpdate (quoted "0.69" "0.71") "m1" "yes"

/-- A second quote above the level of 0.525 completes the breakout. -/
private theorem breakout_warmedUp {bid ask : String} (mid : Decimal)
    (hmid : midOf parseQuote "yes" (.bookUpdate (quoted bid ask) "m1" "yes") = some mid)
    (habove : AboveLevel warmedUp.config (1 / 2) mid)
    (hgates : ((warmedUp.run parseQuote [firstBreakout]).checkEntry parseQuote (quoted bid ask).registry "yes"
      (quoted bid ask).ctx).isSome = true) :
    warmedUp.Breakout parseQuote "yes" (1 / 2) [firstBreakout] (quoted bid ask) "m1" where
  warm := ⟨rfl, by decide +kernel, by decide +kernel⟩
  peak := by decide +kernel
  fits := by decide +kernel
  count := by decide +kernel
  quiet e he := by
    have hpair : ((MarketPairRegistry.new.register (.new "m1" "yes" "no")).getByToken "yes").bind
        (·.complement "yes") ≠ some "yes" := by decide
    rcases List.mem_pair.mp he with rfl | rfl
    · exact hpair
    · exact hpair
  above e he _ := by
    rcases List.mem_pair.mp he with rfl | rfl
    · exact ⟨7 / 10, by decide +kernel, by decide +kernel⟩
    · exact ⟨mid, hmid, habove⟩
  gates := hgates

/-- A second mid of 0.80 is above the level of the first one, and enters. -/
theorem rising_breakout_enters :
    ∃ intent, ((warmedUp.run parseQuote [firstBreakout]).onBookUpdate parseQuote (quoted "0.79" "0.81").registry "yes"
        (quoted "0.79" "0.81").ctx).1 = [intent] ∧
      (warmedUp.run parseQuote [firstBreakout]).checkEntry parseQuote (quoted "0.79" "0.81").registry "yes"
        (quoted "0.79" "0.81").ctx = some intent :=
  (enters_on_breakout_iff (breakout_warmedUp (8 / 10) (by decide +kernel) (by decide +kernel)
    (by decide +kernel))).mpr ⟨by decide +kernel, by decide +kernel⟩

/-- A price that stays at 0.70 is above the breakout level of 0.525 twice, and is not entered: the second update is
measured against the first. -/
theorem steady_breakout_does_not_enter :
    warmedUp.Breakout parseQuote "yes" (1 / 2) [firstBreakout] (quoted "0.69" "0.71") "m1" ∧
      ((warmedUp.run parseQuote [firstBreakout]).onBookUpdate parseQuote (quoted "0.69" "0.71").registry "yes"
        (quoted "0.69" "0.71").ctx).1 = [] :=
  ⟨breakout_warmedUp (7 / 10) (by decide +kernel) (by decide +kernel) (by decide +kernel), by decide +kernel⟩

end TboTrendStrategy

end PolyBot
