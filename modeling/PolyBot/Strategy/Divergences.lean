import Mathlib.Data.Nat.Count
import PolyBot.General.CappedLog
import PolyBot.General.DecimalText
import PolyBot.Strategy.ExitRuns

/-! Divergences over runs: every entry of the divergence strategy follows up a detection of its own. -/

namespace PolyBot
open General.KeyedStore General.CappedLog AllStrategies

structure LowAt (prices : List Decimal) (i : ℕ) (low : Decimal) : Prop where
  reached : prices[i]? = some low
  least : ∀ price ∈ prices, low ≤ price

theorem lowAt_of_lowest? {prices : List Decimal} {i : ℕ} {low : Decimal} (h : lowest? prices = some (i, low)) :
    LowAt prices i low := by
  induction prices generalizing i low with
  | nil => cases h
  | cons price prices ih =>
    rw [lowest?] at h
    cases hrest : lowest? prices with
    | none =>
      rw [hrest] at h
      cases h
      cases prices with
      | nil => exact ⟨rfl, by simp⟩
      | cons next prices =>
        rw [lowest?] at hrest
        split at hrest
        · cases hrest
        · split at hrest <;> cases hrest
    | some found =>
      obtain ⟨j, least⟩ := found
      obtain ⟨hat, hleast⟩ := ih hrest
      rw [hrest] at h
      dsimp only at h
      split at h
      · rename_i hlower
        cases h
        exact ⟨hat, List.forall_mem_cons.mpr ⟨hlower.le, hleast⟩⟩
      · rename_i hhigher
        cases h
        have hothers : ∀ other ∈ prices, price ≤ other := fun other hother =>
          (not_lt.mp hhigher).trans (hleast other hother)
        exact ⟨rfl, List.forall_mem_cons.mpr ⟨le_rfl, hothers⟩⟩

/-- What the divergence strategy receives; it can be switched off and on. -/
inductive TbtEvent where
  | receive (e : StrategyEvent)
  | setEnabled (enabled : Bool)

def Buys (t : TokenId) (intents : List OrderIntent) : Prop := ∃ i ∈ intents, i.side = .Buy ∧ i.tokenId = t

namespace TbtDivergenceStrategy

def rsiAt (config : TbtConfig) (window : List Decimal) (i : ℕ) : Option Decimal :=
  computeRsi ((window.drop i).take (config.rsiPeriod + 1)) config.rsiPeriod

def Diverges (config : TbtConfig) (window : List Decimal) : Prop :=
  window.length = config.lookbackTicks ∧
    ∃ recentIdx recentLow olderIdx olderLow rsiRecent rsiOld,
      LowAt (window.take (window.length / 2)) recentIdx recentLow ∧
      LowAt (window.drop (window.length / 2)) olderIdx olderLow ∧
      recentLow < olderLow ∧
      max olderLow (1 / 100) * (config.divergenceMinGapBps / 10000) ≤ olderLow - recentLow ∧
      rsiAt config window recentIdx = some rsiRecent ∧
      rsiAt config window (window.length / 2 + olderIdx) = some rsiOld ∧ rsiOld < rsiRecent

theorem diverges_of_detectDivergence {s : TbtDivergenceStrategy} {window : List Decimal}
    (hlength : window.length ≤ s.config.lookbackTicks) (h : s.detectDivergence window = true) :
    Diverges s.config window := by
  unfold detectDivergence at h
  split at h
  · cases h
  · rename_i hfull
    refine ⟨le_antisymm hlength (not_lt.mp hfull), ?_⟩
    dsimp only at h
    split at h
    · rename_i recentIdx recentLow olderIdx olderLow hrecent holder
      split at h
      · cases h
      · rename_i hgap
        split at h
        · cases h
        · rename_i hlower
          split at h
          · rename_i rsiRecent rsiOld hrsiRecent hrsiOld
            have hbelow := not_le.mp hlower
            have hmax : 0 < max olderLow (1 / 100) := lt_max_of_lt_right (by norm_num)
            rw [not_lt, abs_of_pos (sub_pos.mpr hbelow), div_mul_eq_mul_div, le_div_iff₀ hmax] at hgap
            refine ⟨recentIdx, recentLow, olderIdx, olderLow, rsiRecent, rsiOld, lowAt_of_lowest? hrecent,
              lowAt_of_lowest? holder, hbelow, by linarith, hrsiRecent, hrsiOld, of_decide_eq_true h⟩
          · cases h
    · cases h

def mids (s : TbtDivergenceStrategy) (t : TokenId) : List Decimal := (s.priceHistory.lookup t).getD []

variable (parse : String → Option Decimal)

def handle (s : TbtDivergenceStrategy) : TbtEvent → List OrderIntent × TbtDivergenceStrategy
  | .receive (.bookUpdate around _ tokenId) => s.onBookUpdate parse around.registry tokenId around.ctx
  | .receive (.fill f now) => ([], s.onFill f now)
  | .receive (.tick around) => s.onTick parse around.registry around.ctx
  | .setEnabled enabled => ([], { s with enabled := enabled })

theorem handle_tbtDivergence (s : TbtDivergenceStrategy) (e : StrategyEvent) :
    (ExitStrategy.tbtDivergence s).handle parse e =
      (s.handle parse (.receive e)).map id ExitStrategy.tbtDivergence := by
  cases e <;> rfl

def processedMid (t : TokenId) (s : TbtDivergenceStrategy) : TbtEvent → Option Decimal
  | .receive (.bookUpdate around _ u) => if u = t ∧ s.enabled = true then around.ctx.midPrice parse t else none
  | .receive (.fill _ _) | .receive (.tick _) | .setEnabled _ => none

section Steps
variable {parse} {registry : MarketPairRegistry} {ctx : StrategyContext} {s : TbtDivergenceStrategy} {t u : TokenId}

theorem buys_onBookUpdate (h : Buys t (s.onBookUpdate parse registry u ctx).1) : t = u := by
  obtain ⟨i, hi, -, rfl⟩ := h
  obtain ⟨pair, -, hbuy⟩ := (s.onBookUpdate_enters parse registry u ctx).1.exists_pair hi
  exact (hbuy.inv i hi).2.1

variable (parse registry ctx s) in
/-- The updates of other tokens touch neither the mids nor the signal of a token. -/
theorem onBookUpdate_of_ne (hne : t ≠ u) :
    (s.onBookUpdate parse registry u ctx).2.mids t = s.mids t ∧
      (s.onBookUpdate parse registry u ctx).2.divergenceSignal.lookup t = s.divergenceSignal.lookup t := by
  have hmids : ∀ mid, (s.updatePriceHistory u mid).mids t = s.mids t := fun mid =>
    congrArg (fun history : Option (List Decimal) => history.getD []) (AList.lookup_insert_ne hne)
  unfold onBookUpdate
  split
  · exact ⟨rfl, rfl⟩
  · split
    · exact ⟨rfl, rfl⟩
    · rename_i mid _
      dsimp only
      split
      · exact ⟨hmids mid, rfl⟩
      · split
        · rename_i signal _
          rcases (s.updatePriceHistory u mid).followSignal_cases parse registry u ctx mid signal with
            heq | heq | ⟨_, -, -, -, heq⟩
          · rw [heq]
            exact ⟨hmids mid, AList.lookup_erase_ne hne⟩
          · rw [heq]
            exact ⟨hmids mid, AList.lookup_insert_ne hne⟩
          · rw [heq]
            exact ⟨hmids mid, AList.lookup_erase_ne hne⟩
        · split
          · exact ⟨hmids mid, AList.lookup_insert_ne hne⟩
          · exact ⟨hmids mid, rfl⟩

/-- What an update of a token does to its signal: an entry follows up a signal that is not too old, from which the mid
has come back, and ends it; a signal that is pending afterwards is one update older or of a detection just made. -/
structure SignalStep (config : TbtConfig) (window : List Decimal) (mid : Decimal)
    (before after : Option DivergenceSignal) (enters : Prop) : Prop where
  followed : enters → after = none ∧ ∃ signal, before = some signal ∧
    signal.ticksSince + 1 ≤ config.signalExpiryTicks ∧
    mid ≤ signal.detectionMid * (1 - config.pullbackBps / 10000)
  pending : ∀ signal, after = some signal →
    before = some signal ∧ window.length < config.lookbackTicks ∨
    (∃ old, before = some old ∧ signal = ⟨old.detectionMid, old.ticksSince + 1⟩) ∨
    before = none ∧ signal = ⟨mid, 0⟩ ∧ Diverges config window

theorem not_buys_nil : ¬Buys t [] := by
  rintro ⟨i, hi, -⟩
  cases hi

section Quiet
variable {config : TbtConfig} {window : List Decimal} {mid : Decimal} {before after : Option DivergenceSignal}

/-- Without orders only the pending signal counts. -/
theorem SignalStep.of_pending (h : ∀ signal, after = some signal →
      before = some signal ∧ window.length < config.lookbackTicks ∨
      (∃ old, before = some old ∧ signal = ⟨old.detectionMid, old.ticksSince + 1⟩) ∨
      before = none ∧ signal = ⟨mid, 0⟩ ∧ Diverges config window) :
    SignalStep config window mid before after (Buys t []) :=
  ⟨fun hbuys => absurd hbuys not_buys_nil, h⟩

theorem SignalStep.of_none (h : after = none) : SignalStep config window mid before after (Buys t []) := by
  refine .of_pending fun signal hpending => ?_
  rw [h] at hpending
  cases hpending

end Quiet

variable (parse registry ctx t s) in
theorem signalStep_followSignal (mid : Decimal) (window : List Decimal) (signal : DivergenceSignal) :
    SignalStep s.config window mid (some signal)
      ((s.followSignal parse registry t ctx mid signal).2.divergenceSignal.lookup t)
      (Buys t (s.followSignal parse registry t ctx mid signal).1) := by
  have herased : (s.divergenceSignal.erase t).lookup t = none := AList.lookup_erase _ _
  rcases s.followSignal_cases parse registry t ctx mid signal with heq | heq | ⟨_, -, hfresh, hback, heq⟩
  · rw [heq]
    exact .of_none herased
  · rw [heq]
    refine .of_pending fun signal' hpending => .inr (.inl ⟨signal, rfl, ?_⟩)
    rw [AList.lookup_insert] at hpending
    exact (Option.some.inj hpending).symm
  · rw [heq]
    refine ⟨fun _ => ⟨herased, signal, rfl, hfresh, ?_⟩, fun signal' hpending => ?_⟩
    · rw [mul_sub, mul_one, ← mul_div_assoc]
      exact hback
    · rw [herased] at hpending
      cases hpending

variable (parse registry ctx t s) in
theorem priceHistory_followSignal (mid : Decimal) (signal : DivergenceSignal) :
    (s.followSignal parse registry t ctx mid signal).2.priceHistory = s.priceHistory := by
  rcases s.followSignal_cases parse registry t ctx mid signal with heq | heq | ⟨_, -, -, -, heq⟩
  · rw [heq]
  · rw [heq]
  · rw [heq]

/-- An update of a token whose mid is processed. -/
theorem signalStep_onBookUpdate (henabled : s.enabled = true) {mid : Decimal}
    (hmid : ctx.midPrice parse t = some mid) :
    (s.onBookUpdate parse registry t ctx).2.mids t = (mid :: s.mids t).take s.config.lookbackTicks ∧
      SignalStep s.config ((mid :: s.mids t).take s.config.lookbackTicks) mid (s.divergenceSignal.lookup t)
        ((s.onBookUpdate parse registry t ctx).2.divergenceSignal.lookup t)
        (Buys t (s.onBookUpdate parse registry t ctx).1) := by
  have hmids : (s.updatePriceHistory t mid).mids t = (mid :: s.mids t).take s.config.lookbackTicks := by
    rw [mids, updatePriceHistory, AList.lookup_insert]
    rfl
  rw [onBookUpdate, henabled, if_neg Bool.noConfusion, hmid]
  dsimp only
  rw [← mids, hmids]
  split
  · rename_i hshort
    exact ⟨hmids, .of_pending fun signal hpending => .inl ⟨hpending, hshort⟩⟩
  · split
    · rename_i signal hsignal
      have hbefore : s.divergenceSignal.lookup t = some signal := hsignal
      rw [mids, priceHistory_followSignal, ← mids, hbefore]
      exact ⟨hmids, signalStep_followSignal parse registry ctx (s.updatePriceHistory t mid) t mid _ signal⟩
    · rename_i hnone
      split
      · rename_i hdetected
        refine ⟨hmids, .of_pending fun signal hpending => .inr (.inr ⟨hnone, ?_, ?_⟩)⟩
        · rw [AList.lookup_insert] at hpending
          exact (Option.some.inj hpending).symm
        · exact diverges_of_detectDivergence (List.length_take_le _ _) hdetected
      · exact ⟨hmids, .of_none hnone⟩

variable {e : TbtEvent}

theorem config_handle (s : TbtDivergenceStrategy) (e : TbtEvent) : (s.handle parse e).2.config = s.config := by
  cases e with
  | receive e =>
    cases e with
    | bookUpdate around marketId u => exact (s.onBookUpdate_enters parse around.registry u around.ctx).2
    | fill f now => rfl
    | tick around =>
      simp only [handle, onTick]
      split <;> rfl
  | setEnabled enabled => rfl

/-- What is no processed update of a token leaves its mids and its signal alone, and does not buy it. -/
theorem handle_of_unprocessed (h : processedMid parse t s e = none) :
    (s.handle parse e).2.mids t = s.mids t ∧
      (s.handle parse e).2.divergenceSignal.lookup t = s.divergenceSignal.lookup t ∧
      ¬Buys t (s.handle parse e).1 := by
  cases e with
  | receive e =>
    cases e with
    | bookUpdate around marketId u =>
      by_cases hu : t = u
      · subst hu
        have hidle : s.onBookUpdate parse around.registry t around.ctx = ([], s) := by
          unfold onBookUpdate
          split
          · rfl
          · rename_i henabled
            rw [processedMid, if_pos ⟨rfl, Bool.not_eq_false _ ▸ henabled⟩] at h
            rw [h]
        rw [handle, hidle]
        exact ⟨rfl, rfl, not_buys_nil⟩
      · obtain ⟨hmids, hsignal⟩ := onBookUpdate_of_ne parse around.registry around.ctx s hu
        exact ⟨hmids, hsignal, fun hbuys => hu (buys_onBookUpdate hbuys)⟩
    | fill f now => exact ⟨rfl, rfl, not_buys_nil⟩
    | tick around =>
      simp only [handle, onTick]
      split
      · exact ⟨rfl, rfl, not_buys_nil⟩
      · refine ⟨rfl, rfl, ?_⟩
        rintro ⟨i, hi, hbuy, -⟩
        obtain ⟨_, _, _, -, -, -, rfl⟩ := ExitTracking.onTick_inv hi
        cases hbuy
  | setEnabled enabled => exact ⟨rfl, rfl, not_buys_nil⟩

theorem bookUpdate_of_processedMid {mid : Decimal} (h : processedMid parse t s e = some mid) :
    ∃ around marketId, e = .receive (.bookUpdate around marketId t) ∧ s.enabled = true ∧
      around.ctx.midPrice parse t = some mid := by
  cases e with
  | receive e =>
    cases e with
    | bookUpdate around marketId u =>
      by_cases hu : u = t ∧ s.enabled = true
      · rw [processedMid, if_pos hu] at h
        obtain ⟨rfl, henabled⟩ := hu
        exact ⟨around, marketId, rfl, henabled, h⟩
      · rw [processedMid, if_neg hu] at h
        cases h
    | fill f now => cases h
    | tick around => cases h
  | setEnabled enabled => cases h

theorem handle_of_processed {mid : Decimal} (h : processedMid parse t s e = some mid) :
    (s.handle parse e).2.mids t = (mid :: s.mids t).take s.config.lookbackTicks ∧
      SignalStep s.config ((mid :: s.mids t).take s.config.lookbackTicks) mid (s.divergenceSignal.lookup t)
        ((s.handle parse e).2.divergenceSignal.lookup t) (Buys t (s.handle parse e).1) := by
  obtain ⟨around, marketId, rfl, henabled, hmid⟩ := bookUpdate_of_processedMid h
  exact signalStep_onBookUpdate henabled hmid

variable (parse s e) in
theorem length_buys_handle_le_one : ((s.handle parse e).1.filter (·.side = .Buy)).length ≤ 1 := by
  cases e with
  | receive e =>
    cases e with
    | bookUpdate around marketId u =>
      refine (List.length_filter_le _ _).trans ?_
      rcases (s.onBookUpdate_enters parse around.registry u around.ctx).1 with ⟨hnone, -⟩ | ⟨pair, -, -, hbuy, -⟩
      · rw [handle, hnone]
        exact Nat.zero_le 1
      · obtain ⟨_, _, -, -, hone⟩ := hbuy
        rw [handle, hone]
        rfl
    | fill f now => exact Nat.zero_le 1
    | tick around =>
      have hsells : ∀ i ∈ (s.handle parse (.receive (.tick around))).1, ¬i.side = .Buy := by
        intro i hi
        simp only [handle, onTick] at hi
        split at hi
        · cases hi
        · obtain ⟨_, _, _, -, -, -, rfl⟩ := ExitTracking.onTick_inv hi
          exact Side.noConfusion
      rw [List.filter_eq_nil_iff.mpr fun i hi => by simpa using hsells i hi]
      exact Nat.zero_le 1
  | setEnabled enabled => exact Nat.zero_le 1

end Steps

end TbtDivergenceStrategy

structure TbtRun where
  parse : String → Option Decimal
  config : TbtConfig
  events : List TbtEvent

namespace TbtRun
open TbtDivergenceStrategy

def stateAt (r : TbtRun) (n : ℕ) : TbtDivergenceStrategy :=
  (r.events.take n).foldl (fun s e => (s.handle r.parse e).2) (.withConfig r.config)

def emittedAt (r : TbtRun) (n : ℕ) : List OrderIntent :=
  match r.events[n]? with
  | none => []
  | some e => ((r.stateAt n).handle r.parse e).1

def processedAt (r : TbtRun) (t : TokenId) (n : ℕ) : Option Decimal :=
  r.events[n]?.bind (processedMid r.parse t (r.stateAt n))

def midsBefore (r : TbtRun) (t : TokenId) : ℕ → List Decimal
  | 0 => []
  | n + 1 => (r.processedAt t n).toList ++ r.midsBefore t n

def updatesBetween (r : TbtRun) (t : TokenId) (d n : ℕ) : ℕ :=
  Nat.count (fun v => d < v ∧ (r.processedAt t v).isSome = true) n

/-- An update of a token, at the mid given, with a divergence in the window that it completes, which is signalled. -/
structure DetectedAt (r : TbtRun) (t : TokenId) (d : ℕ) (mid : Decimal) : Prop where
  processed : r.processedAt t d = some mid
  diverges : Diverges r.config ((r.midsBefore t (d + 1)).take r.config.lookbackTicks)
  idle : (r.stateAt d).divergenceSignal.lookup t = none
  signalled : (r.stateAt (d + 1)).divergenceSignal.lookup t = some ⟨mid, 0⟩

/-- A signal that is pending before a position is of a detection from which no entry was made, as old as it says. -/
structure OfDetection (r : TbtRun) (t : TokenId) (n : ℕ) (signal : DivergenceSignal) (d : ℕ) : Prop where
  earlier : d < n
  detected : r.DetectedAt t d signal.detectionMid
  age : signal.ticksSince = r.updatesBetween t d n
  unused : ∀ v, d < v → v < n → ¬Buys t (r.emittedAt v)

/-- The windows hold the latest processed mids, and every pending signal is of a detection. -/
structure Accounted (r : TbtRun) (n : ℕ) : Prop where
  settings : (r.stateAt n).config = r.config
  windows : ∀ t, (r.stateAt n).mids t = (r.midsBefore t n).take r.config.lookbackTicks
  signals : ∀ t signal, (r.stateAt n).divergenceSignal.lookup t = some signal →
    r.config.lookbackTicks ≤ (r.midsBefore t n).length ∧ ∃ d, r.OfDetection t n signal d

variable {r : TbtRun} {t : TokenId} {n : ℕ}

theorem stateAt_succ_of_none (h : r.events[n]? = none) : r.stateAt (n + 1) = r.stateAt n := by
  rw [stateAt, stateAt, List.take_add_one, h, Option.toList_none, List.append_nil]

theorem stateAt_succ_of_some {e : TbtEvent} (h : r.events[n]? = some e) :
    r.stateAt (n + 1) = ((r.stateAt n).handle r.parse e).2 := by
  rw [stateAt, stateAt, List.take_add_one, h, Option.toList_some, List.foldl_append]
  rfl

theorem config_stateAt_succ (r : TbtRun) (n : ℕ) : (r.stateAt (n + 1)).config = (r.stateAt n).config := by
  cases hevent : r.events[n]? with
  | none => rw [stateAt_succ_of_none hevent]
  | some e =>
    rw [stateAt_succ_of_some hevent]
    exact config_handle _ e

/-- A position without a processed update of the token. -/
theorem stateAt_of_unprocessed (h : r.processedAt t n = none) :
    (r.stateAt (n + 1)).mids t = (r.stateAt n).mids t ∧
      (r.stateAt (n + 1)).divergenceSignal.lookup t = (r.stateAt n).divergenceSignal.lookup t ∧
      ¬Buys t (r.emittedAt n) := by
  cases hevent : r.events[n]? with
  | none =>
    rw [stateAt_succ_of_none hevent, emittedAt, hevent]
    exact ⟨rfl, rfl, not_buys_nil⟩
  | some e =>
    rw [processedAt, hevent] at h
    rw [stateAt_succ_of_some hevent, emittedAt, hevent]
    exact handle_of_unprocessed h

/-- A position at which an update of the token is processed. -/
theorem stateAt_of_processed {mid : Decimal} (h : r.processedAt t n = some mid) :
    (r.stateAt (n + 1)).mids t = (mid :: (r.stateAt n).mids t).take (r.stateAt n).config.lookbackTicks ∧
      SignalStep (r.stateAt n).config ((mid :: (r.stateAt n).mids t).take (r.stateAt n).config.lookbackTicks) mid
        ((r.stateAt n).divergenceSignal.lookup t) ((r.stateAt (n + 1)).divergenceSignal.lookup t)
        (Buys t (r.emittedAt n)) := by
  obtain ⟨e, hevent, hmid⟩ := Option.bind_eq_some_iff.mp h
  rw [stateAt_succ_of_some hevent, emittedAt, hevent]
  exact handle_of_processed hmid

theorem updatesBetween_succ_of_unprocessed (h : r.processedAt t n = none) (d : ℕ) :
    r.updatesBetween t d (n + 1) = r.updatesBetween t d n := by
  rw [updatesBetween, updatesBetween, Nat.count_succ, h]
  simp

theorem updatesBetween_succ_of_processed {mid : Decimal} (h : r.processedAt t n = some mid) {d : ℕ} (hd : d < n) :
    r.updatesBetween t d (n + 1) = r.updatesBetween t d n + 1 := by
  rw [updatesBetween, updatesBetween, Nat.count_succ, if_pos ⟨hd, h ▸ rfl⟩]

/-- No update lies between a position and the next one. -/
theorem updatesBetween_self (r : TbtRun) (t : TokenId) (d : ℕ) : r.updatesBetween t d (d + 1) = 0 := by
  refine Nat.count_iff_forall_not.mpr ?_
  rintro v hv ⟨hd, -⟩
  omega

theorem windows_succ (h : r.Accounted n) {mid : Decimal} (hmid : r.processedAt t n = some mid) :
    (mid :: (r.stateAt n).mids t).take r.config.lookbackTicks =
      (r.midsBefore t (n + 1)).take r.config.lookbackTicks := by
  rw [midsBefore, hmid, Option.toList_some, List.singleton_append]
  refine take_cons_congr ?_ mid
  rw [h.windows t, List.take_take, min_self]

theorem Accounted.pending_succ_of_unprocessed (h : r.Accounted n) (hnone : r.processedAt t n = none)
    {signal : DivergenceSignal} (hpending : (r.stateAt (n + 1)).divergenceSignal.lookup t = some signal) :
    r.config.lookbackTicks ≤ (r.midsBefore t (n + 1)).length ∧ ∃ d, r.OfDetection t (n + 1) signal d := by
  obtain ⟨-, hsignal, hquiet⟩ := stateAt_of_unprocessed hnone
  obtain ⟨hfull, d, hd, hdetected, hage, hunused⟩ := h.signals t signal (hsignal ▸ hpending)
  rw [midsBefore, hnone]
  refine ⟨hfull, d, hd.trans (Nat.lt_succ_self n), hdetected, ?_, fun v hdv hv => ?_⟩
  · rw [hage, updatesBetween_succ_of_unprocessed hnone]
  · rcases Nat.lt_succ_iff_lt_or_eq.mp hv with hv | rfl
    · exact hunused v hdv hv
    · exact hquiet

theorem Accounted.pending_succ_of_processed (h : r.Accounted n) {mid : Decimal}
    (hmid : r.processedAt t n = some mid) {signal : DivergenceSignal}
    (hpending : (r.stateAt (n + 1)).divergenceSignal.lookup t = some signal) :
    r.config.lookbackTicks ≤ (r.midsBefore t (n + 1)).length ∧ ∃ d, r.OfDetection t (n + 1) signal d := by
  obtain ⟨-, hstep⟩ := stateAt_of_processed hmid
  rw [h.settings, windows_succ h hmid] at hstep
  have hquiet : ¬Buys t (r.emittedAt n) := by
    intro hbuys
    rw [(hstep.followed hbuys).1] at hpending
    cases hpending
  have hgrows : (r.midsBefore t (n + 1)).length = (r.midsBefore t n).length + 1 := by
    rw [midsBefore, hmid]
    rfl
  rcases hstep.pending signal hpending with ⟨hsame, hshort⟩ | ⟨old, hold, rfl⟩ | ⟨hidle, rfl, hdiverges⟩
  · have hfull := (h.signals t signal hsame).1
    rw [List.length_take] at hshort
    omega
  · obtain ⟨hfull, d, hd, hdetected, hage, hunused⟩ := h.signals t old hold
    refine ⟨by omega, d, hd.trans (Nat.lt_succ_self n), hdetected, ?_, fun v hdv hv => ?_⟩
    · rw [updatesBetween_succ_of_processed hmid hd, ← hage]
    · rcases Nat.lt_succ_iff_lt_or_eq.mp hv with hv | rfl
      · exact hunused v hdv hv
      · exact hquiet
  · have hdetected : r.DetectedAt t n mid := ⟨hmid, hdiverges, hidle, hpending⟩
    refine ⟨?_, n, Nat.lt_succ_self n, hdetected, (r.updatesBetween_self t n).symm, fun v hdv hv => ?_⟩
    · rw [← hdiverges.1]
      exact List.length_take_le' _ _
    · omega

/-- Every position of every run is accounted for. -/
theorem accounted (r : TbtRun) (n : ℕ) : r.Accounted n := by
  induction n with
  | zero => exact ⟨rfl, fun t => by rw [midsBefore, List.take_nil]; rfl, fun t signal hpending => nomatch hpending⟩
  | succ n ih =>
    refine ⟨(r.config_stateAt_succ n).trans ih.settings, fun t => ?_, fun t signal hpending => ?_⟩
    · cases hmid : r.processedAt t n with
      | none =>
        rw [(stateAt_of_unprocessed hmid).1, ih.windows t, midsBefore, hmid, Option.toList_none, List.nil_append]
      | some mid => rw [(stateAt_of_processed hmid).1, ih.settings, windows_succ ih hmid]
    · cases hmid : r.processedAt t n with
      | none => exact ih.pending_succ_of_unprocessed hmid hpending
      | some mid => exact ih.pending_succ_of_processed hmid hpending

/-- A detection of a token justifies an entry for it: not too many updates later, from a mid that has come back. -/
structure JustifiedBy (r : TbtRun) (t : TokenId) (d u : ℕ) (detectionMid entryMid : Decimal) : Prop where
  earlier : d < u
  detected : r.DetectedAt t d detectionMid
  entered : r.processedAt t u = some entryMid
  fresh : r.updatesBetween t d (u + 1) ≤ r.config.signalExpiryTicks
  back : entryMid ≤ detectionMid * (1 - r.config.pullbackBps / 10000)

/-- Entries are made at processed updates of their token. -/
theorem processedAt_of_buys {u : ℕ} (h : Buys t (r.emittedAt u)) : ∃ mid, r.processedAt t u = some mid := by
  refine Option.ne_none_iff_exists'.mp fun hnone => ?_
  exact (stateAt_of_unprocessed hnone).2.2 h

/-- An entry follows up a detection from which no entry was made before. -/
theorem exists_justifiedBy {u : ℕ} (h : Buys t (r.emittedAt u)) :
    ∃ d, (∃ detectionMid entryMid, r.JustifiedBy t d u detectionMid entryMid) ∧
      ∀ v, d < v → v < u → ¬Buys t (r.emittedAt v) := by
  obtain ⟨mid, hmid⟩ := processedAt_of_buys h
  obtain ⟨-, hstep⟩ := stateAt_of_processed hmid
  rw [(r.accounted u).settings] at hstep
  obtain ⟨-, signal, hsignal, hfresh, hback⟩ := hstep.followed h
  obtain ⟨-, d, hd, hdetected, hage, hunused⟩ := (r.accounted u).signals t signal hsignal
  refine ⟨d, ⟨signal.detectionMid, mid, hd, hdetected, hmid, ?_, hback⟩, hunused⟩
  rw [updatesBetween_succ_of_processed hmid hd, ← hage]
  exact hfresh

/-- An event enters once at most. -/
theorem length_entries_le_one (r : TbtRun) (u : ℕ) : ((r.emittedAt u).filter (·.side = .Buy)).length ≤ 1 := by
  rw [emittedAt]
  cases r.events[u]? with
  | none => exact Nat.zero_le 1
  | some e => exact length_buys_handle_le_one r.parse (r.stateAt u) e

theorem token_of_processedAt {mid : Decimal} (h : r.processedAt t n = some mid) :
    ∃ around marketId, r.events[n]? = some (.receive (.bookUpdate around marketId t)) := by
  obtain ⟨e, hevent, hmid⟩ := Option.bind_eq_some_iff.mp h
  obtain ⟨around, marketId, rfl, -⟩ := bookUpdate_of_processedMid hmid
  exact ⟨around, marketId, hevent⟩

/-- The update of one token is no update of another. -/
theorem token_unique {t' : TokenId} {mid mid' : Decimal} (h : r.processedAt t n = some mid)
    (h' : r.processedAt t' n = some mid') : t = t' := by
  obtain ⟨_, _, hevent⟩ := token_of_processedAt h
  obtain ⟨_, _, hevent'⟩ := token_of_processedAt h'
  rw [hevent] at hevent'
  cases hevent'
  rfl

/-- A later entry follows up another detection. -/
theorem detection_lt {t' : TokenId} {u u' d d' : ℕ} (hbuys : Buys t (r.emittedAt u)) (hlt : u < u')
    (h : ∃ detectionMid entryMid, r.JustifiedBy t d u detectionMid entryMid)
    (h' : ∃ detectionMid entryMid, r.JustifiedBy t' d' u' detectionMid entryMid)
    (hunused : ∀ v, d' < v → v < u' → ¬Buys t' (r.emittedAt v)) : d ≠ d' := by
  rintro rfl
  obtain ⟨_, _, hjustified⟩ := h
  obtain ⟨_, _, hjustified'⟩ := h'
  obtain rfl := token_unique hjustified.detected.processed hjustified'.detected.processed
  exact hunused u hjustified.earlier hlt hbuys

/-- Every entry of a run is justified by a detection of its own. -/
theorem entries_are_justified (r : TbtRun) :
    (∀ u, ((r.emittedAt u).filter (·.side = .Buy)).length ≤ 1) ∧
      ∃ detection : ℕ → ℕ,
        (∀ u t, Buys t (r.emittedAt u) →
          ∃ detectionMid entryMid, r.JustifiedBy t (detection u) u detectionMid entryMid) ∧
        ∀ u u' t t', Buys t (r.emittedAt u) → Buys t' (r.emittedAt u') → detection u = detection u' → u = u' := by
  refine ⟨r.length_entries_le_one, ?_⟩
  have hchoice : ∀ u, ∃ d, ∀ t, Buys t (r.emittedAt u) →
      (∃ detectionMid entryMid, r.JustifiedBy t d u detectionMid entryMid) ∧
        ∀ v, d < v → v < u → ¬Buys t (r.emittedAt v) := by
    intro u
    by_cases hbuys : ∃ t, Buys t (r.emittedAt u)
    · obtain ⟨t, hbuys⟩ := hbuys
      obtain ⟨d, hjustified⟩ := exists_justifiedBy hbuys
      refine ⟨d, fun t' hbuys' => ?_⟩
      -- An update enters for its own token alone.
      obtain ⟨_, hmid⟩ := processedAt_of_buys hbuys
      obtain ⟨_, hmid'⟩ := processedAt_of_buys hbuys'
      obtain rfl := token_unique hmid hmid'
      exact hjustified
    · exact ⟨0, fun t hbuys' => absurd ⟨t, hbuys'⟩ hbuys⟩
  choose detection hdetection using hchoice
  refine ⟨detection, fun u t hbuys => (hdetection u t hbuys).1, fun u u' t t' hbuys hbuys' heq => ?_⟩
  obtain ⟨hjustified, hunused⟩ := hdetection u t hbuys
  obtain ⟨hjustified', hunused'⟩ := hdetection u' t' hbuys'
  rcases lt_trichotomy u u' with hlt | rfl | hlt
  · exact absurd heq (detection_lt hbuys hlt hjustified hjustified' hunused')
  · rfl
  · exact absurd heq.symm (detection_lt hbuys' hlt hjustified' hjustified hunused)

private def bidAndAsked (bid ask : String) : TbtEvent :=
  .receive (.bookUpdate {
    registry := MarketPairRegistry.new.register (.new "m1" "yes" "no")
    prices := ∅
    ctx := {
      books := (∅ : OrderBookState).insert "yes" ⟨"yes", "m1", [⟨bid, "100"⟩], [⟨ask, "100"⟩], none, none⟩
      ledger := Ledger.new 1000
      now := Duration.fromSecs 1 }
    utcNow := 0
    uuid := "1" } "m1" "yes")

/-- The low of 0.40, which the price reaches from 0.45 and does not leave, is signalled, and followed up at 0.39. -/
private def recoveredLow : TbtRun where
  parse text := (General.DecimalText.ScaledDecimal.fromStr text).map (·.value)
  config := ⟨4, 1, 100, 50, 30, 100, 5, 240, 7 / 100, 5 / 100, 8, 20000⟩
  events := [bidAndAsked "0.49" "0.51", bidAndAsked "0.44" "0.46", bidAndAsked "0.39" "0.41",
    bidAndAsked "0.39" "0.41", bidAndAsked "0.38" "0.40"]

example : (List.range 5).map (fun n => (recoveredLow.emittedAt n).length) = [0, 0, 0, 0, 1] := by decide +kernel

end TbtRun

end PolyBot
