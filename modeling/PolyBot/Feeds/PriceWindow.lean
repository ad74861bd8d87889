import PolyBot.General.AdditiveRuns
import PolyBot.Strategy.TemporalArb

/-! The price records that the external feed keeps, and how old the price is against which a move is measured. -/

namespace PolyBot
open General.KeyedStore General.AdditiveRuns

structure FeedRecord extends ExternalPriceRecord where
  symbol : String
  price : Decimal
  windowOpen : Decimal
  windowStartedAt : Instant
  deriving DecidableEq, Repr

namespace FeedRecord

def new (symbol : String) (price : Decimal) (now : Instant) : FeedRecord where
  updatedAt := now
  changeBps := 0
  symbol := symbol
  price := price
  windowOpen := price
  windowStartedAt := now

/-- The move in basis points, cut to an integer; zero when it does not fit in 64 bits. -/
def changeFrom (windowOpen price : Decimal) : ℤ :=
  let change := (price - windowOpen) / windowOpen * 10000
  let bps := if 0 ≤ change then ⌊change⌋ else ⌈change⌉
  if -2 ^ 63 ≤ bps ∧ bps < 2 ^ 63 then bps else 0

/-- An expired window opens again at the last known price. -/
def rollWindow (r : FeedRecord) (windowSecs : ℕ) (now : Instant) : FeedRecord :=
  if windowSecs ≤ r.windowStartedAt.elapsedSecs now then { r with windowOpen := r.price, windowStartedAt := now } else r

/-- Without a positive opening price the move is left as it was. -/
def update (r : FeedRecord) (newPrice : Decimal) (windowSecs : ℕ) (now : Instant) : FeedRecord :=
  let r := { r.rollWindow windowSecs now with price := newPrice, updatedAt := now }
  if 0 < r.windowOpen then { r with changeBps := changeFrom r.windowOpen newPrice } else r

end FeedRecord

namespace Feeds

def TRACKED_SYMBOLS : List (String × String) := [("BTCUSDT", "BTC"), ("ETHUSDT", "ETH"), ("SOLUSDT", "SOL")]

def WINDOW_SECS : ℕ := 30

def binanceSymbolToAsset (symbol : String) : Option String :=
  (TRACKED_SYMBOLS.find? fun tracked => symbol.toLower = tracked.1.toLower).map Prod.snd

section Messages
variable (decode : String → Option (String × String)) (parse : String → Option Decimal)

def processMessage (prices : Store String FeedRecord) (now : Instant) (text : String) : Store String FeedRecord :=
  match decode text with
  | none => prices
  | some (symbol, price) =>
    match parse price, binanceSymbolToAsset symbol with
    | some newPrice, some asset =>
      match prices.lookup asset with
      | some record => prices.insert asset (record.update newPrice WINDOW_SECS now)
      | none => prices.insert asset (.new asset newPrice now)
    | _, _ => prices

end Messages

structure PriceHistory where
  record : FeedRecord
  observed : List (Instant × Decimal)

abbrev PriceUpdate := Duration × Decimal

namespace PriceHistory

def start (symbol : String) (price : Decimal) (now : Instant) : PriceHistory := ⟨.new symbol price now, [(now, price)]⟩

def step (windowSecs : ℕ) (h : PriceHistory) (u : PriceUpdate) : PriceHistory :=
  let now := h.record.updatedAt + u.1
  ⟨h.record.update u.2 windowSecs now, (now, u.2) :: h.observed⟩

def run (windowSecs : ℕ) (h : PriceHistory) (updates : List PriceUpdate) : PriceHistory :=
  updates.foldl (step windowSecs) h

def maxBaselineAge (windowSecs : ℕ) : Duration := Duration.fromSecs (2 * windowSecs + 1)

def Recent (windowSecs : ℕ) (h : PriceHistory) : Prop :=
  ∃ t, (t, h.record.windowOpen) ∈ h.observed ∧ t.elapsed h.record.updatedAt ≤ maxBaselineAge windowSecs

end PriceHistory

/-- What the gaps between the updates alone say of the window: the time since it was rolled, and the gap that came
before the update that rolled it. -/
structure WindowClock where
  sinceRoll : Duration
  gapAtRoll : Duration
  deriving DecidableEq, Repr

namespace WindowClock

def step (windowSecs : ℕ) (c : WindowClock) (gap : Duration) : WindowClock :=
  if windowSecs ≤ (c.sinceRoll + gap) / Duration.fromSecs 1 then ⟨0, gap⟩ else ⟨c.sinceRoll + gap, c.gapAtRoll⟩

def InTime (windowSecs : ℕ) (c : WindowClock) : Prop :=
  c.gapAtRoll + c.sinceRoll ≤ PriceHistory.maxBaselineAge windowSecs

instance (windowSecs : ℕ) (c : WindowClock) : Decidable (c.InTime windowSecs) := inferInstanceAs (Decidable (_ ≤ _))

end WindowClock

/-- After every update, the gap before the last roll and the time since that roll are together no longer than twice
the window, and a second. -/
def GapsInTime (windowSecs : ℕ) (gaps : List Duration) : Prop :=
  ∀ p, p <+: gaps → (p.foldl (WindowClock.step windowSecs) ⟨0, 0⟩).InTime windowSecs

/-- The clock and the record agree on the window, and its opening price was the last one before the roll. -/
structure Aligned (c : WindowClock) (h : PriceHistory) : Prop where
  started : h.record.windowStartedAt + c.sinceRoll = h.record.updatedAt
  opened : ∃ t, t + c.gapAtRoll = h.record.windowStartedAt ∧ (t, h.record.windowOpen) ∈ h.observed
  latest : (h.record.updatedAt, h.record.price) ∈ h.observed

theorem aligned_start (symbol : String) (price : Decimal) (now : Instant) :
    Aligned ⟨0, 0⟩ (PriceHistory.start symbol price now) :=
  ⟨rfl, ⟨now, rfl, List.mem_singleton.mpr rfl⟩, List.mem_singleton.mpr rfl⟩

section Update
variable (r : FeedRecord) (newPrice : Decimal) (windowSecs : ℕ) (now : Instant)

theorem price_update : (r.update newPrice windowSecs now).price = newPrice := by
  dsimp only [FeedRecord.update]
  split <;> rfl

theorem updatedAt_update : (r.update newPrice windowSecs now).updatedAt = now := by
  dsimp only [FeedRecord.update]
  split <;> rfl

theorem windowOpen_update :
    (r.update newPrice windowSecs now).windowOpen = (r.rollWindow windowSecs now).windowOpen := by
  dsimp only [FeedRecord.update]
  split <;> rfl

theorem windowStartedAt_update :
    (r.update newPrice windowSecs now).windowStartedAt = (r.rollWindow windowSecs now).windowStartedAt := by
  dsimp only [FeedRecord.update]
  split <;> rfl

theorem changeBps_update (h : 0 < (r.update newPrice windowSecs now).windowOpen) :
    (r.update newPrice windowSecs now).changeBps =
      FeedRecord.changeFrom (r.update newPrice windowSecs now).windowOpen newPrice := by
  rw [windowOpen_update] at h ⊢
  dsimp only [FeedRecord.update]
  rw [if_pos h]

end Update

theorem Aligned.step {c : WindowClock} {h : PriceHistory} (ha : Aligned c h) (windowSecs : ℕ) (u : PriceUpdate) :
    Aligned (c.step windowSecs u.1) (h.step windowSecs u) := by
  have helapsed : h.record.windowStartedAt.elapsedSecs (h.record.updatedAt + u.1) =
      (c.sinceRoll + u.1) / Duration.fromSecs 1 := by
    rw [Instant.elapsedSecs, Instant.elapsed, ← ha.started, Nat.add_assoc, Nat.add_sub_cancel_left]
  by_cases hroll : windowSecs ≤ (c.sinceRoll + u.1) / Duration.fromSecs 1
  · have hrecord : h.record.rollWindow windowSecs (h.record.updatedAt + u.1) =
        { h.record with windowOpen := h.record.price, windowStartedAt := h.record.updatedAt + u.1 } := by
      rw [FeedRecord.rollWindow, helapsed, if_pos hroll]
    rw [WindowClock.step, if_pos hroll]
    refine ⟨?_, ⟨h.record.updatedAt, ?_, ?_⟩, ?_⟩
    · simp [PriceHistory.step, windowStartedAt_update, updatedAt_update, hrecord]
    · simp [PriceHistory.step, windowStartedAt_update, hrecord]
    · simp only [PriceHistory.step, windowOpen_update, hrecord]
      exact List.mem_cons_of_mem _ ha.latest
    · simp [PriceHistory.step, updatedAt_update, price_update]
  · have hrecord : h.record.rollWindow windowSecs (h.record.updatedAt + u.1) = h.record := by
      rw [FeedRecord.rollWindow, helapsed, if_neg hroll]
    obtain ⟨t, ht, hopen⟩ := ha.opened
    rw [WindowClock.step, if_neg hroll]
    refine ⟨?_, ⟨t, ?_, ?_⟩, ?_⟩
    · simp only [PriceHistory.step, windowStartedAt_update, updatedAt_update, hrecord]
      rw [← Nat.add_assoc, ha.started]
    · simp only [PriceHistory.step, windowStartedAt_update, hrecord]
      exact ht
    · simp only [PriceHistory.step, windowOpen_update, hrecord]
      exact List.mem_cons_of_mem _ hopen
    · simp [PriceHistory.step, updatedAt_update, price_update]

theorem Aligned.run {c : WindowClock} {h : PriceHistory} (ha : Aligned c h) (windowSecs : ℕ)
    (updates : List PriceUpdate) :
    Aligned ((updates.map Prod.fst).foldl (WindowClock.step windowSecs) c) (h.run windowSecs updates) := by
  induction updates generalizing c h with
  | nil => exact ha
  | cons u updates ih => exact ih (ha.step windowSecs u)

theorem Aligned.recent {c : WindowClock} {h : PriceHistory} (ha : Aligned c h) {windowSecs : ℕ}
    (hin : c.InTime windowSecs) : h.Recent windowSecs := by
  obtain ⟨t, ht, hopen⟩ := ha.opened
  refine ⟨t, hopen, ?_⟩
  rw [Instant.elapsed, ← ha.started, ← ht, Nat.add_assoc, Nat.add_sub_cancel_left]
  exact hin

section Messages
variable {decode : String → Option (String × String)} {parse : String → Option Decimal}

/-- The time and the prices after one more message, which comes with the time since the one before. -/
def feed (decode : String → Option (String × String)) (parse : String → Option Decimal)
    (s : Instant × Store String FeedRecord) (message : Duration × String) : Instant × Store String FeedRecord :=
  (s.1 + message.1, processMessage decode parse s.2 (s.1 + message.1) message.2)

/-- Every record is that of some history of its asset, and not from the future. -/
def HasHistory (s : Instant × Store String FeedRecord) : Prop :=
  ∀ asset r, s.2.lookup asset = some r → r.updatedAt ≤ s.1 ∧
    ∃ price start updates, ((PriceHistory.start asset price start).run WINDOW_SECS updates).record = r

theorem hasHistory_update {asset : String} {r : FeedRecord} {now : Instant} (newPrice : Decimal)
    (hle : r.updatedAt ≤ now)
    (h : ∃ price start updates, ((PriceHistory.start asset price start).run WINDOW_SECS updates).record = r) :
    ∃ price start updates, ((PriceHistory.start asset price start).run WINDOW_SECS updates).record =
      r.update newPrice WINDOW_SECS now := by
  obtain ⟨price, start, updates, hrun⟩ := h
  refine ⟨price, start, updates ++ [(now - r.updatedAt, newPrice)], ?_⟩
  have hnow : r.updatedAt + (now - r.updatedAt) = now := Nat.add_sub_cancel' hle
  calc ((PriceHistory.start asset price start).run WINDOW_SECS (updates ++ [(now - r.updatedAt, newPrice)])).record
    _ = (((PriceHistory.start asset price start).run WINDOW_SECS updates).step WINDOW_SECS
          (now - r.updatedAt, newPrice)).record := by rw [PriceHistory.run, List.foldl_append]; rfl
    _ = r.update newPrice WINDOW_SECS now := by rw [PriceHistory.step, hrun, hnow]

theorem HasHistory.feed {s : Instant × Store String FeedRecord} (h : HasHistory s) (message : Duration × String) :
    HasHistory (feed decode parse s message) := by
  have hkeep : HasHistory (s.1 + message.1, s.2) := fun asset r hlookup =>
    ⟨(h asset r hlookup).1.trans (Nat.le_add_right _ _), (h asset r hlookup).2⟩
  rw [Feeds.feed, processMessage]
  split
  · exact hkeep
  · split
    · rename_i newPrice asset _ _
      split
      · rename_i record hrecord
        obtain ⟨hle, hhistory⟩ := hkeep asset record hrecord
        intro other r hlookup
        have hupdated := hasHistory_update newPrice hle hhistory
        exact forall_lookup_insert hkeep ⟨(updatedAt_update _ _ _ _).le, hupdated⟩ hlookup
      · intro other r hlookup
        exact forall_lookup_insert hkeep ⟨le_refl _, newPrice, _, [], rfl⟩ hlookup
    · exact hkeep

/-- Whatever messages arrive, the store holds only records with a history. -/
theorem hasHistory_feed (messages : List (Duration × String)) (now : Instant) :
    HasHistory (messages.foldl (feed decode parse) (now, ∅)) := by
  have hempty : HasHistory (now, ∅) := fun asset r hlookup => by simp at hlookup
  induction messages using List.reverseRecOn with
  | nil => exact hempty
  | append_singleton messages message ih =>
    rw [List.foldl_append]
    exact ih.feed message

end Messages

/-- Whenever the strategy acts on the record, the record is fresh, and its move is measured against a price that was
observed no longer ago than twice the window, and a second. -/
def TradesRecentMove (windowSecs : ℕ) (h : PriceHistory) : Prop :=
  ∀ (parse : String → Option Decimal) (assetSymbol : MarketPair → Option String) (s : TemporalArbStrategy)
    (prices : ExternalPriceStore) (pair : MarketPair) (ctx : StrategyContext) (symbol : String)
    (emitted : OrderIntent × TemporalArbStrategy),
    assetSymbol pair = some symbol → prices.lookup symbol = some h.record.toExternalPriceRecord →
    s.checkOpportunity parse assetSymbol prices pair ctx = some emitted →
    h.record.isFresh s.config.maxFeedAgeSecs ctx.now = true ∧
      ∃ t windowOpen, (t, windowOpen) ∈ h.observed ∧
        h.record.changeBps = FeedRecord.changeFrom windowOpen h.record.price ∧
        t.elapsed h.record.updatedAt ≤ PriceHistory.maxBaselineAge windowSecs

/-- The baseline of the record is recent, and so is that of every trade on it. A window that does not open at a
positive price measures no move of its own. -/
structure BaselineRecent (windowSecs : ℕ) (h : PriceHistory) : Prop where
  recent : h.Recent windowSecs
  trades : 0 < h.record.windowOpen → TradesRecentMove windowSecs h

def MeasuredFromOpen (h : PriceHistory) : Prop :=
  0 < h.record.windowOpen → h.record.changeBps = FeedRecord.changeFrom h.record.windowOpen h.record.price

theorem measuredFromOpen_start (symbol : String) (price : Decimal) (now : Instant) :
    MeasuredFromOpen (PriceHistory.start symbol price now) := by
  intro _
  simp [PriceHistory.start, FeedRecord.new, FeedRecord.changeFrom]

theorem MeasuredFromOpen.run {h : PriceHistory} (hm : MeasuredFromOpen h) (windowSecs : ℕ)
    (updates : List PriceUpdate) : MeasuredFromOpen (h.run windowSecs updates) := by
  induction updates generalizing h with
  | nil => exact hm
  | cons u updates ih =>
    refine ih (h := h.step windowSecs u) fun hpos => ?_
    simp only [PriceHistory.step, price_update] at hpos ⊢
    exact changeBps_update _ _ _ _ hpos

theorem tradesRecentMove_of_recent {windowSecs : ℕ} {h : PriceHistory} (hm : MeasuredFromOpen h)
    (hrecent : h.Recent windowSecs) (hpos : 0 < h.record.windowOpen) : TradesRecentMove windowSecs h := by
  intro parse assetSymbol s prices pair ctx symbol emitted hsymbol hlookup hcheck
  obtain ⟨t, hmem, hage⟩ := hrecent
  refine ⟨?_, t, h.record.windowOpen, hmem, hm hpos, hage⟩
  simp only [TemporalArbStrategy.checkOpportunity, hsymbol, Option.bind_eq_bind, Option.bind_some, hlookup,
    Option.bind_eq_some_iff, Option.guard_eq_some'] at hcheck
  obtain ⟨_, hfresh, -⟩ := hcheck
  exact hfresh

section Rising

def rising : Decimal → List Duration → List PriceUpdate
  | _, [] => []
  | price, gap :: gaps => (gap, price + 1) :: rising (price + 1) gaps

theorem map_fst_rising (price : Decimal) (gaps : List Duration) : (rising price gaps).map Prod.fst = gaps := by
  induction gaps generalizing price with
  | nil => rfl
  | cons gap gaps ih => rw [rising, List.map_cons, ih]

theorem rising_prefixes {p gaps : List Duration} (hp : p <+: gaps) (price : Decimal) :
    rising price p <+: rising price gaps := by
  induction p generalizing price gaps with
  | nil => exact List.nil_prefix
  | cons gap p ih =>
    obtain ⟨rest, rfl⟩ := hp
    exact List.cons_prefix_cons.mpr ⟨rfl, ih (List.prefix_append p rest) _⟩

structure Distinct (h : PriceHistory) : Prop where
  highest : ∀ o ∈ h.observed, o.2 ≤ h.record.price
  once : ∀ t t' price, (t, price) ∈ h.observed → (t', price) ∈ h.observed → t = t'

theorem Distinct.step {h : PriceHistory} (hd : Distinct h) (windowSecs : ℕ) {u : PriceUpdate}
    (hu : h.record.price < u.2) : Distinct (h.step windowSecs u) := by
  have hnew : ∀ t, (t, u.2) ∉ h.observed := fun t hmem => (hd.highest _ hmem).not_gt hu
  constructor
  · intro o ho
    simp only [PriceHistory.step, price_update]
    rcases List.mem_cons.mp ho with rfl | ho
    · exact le_refl _
    · exact (hd.highest o ho).trans hu.le
  · intro t t' price ht ht'
    rcases List.mem_cons.mp ht with heq | ht
    · obtain ⟨rfl, rfl⟩ := Prod.mk.inj heq
      rcases List.mem_cons.mp ht' with heq' | ht'
      · exact (Prod.mk.inj heq').1.symm
      · exact absurd ht' (hnew t')
    · rcases List.mem_cons.mp ht' with heq' | ht'
      · obtain ⟨-, rfl⟩ := Prod.mk.inj heq'
        exact absurd ht (hnew t)
      · exact hd.once t t' price ht ht'

theorem Distinct.run_rising {h : PriceHistory} (hd : Distinct h) (windowSecs : ℕ) (gaps : List Duration) :
    Distinct (h.run windowSecs (rising h.record.price gaps)) := by
  induction gaps generalizing h with
  | nil => exact hd
  | cons gap gaps ih =>
    have hnext := ih (hd.step windowSecs (u := (gap, h.record.price + 1)) (lt_add_one _))
    simp only [PriceHistory.step, price_update] at hnext
    exact hnext

/-- Where no price was observed twice, a recent baseline means that the gaps are in time. -/
theorem Aligned.inTime {c : WindowClock} {h : PriceHistory} (ha : Aligned c h) (hd : Distinct h) {windowSecs : ℕ}
    (hrecent : h.Recent windowSecs) : c.InTime windowSecs := by
  obtain ⟨t, ht, hopen⟩ := ha.opened
  obtain ⟨t', hopen', hage⟩ := hrecent
  rw [hd.once t' t _ hopen' hopen, Instant.elapsed, ← ha.started, ← ht, Nat.add_assoc, Nat.add_sub_cancel_left] at hage
  exact hage

end Rising

/-- Whatever the prices, the baseline stays recent exactly when the gaps between the updates are in time. -/
theorem baseline_recent_iff (windowSecs : ℕ) (gaps : List Duration) :
    GapsInTime windowSecs gaps ↔
      ∀ (symbol : String) (price : Decimal) (now : Instant) (updates : List PriceUpdate),
        updates.map Prod.fst = gaps →
        ∀ p, p <+: updates → BaselineRecent windowSecs ((PriceHistory.start symbol price now).run windowSecs p) := by
  constructor
  · rintro hgaps symbol price now updates rfl p hp
    have haligned := (aligned_start symbol price now).run windowSecs p
    have hrecent := haligned.recent (hgaps _ (hp.map Prod.fst))
    exact ⟨hrecent, tradesRecentMove_of_recent ((measuredFromOpen_start symbol price now).run windowSecs p) hrecent⟩
  · intro h p hp
    have hdistinct : Distinct (PriceHistory.start "BTC" 1 0) := by
      constructor
      · intro o ho
        rw [List.mem_singleton.mp ho]
        exact le_refl _
      · intro t t' price ht ht'
        exact (Prod.mk.inj (List.mem_singleton.mp ht)).1.trans (Prod.mk.inj (List.mem_singleton.mp ht')).1.symm
    have hrecent := (h "BTC" 1 0 (rising 1 gaps) (map_fst_rising 1 gaps) _ (rising_prefixes hp 1)).recent
    have haligned := (aligned_start "BTC" 1 0).run windowSecs (rising 1 p)
    rw [map_fst_rising] at haligned
    exact haligned.inTime (hdistinct.run_rising windowSecs p) hrecent

private def afterOutage : PriceHistory := (PriceHistory.start "BTC" 100 0).run 30 [(Duration.fromSecs 300, 110)]

/-- After an outage of five minutes the move is measured against the price from before it, in a record that is
fresh. -/
theorem baseline_outlives_outage :
    ¬afterOutage.Recent 30 ∧ afterOutage.record.changeBps = 1000 ∧
      afterOutage.record.isFresh 10 (Duration.fromSecs 300) = true := by
  refine ⟨?_, by decide +kernel, by decide +kernel⟩
  rintro ⟨t, hmem, hage⟩
  have hopen : afterOutage.record.windowOpen = 100 := by decide +kernel
  have hobserved : afterOutage.observed = [(Duration.fromSecs 300, 110), (0, 100)] := by decide +kernel
  rw [hopen, hobserved] at hmem
  have ht : t = 0 := by simpa using hmem
  subst ht
  exact absurd hage (by decide +kernel)

end Feeds

end PolyBot
