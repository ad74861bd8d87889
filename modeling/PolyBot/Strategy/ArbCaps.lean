import PolyBot.General.AdditiveRuns
import PolyBot.Strategy.MakerRebateArb
import PolyBot.Strategy.MathArb

/-! The caps on what the two arbitrage strategies emit, over their runs. -/

namespace PolyBot.ArbCaps
open General.AdditiveRuns General.KeyedStore

/-- What reaches a strategy. The registry of pairs is shared with the market discovery, which may change it. -/
inductive Event where
  | bookUpdate (marketId : ConditionId) (tokenId : TokenId) (ctx : StrategyContext) (uuid : String)
  | fill (fill : Fill)
  | tick (ctx : StrategyContext)
  | enable (enabled : Bool)
  | discover (registry : MarketPairRegistry)

def Event.WellFormed : Event → Prop
  | .fill f => 0 ≤ f.price ∧ 0 ≤ f.size
  | _ => True

structure WithinCaps (parse : String → Option Decimal) (lim : SizingLimits) (ctx : StrategyContext)
    (yes no : OrderIntent) : Prop where
  sizes_eq : no.size = yes.size
  hundredths : ∃ k : ℕ, yes.size = k / 100
  depth : ∃ yesBook noBook, ctx.books.getBook yes.tokenId = some yesBook ∧ ctx.books.getBook no.tokenId = some noBook ∧
    yes.size ≤ yesBook.askDepth parse ∧ no.size ≤ noBook.askDepth parse
  position : yes.size ≤ lim.maxPositionSize
  bet : (yes.price + no.price) * yes.size ≤ lim.maxBetUsd
  cash : (yes.price + no.price) * yes.size ≤ ctx.availableCash
  minimum : 0 < yes.price → 0 < no.price →
    EXCHANGE_MIN_ORDER_USDC ≤ yes.notional ∧ EXCHANGE_MIN_ORDER_USDC ≤ no.notional

def GroupsWithinCaps (parse : String → Option Decimal) (lim : SizingLimits) (e : Event)
    (intents : List OrderIntent) : Prop :=
  match e with
  | .bookUpdate _ _ ctx _ => intents = [] ∨ ∃ yes no, intents = [yes, no] ∧ WithinCaps parse lim ctx yes no
  | _ => ∀ i ∈ intents, i.groupId = none

/-- An exposure between zero and its limit, unless the limit is negative. -/
def Bounded (limit exposure : Decimal) : Prop := 0 ≤ limit → 0 ≤ exposure ∧ exposure ≤ limit

theorem Bounded.zero (limit : Decimal) : Bounded limit 0 := fun hlimit => ⟨le_rfl, hlimit⟩

theorem Bounded.add {limit exposure cost : Decimal} (h : Bounded limit exposure) (hcost : 0 ≤ cost)
    (hle : exposure + cost ≤ limit) : Bounded limit (exposure + cost) :=
  fun hlimit => ⟨add_nonneg (h hlimit).1 hcost, hle⟩

theorem Bounded.release {limit exposure amount : Decimal} (h : Bounded limit exposure) (hamount : 0 ≤ amount) :
    Bounded limit (max (exposure - amount) 0) := by
  intro hlimit
  refine ⟨le_max_right _ _, max_le ?_ hlimit⟩
  exact (sub_le_self exposure hamount).trans (h hlimit).2

section Run
variable {σ : Type*} (handle : σ → Event → List OrderIntent × σ)

structure RespectsCaps (parse : String → Option Decimal) (lim : SizingLimits) (exposure : σ → Decimal) (s : σ)
    (events : List Event) : Prop where
  groups : Throughout (fun s e => (handle s e).2) (fun s e => GroupsWithinCaps parse lim e (handle s e).1) s events
  bounded : ∀ p, p <+: events → Bounded lim.maxTotalExposure (exposure (p.foldl (fun s e => (handle s e).2) s))

variable {handle}

/-- An invariant that bounds the exposure and caps the groups of every step does so for whole runs. -/
theorem RespectsCaps.of_invariant (Inv : σ → Prop) {parse : String → Option Decimal} {lim : SizingLimits}
    {exposure : σ → Decimal} {s : σ} {events : List Event}
    (hkeep : ∀ s e, Inv s → e.WellFormed → Inv (handle s e).2)
    (hgroups : ∀ s e, Inv s → GroupsWithinCaps parse lim e (handle s e).1)
    (hbounded : ∀ s, Inv s → Bounded lim.maxTotalExposure (exposure s)) (hs : Inv s)
    (hwf : ∀ e ∈ events, e.WellFormed) : RespectsCaps handle parse lim exposure s events := by
  have hok : Throughout (fun s e => (handle s e).2) (fun _ e => e.WellFormed) s events :=
    .of_forall_mem fun _ e he => hwf e he
  refine ⟨throughout_imp Inv hkeep (fun s e h _ => hgroups s e h) hs hok, ?_⟩
  have hafter := throughout_imp (q := fun s e => Bounded lim.maxTotalExposure (exposure (handle s e).2)) Inv hkeep
    (fun s e h hw => hbounded _ (hkeep s e h hw)) hs hok
  exact (forall_prefix_iff (Q := fun s => Bounded lim.maxTotalExposure (exposure s))).mpr ⟨hbounded s hs, hafter⟩

end Run

/-- Whatever the limits admit on the depth of the two books is within the caps. -/
theorem WithinCaps.of_admits {parse : String → Option Decimal} {lim : SizingLimits} {ctx : StrategyContext}
    {yesBook noBook : BookSnapshot} {yes no : OrderIntent} {exposure yesPrice noPrice size : Decimal}
    (h : lim.Admits (EdgeConfig.minDepth parse yesBook noBook) exposure ctx.availableCash yesPrice noPrice size)
    (hyesBook : ctx.books.getBook yes.tokenId = some yesBook) (hnoBook : ctx.books.getBook no.tokenId = some noBook)
    (hyes : yes.price = yesPrice ∧ yes.size = size) (hno : no.price = noPrice ∧ no.size = size) :
    WithinCaps parse lim ctx yes no := by
  obtain ⟨rfl, rfl⟩ := hyes
  obtain ⟨rfl, hsize⟩ := hno
  have hdepth := le_min_iff.mp h.le_depth
  refine ⟨hsize, h.exists_hundredths, ⟨yesBook, noBook, hyesBook, hnoBook, hdepth.1, hsize.trans_le hdepth.2⟩,
    h.le_maxPositionSize, h.cost_le_maxBetUsd, h.cost_le_cash.2, ?_⟩
  intro hyesPos hnoPos
  have hmin := h.min_le_notional hyesPos hnoPos
  rw [← hsize] at hmin
  refine ⟨?_, hmin.2⟩
  rw [OrderIntent.notional, ← hsize]
  exact hmin.1

end PolyBot.ArbCaps

namespace PolyBot.MathArbStrategy
open ArbCaps
variable (parse : String → Option Decimal)

def handle (s : MathArbStrategy) : Event → List OrderIntent × MathArbStrategy
  | .bookUpdate marketId tokenId ctx uuid => s.onBookUpdate parse marketId tokenId ctx uuid
  | .fill f => ([], s.onFill f)
  | .tick ctx => s.onTick ctx
  | .enable enabled => ([], s.setEnabled enabled)
  | .discover registry => ([], { s with registry := registry })

structure Capped (config : MathArbConfig) (s : MathArbStrategy) : Prop where
  config_eq : s.config = config
  exposure : Bounded config.limits.maxTotalExposure s.currentExposure

variable {parse} {config : MathArbConfig} {s : MathArbStrategy}

theorem Capped.handle (h : s.Capped config) {e : Event} (hw : e.WellFormed) : (s.handle parse e).2.Capped config := by
  cases e with
  | bookUpdate marketId tokenId ctx uuid =>
    change (s.onBookUpdate parse marketId tokenId ctx uuid).2.Capped config
    rcases s.onBookUpdate_cases parse marketId tokenId ctx uuid with hnone | ⟨pair, intents, s', -, -, hcheck, hnext⟩
    · rw [hnone]
      exact h
    · obtain ⟨_, _, _, _, _, hopp, -, hs'⟩ := checkArbOpportunity_inv parse hcheck
      have hwithin := hopp.admitted.within
      rw [h.config_eq] at hwithin
      rw [hnext, hs']
      exact ⟨h.config_eq, h.exposure.add hopp.admitted.cost_pos.le hwithin⟩
  | fill f =>
    change (s.onFill f).Capped config
    unfold onFill
    split
    · exact ⟨h.config_eq, h.exposure.release (mul_nonneg hw.1 hw.2)⟩
    · exact h
  | tick ctx => exact h
  | enable enabled => exact ⟨h.config_eq, h.exposure⟩
  | discover registry => exact ⟨h.config_eq, h.exposure⟩

theorem Capped.groups (h : s.Capped config) (e : Event) :
    GroupsWithinCaps parse config.limits e (s.handle parse e).1 := by
  cases e with
  | bookUpdate marketId tokenId ctx uuid =>
    change (s.onBookUpdate parse marketId tokenId ctx uuid).1 = [] ∨ _
    rcases s.onBookUpdate_cases parse marketId tokenId ctx uuid with hnone | ⟨pair, intents, s', -, -, hcheck, hnext⟩
    · exact .inl (by rw [hnone])
    · obtain ⟨_, _, _, _, _, hopp, hlegs, -⟩ := checkArbOpportunity_inv parse hcheck
      refine .inr ⟨_, _, (congrArg Prod.fst hnext).trans hlegs, ?_⟩
      rw [← h.config_eq]
      exact .of_admits hopp.admitted hopp.yes_book hopp.no_book ⟨rfl, rfl⟩ ⟨rfl, rfl⟩
  | _ => exact fun _ hmem => absurd hmem List.not_mem_nil

end PolyBot.MathArbStrategy

namespace PolyBot.MakerRebateArbStrategy
open ArbCaps General.KeyedStore
variable (parse : String → Option Decimal)

def handle (s : MakerRebateArbStrategy) : Event → List OrderIntent × MakerRebateArbStrategy
  | .bookUpdate marketId tokenId ctx uuid => s.onBookUpdate parse marketId tokenId ctx uuid
  | .fill f => ([], s.onFill f)
  | .tick ctx => s.onTick parse ctx
  | .enable enabled => ([], s.setEnabled enabled)
  | .discover registry => ([], { s with registry := registry })

structure Capped (config : MakerRebateConfig) (s : MakerRebateArbStrategy) : Prop where
  config_eq : s.config = config
  exposure : Bounded config.limits.maxTotalExposure s.currentExposure
  reserved : ∀ p ∈ values s.pendingArbs, 0 ≤ p.reservedNotional

variable {parse} {config : MakerRebateConfig} {s : MakerRebateArbStrategy}

theorem expireArb_cases (parse : String → Option Decimal) (s : MakerRebateArbStrategy) (ctx : StrategyContext)
    (p : PendingArb) :
    (s.expireArb parse ctx p).2 = s ∨ (s.expireArb parse ctx p).2 = s.releaseReserved p := by
  unfold expireArb
  dsimp only
  split <;> simp

theorem unwindLeg_ungrouped {ctx : StrategyContext} {p : PendingArb} {tokenId : TokenId} {shares : Decimal}
    {i : OrderIntent} (h : i ∈ unwindLeg parse ctx p tokenId shares) : i.groupId = none := by
  obtain ⟨bid, -, rfl⟩ := (mem_unwindLeg_iff parse).mp h
  rfl

theorem expireArb_ungrouped {ctx : StrategyContext} {p : PendingArb} {i : OrderIntent}
    (h : i ∈ (s.expireArb parse ctx p).1) : i.groupId = none := by
  unfold expireArb at h
  dsimp only at h
  split at h
  · exact unwindLeg_ungrouped h
  · exact unwindLeg_ungrouped h
  · cases h
  · cases h

theorem Capped.expireAll (h : s.Capped config) (ctx : StrategyContext) {expired : List PendingArb}
    (hexpired : ∀ p ∈ expired, 0 ≤ p.reservedNotional) : (expireAll parse ctx s expired).2.Capped config := by
  induction expired generalizing s with
  | nil => exact h
  | cons p rest ih =>
    have hone : (s.expireArb parse ctx p).2.Capped config := by
      rcases s.expireArb_cases parse ctx p with hsame | hreleased
      · rw [hsame]
        exact h
      · rw [hreleased]
        exact ⟨h.config_eq, h.exposure.release (hexpired p List.mem_cons_self), h.reserved⟩
    exact ih hone fun q hq => hexpired q (List.mem_cons_of_mem p hq)

theorem expireAll_ungrouped {ctx : StrategyContext} {expired : List PendingArb} {i : OrderIntent}
    (h : i ∈ (expireAll parse ctx s expired).1) : i.groupId = none := by
  induction expired generalizing s with
  | nil => cases h
  | cons p rest ih =>
    rcases List.mem_append.mp h with hone | hmore
    · exact expireArb_ungrouped hone
    · exact ih hmore

theorem Capped.onTick (h : s.Capped config) (ctx : StrategyContext) : (s.onTick parse ctx).2.Capped config := by
  unfold MakerRebateArbStrategy.onTick
  split
  · exact h
  · have hall : (MakerRebateArbStrategy.expireAll parse ctx s (s.expiredArbs ctx.now)).2.Capped config :=
      h.expireAll ctx fun p hp => h.reserved p (List.mem_filter.mp hp).1
    exact ⟨hall.config_eq, hall.exposure, fun p hp => hall.reserved p (mem_values_foldl_erase hp)⟩

theorem Capped.handle (h : s.Capped config) {e : Event} (hw : e.WellFormed) : (s.handle parse e).2.Capped config := by
  cases e with
  | bookUpdate marketId tokenId ctx uuid =>
    change (s.onBookUpdate parse marketId tokenId ctx uuid).2.Capped config
    rcases s.onBookUpdate_cases parse marketId tokenId ctx uuid with hnone | ⟨pair, intents, s', -, -, hcheck, hnext⟩
    · rw [hnone]
      exact h
    · obtain ⟨_, _, _, _, _, hopp, -, hs'⟩ := checkArbOpportunity_inv parse hcheck
      have hcost := hopp.admitted.cost_pos.le
      have hwithin := hopp.admitted.within
      rw [h.config_eq] at hwithin
      rw [hnext, hs']
      refine ⟨h.config_eq, h.exposure.add hcost hwithin, fun p hp => ?_⟩
      rcases mem_values_insert hp with rfl | hp
      · exact hcost
      · exact h.reserved p hp
  | fill f =>
    change (s.onFill f).Capped config
    unfold onFill
    split
    · exact ⟨h.config_eq, h.exposure.release (mul_nonneg hw.1 hw.2), h.reserved⟩
    · exact h
  | tick ctx => exact h.onTick ctx
  | enable enabled => exact ⟨h.config_eq, h.exposure, h.reserved⟩
  | discover registry => exact ⟨h.config_eq, h.exposure, h.reserved⟩

theorem Capped.groups (h : s.Capped config) (e : Event) :
    GroupsWithinCaps parse config.limits e (s.handle parse e).1 := by
  cases e with
  | bookUpdate marketId tokenId ctx uuid =>
    change (s.onBookUpdate parse marketId tokenId ctx uuid).1 = [] ∨ _
    rcases s.onBookUpdate_cases parse marketId tokenId ctx uuid with hnone | ⟨pair, intents, s', -, -, hcheck, hnext⟩
    · exact .inl (by rw [hnone])
    · obtain ⟨_, _, _, _, _, hopp, hlegs, -⟩ := checkArbOpportunity_inv parse hcheck
      refine .inr ⟨_, _, (congrArg Prod.fst hnext).trans hlegs, ?_⟩
      rw [← h.config_eq]
      exact .of_admits hopp.admitted hopp.yes_book hopp.no_book ⟨rfl, rfl⟩ ⟨rfl, rfl⟩
  | tick ctx =>
    intro i hi
    change i ∈ (s.onTick parse ctx).1 at hi
    unfold MakerRebateArbStrategy.onTick at hi
    split at hi
    · cases hi
    · exact expireAll_ungrouped hi
  | _ => exact fun _ hmem => absurd hmem List.not_mem_nil

end PolyBot.MakerRebateArbStrategy

namespace PolyBot.ArbCaps

/-- From a start under any configuration both strategies keep every group within the caps and the exposure between
zero and its limit, whatever books, fills and ticks they see. -/
theorem arb_sizing_respects_caps (parse : String → Option Decimal) (registry : MarketPairRegistry)
    (mathConfig : MathArbConfig) (makerConfig : MakerRebateConfig) (events : List Event)
    (h : ∀ e ∈ events, e.WellFormed) :
    RespectsCaps (MathArbStrategy.handle parse) parse mathConfig.limits (·.currentExposure)
        (MathArbStrategy.withConfig registry mathConfig) events ∧
      RespectsCaps (MakerRebateArbStrategy.handle parse) parse makerConfig.limits (·.currentExposure)
        (MakerRebateArbStrategy.withConfig registry makerConfig) events := by
  constructor
  · exact .of_invariant (·.Capped mathConfig) (fun _ _ hs hw => hs.handle hw) (fun _ e hs => hs.groups e)
      (fun _ hs => hs.exposure) ⟨rfl, .zero _⟩ h
  · refine .of_invariant (·.Capped makerConfig) (fun _ _ hs hw => hs.handle hw) (fun _ e hs => hs.groups e)
      (fun _ hs => hs.exposure) ⟨rfl, .zero _, ?_⟩ h
    intro p hp
    cases hp

private def quoteText (text : String) : Option Decimal :=
  if text = "0.48" then some (48 / 100)
  else if text = "0.47" then some (47 / 100)
  else if text = "0.44" then some (44 / 100)
  else if text = "0.43" then some (43 / 100)
  else if text = "1000" then some 1000
  else none

private def quotePair : MarketPair := MarketPair.new "m1" "yes" "no"
private def quoteRegistry : MarketPairRegistry := MarketPairRegistry.new.register quotePair

private def quotes : StrategyContext where
  books :=
    ((∅ : OrderBookState).insert "yes" ⟨"yes", "m1", [⟨"0.47", "1000"⟩], [⟨"0.48", "1000"⟩], none, none⟩).insert
      "no" ⟨"no", "m1", [⟨"0.43", "1000"⟩], [⟨"0.44", "1000"⟩], none, none⟩
  ledger := Ledger.new 1000
  now := 0

private def quoteEvents : List Event :=
  [.bookUpdate "m1" "yes" quotes "1", .fill ⟨"f1", "o1", "yes", .Sell, 1 / 2, 5, 0, none, 0⟩, .tick quotes]

/-- Both strategies emit a pair at 0.48 and 0.44, then see a sale of five shares and a tick. -/
theorem pairs_then_sale_respect_caps :
    (((MathArbStrategy.withConfig quoteRegistry .taker).handle quoteText (.bookUpdate "m1" "yes" quotes "1")).1.length =
        2 ∧
      ((MakerRebateArbStrategy.withConfig quoteRegistry .default).handle quoteText
        (.bookUpdate "m1" "yes" quotes "1")).1.length = 2) ∧
    RespectsCaps (MathArbStrategy.handle quoteText) quoteText MathArbConfig.taker.limits (·.currentExposure)
        (MathArbStrategy.withConfig quoteRegistry .taker) quoteEvents ∧
      RespectsCaps (MakerRebateArbStrategy.handle quoteText) quoteText MakerRebateConfig.default.limits
        (·.currentExposure) (MakerRebateArbStrategy.withConfig quoteRegistry .default) quoteEvents := by
  refine ⟨by decide +kernel, arb_sizing_respects_caps quoteText quoteRegistry .taker .default quoteEvents ?_⟩
  intro e he
  simp only [quoteEvents, List.mem_cons, List.not_mem_nil, or_false] at he
  rcases he with rfl | rfl | rfl
  · trivial
  · exact ⟨by decide +kernel, by decide +kernel⟩
  · trivial

end PolyBot.ArbCaps
