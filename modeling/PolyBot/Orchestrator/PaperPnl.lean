import Mathlib.Algebra.Order.BigOperators.Group.List
import PolyBot.Ledger.ReportedPnl
import PolyBot.Orchestrator.PaperTrading

/-! The profit that is reported of paper trading, and what the simulated portfolio made. -/

namespace PolyBot.Bot.PaperPnl
open ExitControl Ledger Ledger.CashFlow Ledger.ReportedPnl PaperTrading

/-- What happens to the simulated portfolio: a batch of intents, or a heartbeat, which marks the open positions. -/
inductive PaperEvent where
  | batch (batch : Batch)
  | heartbeat (books : OrderBookState)

def improvement (f : Fill) : Decimal :=
  match f.expectedPrice, f.side with
  | none, _ => 0
  | some limit, .Buy => (limit - f.price) * f.size
  | some limit, .Sell => (f.price - limit) * f.size

def madeSince (initialCash : Decimal) (l : Ledger) : Decimal :=
  l.cash.total - initialCash + l.positions.openCost + l.positions.totalUnrealizedPnl

section
variable (parse : String → Option Decimal)

namespace PaperEvent

def Valid : PaperEvent → Prop
  | batch b => b.Valid parse
  | heartbeat _ => True

def fills (s : Simulation) : PaperEvent → List Fill
  | batch b => (simulatePaperFills parse b.books b.registry s.ledger s.filled b.intents).map Prod.snd
  | heartbeat _ => []

end PaperEvent

def step (s : Simulation) : PaperEvent → Simulation
  | .batch b => s.simulate parse b
  | .heartbeat books =>
    { s with ledger := { s.ledger with positions := s.ledger.positions.markOpen (books.midPrice parse) } }

def fillsOf : Simulation → List PaperEvent → List Fill
  | _, [] => []
  | s, e :: events => e.fills parse s ++ fillsOf (step parse s e) events

end

structure Keeps (s : Simulation) (fills : List Fill) (s' : Simulation) : Prop where
  solvent : s'.Solvent
  imbalance : imbalance s'.ledger = imbalance s.ledger
  fees : s'.ledger.positions.totalFees = s.ledger.positions.totalFees + (fills.map (·.fee)).sum
  slippage :
    s'.ledger.positions.totalSlippageCost = s.ledger.positions.totalSlippageCost - (fills.map improvement).sum
  within : ∀ f ∈ fills, 0 ≤ improvement f

theorem Keeps.refl {s : Simulation} (h : s.Solvent) : Keeps s [] s := ⟨h, rfl, by simp, by simp, by simp⟩

theorem Keeps.trans {s₁ s₂ s₃ : Simulation} {fills fills' : List Fill} (h : Keeps s₁ fills s₂)
    (h' : Keeps s₂ fills' s₃) : Keeps s₁ (fills ++ fills') s₃ where
  solvent := h'.solvent
  imbalance := h'.imbalance.trans h.imbalance
  fees := by rw [h'.fees, h.fees, List.map_append, List.sum_append, add_assoc]
  slippage := by rw [h'.slippage, h.slippage, List.map_append, List.sum_append, sub_sub]
  within f hf := (List.mem_append.mp hf).elim (h.within f) (h'.within f)

theorem positions_bookPaperFill {l : Ledger} {f : Fill} (h : f.fillId ∉ l.seenFillIds) :
    (run l (bookPaperFill f)).positions = l.positions.applyFill (l.resolve f) := by
  unfold bookPaperFill
  cases f.side with
  | Buy =>
    change (processFill { l with cash := l.cash.discard (l.cash.withdraw f.notional) } f).positions = _
    have hnew : f.fillId ∉ ({ l with cash := l.cash.discard (l.cash.withdraw f.notional) } : Ledger).seenFillIds := h
    rw [processFill_of_new hnew]
    rfl
  | Sell =>
    change (processFill l f).positions = _
    rw [processFill_of_new h]
    rfl

theorem slippageCost_resolve {l : Ledger} {f : Fill} {limit : Decimal} (h : f.expectedPrice = some limit) :
    (l.resolve f).slippageCost = -improvement f := by
  rw [resolve, resolveExpectedPrice, improvement, h]
  cases f.side with
  | Buy | Sell =>
    dsimp only
    ring

section Intent
variable {parse : String → Option Decimal} {books : OrderBookState} {registry : MarketPairRegistry} {i : OrderIntent}

/-- An intent is filled at its limit or better. -/
theorem improvement_fillAt_nonneg {n : ℕ} {price : Decimal} (h : counterPrice parse books i = some price)
    (hsize : 0 ≤ i.size) : 0 ≤ improvement (fillAt registry n i price) := by
  unfold counterPrice at h
  cases hside : i.side with
  | Buy =>
    rw [hside] at h
    have hwithin : price ≤ i.price := of_decide_eq_true (Option.filter_eq_some_iff.mp h).2
    simp only [improvement, fillAt, hside]
    exact mul_nonneg (sub_nonneg.mpr hwithin) hsize
  | Sell =>
    rw [hside] at h
    have hwithin : i.price ≤ price := of_decide_eq_true (Option.filter_eq_some_iff.mp h).2
    simp only [improvement, fillAt, hside]
    exact mul_nonneg (sub_nonneg.mpr hwithin) hsize

/-- The step lemma. -/
theorem keeps_simulateIntent {s : Simulation} (h : s.Solvent)
    (hask : ∀ t price, books.bestAsk parse t = some price → 0 ≤ price)
    (hbid : ∀ t price, books.bestBid parse t = some price → 0 ≤ price)
    (hfee : ∀ pair, registry.getByToken i.tokenId = some pair → pair.feeRateBps ≤ 10000) (hsize : 0 ≤ i.size) :
    Keeps s (paperFill parse books registry s.ledger s.filled i).toList (s.simulateIntent parse books registry i) := by
  obtain ⟨hsolvent, hcash⟩ := h.simulateIntent (i := i) hask hbid hfee hsize
  unfold Simulation.simulateIntent at hsolvent hcash ⊢
  cases hfill : paperFill parse books registry s.ledger s.filled i with
  | none => exact .refl h
  | some f =>
    rw [hfill] at hsolvent hcash
    obtain ⟨price, hprice, -, rfl⟩ := paperFill_eq_some_iff.mp hfill
    have hpositions := positions_bookPaperFill (f := fillAt registry s.filled i price) (h.fresh s.filled le_rfl)
    have hresolved := slippageCost_resolve (l := s.ledger) (f := fillAt registry s.filled i price) rfl
    have hadds {g : Position → Decimal} {worth : Fill → Decimal} (hnew : ∀ t, g (Position.new t) = 0)
        (hg : ∀ p f, g (p.applyFill f) = g p + worth f) :=
      (congrArg (sumOf g) hpositions).trans (sumOf_applyFill hnew hg _ _)
    refine ⟨hsolvent, ?_, ?_, ?_, fun f hf => ?_⟩
    · have hbooked := hadds (fun _ => by simp [booked, PositionIdentity.settled, Position.new]) booked_applyFill
      have hflow : cashFlow (s.ledger.resolve (fillAt registry s.filled i price)) =
          cashFlow (fillAt registry s.filled i price) := rfl
      dsimp only at hcash ⊢
      rw [imbalance, hbooked, hcash, hflow, imbalance]
      simp
    · refine (hadds (g := (·.totalFees)) (fun _ => rfl) fun p f => (PositionIdentity.costs_applyFill p f).1).trans ?_
      simp [sumOf, Positions.totalFees]
    · refine (hadds (g := (·.totalSlippageCost)) (fun _ => rfl) fun p f =>
        (PositionIdentity.costs_applyFill p f).2.1).trans ?_
      rw [hresolved]
      simp [sumOf, Positions.totalSlippageCost, sub_eq_add_neg]
    · obtain rfl := Option.some.inj (Option.mem_toList.mp hf)
      exact improvement_fillAt_nonneg hprice hsize

theorem fills_cons (s : Simulation) (i : OrderIntent) (intents : List OrderIntent) :
    (simulatePaperFills parse books registry s.ledger s.filled (i :: intents)).map Prod.snd =
      (paperFill parse books registry s.ledger s.filled i).toList ++
        (simulatePaperFills parse books registry (s.simulateIntent parse books registry i).ledger
          (s.simulateIntent parse books registry i).filled intents).map Prod.snd := by
  rw [simulatePaperFills, Simulation.simulateIntent]
  cases paperFill parse books registry s.ledger s.filled i <;> rfl

end Intent

variable {parse : String → Option Decimal} {s : Simulation}

theorem keeps_simulate (h : s.Solvent) {b : Batch} (hb : b.Valid parse) :
    Keeps s ((PaperEvent.batch b).fills parse s) (s.simulate parse b) := by
  obtain ⟨books, registry, intents⟩ := b
  rw [Simulation.simulate_eq_foldl, PaperEvent.fills]
  have hsizes : ∀ i ∈ intents, 0 ≤ i.size := fun i hi => (hb.intents i hi).2
  have hask := hb.ask
  have hbid := hb.bid
  have hfee := hb.fee
  clear hb
  dsimp only at hask hbid hfee ⊢
  induction intents generalizing s with
  | nil => exact .refl h
  | cons i intents ih =>
    have hone := keeps_simulateIntent h hask hbid (hfee i.tokenId) (hsizes i List.mem_cons_self)
    have hrest := ih hone.solvent fun j hj => hsizes j (List.mem_cons_of_mem i hj)
    rw [List.foldl_cons, fills_cons]
    exact hone.trans hrest

theorem keeps_markOpen (h : s.Solvent) (mid : TokenId → Option Decimal) :
    Keeps s [] { s with ledger := { s.ledger with positions := s.ledger.positions.markOpen mid } } where
  solvent := ⟨h.reserved, h.available, h.fresh⟩
  imbalance := by
    have hbooked : sumOf booked (s.ledger.positions.markOpen mid) = sumOf booked s.ledger.positions :=
      sumOf_markAllToMarket booked_markToMarket _ _
    rw [ReportedPnl.imbalance, hbooked, ReportedPnl.imbalance]
  fees := by
    have hfees : (s.ledger.positions.markOpen mid).totalFees = s.ledger.positions.totalFees :=
      sumOf_markAllToMarket (g := (·.totalFees)) (fun p price => (costs_markToMarket p price).1) _ _
    simp [hfees]
  slippage := by
    have hslippage : (s.ledger.positions.markOpen mid).totalSlippageCost = s.ledger.positions.totalSlippageCost :=
      sumOf_markAllToMarket (g := (·.totalSlippageCost)) (fun p price => (costs_markToMarket p price).2) _ _
    simp [hslippage]
  within := by simp

/-- The run lemma. -/
theorem keeps_run (h : s.Solvent) {events : List PaperEvent} (hvalid : ∀ e ∈ events, e.Valid parse) :
    Keeps s (fillsOf parse s events) (events.foldl (step parse) s) := by
  induction events generalizing s with
  | nil => exact .refl h
  | cons e events ih =>
    have hone : Keeps s (e.fills parse s) (step parse s e) := by
      cases e with
      | batch b => exact keeps_simulate h (hvalid _ List.mem_cons_self)
      | heartbeat books => exact keeps_markOpen h _
    exact hone.trans (ih hone.solvent fun e' he' => hvalid e' (List.mem_cons_of_mem e he'))

/-- Over every run of paper trading from some cash, the fees that are reported are those of the fills, and the net
profit that is reported is what the portfolio made and what its fills were better than their limits. It is never too
low, and right exactly if every fill was at its limit. -/
theorem paper_profit_overstated (parse : String → Option Decimal) {initialCash : Decimal} (hcash : 0 ≤ initialCash)
    (events : List PaperEvent) (hvalid : ∀ e ∈ events, e.Valid parse) :
    let l := (events.foldl (step parse) ⟨.new initialCash, 0⟩).ledger
    let fills := fillsOf parse ⟨.new initialCash, 0⟩ events
    (pnlInfo l).totalFees = (fills.map (·.fee)).sum ∧
      (pnlInfo l).net = madeSince initialCash l + (fills.map improvement).sum ∧
      madeSince initialCash l ≤ (pnlInfo l).net ∧
      ((pnlInfo l).net = madeSince initialCash l ↔ ∀ f ∈ fills, improvement f = 0) := by
  intro l fills
  have hstart : (⟨.new initialCash, 0⟩ : Simulation).Solvent := ⟨rfl, hcash, fun n _ => Finset.notMem_empty _⟩
  have hkeeps : Keeps ⟨.new initialCash, 0⟩ fills (events.foldl (step parse) ⟨.new initialCash, 0⟩) :=
    keeps_run hstart hvalid
  have himbalance : imbalance l = initialCash := hkeeps.imbalance.trans (imbalance_new initialCash)
  have hslippage : l.positions.totalSlippageCost = 0 - (fills.map improvement).sum := hkeeps.slippage
  have hnet : (pnlInfo l).net = madeSince initialCash l + (fills.map improvement).sum := by
    have hreconciles := reconciles_iff.mpr himbalance
    rw [Reconciles] at hreconciles
    rw [hreconciles, madeSince]
    dsimp only [pnlInfo]
    rw [hslippage]
    ring
  have hgains : ∀ x ∈ fills.map improvement, 0 ≤ x := List.forall_mem_map.mpr hkeeps.within
  refine ⟨hkeeps.fees.trans (zero_add _), hnet, ?_, ?_⟩
  · rw [hnet]
    exact le_add_of_nonneg_right (List.sum_nonneg hgains)
  · rw [hnet, add_eq_left]
    constructor
    · intro hzero f hf
      exact List.all_zero_of_le_zero_le_of_sum_eq_zero hgains hzero (List.mem_map_of_mem hf)
    · exact fun hzero => List.sum_eq_zero (List.forall_mem_map.mpr hzero)

private def centsText (text : String) : Option Decimal :=
  if text = "40" then some (2 / 5) else if text = "50" then some (1 / 2) else none

private def centBooks : OrderBookState :=
  (∅ : OrderBookState).insert "up" ⟨"up", "m1", [⟨"40", "1000"⟩], [⟨"50", "1000"⟩], none, none⟩

private def centPurchase : Batch :=
  ⟨centBooks, .new, [.new "m1" "up" .Buy (3 / 5) 100 .Immediate "contrarian"]⟩

private theorem best_of_centBooks {t : TokenId} {price : Decimal}
    (h : centBooks.bestAsk centsText t = some price ∨ centBooks.bestBid centsText t = some price) : 0 ≤ price := by
  by_cases ht : t = "up"
  · subst ht
    have hask : centBooks.bestAsk centsText "up" = some (1 / 2) := by decide +kernel
    have hbid : centBooks.bestBid centsText "up" = some (2 / 5) := by decide +kernel
    rw [hask, hbid] at h
    rcases h with h | h <;> cases h <;> norm_num
  · have hnone : centBooks.getBook t = none := AList.lookup_insert_ne ht
    rw [OrderBookState.bestAsk, OrderBookState.bestBid, hnone] at h
    rcases h with h | h <;> cases h

private theorem centPurchase_valid : centPurchase.Valid centsText where
  ask _ _ h := best_of_centBooks (.inl h)
  bid _ _ h := best_of_centBooks (.inr h)
  fee t pair h := by
    have hnone : MarketPairRegistry.new.getByToken t = none := AList.lookup_empty t
    rw [centPurchase, hnone] at h
    cases h
  intents := by decide +kernel

private def markedPurchase : List PaperEvent := [.batch centPurchase, .heartbeat centBooks]

/-- The portfolio lost 5, and a net profit of 5 is reported. -/
theorem marked_purchase_overstated :
    let l := (markedPurchase.foldl (step centsText) ⟨.new 100, 0⟩).ledger
    madeSince 100 l = -5 ∧ (pnlInfo l).net = 5 := by
  have hvalid : ∀ e ∈ markedPurchase, e.Valid centsText := by
    intro e he
    simp only [markedPurchase, List.mem_cons, List.not_mem_nil, or_false] at he
    rcases he with rfl | rfl
    · exact centPurchase_valid
    · trivial
  intro l
  have hcash : (0 : Decimal) ≤ 100 := by norm_num
  have hmade : madeSince 100 l = -5 := by decide +kernel
  obtain ⟨-, hnet, -⟩ := paper_profit_overstated centsText hcash markedPurchase hvalid
  refine ⟨hmade, hnet.trans ?_⟩
  decide +kernel

end PolyBot.Bot.PaperPnl
