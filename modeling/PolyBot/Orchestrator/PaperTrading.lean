import PolyBot.Ledger.CashFlow
import PolyBot.Orchestrator.ExitControl

/-! Paper trading over sequences of batches: the cash of the simulated portfolio. -/

namespace PolyBot.Bot.PaperTrading
open ExitControl General.DecimalText Ledger Ledger.CashFlow Ledger.PositionIdentity

structure Batch where
  books : OrderBookState
  registry : MarketPairRegistry
  intents : List OrderIntent

structure Simulation where
  ledger : Ledger
  filled : ℕ

def paperId (n : ℕ) : String := "paper_" ++ toString n

section
variable (parse : String → Option Decimal)

def counterPrice (books : OrderBookState) (i : OrderIntent) : Option Decimal :=
  match i.side with
  | .Buy => (books.bestAsk parse i.tokenId).filter (· ≤ i.price)
  | .Sell => (books.bestBid parse i.tokenId).filter (i.price ≤ ·)

/-- The fee on a dollar of notional; tokens without a pair trade free. -/
def feeRate (registry : MarketPairRegistry) (tokenId : TokenId) : Decimal :=
  ((registry.getByToken tokenId).map (·.feeRateBps)).getD 0 / 10 ^ 4

def fillAt (registry : MarketPairRegistry) (n : ℕ) (i : OrderIntent) (price : Decimal) : Fill :=
  ⟨paperId n, paperId n, i.tokenId, i.side, price, i.size, price * i.size * feeRate registry i.tokenId,
    some i.price, 0⟩

def costAt (registry : MarketPairRegistry) (i : OrderIntent) (price : Decimal) : Decimal :=
  price * i.size + price * i.size * feeRate registry i.tokenId

/-- An intent is skipped when nothing is offered within its limit or a purchase costs more than the cash. -/
def Skipped (books : OrderBookState) (registry : MarketPairRegistry) (l : Ledger) (i : OrderIntent) : Prop :=
  counterPrice parse books i = none ∨
    i.side = .Buy ∧ ∃ price, counterPrice parse books i = some price ∧ l.cash.available < costAt registry i price

namespace Simulation

def simulate (s : Simulation) (b : Batch) : Simulation :=
  let fills := simulatePaperFills parse b.books b.registry s.ledger s.filled b.intents
  ⟨run s.ledger (fills.flatMap fun e => bookPaperFill e.2), s.filled + fills.length⟩

def simulateIntent (books : OrderBookState) (registry : MarketPairRegistry) (s : Simulation) (i : OrderIntent) :
    Simulation :=
  match paperFill parse books registry s.ledger s.filled i with
  | none => s
  | some f => ⟨run s.ledger (bookPaperFill f), s.filled + 1⟩

def fills : Simulation → List Batch → List Fill
  | _, [] => []
  | s, b :: batches =>
    (simulatePaperFills parse b.books b.registry s.ledger s.filled b.intents).map Prod.snd ++
      fills (s.simulate parse b) batches

end Simulation

end

section PaperFill
variable {parse : String → Option Decimal} {books : OrderBookState} {registry : MarketPairRegistry} {l : Ledger}
  {n : ℕ} {i : OrderIntent}

theorem paperFill_eq_bind (parse : String → Option Decimal) (books : OrderBookState) (registry : MarketPairRegistry)
    (l : Ledger) (n : ℕ) (i : OrderIntent) :
    paperFill parse books registry l n i = (counterPrice parse books i).bind fun price =>
      if i.side = .Buy → costAt registry i price ≤ l.cash.available then some (fillAt registry n i price)
      else none := by
  have hguard : ∀ (p : Prop) [Decidable p] (f : Fill),
      ((guard p : Option Unit).bind fun _ => some f) = if p then some f else none := by
    intro p _ f
    unfold guard
    split_ifs <;> rfl
  unfold paperFill counterPrice
  cases hside : i.side with
  | Buy | Sell =>
    simp only [Option.bind_eq_bind, Option.pure_def, hguard, CashBalance.canAfford, decide_eq_true_eq, costAt, fillAt,
      feeRate, paperId, hside]

/-- An intent is filled at the counter price, a purchase only if the cash pays for it with its fee. -/
theorem paperFill_eq_some_iff {f : Fill} :
    paperFill parse books registry l n i = some f ↔
      ∃ price, counterPrice parse books i = some price ∧
        (i.side = .Buy → costAt registry i price ≤ l.cash.available) ∧ f = fillAt registry n i price := by
  rw [paperFill_eq_bind, Option.bind_eq_some_iff]
  refine exists_congr fun price => and_congr_right fun _ => ?_
  split_ifs with hcash
  · exact ⟨fun h => ⟨hcash, (Option.some.inj h).symm⟩, fun h => congrArg some h.2.symm⟩
  · exact iff_of_false (fun h => by cases h) fun h => hcash h.1

theorem paperFill_eq_none_iff :
    paperFill parse books registry l n i = none ↔ Skipped parse books registry l i := by
  rw [paperFill_eq_bind, Skipped]
  cases hprice : counterPrice parse books i with
  | none => simp
  | some price =>
    have hcost : ¬(i.side = .Buy → costAt registry i price ≤ l.cash.available) ↔
        i.side = .Buy ∧ l.cash.available < costAt registry i price := by
      rw [Classical.not_imp, not_le]
    rw [Option.bind_some, ite_eq_right_iff]
    simp only [reduceCtorEq, imp_false, hcost, false_or, Option.some.injEq, exists_eq_left']

end PaperFill

def Simulation.Fresh (s : Simulation) : Prop := ∀ n, s.filled ≤ n → paperId n ∉ s.ledger.seenFillIds

structure Simulation.Solvent (s : Simulation) : Prop where
  reserved : s.ledger.cash.reserved = 0
  available : 0 ≤ s.ledger.cash.available
  fresh : s.Fresh

/-- Prices and sizes are not negative, and no fee is more than what is traded. -/
structure Batch.Valid (parse : String → Option Decimal) (b : Batch) : Prop where
  ask : ∀ t price, b.books.bestAsk parse t = some price → 0 ≤ price
  bid : ∀ t price, b.books.bestBid parse t = some price → 0 ≤ price
  fee : ∀ t pair, b.registry.getByToken t = some pair → pair.feeRateBps ≤ 10000
  intents : ∀ i ∈ b.intents, 0 ≤ i.price ∧ 0 ≤ i.size

theorem paperId_inj {m n : ℕ} (h : paperId m = paperId n) : m = n := by
  unfold paperId at h
  exact ScaledDecimal.toString_nat_inj (String.append_right_inj _ |>.mp h)

/-- A purchase that the cash pays for and a sale settle in full. -/
theorem cash_bookPaperFill {l : Ledger} {f : Fill} (hfresh : f.fillId ∉ l.seenFillIds)
    (hreserved : l.cash.reserved = 0) (hnotional : 0 ≤ f.notional) (hfee : 0 ≤ f.fee)
    (hafford : f.side = .Buy → f.notional + f.fee ≤ l.cash.available) :
    (run l (bookPaperFill f)).cash = ⟨l.cash.available + cashFlow f, 0⟩ := by
  cases hside : f.side with
  | Buy =>
    have hpays : f.notional ≤ l.cash.available := (le_add_of_nonneg_right hfee).trans (hafford hside)
    have hwithdrawn := CashBalance.discard_withdraw hnotional hpays
    rw [bookPaperFill, hside]
    change (processFill { l with cash := l.cash.discard (l.cash.withdraw f.notional) } f).cash = _
    have hnew : f.fillId ∉ ({ l with cash := l.cash.discard (l.cash.withdraw f.notional) } : Ledger).seenFillIds :=
      hfresh
    rw [processFill_of_new hnew, hwithdrawn]
    simp only [book, settle, resolve_side, resolve_notional, resolve_fee, hside]
    rw [CashBalance.discard_settleBuy_of_zero (c := ⟨l.cash.available - f.notional, l.cash.reserved⟩) hreserved,
      CashBalance.deductFee_of_nonneg _ hfee, cashFlow, hside]
    simp only [hreserved, CashBalance.mk.injEq, and_true]
    ring
  | Sell =>
    rw [bookPaperFill, hside]
    change (processFill l f).cash = _
    rw [processFill_of_new hfresh]
    simp only [book, settle, resolve_side, resolve_notional, resolve_fee, hside]
    rw [CashBalance.settleSell_of_nonneg _ hnotional, CashBalance.deductFee_of_nonneg _ hfee, cashFlow, hside]
    simp only [hreserved, CashBalance.mk.injEq, and_true]
    ring

/-- Neither a purchase that the cash pays for nor a sale that pays its fee overdraws the cash. -/
theorem available_add_cashFlow_nonneg {available : Decimal} {f : Fill} (havailable : 0 ≤ available)
    (hpaid : f.fee ≤ f.notional) (hafford : f.side = .Buy → f.notional + f.fee ≤ available) :
    0 ≤ available + cashFlow f := by
  unfold cashFlow
  cases hside : f.side with
  | Buy =>
    have hcost := hafford hside
    dsimp only
    linarith
  | Sell =>
    dsimp only
    linarith

theorem seenFillIds_bookPaperFill (l : Ledger) (f : Fill) :
    (run l (bookPaperFill f)).seenFillIds = insert f.fillId l.seenFillIds := by
  unfold bookPaperFill
  cases f.side with
  | Buy => exact seenFillIds_processFill _ f
  | Sell => exact seenFillIds_processFill l f

section Intent
variable {parse : String → Option Decimal} {books : OrderBookState} {registry : MarketPairRegistry} {i : OrderIntent}

theorem feeRate_nonneg (registry : MarketPairRegistry) (tokenId : TokenId) : 0 ≤ feeRate registry tokenId :=
  div_nonneg (Nat.cast_nonneg _) (by norm_num)

theorem feeRate_le_one {tokenId : TokenId}
    (hfee : ∀ pair, registry.getByToken tokenId = some pair → pair.feeRateBps ≤ 10000) :
    feeRate registry tokenId ≤ 1 := by
  unfold feeRate
  rw [div_le_one (by norm_num)]
  cases hpair : registry.getByToken tokenId with
  | none => norm_num
  | some pair => exact_mod_cast hfee pair hpair

theorem counterPrice_nonneg {price : Decimal} (hask : ∀ t price, books.bestAsk parse t = some price → 0 ≤ price)
    (hbid : ∀ t price, books.bestBid parse t = some price → 0 ≤ price)
    (h : counterPrice parse books i = some price) : 0 ≤ price := by
  unfold counterPrice at h
  split at h
  · exact hask _ _ (Option.eq_some_of_filter_eq_some h)
  · exact hbid _ _ (Option.eq_some_of_filter_eq_some h)

/-- What a fill at a price is worth to the cash: a sale pays its fee, a purchase is paid with it. -/
theorem fillAt_flow {n : ℕ} {price : Decimal} (hprice : 0 ≤ price) (hsize : 0 ≤ i.size)
    (hfee : feeRate registry i.tokenId ≤ 1) :
    0 ≤ (fillAt registry n i price).notional ∧ 0 ≤ (fillAt registry n i price).fee ∧
      (fillAt registry n i price).fee ≤ (fillAt registry n i price).notional := by
  have hnotional : 0 ≤ price * i.size := mul_nonneg hprice hsize
  exact ⟨hnotional, mul_nonneg hnotional (feeRate_nonneg registry i.tokenId),
    mul_le_of_le_one_right hnotional hfee⟩

theorem Simulation.Fresh.simulateIntent {s : Simulation} (h : s.Fresh) (parse : String → Option Decimal)
    (books : OrderBookState) (registry : MarketPairRegistry) (i : OrderIntent) :
    (s.simulateIntent parse books registry i).Fresh := by
  unfold Simulation.simulateIntent
  cases hfill : paperFill parse books registry s.ledger s.filled i with
  | none => exact h
  | some f =>
    obtain ⟨price, -, -, rfl⟩ := paperFill_eq_some_iff.mp hfill
    intro n hn
    dsimp only at hn ⊢
    rw [seenFillIds_bookPaperFill, Finset.mem_insert, not_or]
    exact ⟨fun hsame => absurd (paperId_inj hsame) (by omega), h n (by omega)⟩

/-- The step lemma: an intent keeps the portfolio solvent and moves the cash by the fill it gets. -/
theorem Simulation.Solvent.simulateIntent {s : Simulation} (h : s.Solvent)
    (hask : ∀ t price, books.bestAsk parse t = some price → 0 ≤ price)
    (hbid : ∀ t price, books.bestBid parse t = some price → 0 ≤ price)
    (hfee : ∀ pair, registry.getByToken i.tokenId = some pair → pair.feeRateBps ≤ 10000) (hsize : 0 ≤ i.size) :
    (s.simulateIntent parse books registry i).Solvent ∧
      (s.simulateIntent parse books registry i).ledger.cash.total = s.ledger.cash.total +
        ((paperFill parse books registry s.ledger s.filled i).toList.map cashFlow).sum := by
  have hfresh := h.fresh.simulateIntent parse books registry i
  unfold Simulation.simulateIntent at hfresh ⊢
  cases hfill : paperFill parse books registry s.ledger s.filled i with
  | none => exact ⟨h, by simp⟩
  | some f =>
    rw [hfill] at hfresh
    obtain ⟨price, hprice, hafford, rfl⟩ := paperFill_eq_some_iff.mp hfill
    obtain ⟨hnotional, hcharged, hpaid⟩ := fillAt_flow (n := s.filled) (counterPrice_nonneg hask hbid hprice) hsize
      (feeRate_le_one hfee)
    have hcash := cash_bookPaperFill (h.fresh s.filled le_rfl) h.reserved hnotional hcharged hafford
    refine ⟨⟨congrArg CashBalance.reserved hcash, ?_, hfresh⟩, ?_⟩
    · dsimp only
      rw [hcash]
      exact available_add_cashFlow_nonneg h.available hpaid hafford
    · dsimp only
      rw [hcash, CashBalance.total, CashBalance.total, h.reserved]
      simp

end Intent

namespace Simulation
variable {parse : String → Option Decimal} {s : Simulation}

/-- A batch is its intents one after the other. -/
theorem simulate_eq_foldl (parse : String → Option Decimal) (s : Simulation) (b : Batch) :
    s.simulate parse b = b.intents.foldl (simulateIntent parse b.books b.registry) s := by
  obtain ⟨books, registry, intents⟩ := b
  unfold simulate
  induction intents generalizing s with
  | nil => rfl
  | cons i intents ih =>
    rw [List.foldl_cons, ← ih, simulateIntent]
    dsimp only
    rw [simulatePaperFills]
    cases paperFill parse books registry s.ledger s.filled i with
    | none => rfl
    | some f =>
      dsimp only
      rw [List.flatMap_cons, List.length_cons, run, List.foldl_append, add_assoc, add_comm 1]
      rfl

theorem Fresh.simulate (h : s.Fresh) (b : Batch) : (s.simulate parse b).Fresh := by
  rw [simulate_eq_foldl]
  generalize b.intents = intents
  induction intents generalizing s with
  | nil => exact h
  | cons i intents ih => exact ih (h.simulateIntent parse b.books b.registry i)

/-- A skipped intent leaves the portfolio as the intents before it did. -/
theorem simulateIntent_of_skipped {books : OrderBookState} {registry : MarketPairRegistry} {i : OrderIntent}
    (h : Skipped parse books registry s.ledger i) : s.simulateIntent parse books registry i = s := by
  rw [simulateIntent, paperFill_eq_none_iff.mpr h]

/-- The step lemma for batches. -/
theorem Solvent.simulate (h : s.Solvent) {b : Batch} (hb : b.Valid parse) :
    (s.simulate parse b).Solvent ∧ (s.simulate parse b).ledger.cash.total = s.ledger.cash.total +
      ((simulatePaperFills parse b.books b.registry s.ledger s.filled b.intents).map fun e => cashFlow e.2).sum := by
  obtain ⟨books, registry, intents⟩ := b
  rw [simulate_eq_foldl]
  have hsizes : ∀ i ∈ intents, 0 ≤ i.size := fun i hi => (hb.intents i hi).2
  have hask := hb.ask
  have hbid := hb.bid
  have hfee := hb.fee
  clear hb
  dsimp only at hask hbid hfee ⊢
  induction intents generalizing s with
  | nil => exact ⟨h, by simp [simulatePaperFills]⟩
  | cons i intents ih =>
    obtain ⟨hone, htotal⟩ := h.simulateIntent hask hbid (hfee i.tokenId) (hsizes i List.mem_cons_self)
    obtain ⟨hrest, hsum⟩ := ih hone fun j hj => hsizes j (List.mem_cons_of_mem i hj)
    refine ⟨hrest, ?_⟩
    rw [List.foldl_cons, hsum, htotal, add_assoc, simulatePaperFills]
    unfold Simulation.simulateIntent
    cases paperFill parse books registry s.ledger s.filled i with
    | none => simp
    | some f => simp

/-- The run lemma. -/
theorem Solvent.run (h : s.Solvent) {batches : List Batch} (hvalid : ∀ b ∈ batches, b.Valid parse) :
    (batches.foldl (Simulation.simulate parse) s).Solvent ∧
      (batches.foldl (Simulation.simulate parse) s).ledger.cash.total =
        s.ledger.cash.total + ((fills parse s batches).map cashFlow).sum := by
  induction batches generalizing s with
  | nil => exact ⟨h, by simp [fills]⟩
  | cons b batches ih =>
    obtain ⟨hone, htotal⟩ := h.simulate (hvalid b List.mem_cons_self)
    obtain ⟨hrest, hsum⟩ := ih hone fun c hc => hvalid c (List.mem_cons_of_mem b hc)
    refine ⟨hrest, ?_⟩
    rw [List.foldl_cons, hsum, htotal, fills, List.map_append, List.map_map, List.sum_append, add_assoc]
    rfl

end Simulation

/-- From a ledger that reserves nothing and is not overdrawn, any batches keep it so, and the total moves by what the
fills bought, sold and were charged. Wherever an intent is skipped the portfolio stays as it is. -/
theorem paper_cash_is_conserved (parse : String → Option Decimal) (s : Simulation) (batches : List Batch)
    (hreserved : s.ledger.cash.reserved = 0) (havailable : 0 ≤ s.ledger.cash.available)
    (hfresh : ∀ n, s.filled ≤ n → paperId n ∉ s.ledger.seenFillIds) (hvalid : ∀ b ∈ batches, b.Valid parse) :
    let after := batches.foldl (Simulation.simulate parse) s
    let fills := s.fills parse batches
    after.ledger.cash.reserved = 0 ∧ 0 ≤ after.ledger.cash.available ∧
      after.ledger.cash.total =
        s.ledger.cash.total - notionalOn .Buy fills + notionalOn .Sell fills - (fills.map fun f => f.fee).sum ∧
      ∀ books registry before i,
        Skipped parse books registry (after.simulate parse ⟨books, registry, before⟩).ledger i →
          after.simulate parse ⟨books, registry, before ++ [i]⟩ = after.simulate parse ⟨books, registry, before⟩ := by
  intro after fills
  obtain ⟨hsolvent, htotal⟩ := Simulation.Solvent.run ⟨hreserved, havailable, hfresh⟩ hvalid
  refine ⟨hsolvent.reserved, hsolvent.available, ?_, ?_⟩
  · refine htotal.trans ?_
    rw [sum_cashFlow]
    ring
  · intro books registry before i hskipped
    rw [Simulation.simulate_eq_foldl] at hskipped
    rw [Simulation.simulate_eq_foldl, Simulation.simulate_eq_foldl, List.foldl_append]
    exact Simulation.simulateIntent_of_skipped hskipped

private def priceText (text : String) : Option Decimal :=
  if text = "0.40" then some (2 / 5)
  else if text = "0.50" then some (1 / 2)
  else if text = "1000" then some 1000
  else none

private def halfBooks : OrderBookState :=
  (∅ : OrderBookState).insert "up" ⟨"up", "m1", [⟨"0.40", "1000"⟩], [⟨"0.50", "1000"⟩], none, none⟩

private def feeRegistry : MarketPairRegistry := MarketPairRegistry.new.register (.newUpDown "m1" "up" "down")

private def order (side : Side) (price size : Decimal) : OrderIntent :=
  .new "m1" "up" side price size .Immediate "contrarian"

/-- A purchase for 50 and a fee of 5, one for which the cash is short, one below the ask, and a sale for 40 and 4. -/
private def tradedBatch : Batch :=
  ⟨halfBooks, feeRegistry, [order .Buy (1 / 2) 100, order .Buy (1 / 2) 1000, order .Buy (2 / 5) 10,
    order .Sell (2 / 5) 100]⟩

private theorem best_of_halfBooks {t : TokenId} {price : Decimal}
    (h : halfBooks.bestAsk priceText t = some price ∨ halfBooks.bestBid priceText t = some price) : 0 ≤ price := by
  by_cases ht : t = "up"
  · subst ht
    have hask : halfBooks.bestAsk priceText "up" = some (1 / 2) := by decide +kernel
    have hbid : halfBooks.bestBid priceText "up" = some (2 / 5) := by decide +kernel
    rw [hask, hbid] at h
    rcases h with h | h <;> cases h <;> norm_num
  · have hnone : halfBooks.getBook t = none := AList.lookup_insert_ne ht
    rw [OrderBookState.bestAsk, OrderBookState.bestBid, hnone] at h
    rcases h with h | h <;> cases h

private theorem tradedBatch_valid : tradedBatch.Valid priceText where
  ask _ _ h := best_of_halfBooks (.inl h)
  bid _ _ h := best_of_halfBooks (.inr h)
  fee t pair h := by
    have hpair : pair = MarketPair.newUpDown "m1" "up" "down" := by
      rcases General.KeyedStore.mem_values_insert (General.KeyedStore.mem_values_iff.mpr ⟨t, h⟩) with rfl | hrest
      · rfl
      · rcases General.KeyedStore.mem_values_insert hrest with rfl | hempty
        · rfl
        · cases hempty
    rw [hpair]
    decide
  intents := by decide +kernel

/-- Of 100 dollars 50 are spent and 40 come back, for fees of 5 and 4. -/
theorem traded_batch_conserves_cash :
    let after := [tradedBatch].foldl (Simulation.simulate priceText) ⟨Ledger.new 100, 0⟩
    after.ledger.cash.reserved = 0 ∧ 0 ≤ after.ledger.cash.available ∧ after.ledger.cash.total = 100 - 50 + 40 - 9 := by
  have hvalid : ∀ b ∈ [tradedBatch], b.Valid priceText := by
    intro b hb
    rw [List.mem_singleton.mp hb]
    exact tradedBatch_valid
  obtain ⟨hreserved, havailable, htotal, -⟩ := paper_cash_is_conserved priceText ⟨Ledger.new 100, 0⟩ [tradedBatch]
    rfl (by decide +kernel) (fun n _ => Finset.notMem_empty _) hvalid
  refine ⟨hreserved, havailable, htotal.trans ?_⟩
  decide +kernel

end PolyBot.Bot.PaperTrading
