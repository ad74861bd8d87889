import PolyBot.Orchestrator.PaperTrading
import PolyBot.Strategy.MathArb

/-! An arbitrage group in paper trading: whether both legs of a routed group are filled. -/

namespace PolyBot

namespace StrategyRouter
variable {yes no : OrderIntent}

private theorem orderedInsert_pair (h : yes.priority = no.priority) (l : List OrderIntent) :
    ∃ a b, (l.orderedInsert (fun a b => b.priority ≤ a.priority) no).orderedInsert
      (fun a b => b.priority ≤ a.priority) yes = a ++ yes :: no :: b := by
  induction l with
  | nil => exact ⟨[], [], by simp [h]⟩
  | cons x l ih =>
    rw [List.orderedInsert_cons]
    by_cases hx : x.priority ≤ no.priority
    · refine ⟨[], x :: l, ?_⟩
      rw [if_pos hx, List.orderedInsert_cons, if_pos h.ge, List.nil_append]
    · obtain ⟨a, b, hab⟩ := ih
      refine ⟨x :: a, b, ?_⟩
      rw [if_neg hx, List.orderedInsert_cons, if_neg (h ▸ hx), hab, List.cons_append]

/-- Nothing is sorted between two neighbours of the same priority. -/
private theorem orderedInsert_around (h : yes.priority = no.priority) (x : OrderIntent) (a b : List OrderIntent) :
    ∃ a' b', (a ++ yes :: no :: b).orderedInsert (fun a b => b.priority ≤ a.priority) x = a' ++ yes :: no :: b' := by
  induction a with
  | nil =>
    rw [List.nil_append, List.orderedInsert_cons, List.orderedInsert_cons]
    by_cases hx : yes.priority ≤ x.priority
    · exact ⟨[x], b, by rw [if_pos hx]; rfl⟩
    · exact ⟨[], _, by rw [if_neg hx, if_neg (h ▸ hx)]; rfl⟩
  | cons y a ih =>
    rw [List.cons_append, List.orderedInsert_cons]
    split_ifs
    · exact ⟨x :: y :: a, b, rfl⟩
    · obtain ⟨a', b', hab⟩ := ih
      exact ⟨y :: a', b', by rw [hab, List.cons_append]⟩

private theorem insertionSort_pair (h : yes.priority = no.priority) (before after : List OrderIntent) :
    ∃ a b, (before ++ yes :: no :: after).insertionSort (fun a b => b.priority ≤ a.priority) =
      a ++ yes :: no :: b := by
  induction before with
  | nil => exact orderedInsert_pair h _
  | cons x before ih =>
    obtain ⟨a, b, hab⟩ := ih
    rw [List.cons_append, List.insertionSort_cons, hab]
    exact orderedInsert_around h x a b

private theorem dropConflicts_pair (hyes : yes.isGrouped = true) (hno : no.isGrouped = true)
    (seen : List (ConditionId × TokenId × Side)) (a b : List OrderIntent) :
    ∃ a' b', dropConflicts seen (a ++ yes :: no :: b) = a' ++ yes :: no :: b' := by
  induction a generalizing seen with
  | nil => exact ⟨[], _, by simp [dropConflicts, hyes, hno]; rfl⟩
  | cons x a ih =>
    rw [List.cons_append, dropConflicts]
    split_ifs
    · exact ih seen
    · obtain ⟨a', b', hab⟩ := ih (conflictKey x :: seen)
      exact ⟨x :: a', b', by rw [hab, List.cons_append]⟩

/-- A group of two legs that a strategy emits together stays together in the routed batch. -/
theorem resolveConflicts_pair (yes no : OrderIntent) (h : yes.priority = no.priority) (hyes : yes.isGrouped = true)
    (hno : no.isGrouped = true) (before after : List OrderIntent) :
    ∃ a b, resolveConflicts (before ++ [yes, no] ++ after) = a ++ [yes, no] ++ b := by
  obtain ⟨a, b, hab⟩ := insertionSort_pair h before after
  obtain ⟨a', b', hab'⟩ := dropConflicts_pair hyes hno [] a b
  refine ⟨a', b', ?_⟩
  simp only [List.append_assoc, List.cons_append, List.nil_append]
  rw [resolveConflicts, hab, hab']

end StrategyRouter

namespace MathArbStrategy
variable {parse : String → Option Decimal} {s : MathArbStrategy}

/-- A book update that emits does so for the pair of its token. -/
theorem check_of_onBookUpdate {marketId : ConditionId} {tokenId : TokenId} {ctx : StrategyContext} {uuid : String}
    (hemits : (s.onBookUpdate parse marketId tokenId ctx uuid).1 ≠ []) :
    ∃ pair, s.registry.getByToken tokenId = some pair ∧
      s.checkArbOpportunity parse pair ctx uuid = some (s.onBookUpdate parse marketId tokenId ctx uuid) := by
  rcases s.onBookUpdate_cases parse marketId tokenId ctx uuid with hnone | ⟨pair, intents, s', hpair, -, hcheck, hnext⟩
  · rw [hnone] at hemits
    exact absurd rfl hemits
  · rw [hnext]
    exact ⟨pair, hpair, hcheck⟩

end MathArbStrategy

namespace Bot.PaperTrading
open ExitControl Ledger

def CoversBothOrNeither (cash yesCost noCost : Decimal) : Prop :=
  (yesCost ≤ cash ∧ max yesCost 0 + noCost ≤ cash) ∨ (cash < yesCost ∧ cash < noCost)

def AllOrNothing (group : List OrderIntent) (fills : List (OrderIntent × Fill)) : Prop :=
  fills.map Prod.fst = group ∨ fills = []

section Group
variable {parse : String → Option Decimal} {books : OrderBookState} {registry : MarketPairRegistry}

/-- A purchase at a price takes its cost out of the available cash. -/
theorem available_bookPaperFill {l : Ledger} {n : ℕ} {i : OrderIntent} {price : Decimal}
    (hfresh : paperId n ∉ l.seenFillIds) (hside : i.side = .Buy)
    (hafford : costAt registry i price ≤ l.cash.available) :
    (run l (bookPaperFill (fillAt registry n i price))).cash.available =
      l.cash.available - max (costAt registry i price) 0 := by
  have hrate := feeRate_nonneg registry i.tokenId
  have hcost : costAt registry i price = price * i.size * (1 + feeRate registry i.tokenId) := by
    rw [costAt]
    ring
  have hbuy : (fillAt registry n i price).side = .Buy := hside
  rw [bookPaperFill, hbuy]
  change (processFill { l with cash := l.cash.discard (l.cash.withdraw (price * i.size)) } _).cash.available = _
  have hnew : (fillAt registry n i price).fillId ∉
    ({ l with cash := l.cash.discard (l.cash.withdraw (price * i.size)) } : Ledger).seenFillIds := hfresh
  rw [processFill_of_new hnew]
  simp only [book, settle, resolve_side, resolve_notional, resolve_fee, hbuy]
  change ((CashBalance.discard _ (CashBalance.settleBuy _ (price * i.size))).deductFee
    (price * i.size * feeRate registry i.tokenId)).available = _
  rcases le_or_gt (price * i.size) 0 with hneg | hpos
  · have hfee : price * i.size * feeRate registry i.tokenId ≤ 0 := mul_nonpos_of_nonpos_of_nonneg hneg hrate
    have hnone : l.cash.discard (l.cash.withdraw (price * i.size)) = l.cash := by
      rw [CashBalance.withdraw, if_pos hneg, CashBalance.discard]
    have hmax : max (costAt registry i price) 0 = 0 :=
      max_eq_right (hcost ▸ mul_nonpos_of_nonpos_of_nonneg hneg (by linarith))
    rw [CashBalance.deductFee, if_pos hfee, CashBalance.available_settleBuy, hnone, hmax, sub_zero]
  · have hfee : 0 ≤ price * i.size * feeRate registry i.tokenId := mul_nonneg hpos.le hrate
    have hpays : price * i.size ≤ l.cash.available := (le_add_of_nonneg_right hfee).trans hafford
    have hmax : max (costAt registry i price) 0 = costAt registry i price := max_eq_left (add_nonneg hpos.le hfee)
    rw [CashBalance.deductFee_of_nonneg _ hfee]
    dsimp only
    rw [CashBalance.available_settleBuy, CashBalance.discard_withdraw hpos.le hpays, hmax, costAt]
    ring

/-- Two purchases one after the other are both filled or both skipped exactly if the cash pays for both or neither. -/
theorem pair_all_or_nothing_iff {l : Ledger} {n : ℕ} {yes no : OrderIntent} {yesPrice noPrice : Decimal}
    (hfresh : paperId n ∉ l.seenFillIds) (hyesSide : yes.side = .Buy) (hnoSide : no.side = .Buy)
    (hyes : counterPrice parse books yes = some yesPrice) (hno : counterPrice parse books no = some noPrice) :
    AllOrNothing [yes, no] (simulatePaperFills parse books registry l n [yes, no]) ↔
      CoversBothOrNeither l.cash.available (costAt registry yes yesPrice) (costAt registry no noPrice) := by
  have hleg : ∀ {l : Ledger} {n : ℕ} {i : OrderIntent} {price : Decimal}, i.side = .Buy →
      counterPrice parse books i = some price → paperFill parse books registry l n i =
        if costAt registry i price ≤ l.cash.available then some (fillAt registry n i price) else none := by
    intro l n i price hside hprice
    rw [paperFill_eq_bind, hprice, Option.bind_some]
    simp only [hside, true_imp_iff]
  unfold AllOrNothing CoversBothOrNeither
  rw [simulatePaperFills, hleg hyesSide hyes]
  split_ifs with hfirst
  · dsimp only
    rw [simulatePaperFills, hleg hnoSide hno, available_bookPaperFill hfresh hyesSide hfirst]
    split_ifs with hsecond
    · simp only [simulatePaperFills, List.map_cons, List.map_nil, true_or, true_iff]
      exact .inl ⟨hfirst, by linarith⟩
    · refine iff_of_false ?_ ?_
      · simp [simulatePaperFills]
      · rintro (⟨-, hboth⟩ | ⟨hneither, -⟩)
        · exact hsecond (by linarith)
        · exact absurd hfirst (not_le.mpr hneither)
  · dsimp only
    rw [simulatePaperFills, hleg hnoSide hno]
    split_ifs with hsecond
    · refine iff_of_false ?_ ?_
      · simp [simulatePaperFills]
      · rintro (⟨hboth, -⟩ | ⟨-, hneither⟩)
        · exact hfirst hboth
        · exact absurd hsecond (not_le.mpr hneither)
    · exact iff_of_true (.inr rfl) (.inr ⟨not_le.mp hfirst, not_le.mp hsecond⟩)

/-- The fills of a batch are those of its first part and those of the rest from the portfolio after it. -/
theorem simulatePaperFills_append (l : Ledger) (n : ℕ) (first rest : List OrderIntent) :
    simulatePaperFills parse books registry l n (first ++ rest) =
      simulatePaperFills parse books registry l n first ++
        simulatePaperFills parse books registry
          (Simulation.simulate parse ⟨l, n⟩ ⟨books, registry, first⟩).ledger
          (Simulation.simulate parse ⟨l, n⟩ ⟨books, registry, first⟩).filled rest := by
  rw [Simulation.simulate_eq_foldl]
  induction first generalizing l n with
  | nil => rfl
  | cons i first ih =>
    rw [List.cons_append, simulatePaperFills, simulatePaperFills, List.foldl_cons, Simulation.simulateIntent]
    dsimp only
    cases paperFill parse books registry l n i with
    | none => exact ih l n
    | some f =>
      dsimp only
      rw [ih, List.cons_append]

/-- A leg at the rounded ask is within reach of the ask. -/
theorem counterPrice_leg {s : MathArbStrategy} {pair : MarketPair} (htick : 0 ≤ pair.tickSize) {tokenId : TokenId}
    {ask : Decimal} (hask : books.bestAsk parse tokenId = some ask) (groupId : String) (size : Decimal) :
    counterPrice parse books (s.leg pair groupId tokenId (roundUpToTick ask pair.tickSize) size) = some ask := by
  change (books.bestAsk parse tokenId).filter (fun price => decide (price ≤ roundUpToTick ask pair.tickSize)) = _
  rw [hask, Option.filter_some, if_pos (decide_eq_true (le_roundUpToTick htick ask))]

end Group

/-- A group is routed with its legs side by side, and they are both filled or both skipped exactly if the cash that is
available when their turn comes pays for both at the asks and with their fees, or for neither of them. -/
theorem routed_group_all_or_nothing_iff {parse : String → Option Decimal} {s : MathArbStrategy}
    {marketId : ConditionId} {tokenId : TokenId} {ctx : StrategyContext} {uuid : String}
    (registry : MarketPairRegistry) (l : Ledger) (n : ℕ) (before after : List OrderIntent)
    (hfresh : ∀ m, n ≤ m → paperId m ∉ l.seenFillIds)
    (htick : ∀ pair, s.registry.getByToken tokenId = some pair → 0 ≤ pair.tickSize)
    (hemits : (s.onBookUpdate parse marketId tokenId ctx uuid).1 ≠ []) :
    ∃ pair yesAsk noAsk yes no first last, s.registry.getByToken tokenId = some pair ∧
      ctx.bestAsk parse pair.yesTokenId = some yesAsk ∧ ctx.bestAsk parse pair.noTokenId = some noAsk ∧
      (s.onBookUpdate parse marketId tokenId ctx uuid).1 = [yes, no] ∧
      StrategyRouter.resolveConflicts (before ++ [yes, no] ++ after) = first ++ [yes, no] ++ last ∧
      let turn := Simulation.simulate parse ⟨l, n⟩ ⟨ctx.books, registry, first⟩
      let filled := simulatePaperFills parse ctx.books registry turn.ledger turn.filled [yes, no]
      (∃ earlier later, simulatePaperFills parse ctx.books registry l n (first ++ [yes, no] ++ last) =
        earlier ++ filled ++ later) ∧
      (AllOrNothing [yes, no] filled ↔
        CoversBothOrNeither turn.ledger.cash.available (costAt registry yes yesAsk) (costAt registry no noAsk)) := by
  obtain ⟨pair, hpair, hcheck⟩ := MathArbStrategy.check_of_onBookUpdate hemits
  generalize s.onBookUpdate parse marketId tokenId ctx uuid = emitted at hcheck ⊢
  obtain ⟨intents, s'⟩ := emitted
  obtain ⟨yesBook, noBook, yesAsk, noAsk, size, hopp, hlegs, -⟩ := MathArbStrategy.checkArbOpportunity_inv parse hcheck
  have hyesAsk : ctx.bestAsk parse pair.yesTokenId = some yesAsk := by
    rw [StrategyContext.bestAsk, OrderBookState.bestAsk, hopp.yes_book]
    exact hopp.yes_ask
  have hnoAsk : ctx.bestAsk parse pair.noTokenId = some noAsk := by
    rw [StrategyContext.bestAsk, OrderBookState.bestAsk, hopp.no_book]
    exact hopp.no_ask
  obtain ⟨first, last, hrouted⟩ := StrategyRouter.resolveConflicts_pair
    (s.leg pair ("arb-" ++ uuid) pair.yesTokenId (roundUpToTick yesAsk pair.tickSize) size)
    (s.leg pair ("arb-" ++ uuid) pair.noTokenId (roundUpToTick noAsk pair.tickSize) size) rfl rfl rfl before after
  refine ⟨pair, yesAsk, noAsk, _, _, first, last, hpair, hyesAsk, hnoAsk, hlegs, hrouted, ?_⟩
  have hfreshTurn : (Simulation.simulate parse ⟨l, n⟩ ⟨ctx.books, registry, first⟩).Fresh :=
    Simulation.Fresh.simulate (s := ⟨l, n⟩) hfresh _
  have hyes := counterPrice_leg (s := s) (htick pair hpair) hyesAsk ("arb-" ++ uuid) size
  have hno := counterPrice_leg (s := s) (htick pair hpair) hnoAsk ("arb-" ++ uuid) size
  dsimp only
  refine ⟨?_, pair_all_or_nothing_iff (hfreshTurn _ le_rfl) rfl rfl hyes hno⟩
  rw [simulatePaperFills_append, simulatePaperFills_append]
  exact ⟨_, _, rfl⟩

private def quoteText (text : String) : Option Decimal :=
  if text = "0.45" then some (45 / 100)
  else if text = "0.44" then some (44 / 100)
  else if text = "1000" then some 1000
  else none

private def quotedPair : MarketPair := MarketPair.newUpDown "m1" "up" "down"
private def quotedRegistry : MarketPairRegistry := MarketPairRegistry.new.register quotedPair
private def quotedTaker : MathArbStrategy := .withConfig quotedRegistry .taker

private def quotedWith (cash : Decimal) : StrategyContext where
  books :=
    ((∅ : OrderBookState).insert "up" ⟨"up", "m1", [⟨"0.44", "1000"⟩], [⟨"0.45", "1000"⟩], none, none⟩).insert
      "down" ⟨"down", "m1", [⟨"0.44", "1000"⟩], [⟨"0.45", "1000"⟩], none, none⟩
  ledger := Ledger.new cash
  now := 0

private def quotedLeg (tokenId : TokenId) : OrderIntent :=
  quotedTaker.leg quotedPair "arb-1" tokenId (45 / 100) (555 / 100)

private def quotedGroup : List OrderIntent := [quotedLeg "up", quotedLeg "down"]

/-- A thousand dollars pay for both legs. -/
theorem rich_group_fills_whole :
    StrategyRouter.resolveConflicts quotedGroup = quotedGroup ∧
      AllOrNothing quotedGroup
        (simulatePaperFills quoteText (quotedWith 1000).books quotedRegistry (Ledger.new 1000) 0 quotedGroup) := by
  have hemitted : (quotedTaker.onBookUpdate quoteText "m1" "up" (quotedWith 1000) "1").1 = quotedGroup := by
    decide +kernel
  have hpair : quotedTaker.registry.getByToken "up" = some quotedPair := by decide +kernel
  have hrouted : StrategyRouter.resolveConflicts quotedGroup = quotedGroup := by decide +kernel
  have htick : ∀ pair, quotedTaker.registry.getByToken "up" = some pair → 0 ≤ pair.tickSize := by
    intro pair h
    cases hpair.symm.trans h
    norm_num [quotedPair, MarketPair.newUpDown]
  have hemits : (quotedTaker.onBookUpdate quoteText "m1" "up" (quotedWith 1000) "1").1 ≠ [] := by
    rw [hemitted]
    exact List.cons_ne_nil _ _
  obtain ⟨pair, yesAsk, noAsk, yes, no, first, last, hfound, hyes, hno, hlegs, hresolved, -, hiff⟩ :=
    routed_group_all_or_nothing_iff quotedRegistry (Ledger.new 1000) 0 [] [] (fun m _ => Finset.notMem_empty _) htick
      hemits
  cases hpair.symm.trans hfound
  have hasks : (quotedWith 1000).bestAsk quoteText "up" = some (45 / 100) ∧
      (quotedWith 1000).bestAsk quoteText "down" = some (45 / 100) := by decide +kernel
  cases hasks.1.symm.trans hyes
  cases hasks.2.symm.trans hno
  rw [hemitted] at hlegs
  obtain ⟨rfl, rfl⟩ : quotedLeg "up" = yes ∧ quotedLeg "down" = no := by simpa [quotedGroup] using hlegs
  have hlength := congrArg List.length (hrouted.symm.trans hresolved)
  simp only [quotedGroup, List.length_append, List.length_cons, List.length_nil] at hlength
  obtain rfl : first = [] := List.length_eq_zero_iff.mp (by omega)
  exact ⟨hrouted, hiff.mpr (.inl (by decide +kernel))⟩

/-- With five dollars the size is cut to what they buy without the fees: the first leg costs 2.74725 and is filled,
the second costs as much and is skipped. -/
theorem poor_group_fills_one_leg :
    (quotedTaker.onBookUpdate quoteText "m1" "up" (quotedWith 5) "1").1 = quotedGroup ∧
      (simulatePaperFills quoteText (quotedWith 5).books quotedRegistry (Ledger.new 5) 0
        (StrategyRouter.resolveConflicts quotedGroup)).map Prod.fst = [quotedLeg "up"] ∧
      ¬AllOrNothing quotedGroup (simulatePaperFills quoteText (quotedWith 5).books quotedRegistry (Ledger.new 5) 0
        (StrategyRouter.resolveConflicts quotedGroup)) := by
  have hone : (simulatePaperFills quoteText (quotedWith 5).books quotedRegistry (Ledger.new 5) 0
      (StrategyRouter.resolveConflicts quotedGroup)).map Prod.fst = [quotedLeg "up"] := by decide +kernel
  refine ⟨by decide +kernel, hone, ?_⟩
  rintro (hboth | hnone)
  · rw [hone] at hboth
    cases hboth
  · rw [hnone] at hone
    cases hone

end Bot.PaperTrading

end PolyBot
