import PolyBot.Strategy.ArbCaps

/-! What becomes of a pending maker pair when its time to live is over. -/

namespace PolyBot.MakerRebateArbStrategy
open General.KeyedStore
variable (parse : String → Option Decimal)

def sharesAfter (intents : List OrderIntent) (tokenId : TokenId) (shares : Decimal) : Decimal :=
  intents.foldl (fun held i =>
    if i.tokenId = tokenId then
      match i.side with
      | .Buy => held + i.size
      | .Sell => held - i.size
    else held) shares

def unwindsOf (s : MakerRebateArbStrategy) (ctx : StrategyContext) (p : PendingArb) : List OrderIntent :=
  (s.onTick parse ctx).1.filter fun i => i.marketId = p.conditionId

/-- A pair that a tick drops is balanced, or is by the sales the tick emits for it; one for which it can emit none
stays pending. -/
def LeavesNoImbalance (s : MakerRebateArbStrategy) (ctx : StrategyContext) (p : PendingArb) : Prop :=
  let yes := (ctx.position p.yesTokenId).shares
  let no := (ctx.position p.noTokenId).shares
  (s.onTick parse ctx).2.pendingArbs.lookup p.conditionId = none →
    yes = no ∨ (s.unwindsOf parse ctx p ≠ [] ∧
      sharesAfter (s.unwindsOf parse ctx p) p.yesTokenId yes = sharesAfter (s.unwindsOf parse ctx p) p.noTokenId no)

/-- One leg is empty and the other is filled by half or more, with a bid to sell it at. -/
def OneLegged (size filled other : Decimal) (bid : Option Decimal) : Prop :=
  other = 0 ∧ 0 < size ∧ size / 2 ≤ filled ∧ bid.isSome

def KeyedByMarket (s : MakerRebateArbStrategy) : Prop :=
  ∀ id p, s.pendingArbs.lookup id = some p → p.conditionId = id

def expirySales (ctx : StrategyContext) (p : PendingArb) : List OrderIntent :=
  let yesPos := (ctx.position p.yesTokenId).shares
  let noPos := (ctx.position p.noTokenId).shares
  if p.size / 2 ≤ yesPos ∧ noPos < p.size / 2 then unwindLeg parse ctx p p.yesTokenId yesPos
  else if yesPos < p.size / 2 ∧ p.size / 2 ≤ noPos then unwindLeg parse ctx p p.noTokenId noPos
  else []

variable {parse} {s : MakerRebateArbStrategy} {ctx : StrategyContext} {p : PendingArb}

theorem expireArb_fst (s : MakerRebateArbStrategy) (ctx : StrategyContext) (p : PendingArb) :
    (s.expireArb parse ctx p).1 = expirySales parse ctx p := by
  unfold expireArb expirySales
  dsimp only
  by_cases hyes : p.size / 2 ≤ (ctx.position p.yesTokenId).shares <;>
    by_cases hno : p.size / 2 ≤ (ctx.position p.noTokenId).shares <;>
    simp [hyes, hno, not_le.mp, not_lt.mpr]

theorem expireAll_fst (s : MakerRebateArbStrategy) (ctx : StrategyContext) (expired : List PendingArb) :
    (expireAll parse ctx s expired).1 = expired.flatMap (expirySales parse ctx) := by
  induction expired generalizing s with
  | nil => rfl
  | cons p rest ih =>
    rw [List.flatMap_cons, ← ih, ← expireArb_fst s ctx p]
    rfl

theorem expireAll_pendingArbs (s : MakerRebateArbStrategy) (ctx : StrategyContext) (expired : List PendingArb) :
    (expireAll parse ctx s expired).2.pendingArbs = s.pendingArbs := by
  induction expired generalizing s with
  | nil => rfl
  | cons p rest ih =>
    have hone : (s.expireArb parse ctx p).2.pendingArbs = s.pendingArbs := by
      rcases s.expireArb_cases parse ctx p with hsame | hreleased
      · rw [hsame]
      · rw [hreleased]
        rfl
    exact (ih _).trans hone

/-- A tick emits the sales of the expired pairs, one pair after the other. -/
theorem onTick_fst (henabled : s.enabled = true) :
    (s.onTick parse ctx).1 = (s.expiredArbs ctx.now).flatMap (expirySales parse ctx) := by
  rw [onTick, henabled]
  exact expireAll_fst s ctx (s.expiredArbs ctx.now)

/-- A tick forgets the expired pairs, whatever it could emit for them. -/
theorem lookup_onTick (henabled : s.enabled = true) (id : ConditionId) :
    (s.onTick parse ctx).2.pendingArbs.lookup id =
      if id ∈ (s.expiredArbs ctx.now).map (·.conditionId) then none else s.pendingArbs.lookup id := by
  rw [onTick, henabled]
  dsimp only
  rw [expireAll_pendingArbs]
  exact lookup_foldl_erase _ id s.pendingArbs

/-- A sale at the expiry is that of the leg that filled alone. -/
theorem mem_expirySales_iff {i : OrderIntent} :
    i ∈ expirySales parse ctx p ↔
      ((p.size / 2 ≤ (ctx.position p.yesTokenId).shares ∧ (ctx.position p.noTokenId).shares < p.size / 2) ∧
        i ∈ unwindLeg parse ctx p p.yesTokenId (ctx.position p.yesTokenId).shares) ∨
      ((ctx.position p.yesTokenId).shares < p.size / 2 ∧ p.size / 2 ≤ (ctx.position p.noTokenId).shares) ∧
        i ∈ unwindLeg parse ctx p p.noTokenId (ctx.position p.noTokenId).shares := by
  unfold expirySales
  dsimp only
  split_ifs with hyes hno
  · have hother : ¬(ctx.position p.yesTokenId).shares < p.size / 2 := not_lt.mpr hyes.1
    simp only [hyes, hother, true_and, false_and, or_false, and_self]
  · simp only [hyes, hno, true_and, false_and, false_or, and_self]
  · simp only [hyes, hno, false_and, or_self, List.not_mem_nil]

theorem marketId_of_mem_expirySales {i : OrderIntent} (h : i ∈ expirySales parse ctx p) :
    i.marketId = p.conditionId := by
  rcases mem_expirySales_iff.mp h with ⟨-, hleg⟩ | ⟨-, hleg⟩
  · obtain ⟨bid, -, rfl⟩ := (mem_unwindLeg_iff parse).mp hleg
    rfl
  · obtain ⟨bid, -, rfl⟩ := (mem_unwindLeg_iff parse).mp hleg
    rfl

theorem filter_expirySales (q p : PendingArb) :
    (expirySales parse ctx q).filter (fun i => i.marketId = p.conditionId) =
      if q.conditionId = p.conditionId then expirySales parse ctx q else [] := by
  split_ifs with hsame
  · rw [List.filter_eq_self]
    intro i hi
    exact decide_eq_true ((marketId_of_mem_expirySales hi).trans hsame)
  · rw [List.filter_eq_nil_iff]
    intro i hi
    rw [decide_eq_true_eq, marketId_of_mem_expirySales hi]
    exact hsame

theorem expirySales_cases (parse : String → Option Decimal) (ctx : StrategyContext) (p : PendingArb) :
    expirySales parse ctx p = [] ∨ ∃ i, expirySales parse ctx p = [i] := by
  have hleg : ∀ tokenId shares,
      unwindLeg parse ctx p tokenId shares = [] ∨ ∃ i, unwindLeg parse ctx p tokenId shares = [i] := by
    intro tokenId shares
    unfold unwindLeg
    split
    · exact .inl rfl
    · exact .inr ⟨_, rfl⟩
  unfold expirySales
  dsimp only
  split_ifs
  · exact hleg _ _
  · exact hleg _ _
  · exact .inl rfl

/-- What a tick emits for the market of an expired pair are the sales of that pair alone. -/
theorem unwindsOf_eq (hkeyed : s.KeyedByMarket) (henabled : s.enabled = true)
    (hpending : s.pendingArbs.lookup p.conditionId = some p) (hexpired : p ∈ s.expiredArbs ctx.now) :
    s.unwindsOf parse ctx p = expirySales parse ctx p := by
  have hothers : ∀ q ∈ values (s.pendingArbs.erase p.conditionId), q.conditionId ≠ p.conditionId := by
    intro q hq
    obtain ⟨id, hid⟩ := mem_values_iff.mp hq
    have hkey := hkeyed id q (lookup_of_lookup_erase hid)
    rintro hsame
    rw [← hkey, hsame, AList.lookup_erase] at hid
    cases hid
  have hperm : (s.expiredArbs ctx.now).Perm
      (p :: (values (s.pendingArbs.erase p.conditionId)).filter
        fun q => s.config.ttlSecs ≤ q.postedAt.elapsedSecs ctx.now) := by
    have hdue := (List.mem_filter.mp hexpired).2
    refine ((values_perm_of_lookup hpending).filter _).trans (.of_eq ?_)
    exact List.filter_cons_of_pos hdue
  have hrest : ∀ q ∈ (values (s.pendingArbs.erase p.conditionId)).filter
      (fun q => s.config.ttlSecs ≤ q.postedAt.elapsedSecs ctx.now),
      (expirySales parse ctx q).filter (fun i => i.marketId = p.conditionId) = [] := by
    intro q hq
    rw [filter_expirySales, if_neg (hothers q (List.mem_filter.mp hq).1)]
  have hsales : (s.unwindsOf parse ctx p).Perm (expirySales parse ctx p) := by
    rw [unwindsOf, onTick_fst henabled, List.filter_flatMap]
    refine (hperm.flatMap_right _).trans ?_
    rw [List.flatMap_cons, filter_expirySales, if_pos rfl, List.flatMap_eq_nil_iff.mpr hrest, List.append_nil]
  rcases expirySales_cases parse ctx p with hnone | ⟨i, hone⟩
  · rw [hnone] at hsales ⊢
    exact hsales.eq_nil
  · rw [hone] at hsales ⊢
    exact List.perm_singleton.mp hsales

/-- Selling a whole leg leaves both legs equal exactly if the other is empty. -/
private theorem unwindLeg_balances_iff {tokenId other : TokenId} (hne : tokenId ≠ other) (filled rest : Decimal) :
    (unwindLeg parse ctx p tokenId filled ≠ [] ∧
        sharesAfter (unwindLeg parse ctx p tokenId filled) tokenId filled =
          sharesAfter (unwindLeg parse ctx p tokenId filled) other rest) ↔
      rest = 0 ∧ (ctx.bestBid parse tokenId).isSome := by
  unfold unwindLeg
  cases hbid : ctx.bestBid parse tokenId with
  | none => simp
  | some bid =>
    simp only [sharesAfter, OrderIntent.new, OrderIntent.withPriority, List.foldl_cons, List.foldl_nil, if_pos,
      if_neg hne, sub_self, Option.isSome_some, and_true]
    exact ⟨fun h => h.2.symm, fun h => ⟨List.cons_ne_nil _ _, h.symm⟩⟩

private theorem not_oneLegged_of_lt {size filled other : Decimal} {bid : Option Decimal} (h : filled < size / 2) :
    ¬OneLegged size filled other bid :=
  fun hone => absurd hone.2.2.1 (not_le.mpr h)

private theorem oneLegged_iff {size filled other : Decimal} {bid : Option Decimal} (hother : 0 ≤ other)
    (hfilled : size / 2 ≤ filled) (hless : other < size / 2) :
    OneLegged size filled other bid ↔ other = 0 ∧ bid.isSome := by
  have hsize : 0 < size := by linarith
  exact ⟨fun h => ⟨h.1, h.2.2.2⟩, fun h => ⟨h.1, hsize, hfilled, h.2⟩⟩

/-- The sales at the expiry of an imbalanced pair make its legs equal exactly if one is empty, the other is at least
half filled and has a bid. -/
theorem expirySales_balance_iff (hyes : 0 ≤ (ctx.position p.yesTokenId).shares)
    (hno : 0 ≤ (ctx.position p.noTokenId).shares)
    (hne : (ctx.position p.yesTokenId).shares ≠ (ctx.position p.noTokenId).shares) :
    (expirySales parse ctx p ≠ [] ∧
        sharesAfter (expirySales parse ctx p) p.yesTokenId (ctx.position p.yesTokenId).shares =
          sharesAfter (expirySales parse ctx p) p.noTokenId (ctx.position p.noTokenId).shares) ↔
      OneLegged p.size (ctx.position p.yesTokenId).shares (ctx.position p.noTokenId).shares
          (ctx.bestBid parse p.yesTokenId) ∨
        OneLegged p.size (ctx.position p.noTokenId).shares (ctx.position p.yesTokenId).shares
          (ctx.bestBid parse p.noTokenId) := by
  have htokens : p.yesTokenId ≠ p.noTokenId := fun hsame => hne (by rw [hsame])
  by_cases hyesOnly : p.size / 2 ≤ (ctx.position p.yesTokenId).shares ∧ (ctx.position p.noTokenId).shares < p.size / 2
  · have hsales : expirySales parse ctx p =
        unwindLeg parse ctx p p.yesTokenId (ctx.position p.yesTokenId).shares := if_pos hyesOnly
    rw [hsales, unwindLeg_balances_iff htokens, oneLegged_iff hno hyesOnly.1 hyesOnly.2,
      or_iff_left (not_oneLegged_of_lt hyesOnly.2)]
  · by_cases hnoOnly : (ctx.position p.yesTokenId).shares < p.size / 2 ∧ p.size / 2 ≤ (ctx.position p.noTokenId).shares
    · have hsales : expirySales parse ctx p =
          unwindLeg parse ctx p p.noTokenId (ctx.position p.noTokenId).shares :=
        (if_neg hyesOnly).trans (if_pos hnoOnly)
      rw [hsales, or_iff_right (not_oneLegged_of_lt hnoOnly.1), oneLegged_iff hyes hnoOnly.2 hnoOnly.1,
        ← unwindLeg_balances_iff htokens.symm, eq_comm (b := sharesAfter _ p.noTokenId _)]
    · have hsales : expirySales parse ctx p = [] := (if_neg hyesOnly).trans (if_neg hnoOnly)
      refine iff_of_false (fun h => h.1 hsales) ?_
      rintro (⟨hempty, hsize, hfilled, -⟩ | ⟨hempty, hsize, hfilled, -⟩)
      · exact hyesOnly ⟨hfilled, by rw [hempty]; exact half_pos hsize⟩
      · exact hnoOnly ⟨by rw [hempty]; exact half_pos hsize, hfilled⟩

theorem KeyedByMarket.handle (h : s.KeyedByMarket) (e : ArbCaps.Event) : (s.handle parse e).2.KeyedByMarket := by
  cases e with
  | bookUpdate marketId tokenId ctx uuid =>
    change (s.onBookUpdate parse marketId tokenId ctx uuid).2.KeyedByMarket
    rcases s.onBookUpdate_cases parse marketId tokenId ctx uuid with hnone | ⟨pair, intents, s', -, -, hcheck, hnext⟩
    · rw [hnone]
      exact h
    · obtain ⟨_, _, _, _, _, -, -, hs'⟩ := checkArbOpportunity_inv parse hcheck
      rw [hnext, hs']
      intro id q hq
      exact forall_lookup_insert (p := fun id (q : PendingArb) => q.conditionId = id) h (by rfl) hq
  | fill f =>
    change (s.onFill f).KeyedByMarket
    unfold onFill
    split
    · exact h
    · exact h
  | tick ctx =>
    change (s.onTick parse ctx).2.KeyedByMarket
    cases henabled : s.enabled with
    | false =>
      rw [onTick, if_pos henabled]
      exact h
    | true =>
      intro id p hp
      rw [lookup_onTick henabled] at hp
      split_ifs at hp
      exact h id p hp
  | enable enabled => exact h
  | discover registry => exact h

/-- In every state that the strategy reaches, the tick that finds a pair expired leaves no imbalance exactly if the
strategy is disabled, the legs are equal, or one leg is empty and the other at least half filled with a bid. -/
theorem expiry_leaves_no_imbalance_iff (registry : MarketPairRegistry) (config : MakerRebateConfig)
    (events : List ArbCaps.Event)
    (hrun : s = events.foldl (fun s e => (s.handle parse e).2) (withConfig registry config))
    {id : ConditionId} (hpending : s.pendingArbs.lookup id = some p)
    (hexpired : s.config.ttlSecs ≤ p.postedAt.elapsedSecs ctx.now)
    (hyes : 0 ≤ (ctx.position p.yesTokenId).shares) (hno : 0 ≤ (ctx.position p.noTokenId).shares) :
    s.LeavesNoImbalance parse ctx p ↔
      s.enabled = false ∨ (ctx.position p.yesTokenId).shares = (ctx.position p.noTokenId).shares ∨
        OneLegged p.size (ctx.position p.yesTokenId).shares (ctx.position p.noTokenId).shares
          (ctx.bestBid parse p.yesTokenId) ∨
        OneLegged p.size (ctx.position p.noTokenId).shares (ctx.position p.yesTokenId).shares
          (ctx.bestBid parse p.noTokenId) := by
  have hkeyed : s.KeyedByMarket := by
    rw [hrun]
    have hstart : (withConfig registry config).KeyedByMarket := fun id p hp => by cases hp
    exact General.AdditiveRuns.Throughout.foldl_induction (p := fun _ _ => True) (fun s e h _ => h.handle e) hstart
      (.of_forall_mem fun _ _ _ => trivial)
  obtain rfl := hkeyed id p hpending
  cases henabled : s.enabled with
  | false =>
    refine iff_of_true (fun hdropped => ?_) (.inl rfl)
    rw [onTick, if_pos henabled, hpending] at hdropped
    cases hdropped
  | true =>
    have hmem : p ∈ s.expiredArbs ctx.now :=
      List.mem_filter.mpr ⟨mem_values_iff.mpr ⟨_, hpending⟩, decide_eq_true hexpired⟩
    have hdropped : (s.onTick parse ctx).2.pendingArbs.lookup p.conditionId = none := by
      rw [lookup_onTick henabled, if_pos (List.mem_map_of_mem hmem)]
    have hnotDisabled : ¬true = false := by decide
    rw [LeavesNoImbalance, unwindsOf_eq hkeyed henabled hpending hmem, or_iff_right hnotDisabled,
      forall_prop_of_true hdropped]
    by_cases hequal : (ctx.position p.yesTokenId).shares = (ctx.position p.noTokenId).shares
    · exact iff_of_true (.inl hequal) (.inl hequal)
    · exact or_congr Iff.rfl (expirySales_balance_iff hyes hno hequal)

private def bidText (text : String) : Option Decimal :=
  if text = "0.48" then some (48 / 100)
  else if text = "0.47" then some (47 / 100)
  else if text = "1000" then some 1000
  else none

private def ttlStart : MakerRebateArbStrategy :=
  withConfig (MarketPairRegistry.new.register (MarketPair.new "m1" "yes" "no")) .default

private def buyOf (tokenId : TokenId) (size : Decimal) : Fill :=
  ⟨"f1", "o1", tokenId, .Buy, 47 / 100, size, 0, none, 0⟩

/-- Both tokens asked at 0.48, `seconds` after the start, with `size` shares of one token bought. -/
private def quotedAt (bids : List PriceLevel) (seconds : ℕ) (tokenId : TokenId) (size : Decimal) :
    StrategyContext where
  books :=
    ((∅ : OrderBookState).insert "yes" ⟨"yes", "m1", bids, [⟨"0.48", "1000"⟩], none, none⟩).insert
      "no" ⟨"no", "m1", bids, [⟨"0.48", "1000"⟩], none, none⟩
  ledger := { Ledger.new 1000 with positions := Positions.new.applyFill (buyOf tokenId size) }
  now := seconds * 1000000000

private def postEvents : List ArbCaps.Event :=
  [.bookUpdate "m1" "yes" (quotedAt [⟨"0.47", "1000"⟩] 0 "other" 1) "1"]

private def posted : MakerRebateArbStrategy :=
  postEvents.foldl (fun s e => (s.handle bidText e).2) ttlStart

private def postedPair : PendingArb := ⟨"m1", "yes", "no", 531 / 100, 531 / 100 * (94 / 100), 0⟩

/-- Four shares of one token and none of the other: the four are sold and nothing is left. -/
theorem one_leg_is_unwound :
    posted.LeavesNoImbalance bidText (quotedAt [⟨"0.47", "1000"⟩] 120 "yes" 4) postedPair := by
  have hpending : posted.pendingArbs.lookup "m1" = some postedPair := by decide +kernel
  refine (expiry_leaves_no_imbalance_iff _ .default postEvents rfl hpending ?_ ?_ ?_).mpr ?_
  · decide +kernel
  · decide +kernel
  · decide +kernel
  · exact .inr (.inr (.inl ⟨by decide +kernel, by decide +kernel, by decide +kernel, by decide +kernel⟩))

/-- A whole leg without a bid, and two shares of a leg with one: either pair is forgotten and the shares are kept. -/
theorem unsold_leg_is_forgotten :
    posted.pendingArbs.lookup "m1" = some postedPair ∧
      ¬posted.LeavesNoImbalance bidText (quotedAt [] 120 "yes" (531 / 100)) postedPair ∧
      ¬posted.LeavesNoImbalance bidText (quotedAt [⟨"0.47", "1000"⟩] 120 "yes" 2) postedPair := by
  have hforgotten : ∀ ctx, (posted.onTick bidText ctx).2.pendingArbs.lookup "m1" = none →
      (ctx.position "yes").shares ≠ (ctx.position "no").shares → posted.unwindsOf bidText ctx postedPair = [] →
      ¬posted.LeavesNoImbalance bidText ctx postedPair := by
    intro ctx hdropped hne hnone hleaves
    rcases hleaves hdropped with hequal | ⟨hsales, -⟩
    · exact hne hequal
    · exact hsales hnone
  refine ⟨by decide +kernel, ?_, ?_⟩
  · exact hforgotten _ (by decide +kernel) (by decide +kernel) (by decide +kernel)
  · exact hforgotten _ (by decide +kernel) (by decide +kernel) (by decide +kernel)

end PolyBot.MakerRebateArbStrategy
