import PolyBot.Strategy.TemporalArb

/-! The two directions of the temporal arbitrage: a market seen from its other token after the opposite move. -/

namespace PolyBot
open General.KeyedStore

def OrderBookState.swapBooks (a b : TokenId) (books : OrderBookState) : OrderBookState :=
  ⟨books.entries.map fun e => ⟨Equiv.swap a b e.1, e.2⟩, by
    have hkeys : (books.entries.map fun e => (⟨Equiv.swap a b e.1, e.2⟩ : Sigma fun _ : TokenId => BookSnapshot)).keys =
        books.keys.map (Equiv.swap a b) := by
      simp [List.keys, AList.keys, Function.comp_def]
    rw [List.NodupKeys, hkeys]
    exact books.keys_nodup.map (Equiv.swap a b).injective⟩

theorem OrderBookState.getBook_swapBooks (a b : TokenId) (books : OrderBookState) (t : TokenId) :
    (books.swapBooks a b).getBook t = books.getBook (Equiv.swap a b t) := by
  refine Option.ext fun book => ?_
  constructor
  · intro h
    obtain ⟨⟨u, other⟩, hmem, heq⟩ := List.mem_map.mp (AList.mem_lookup_iff.mp h)
    cases heq
    exact AList.mem_lookup_iff.mpr (by rwa [Equiv.swap_apply_self])
  · intro h
    refine AList.mem_lookup_iff.mpr (List.mem_map.mpr ⟨⟨Equiv.swap a b t, book⟩, AList.mem_lookup_iff.mp h, ?_⟩)
    rw [Equiv.swap_apply_self]

def StrategyContext.swapBooks (a b : TokenId) (ctx : StrategyContext) : StrategyContext :=
  { ctx with books := ctx.books.swapBooks a b }

theorem StrategyContext.bestAsk_swapBooks (parse : String → Option Decimal) (a b : TokenId) (ctx : StrategyContext)
    (t : TokenId) : (ctx.swapBooks a b).bestAsk parse t = ctx.bestAsk parse (Equiv.swap a b t) := by
  unfold StrategyContext.bestAsk OrderBookState.bestAsk
  exact congrArg (Option.bind · (·.bestAsk parse)) (OrderBookState.getBook_swapBooks a b ctx.books t)

def MarketPair.swapTokens (p : MarketPair) : MarketPair :=
  { p with yesTokenId := p.noTokenId, noTokenId := p.yesTokenId }

def ExternalPriceStore.opposite (prices : ExternalPriceStore) : ExternalPriceStore :=
  mapValues (fun _ r => { r with changeBps := -r.changeBps }) prices

def MarketPair.mirror (p : MarketPair) (i : OrderIntent) : OrderIntent :=
  { i with tokenId := Equiv.swap p.yesTokenId p.noTokenId i.tokenId }

namespace TemporalArbStrategy
variable {s : TemporalArbStrategy}

theorem estimateFairYes_mono (hsensitivity : 0 < s.config.sensitivityBps) {x y : ℤ} (hxy : x ≤ y) :
    s.estimateFairYes x ≤ s.estimateFairYes y := by
  have hscale : (0 : Decimal) < s.config.sensitivityBps := by exact_mod_cast hsensitivity
  have hmoves : (x : Decimal) ≤ y := by exact_mod_cast hxy
  have hratio := div_le_div_of_nonneg_right hmoves hscale.le
  exact min_le_min_right _ (max_le_max_right _ (by linarith))

theorem estimateFairYes_mem (s : TemporalArbStrategy) (x : ℤ) :
    s.estimateFairYes x ∈ Set.Icc (5 / 100 : Decimal) (95 / 100) :=
  ⟨le_min (le_max_right _ _) (by norm_num), min_le_right _ _⟩

/-- The bounds of the fair value lie as far from a half on both sides. -/
theorem estimateFairYes_neg (s : TemporalArbStrategy) (x : ℤ) : s.estimateFairYes (-x) = 1 - s.estimateFairYes x := by
  unfold estimateFairYes
  rw [Int.cast_neg, neg_div]
  generalize (x : Decimal) / s.config.sensitivityBps = adjustment
  rcases le_total (1 / 2 + adjustment) (5 / 100) with hlow | hlow
  · have hfair : max (1 / 2 + -adjustment) (5 / 100) = 1 / 2 + -adjustment := max_eq_left (by linarith)
    rw [max_eq_right hlow, hfair, min_eq_right (by linarith), min_eq_left (by norm_num)]
    norm_num
  · rw [max_eq_left hlow]
    rcases le_total (1 / 2 + adjustment) (95 / 100) with hhigh | hhigh
    · rw [min_eq_left hhigh, max_eq_left (by linarith), min_eq_left (by linarith)]
      ring
    · rw [min_eq_right hhigh, max_eq_right (by linarith), min_eq_left (by norm_num)]
      norm_num

/-- The token that an upward move makes too cheap is the one that the downward move makes so in the other role. -/
theorem staleToken_neg {pair pair' : MarketPair} {g : TokenId → TokenId} (hyes : g pair.yesTokenId = pair'.noTokenId)
    (hno : g pair.noTokenId = pair'.yesTokenId) {x : ℤ} (hmove : x ≠ 0) (yesAsk noAsk : Decimal) :
    s.staleToken pair' (-x) noAsk yesAsk = (s.staleToken pair x yesAsk noAsk).map (Prod.map g id) := by
  unfold staleToken
  dsimp only
  rw [estimateFairYes_neg, sub_sub_cancel]
  rcases hmove.lt_or_gt with hdown | hup
  · have hopposite : 0 < -x := by omega
    rw [if_pos hopposite, if_neg hdown.not_gt]
    split_ifs
    · rfl
    · rw [Option.map_some, Prod.map, hno]
      rfl
  · have hopposite : ¬0 < -x := by omega
    rw [if_neg hopposite, if_pos hup]
    split_ifs
    · rfl
    · rw [Option.map_some, Prod.map, hyes]
      rfl

section Mirror
variable {parse : String → Option Decimal} {assetSymbol : MarketPair → Option String}

theorem lookup_opposite (prices : ExternalPriceStore) (symbol : String) :
    prices.opposite.lookup symbol = (prices.lookup symbol).map fun r => { r with changeBps := -r.changeBps } :=
  lookup_mapValues _ _ _

/-- The opposite move, met by the same asks under exchanged roles, makes the purchase of the token in the other role. -/
theorem checkOpportunity_opposite (hthreshold : 0 < s.config.thresholdBps) {pair pair' : MarketPair}
    {g : TokenId → TokenId} (hcondition : pair'.conditionId = pair.conditionId)
    (hsymbol : assetSymbol pair' = assetSymbol pair) (hyes : g pair.yesTokenId = pair'.noTokenId)
    (hno : g pair.noTokenId = pair'.yesTokenId) {ctx ctx' : StrategyContext} (hnow : ctx'.now = ctx.now)
    (hyesAsk : ctx'.bestAsk parse pair'.yesTokenId = ctx.bestAsk parse pair.noTokenId)
    (hnoAsk : ctx'.bestAsk parse pair'.noTokenId = ctx.bestAsk parse pair.yesTokenId) (prices : ExternalPriceStore) :
    s.checkOpportunity parse assetSymbol prices.opposite pair' ctx' =
      (s.checkOpportunity parse assetSymbol prices pair ctx).map
        (Prod.map (fun i => { i with tokenId := g i.tokenId }) id) := by
  simp only [checkOpportunity, Option.bind_eq_bind, Option.map_bind, Option.bind_map, Function.comp_def,
    ExternalPriceRecord.isFresh, abs_neg, lookup_opposite, hsymbol, hcondition, hnow, hyesAsk, hnoAsk]
  refine Option.bind_congr fun symbol _ => Option.bind_congr fun ext _ => Option.bind_congr fun _ _ =>
    Option.bind_congr fun _ hlarge => ?_
  have hmove : ext.changeBps ≠ 0 := by
    have := Option.guard_eq_some' _ |>.mp hlarge
    rintro hzero
    rw [hzero, abs_zero] at this
    omega
  rw [Option.bind_comm]
  refine Option.bind_congr fun yesAsk _ => Option.bind_congr fun noAsk _ => Option.bind_congr fun _ _ => ?_
  rw [staleToken_neg hyes hno hmove, Option.bind_map]
  refine Option.bind_congr fun stale _ => Option.bind_congr fun _ _ => ?_
  simp only [buy, OrderIntent.new, OrderIntent.withPriority, Option.pure_def, Option.map_some, Prod.map, id_eq,
    hcondition]

end Mirror

/-- Both directions of a move are traded alike: the estimate has a half as its centre, and the opposite move of a market
whose books are exchanged, or whose tokens are in each other's role, has the mirrored outcome. -/
theorem symmetric_in_outcome (s : TemporalArbStrategy) (hsensitivity : 0 < s.config.sensitivityBps)
    (hthreshold : 0 < s.config.thresholdBps) :
    (∀ x y, x ≤ y → s.estimateFairYes x ≤ s.estimateFairYes y) ∧
    (∀ x, s.estimateFairYes x ∈ Set.Icc (5 / 100 : Decimal) (95 / 100)) ∧
    (∀ x, s.estimateFairYes (-x) = 1 - s.estimateFairYes x) ∧
    ∀ (parse : String → Option Decimal) (assetSymbol : MarketPair → Option String) (prices : ExternalPriceStore)
      (pair : MarketPair) (ctx : StrategyContext),
      s.checkOpportunity parse assetSymbol prices.opposite pair (ctx.swapBooks pair.yesTokenId pair.noTokenId) =
        (s.checkOpportunity parse assetSymbol prices pair ctx).map (Prod.map pair.mirror id) ∧
      (assetSymbol pair.swapTokens = assetSymbol pair →
        s.checkOpportunity parse assetSymbol prices.opposite pair.swapTokens ctx =
          s.checkOpportunity parse assetSymbol prices pair ctx) := by
  refine ⟨fun _ _ => estimateFairYes_mono hsensitivity, s.estimateFairYes_mem, s.estimateFairYes_neg, ?_⟩
  intro parse assetSymbol prices pair ctx
  constructor
  · have hasks : ∀ t, (ctx.swapBooks pair.yesTokenId pair.noTokenId).bestAsk parse t =
        ctx.bestAsk parse (Equiv.swap pair.yesTokenId pair.noTokenId t) :=
      fun t => StrategyContext.bestAsk_swapBooks _ _ _ _ _
    have hyes : Equiv.swap pair.yesTokenId pair.noTokenId pair.yesTokenId = pair.noTokenId := Equiv.swap_apply_left _ _
    have hno : Equiv.swap pair.yesTokenId pair.noTokenId pair.noTokenId = pair.yesTokenId := Equiv.swap_apply_right _ _
    have hnow : (ctx.swapBooks pair.yesTokenId pair.noTokenId).now = ctx.now := rfl
    have hyesAsk := (hasks _).trans (congrArg (ctx.bestAsk parse) hyes)
    have hnoAsk := (hasks _).trans (congrArg (ctx.bestAsk parse) hno)
    exact checkOpportunity_opposite hthreshold rfl rfl hyes hno hnow hyesAsk hnoAsk prices
  · intro hsymbol
    have hcondition : pair.swapTokens.conditionId = pair.conditionId := rfl
    have hyes : id pair.yesTokenId = pair.swapTokens.noTokenId := rfl
    have hno : id pair.noTokenId = pair.swapTokens.yesTokenId := rfl
    rw [checkOpportunity_opposite hthreshold hcondition hsymbol hyes hno rfl rfl rfl prices]
    exact congrFun Option.map_id _

private def evenText (text : String) : Option Decimal :=
  if text = "0.50" then some (1 / 2) else if text = "40" then some 40 else none

private def evenBooks : StrategyContext where
  books := ((∅ : OrderBookState).insert "up" ⟨"up", "m1", [], [⟨"0.50", "40"⟩], none, none⟩).insert "down"
    ⟨"down", "m1", [], [⟨"0.50", "40"⟩], none, none⟩
  ledger := .new 1000
  now := Duration.fromSecs 1

private def upDown : MarketPair := .newUpDown "m1" "up" "down"

private def risen : ExternalPriceStore := (∅ : ExternalPriceStore).insert "BTC" ⟨Duration.fromSecs 0, 200⟩

private def opportunity (prices : ExternalPriceStore) (ctx : StrategyContext) :
    Option (OrderIntent × TemporalArbStrategy) :=
  (withConfig .default).checkOpportunity evenText (fun _ => some "BTC") prices upDown ctx

/-- After the rise the Up token is bought, and after the opposite move the Down token, for as much. -/
theorem default_symmetric_in_outcome :
    (∀ x y, x ≤ y → (withConfig .default).estimateFairYes x ≤ (withConfig .default).estimateFairYes y) ∧
    (∀ x, (withConfig .default).estimateFairYes (-x) = 1 - (withConfig .default).estimateFairYes x) ∧
    (opportunity risen evenBooks).map (fun emitted => (emitted.1.tokenId, emitted.1.size)) = some ("up", 400) ∧
    (opportunity risen.opposite (evenBooks.swapBooks "up" "down")).map
      (fun emitted => (emitted.1.tokenId, emitted.1.size)) = some ("down", 400) ∧
    opportunity risen.opposite (evenBooks.swapBooks "up" "down") =
      (opportunity risen evenBooks).map (Prod.map upDown.mirror id) := by
  have hdefault := symmetric_in_outcome (withConfig .default) (by decide) (by decide)
  have hmirror := (hdefault.2.2.2 evenText (fun _ => some "BTC") risen upDown evenBooks).1
  refine ⟨hdefault.1, hdefault.2.2.1, by decide +kernel, ?_, hmirror⟩
  rw [show opportunity risen.opposite (evenBooks.swapBooks "up" "down") = _ from hmirror]
  decide +kernel

end TemporalArbStrategy

end PolyBot
