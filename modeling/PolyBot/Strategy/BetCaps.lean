import PolyBot.Strategy.Entries

/-! What the orders of each strategy can be worth: each sizes by a cap of its own, fixed when it is built. -/

namespace PolyBot

def StrategyContext.PricesNonneg (parse : String → Option Decimal) (ctx : StrategyContext) : Prop :=
  ∀ t price, ctx.bestAsk parse t = some price ∨ ctx.bestBid parse t = some price → 0 ≤ price

/-- No price is negative where no text reads as a negative number. -/
theorem StrategyContext.PricesNonneg.of_parse {parse : String → Option Decimal}
    (hparse : ∀ text price, parse text = some price → 0 ≤ price) (ctx : StrategyContext) : ctx.PricesNonneg parse := by
  rintro t price (hask | hbid)
  · obtain ⟨book, -, hlevel⟩ := Option.bind_eq_some_iff.mp hask
    obtain ⟨level, -, hprice⟩ := Option.bind_eq_some_iff.mp hlevel
    exact hparse level.price price hprice
  · obtain ⟨book, -, hlevel⟩ := Option.bind_eq_some_iff.mp hbid
    obtain ⟨level, -, hprice⟩ := Option.bind_eq_some_iff.mp hlevel
    exact hparse level.price price hprice

theorem roundUpToTick_nonneg {price : Decimal} (h : 0 ≤ price) (tickSize : Decimal) :
    0 ≤ roundUpToTick price tickSize := by
  unfold roundUpToTick
  split_ifs
  · exact h
  · rcases le_total 0 tickSize with htick | htick
    · have hceil : (0 : ℤ) ≤ ⌈price / tickSize⌉ := Int.ceil_nonneg (div_nonneg h htick)
      exact mul_nonneg (by exact_mod_cast hceil) htick
    · have hratio : price / tickSize ≤ (0 : ℤ) := by exact_mod_cast div_nonpos_of_nonneg_of_nonpos h htick
      have hceil : ⌈price / tickSize⌉ ≤ (0 : ℤ) := Int.ceil_le.mpr hratio
      exact mul_nonneg_of_nonpos_of_nonpos (by exact_mod_cast hceil) htick

/-- Legs that are not negative cost no more each than the bet that they keep to together. -/
theorem SizingLimits.Admits.leg_le_maxBetUsd {lim : SizingLimits} {depth exposure cash yesPrice noPrice size : Decimal}
    (h : lim.Admits depth exposure cash yesPrice noPrice size) (hyes : 0 ≤ yesPrice) (hno : 0 ≤ noPrice) :
    yesPrice * size ≤ lim.maxBetUsd ∧ noPrice * size ≤ lim.maxBetUsd := by
  have hboth := h.cost_le_maxBetUsd
  have hsize := h.size_pos.le
  rw [add_mul] at hboth
  exact ⟨(le_add_of_nonneg_right (mul_nonneg hno hsize)).trans hboth,
    (le_add_of_nonneg_left (mul_nonneg hyes hsize)).trans hboth⟩

/-- What a bet buys, cut to two decimals, is worth no more than the bet. -/
theorem truncDp_two_worth_le {bet ask : Decimal} (hask : 0 ≤ ask) (hpos : 0 < Decimal.truncDp 2 (bet / ask)) :
    ask * Decimal.truncDp 2 (bet / ask) ≤ bet := by
  have hratio : 0 ≤ bet / ask := by
    by_contra hneg
    rw [Decimal.truncDp, if_neg hneg] at hpos
    have hceil : ⌈bet / ask * 10 ^ 2⌉ ≤ (0 : ℤ) := Int.ceil_le.mpr (by norm_num; linarith)
    have hcast : ((⌈bet / ask * 10 ^ 2⌉ : ℤ) : Decimal) ≤ 0 := by exact_mod_cast hceil
    exact hpos.not_ge (div_nonpos_of_nonpos_of_nonneg hcast (by norm_num))
  have hsome : ask ≠ 0 := by
    rintro rfl
    rw [div_zero] at hpos
    exact hpos.not_ge (Decimal.truncDp_two_le le_rfl)
  calc ask * Decimal.truncDp 2 (bet / ask) ≤ ask * (bet / ask) :=
        mul_le_mul_of_nonneg_left (Decimal.truncDp_two_le hratio) hask
    _ = bet := mul_div_cancel₀ bet hsome

theorem entrySize_worth_le {bet least ask shares : Decimal} (hask : 0 ≤ ask)
    (h : entrySize bet least ask = some shares) : ask * shares ≤ bet := by
  unfold entrySize at h
  dsimp only at h
  split_ifs at h with hnone hsmall
  cases h
  exact truncDp_two_worth_le hask (not_le.mp hnone)

/-- Cutting to two decimals takes less than a hundredth away. -/
theorem Decimal.lt_truncDp_two_add {x : Decimal} (h : 0 ≤ x) : x < truncDp 2 x + 1 / 100 := by
  rw [truncDp, if_pos h, ← sub_lt_iff_lt_add, lt_div_iff₀ (by norm_num), sub_mul]
  exact (le_of_eq (by norm_num)).trans_lt (Int.sub_one_lt_floor _)

/-- Rounding up to two decimals adds less than a hundredth. -/
theorem Decimal.awayDp_two_le (x : Decimal) : awayDp 2 x ≤ x + 1 / 100 := by
  unfold awayDp
  split_ifs
  · rw [div_le_iff₀ (by norm_num), add_mul]
    exact (Int.ceil_lt_add_one _).le.trans_eq (by norm_num)
  · rw [div_le_iff₀ (by norm_num), add_mul]
    exact (Int.floor_le _).trans (le_add_of_nonneg_right (by norm_num))

namespace MathArbStrategy
variable {parse : String → Option Decimal}

/-- Each leg of an opportunity is worth no more than the bet. -/
theorem onBookUpdate_worth_le {s : MathArbStrategy} {marketId : ConditionId} {tokenId : TokenId}
    {ctx : StrategyContext} {uuid : String} {i : OrderIntent} (hprices : ctx.PricesNonneg parse)
    (h : i ∈ (s.onBookUpdate parse marketId tokenId ctx uuid).1) : i.notional ≤ s.config.limits.maxBetUsd := by
  rcases s.onBookUpdate_cases parse marketId tokenId ctx uuid with hnone | ⟨pair, intents, s', -, -, hcheck, hnext⟩
  · rw [hnone] at h
    cases h
  · obtain ⟨yesBook, noBook, yesRaw, noRaw, size, hopp, hlegs, -⟩ := checkArbOpportunity_inv parse hcheck
    rw [hnext, hlegs] at h
    have hyes : 0 ≤ yesRaw := hprices pair.yesTokenId yesRaw (.inl (by
      rw [StrategyContext.bestAsk, OrderBookState.bestAsk, hopp.yes_book]
      exact hopp.yes_ask))
    have hno : 0 ≤ noRaw := hprices pair.noTokenId noRaw (.inl (by
      rw [StrategyContext.bestAsk, OrderBookState.bestAsk, hopp.no_book]
      exact hopp.no_ask))
    have hworth := hopp.admitted.leg_le_maxBetUsd (roundUpToTick_nonneg hyes pair.tickSize)
      (roundUpToTick_nonneg hno pair.tickSize)
    simp only [List.mem_cons, List.not_mem_nil, or_false] at h
    rcases h with rfl | rfl
    · exact hworth.1
    · exact hworth.2

end MathArbStrategy

namespace MakerRebateArbStrategy
variable {parse : String → Option Decimal}

theorem makerPrice_nonneg {bestBid : Decimal} (h : 0 ≤ bestBid) (bestAsk tickSize : Decimal) :
    0 ≤ makerPrice bestAsk bestBid tickSize := by
  have hraw : 0 ≤ max (bestAsk - tickSize) bestBid := h.trans (le_max_right _ _)
  unfold makerPrice
  dsimp only
  split_ifs
  · exact hraw
  · rcases le_total 0 tickSize with htick | htick
    · have hfloor : (0 : ℤ) ≤ ⌊max (bestAsk - tickSize) bestBid / tickSize⌋ :=
        Int.floor_nonneg.mpr (div_nonneg hraw htick)
      exact mul_nonneg (by exact_mod_cast hfloor) htick
    · have hfloor : ((⌊max (bestAsk - tickSize) bestBid / tickSize⌋ : ℤ) : Decimal) ≤ 0 :=
        (Int.floor_le _).trans (div_nonpos_of_nonneg_of_nonpos hraw htick)
      exact mul_nonneg_of_nonpos_of_nonpos hfloor htick

theorem postedPrices_nonneg {pair : MarketPair} {ctx : StrategyContext} {yesBook noBook : BookSnapshot}
    {yesPost noPost : Decimal} (hprices : ctx.PricesNonneg parse)
    (hyes : ctx.books.getBook pair.yesTokenId = some yesBook) (hno : ctx.books.getBook pair.noTokenId = some noBook)
    (h : postedPrices parse pair yesBook noBook = some (yesPost, noPost)) : 0 ≤ yesPost ∧ 0 ≤ noPost := by
  simp only [postedPrices, Option.bind_eq_bind, Option.bind_eq_some_iff, Option.pure_def, Option.some.injEq,
    Prod.mk.injEq] at h
  obtain ⟨yesAsk, -, yesBid, hyesBid, noAsk, -, noBid, hnoBid, rfl, rfl⟩ := h
  have hyesNonneg : 0 ≤ yesBid := hprices pair.yesTokenId yesBid (.inr (by
    rw [StrategyContext.bestBid, OrderBookState.bestBid, hyes]
    exact hyesBid))
  have hnoNonneg : 0 ≤ noBid := hprices pair.noTokenId noBid (.inr (by
    rw [StrategyContext.bestBid, OrderBookState.bestBid, hno]
    exact hnoBid))
  exact ⟨makerPrice_nonneg hyesNonneg yesAsk pair.tickSize, makerPrice_nonneg hnoNonneg noAsk pair.tickSize⟩

/-- Each leg of a posted pair is worth no more than the bet. -/
theorem onBookUpdate_worth_le {s : MakerRebateArbStrategy} {marketId : ConditionId} {tokenId : TokenId}
    {ctx : StrategyContext} {uuid : String} {i : OrderIntent} (hprices : ctx.PricesNonneg parse)
    (h : i ∈ (s.onBookUpdate parse marketId tokenId ctx uuid).1) : i.notional ≤ s.config.limits.maxBetUsd := by
  rcases s.onBookUpdate_cases parse marketId tokenId ctx uuid with hnone | ⟨pair, intents, s', -, -, hcheck, hnext⟩
  · rw [hnone] at h
    cases h
  · obtain ⟨yesBook, noBook, yesPost, noPost, size, hopp, hlegs, -⟩ := checkArbOpportunity_inv parse hcheck
    rw [hnext, hlegs] at h
    obtain ⟨hyes, hno⟩ := postedPrices_nonneg hprices hopp.yes_book hopp.no_book hopp.posted
    have hworth := hopp.admitted.leg_le_maxBetUsd hyes hno
    simp only [List.mem_cons, List.not_mem_nil, or_false] at h
    rcases h with rfl | rfl
    · exact hworth.1
    · exact hworth.2

end MakerRebateArbStrategy

/-- An entry of a timed strategy spends no more than its bet. -/
theorem ExitRules.OneBuy.worth_le {parse : String → Option Decimal} {ctx : StrategyContext}
    {maxBetUsd minBetUsd : Decimal} {rules : ExitRules} {tokenId : TokenId} {pair : MarketPair}
    {intents : List OrderIntent} (h : rules.OneBuy parse ctx maxBetUsd minBetUsd tokenId pair intents)
    (hprices : ctx.PricesNonneg parse) : ∀ i ∈ intents, i.notional ≤ maxBetUsd := by
  obtain ⟨ask, shares, hask, hshares, rfl⟩ := h
  intro i hi
  rw [List.mem_singleton.mp hi]
  exact entrySize_worth_le (hprices tokenId ask (.inl hask)) hshares

namespace LateEntryStrategy
variable {parse : String → Option Decimal} {registry : MarketPairRegistry}

def betCap (s : LateEntryStrategy) : Decimal :=
  if 101 / 100 ≤ s.config.maxBetUsd then s.config.maxBetUsd else max s.config.maxBetUsd 0 + 1 / 100

theorem shares_worth_le (s : LateEntryStrategy) {ask : Decimal} (hask : 0 ≤ ask) (hcertain : ask < 99 / 100) :
    ask * s.shares ask ≤ s.betCap := by
  have hcent : ask * (1 / 100) ≤ 1 / 100 := by linarith
  have hbet : s.config.maxBetUsd ≤ s.betCap := by
    unfold betCap
    split_ifs
    · exact le_rfl
    · exact (le_max_left _ 0).trans (le_add_of_nonneg_right (by norm_num))
  unfold shares
  dsimp only
  split_ifs with hsmall
  · rcases hask.eq_or_lt with rfl | hpos
    · rw [zero_mul]
      unfold betCap
      split_ifs with hlarge
      · linarith
      · exact add_nonneg (le_max_right _ 0) (by norm_num)
    · have hbuys : ask * (s.config.maxBetUsd / ask) = s.config.maxBetUsd := mul_div_cancel₀ _ hpos.ne'
      have hless : s.config.maxBetUsd < 101 / 100 := by
        by_contra hlarge
        have hratio : 0 ≤ s.config.maxBetUsd / ask := div_nonneg (by linarith) hask
        -- the cut leaves more than a dollar's worth
        have hcut := mul_lt_mul_of_pos_left (Decimal.lt_truncDp_two_add hratio) hpos
        rw [mul_add, hbuys] at hcut
        linarith
      have haway := mul_le_mul_of_nonneg_left (Decimal.awayDp_two_le (s.config.maxBetUsd / ask)) hask
      rw [mul_add, hbuys] at haway
      rw [betCap, if_neg (not_le.mpr hless), mul_max_of_nonneg _ _ hask]
      refine max_le ?_ (hcent.trans (le_add_of_nonneg_left (le_max_right _ 0)))
      exact haway.trans (add_le_add (le_max_left _ 0) hcent)
  · have hpos : 0 < Decimal.truncDp 2 (s.config.maxBetUsd / ask) := by
      by_contra hnone
      exact hsmall ((mul_nonpos_of_nonpos_of_nonneg (not_lt.mp hnone) hask).trans_lt one_pos)
    exact (truncDp_two_worth_le hask hpos).trans hbet

/-- An entry spends no more than the bet, but for the rounding up. -/
theorem onBookUpdate_worth_le {s : LateEntryStrategy} {tokenId : TokenId} {ctx : StrategyContext} {utcNow : ℕ}
    {i : OrderIntent} (hprices : ctx.PricesNonneg parse)
    (h : i ∈ (s.onBookUpdate parse registry tokenId ctx utcNow).1) : i.notional ≤ s.betCap := by
  obtain ⟨_, tokenId, ask, -, hask, hcertain, rfl⟩ :=
    (s.onBookUpdate_tried parse registry ctx tokenId utcNow).bought i h
  exact s.shares_worth_le (hprices tokenId ask (.inl hask)) hcertain

end LateEntryStrategy

def ExitStrategy.betCap : ExitStrategy → Decimal
  | contrarian s => s.config.maxBetUsd
  | tboTrend s => s.config.maxBetUsd
  | tbtDivergence s => s.config.maxBetUsd
  | lateEntry s => s.betCap

namespace AllStrategies.Strategy
variable {parse : String → Option Decimal} {assetSymbol : MarketPair → Option String}

def betCap : Strategy → Decimal
  | mathArb s => s.config.limits.maxBetUsd
  | makerRebateArb s => s.config.limits.maxBetUsd
  | temporalArb s => s.betCap
  | exit s => s.betCap

/-- No strategy orders more on a book update than its own cap allows. -/
theorem onBookUpdate_worth_le {s : Strategy} {around : Surroundings} {marketId : ConditionId} {tokenId : TokenId}
    {i : OrderIntent} (hprices : around.ctx.PricesNonneg parse)
    (h : i ∈ (s.onBookUpdate parse assetSymbol around marketId tokenId).1) : i.notional ≤ s.betCap := by
  cases s with
  | mathArb s => exact MathArbStrategy.onBookUpdate_worth_le (s := { s with registry := around.registry }) hprices h
  | makerRebateArb s =>
    exact MakerRebateArbStrategy.onBookUpdate_worth_le (s := { s with registry := around.registry }) hprices h
  | temporalArb s =>
    obtain ⟨_, -, _, ask, -, hbuy⟩ := (s.onBookUpdate_enters parse marketId tokenId around.ctx assetSymbol
      around.registry around.prices).1.exists_pair h
    have hone : i ∈ [_] := hbuy ▸ h
    rw [List.mem_singleton.mp hone]
    exact s.tradeSize_worth_le ask
  | exit s =>
    cases s with
    | contrarian s | tboTrend s | tbtDivergence s =>
      obtain ⟨_, -, hbuy⟩ := (s.onBookUpdate_enters parse around.registry tokenId around.ctx).1.exists_pair h
      exact hbuy.worth_le hprices i h
    | lateEntry s => exact LateEntryStrategy.onBookUpdate_worth_le hprices h

end AllStrategies.Strategy

end PolyBot
