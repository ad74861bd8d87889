import PolyBot.Strategy.ArbSizing
import PolyBot.Strategy.EdgeCalculator
import PolyBot.Strategy.MarketPair

namespace PolyBot
open General.KeyedStore

structure MakerRebateConfig where
  minEdge : Decimal
  limits : SizingLimits
  cooldownMs : ℕ
  ttlSecs : ℕ
  deriving DecidableEq, Repr

def MakerRebateConfig.default : MakerRebateConfig := ⟨5 / 1000, ⟨500, 1, 5, 2000⟩, 5000, 120⟩

structure PendingArb where
  conditionId : ConditionId
  yesTokenId : TokenId
  noTokenId : TokenId
  size : Decimal
  reservedNotional : Decimal
  postedAt : Instant
  deriving DecidableEq, Repr

structure MakerRebateArbStrategy where
  config : MakerRebateConfig
  registry : MarketPairRegistry
  edgeCalculator : EdgeConfig
  enabled : Bool
  lastTrade : Store ConditionId Instant
  tradeCount : ℕ
  currentExposure : Decimal
  pendingArbs : Store ConditionId PendingArb

namespace MakerRebateArbStrategy

def withConfig (registry : MarketPairRegistry) (config : MakerRebateConfig) : MakerRebateArbStrategy where
  config := config
  registry := registry
  edgeCalculator := .maker
  enabled := true
  lastTrade := ∅
  tradeCount := 0
  currentExposure := 0
  pendingArbs := ∅

def isOnCooldown (s : MakerRebateArbStrategy) (conditionId : ConditionId) (now : Instant) : Bool :=
  match s.lastTrade.lookup conditionId with
  | none => false
  | some last => last.elapsed now / Duration.fromMillis 1 < s.config.cooldownMs

def hasPendingArb (s : MakerRebateArbStrategy) (conditionId : ConditionId) : Bool :=
  (s.pendingArbs.lookup conditionId).isSome

def setEnabled (s : MakerRebateArbStrategy) (enabled : Bool) : MakerRebateArbStrategy := { s with enabled := enabled }

/-- One tick below the ask but not below the bid, cut down to the tick. -/
def makerPrice (bestAsk bestBid tickSize : Decimal) : Decimal :=
  let raw := max (bestAsk - tickSize) bestBid
  if tickSize = 0 then raw else ⌊raw / tickSize⌋ * tickSize

def leg (pair : MarketPair) (groupId : String) (tokenId : TokenId) (post size : Decimal) : OrderIntent :=
  (((OrderIntent.new pair.conditionId tokenId .Buy post size .Passive "MakerRebateArbStrategy").withGroup
    groupId).withPriority 90).withTickSize pair.tickSize

def recordPosted (s : MakerRebateArbStrategy) (pair : MarketPair) (size totalNotional : Decimal) (now : Instant) :
    MakerRebateArbStrategy :=
  { s with
    pendingArbs := s.pendingArbs.insert pair.conditionId
      ⟨pair.conditionId, pair.yesTokenId, pair.noTokenId, size, totalNotional, now⟩
    lastTrade := s.lastTrade.insert pair.conditionId now
    tradeCount := s.tradeCount + 1
    currentExposure := s.currentExposure + totalNotional }

variable (parse : String → Option Decimal)

def postedPrices (pair : MarketPair) (yesBook noBook : BookSnapshot) : Option (Decimal × Decimal) := do
  let yesAsk ← yesBook.bestAsk parse
  let yesBid ← yesBook.bestBid parse
  let noAsk ← noBook.bestAsk parse
  let noBid ← noBook.bestBid parse
  pure (makerPrice yesAsk yesBid pair.tickSize, makerPrice noAsk noBid pair.tickSize)

/-- The two legs of an opportunity and the strategy after posting them; `uuid` names the group. -/
def checkArbOpportunity (s : MakerRebateArbStrategy) (pair : MarketPair) (ctx : StrategyContext) (uuid : String) :
    Option (List OrderIntent × MakerRebateArbStrategy) :=
  match ctx.books.getBook pair.yesTokenId, ctx.books.getBook pair.noTokenId with
  | some yesBook, some noBook =>
    if !yesBook.isTwoSided || !noBook.isTwoSided then none
    else match postedPrices parse pair yesBook noBook with
      | none => none
      | some (yesPost, noPost) =>
        let combinedCost := yesPost + noPost
        if 1 - combinedCost < s.config.minEdge then none
        else
          let edgeCalc := s.edgeCalculator.calculate parse yesBook noBook pair.feeRateBps s.config.limits.minPositionSize
          if edgeCalc.isProfitable = false then none
          else
            let tradeSize :=
              s.config.limits.tradeSize edgeCalc.maxSize s.currentExposure ctx.availableCash combinedCost
            if tradeSize < s.config.limits.effectiveMin yesPost noPost then none
            else
              let totalNotional := combinedCost * tradeSize
              if s.config.limits.maxTotalExposure < s.currentExposure + totalNotional then none
              else
                let groupId := "maker-arb-" ++ uuid
                some ([leg pair groupId pair.yesTokenId yesPost tradeSize,
                    leg pair groupId pair.noTokenId noPost tradeSize],
                  s.recordPosted pair tradeSize totalNotional ctx.now)
  | _, _ => none

def onBookUpdate (s : MakerRebateArbStrategy) (marketId : ConditionId) (tokenId : TokenId) (ctx : StrategyContext)
    (uuid : String) : List OrderIntent × MakerRebateArbStrategy :=
  if s.enabled = false then ([], s)
  else match s.registry.getByToken tokenId with
    | none => ([], s)
    | some pair =>
      if pair.conditionId ≠ marketId then ([], s)
      else if s.hasPendingArb marketId then ([], s)
      else if s.isOnCooldown marketId ctx.now then ([], s)
      else (s.checkArbOpportunity parse pair ctx uuid).getD ([], s)

def onFill (s : MakerRebateArbStrategy) (f : Fill) : MakerRebateArbStrategy :=
  match f.side with
  | .Sell => { s with currentExposure := max (s.currentExposure - f.notional) 0 }
  | .Buy => s

def unwindLeg (ctx : StrategyContext) (p : PendingArb) (tokenId : TokenId) (shares : Decimal) : List OrderIntent :=
  match ctx.bestBid parse tokenId with
  | none => []
  | some bid =>
    [(OrderIntent.new p.conditionId tokenId .Sell bid shares .Immediate "MakerRebateArbStrategy").withPriority 255]

/-- The exposure reserved for a pair of which neither leg filled is given back. -/
def releaseReserved (s : MakerRebateArbStrategy) (p : PendingArb) : MakerRebateArbStrategy :=
  { s with currentExposure := max (s.currentExposure - p.reservedNotional) 0 }

/-- What becomes of one expired pair: a leg counts as filled from half the expected size on. -/
def expireArb (s : MakerRebateArbStrategy) (ctx : StrategyContext) (p : PendingArb) :
    List OrderIntent × MakerRebateArbStrategy :=
  let yesPos := (ctx.position p.yesTokenId).shares
  let noPos := (ctx.position p.noTokenId).shares
  let threshold := p.size / 2
  match decide (threshold ≤ yesPos), decide (threshold ≤ noPos) with
  | true, false => (unwindLeg parse ctx p p.yesTokenId yesPos, s)
  | false, true => (unwindLeg parse ctx p p.noTokenId noPos, s)
  | true, true => ([], s)
  | false, false => ([], s.releaseReserved p)

def expiredArbs (s : MakerRebateArbStrategy) (now : Instant) : List PendingArb :=
  (values s.pendingArbs).filter fun p => s.config.ttlSecs ≤ p.postedAt.elapsedSecs now

def expireAll (ctx : StrategyContext) : MakerRebateArbStrategy → List PendingArb →
    List OrderIntent × MakerRebateArbStrategy
  | s, [] => ([], s)
  | s, p :: rest =>
    let (unwinds, s') := s.expireArb parse ctx p
    let (more, s'') := expireAll ctx s' rest
    (unwinds ++ more, s'')

def onTick (s : MakerRebateArbStrategy) (ctx : StrategyContext) : List OrderIntent × MakerRebateArbStrategy :=
  if s.enabled = false then ([], s)
  else
    let expired := s.expiredArbs ctx.now
    let (unwinds, s') := expireAll parse ctx s expired
    (unwinds, { s' with pendingArbs := (expired.map (·.conditionId)).foldl (fun m id => m.erase id) s'.pendingArbs })

/-- The sale of a leg, if any, is for the shares given and at the bid. -/
theorem mem_unwindLeg_iff {ctx : StrategyContext} {p : PendingArb} {tokenId : TokenId} {shares : Decimal}
    {i : OrderIntent} :
    i ∈ unwindLeg parse ctx p tokenId shares ↔ ∃ bid, ctx.bestBid parse tokenId = some bid ∧
      i = (OrderIntent.new p.conditionId tokenId .Sell bid shares .Immediate "MakerRebateArbStrategy").withPriority
        255 := by
  unfold unwindLeg
  cases ctx.bestBid parse tokenId with
  | none => simp
  | some bid => simp

/-- What the checks before an emission establish, at the posted prices and the size emitted. -/
structure Opportunity (s : MakerRebateArbStrategy) (pair : MarketPair) (ctx : StrategyContext)
    (yesBook noBook : BookSnapshot) (yesPost noPost size : Decimal) : Prop where
  yes_book : ctx.books.getBook pair.yesTokenId = some yesBook
  no_book : ctx.books.getBook pair.noTokenId = some noBook
  posted : postedPrices parse pair yesBook noBook = some (yesPost, noPost)
  edge : s.config.minEdge ≤ 1 - (yesPost + noPost)
  profitable : (s.edgeCalculator.calculate parse yesBook noBook pair.feeRateBps
    s.config.limits.minPositionSize).isProfitable = true
  admitted : s.config.limits.Admits (EdgeConfig.minDepth parse yesBook noBook) s.currentExposure ctx.availableCash
    yesPost noPost size

/-- Everything an emission says: the checks it passed, its legs and the strategy after it. -/
theorem checkArbOpportunity_inv {s s' : MakerRebateArbStrategy} {pair : MarketPair} {ctx : StrategyContext}
    {uuid : String} {intents : List OrderIntent} (h : s.checkArbOpportunity parse pair ctx uuid = some (intents, s')) :
    ∃ yesBook noBook yesPost noPost size,
      s.Opportunity parse pair ctx yesBook noBook yesPost noPost size ∧
        intents = [leg pair ("maker-arb-" ++ uuid) pair.yesTokenId yesPost size,
          leg pair ("maker-arb-" ++ uuid) pair.noTokenId noPost size] ∧
        s' = s.recordPosted pair size ((yesPost + noPost) * size) ctx.now := by
  unfold checkArbOpportunity at h
  split at h
  · rename_i yesBook noBook hyes hno
    obtain ⟨-, h⟩ := Option.ite_none_left_eq_some.mp h
    split at h
    · cases h
    · rename_i yesPost noPost hposted
      -- the gates one after the other: the edge, the costs, the least size, the exposure
      obtain ⟨hedge, h⟩ := Option.ite_none_left_eq_some.mp h
      obtain ⟨hprofit, h⟩ := Option.ite_none_left_eq_some.mp h
      obtain ⟨hmin, h⟩ := Option.ite_none_left_eq_some.mp h
      obtain ⟨hlimit, h⟩ := Option.ite_none_left_eq_some.mp h
      cases h
      refine ⟨yesBook, noBook, yesPost, noPost, _, ⟨hyes, hno, hposted, not_lt.mp hedge, ?_, rfl, ?_, ?_⟩, rfl, rfl⟩
      · exact eq_true_of_ne_false hprofit
      · exact not_lt.mp hmin
      · exact not_lt.mp hlimit
  · cases h

/-- A book update changes nothing, or it is an emission. -/
theorem onBookUpdate_cases (s : MakerRebateArbStrategy) (marketId : ConditionId) (tokenId : TokenId)
    (ctx : StrategyContext) (uuid : String) :
    s.onBookUpdate parse marketId tokenId ctx uuid = ([], s) ∨
      ∃ pair intents s', s.registry.getByToken tokenId = some pair ∧
        s.isOnCooldown pair.conditionId ctx.now = false ∧
        s.checkArbOpportunity parse pair ctx uuid = some (intents, s') ∧
        s.onBookUpdate parse marketId tokenId ctx uuid = (intents, s') := by
  unfold onBookUpdate
  split
  · exact .inl rfl
  · split
    · exact .inl rfl
    · rename_i pair hpair
      split_ifs with hother hpending hcooldown
      · exact .inl rfl
      · exact .inl rfl
      · exact .inl rfl
      · have hready : s.isOnCooldown pair.conditionId ctx.now = false := by
          rw [not_not.mp hother]
          exact eq_false_of_ne_true hcooldown
        cases hcheck : s.checkArbOpportunity parse pair ctx uuid with
        | none => exact .inl rfl
        | some emitted => exact .inr ⟨pair, emitted.1, emitted.2, hpair, hready, hcheck, rfl⟩

end MakerRebateArbStrategy

end PolyBot
