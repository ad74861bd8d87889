import PolyBot.General.AdditiveRuns
import PolyBot.Ledger.Runs
import PolyBot.Strategy.MarketPair

/-! The position sync: each open position is compared with the wallet, zeroed when the wallet holds none of its tokens
and redeemed when its market has expired. Trades settle in the wallet some time after they are matched. -/

namespace PolyBot.Sync
open General.KeyedStore General.AdditiveRuns Ledger

/-- The fixed parts of the sync task. `conditionOf` is the market that a token belongs to; the pairs known at startup
name it rightly. -/
structure SyncTask where
  isU256 : TokenId → Bool
  conditionOf : TokenId → ConditionId
  startupPairs : List MarketPair
  hasSigner : Bool
  redeemEnabled : Bool
  named : ∀ pair ∈ startupPairs,
    conditionOf pair.yesTokenId = pair.conditionId ∧ conditionOf pair.noTokenId = pair.conditionId

structure RedeemRequest where
  conditionId : ConditionId
  shares : Decimal
  deriving DecidableEq, Repr

namespace SyncTask

def cacheFrom (pairs : List MarketPair) (cache : Store TokenId ConditionId) : Store TokenId ConditionId :=
  pairs.foldl (fun cache pair =>
    (cache.insert pair.yesTokenId pair.conditionId).insert pair.noTokenId pair.conditionId) cache

def tokenMarketCache (task : SyncTask) : Store TokenId ConditionId := cacheFrom task.startupPairs ∅

/-- The startup cache first, then the market service, which knows the market of a token or does not. -/
def conditionIdFor (task : SyncTask) (tokenId : TokenId) (gammaFinds : Bool) : Option ConditionId :=
  match task.tokenMarketCache.lookup tokenId with
  | some conditionId => some conditionId
  | none => if gammaFinds then some (task.conditionOf tokenId) else none

/-- The redemption that is attempted for a token, if nothing stands against it. -/
def claimRequest (task : SyncTask) (tokenId : TokenId) (onchainShares : Decimal) (gammaFinds : Bool) :
    Option RedeemRequest :=
  if task.hasSigner then
    match task.conditionIdFor tokenId gammaFinds with
    | none => none
    | some conditionId => if task.redeemEnabled then some ⟨conditionId, onchainShares⟩ else none
  else none

theorem lookup_cacheFrom (task : SyncTask) {pairs : List MarketPair} (hsub : ∀ pair ∈ pairs, pair ∈ task.startupPairs)
    {cache : Store TokenId ConditionId} (hcache : ∀ t c, cache.lookup t = some c → c = task.conditionOf t)
    {t : TokenId} {c : ConditionId} (h : (cacheFrom pairs cache).lookup t = some c) : c = task.conditionOf t := by
  induction pairs generalizing cache with
  | nil => exact hcache t c h
  | cons pair pairs ih =>
    obtain ⟨hyes, hno⟩ := task.named pair (hsub pair (by simp))
    refine ih (fun p hp => hsub p (by simp [hp])) ?_ h
    intro t c hlookup
    exact forall_lookup_insert (fun _ _ => forall_lookup_insert hcache hyes.symm) hno.symm hlookup

theorem conditionIdFor_eq {task : SyncTask} {t : TokenId} {gammaFinds : Bool} {c : ConditionId}
    (h : task.conditionIdFor t gammaFinds = some c) : c = task.conditionOf t := by
  unfold conditionIdFor at h
  split at h
  · rename_i c' hlookup
    obtain rfl := Option.some.inj h
    refine lookup_cacheFrom task (fun _ hp => hp) ?_ hlookup
    intro t c hnone
    cases hnone
  · split at h
    · exact (Option.some.inj h).symm
    · cases h

theorem claimRequest_eq {task : SyncTask} {t : TokenId} {onchainShares : Decimal} {gammaFinds : Bool}
    {req : RedeemRequest} (h : task.claimRequest t onchainShares gammaFinds = some req) :
    req = ⟨task.conditionOf t, onchainShares⟩ := by
  unfold claimRequest at h
  split at h
  · split at h
    · cases h
    · rename_i c hc
      split at h
      · obtain rfl := Option.some.inj h
        rw [conditionIdFor_eq hc]
      · cases h
  · cases h

end SyncTask

namespace PositionSync

inductive Stage where
  | idle
  | answered (onchainShares : Decimal)
  | redeeming (req : RedeemRequest)
  | redeemed (usdc : Decimal)
  deriving DecidableEq, Repr

/-- A pass over the positions that were open when it began. -/
structure Pass where
  current : Position
  later : List Position
  stage : Stage
  deriving DecidableEq, Repr

def passOver : List Position → Option Pass
  | [] => none
  | current :: later => some ⟨current, later, .idle⟩

/-- `wallet` holds the settled tokens and `unsettled` the matched trades still to settle; `credits` and `closed` list
what the sync has credited and closed. -/
structure State where
  ledger : Ledger
  wallet : TokenId → Decimal
  unsettled : List Fill
  pass : Option Pass
  credits : List (TokenId × Decimal)
  closed : List TokenId

inductive PassEvent where
  | passStarts (order : List Position)
  | balanceRead
  | balanceFails
  | answerApplied (marketActive gammaFinds : Bool)
  | redeemConfirmed
  | redeemFails
  | claimApplied

inductive Event where
  | matchTrade (f : Fill)
  | settleTrade (fillId : String)
  | walletEmptied (tokenId : TokenId)
  | ledgerOp (op : LedgerOp)
  | pass (event : PassEvent)

namespace State

def closePosition (s : State) (tokenId : TokenId) : State :=
  { s with
    ledger := (LedgerOp.forceClose tokenId).apply s.ledger
    closed := tokenId :: s.closed }

def applyAnswer (task : SyncTask) (s : State) (pass : Pass) (onchainShares : Decimal)
    (marketActive gammaFinds : Bool) : State :=
  if onchainShares = 0 ∧ 0 < |pass.current.shares| then
    { s.closePosition pass.current.tokenId with pass := passOver pass.later }
  else if 0 < onchainShares ∧ marketActive = false then
    match task.claimRequest pass.current.tokenId onchainShares gammaFinds with
    | some req => { s with pass := some { pass with stage := .redeeming req } }
    | none => { s with pass := passOver pass.later }
  else { s with pass := passOver pass.later }

def applyClaim (s : State) (pass : Pass) (usdc : Decimal) : State :=
  let ledger := (LedgerOp.deposit usdc).apply s.ledger
  let s := { s with
    ledger := ledger
    credits := (pass.current.tokenId, ledger.cash.total - s.ledger.cash.total) :: s.credits }
  { s.closePosition pass.current.tokenId with pass := passOver pass.later }

/-- The positions come in any order. A redemption takes all tokens of its condition out of the wallet. -/
def passStep (task : SyncTask) (s : State) : PassEvent → State
  | .passStarts order =>
    if s.pass = none ∧ order.Perm s.ledger.positions.allPositions then { s with pass := passOver order } else s
  | .balanceRead =>
    match s.pass with
    | some ⟨current, later, .idle⟩ =>
      if task.isU256 current.tokenId then { s with pass := some ⟨current, later, .answered (s.wallet current.tokenId)⟩ }
      else { s with pass := passOver later }
    | _ => s
  | .balanceFails =>
    match s.pass with
    | some ⟨_, later, .idle⟩ => { s with pass := passOver later }
    | _ => s
  | .answerApplied marketActive gammaFinds =>
    match s.pass with
    | some ⟨current, later, .answered onchainShares⟩ =>
      s.applyAnswer task ⟨current, later, .answered onchainShares⟩ onchainShares marketActive gammaFinds
    | _ => s
  | .redeemConfirmed =>
    match s.pass with
    | some ⟨current, later, .redeeming req⟩ => { s with
        wallet := fun t => if task.conditionOf t = req.conditionId then 0 else s.wallet t
        pass := some ⟨current, later, .redeemed req.shares⟩ }
    | _ => s
  | .redeemFails =>
    match s.pass with
    | some ⟨_, later, .redeeming _⟩ => { s with pass := passOver later }
    | _ => s
  | .claimApplied =>
    match s.pass with
    | some ⟨current, later, .redeemed usdc⟩ => s.applyClaim ⟨current, later, .redeemed usdc⟩ usdc
    | _ => s

def step (task : SyncTask) (s : State) : Event → State
  | .matchTrade f => { s with unsettled := f :: s.unsettled }
  | .settleTrade fillId =>
    match s.unsettled.find? (·.fillId = fillId) with
    | none => s
    | some f => { s with
        wallet := fun t => if t = f.tokenId then s.wallet t + f.signedSize else s.wallet t
        unsettled := s.unsettled.erase f }
  | .walletEmptied tokenId => { s with wallet := fun t => if t = tokenId then 0 else s.wallet t }
  | .ledgerOp op => { s with ledger := op.apply s.ledger }
  | .pass event => s.passStep task event

end State

def InFlight (s : State) (tokenId : TokenId) : Prop :=
  ∃ f ∈ s.unsettled, f.tokenId = tokenId ∧ 0 < f.signedSize

def Gone (s : State) (tokenId : TokenId) : Prop := s.wallet tokenId ≤ 0 ∧ ¬InFlight s tokenId

def ClosesOnlyGone (task : SyncTask) (s : State) (event : Event) : Prop :=
  ∀ tokenId, (s.step task event).closed = tokenId :: s.closed → Gone s tokenId

/-- No trade of the position is in flight when the wallet is found without its tokens or a redemption takes them out,
and none that brings in tokens is matched before the sync has drawn its conclusion. -/
def SettledWhenRead (s : State) (event : Event) : Prop :=
  match event, s.pass with
  | .pass .balanceRead, some ⟨current, _, .idle⟩ => s.wallet current.tokenId = 0 → ¬InFlight s current.tokenId
  | .pass .redeemConfirmed, some ⟨current, _, .redeeming _⟩ => ¬InFlight s current.tokenId
  | .matchTrade f, some ⟨current, _, .answered onchainShares⟩ =>
    onchainShares = 0 → ¬(f.tokenId = current.tokenId ∧ 0 < f.signedSize)
  | .matchTrade f, some ⟨current, _, .redeemed _⟩ => ¬(f.tokenId = current.tokenId ∧ 0 < f.signedSize)
  | _, _ => True

def StageHolds (task : SyncTask) (s : State) (current : Position) : Stage → Prop
  | .idle => True
  | .answered onchainShares => onchainShares = 0 → Gone s current.tokenId
  | .redeeming req => req.conditionId = task.conditionOf current.tokenId
  | .redeemed _ => Gone s current.tokenId

def PassHolds (task : SyncTask) (s : State) : Prop := ∀ pass ∈ s.pass, StageHolds task s pass.current pass.stage

section Step
variable {task : SyncTask} {s : State}

theorem StageHolds.of_gone {s' : State} {current : Position} {stage : Stage} (h : StageHolds task s current stage)
    (hgone : Gone s current.tokenId → Gone s' current.tokenId) : StageHolds task s' current stage := by
  cases stage with
  | idle => trivial
  | answered onchainShares => exact fun hzero => hgone (h hzero)
  | redeeming req => exact h
  | redeemed usdc => exact hgone h

theorem passHolds_passOver (s : State) (later : List Position) : PassHolds task { s with pass := passOver later } := by
  intro pass hpass
  cases later with
  | nil => cases hpass
  | cons current later =>
    obtain rfl := Option.some.inj hpass
    trivial

theorem Gone.settle {t : TokenId} (h : Gone s t) {f : Fill} (hf : f ∈ s.unsettled) :
    (if t = f.tokenId then s.wallet t + f.signedSize else s.wallet t) ≤ 0 := by
  split
  · rename_i htoken
    have hsmall : ¬0 < f.signedSize := fun hpos => h.2 ⟨f, hf, htoken.symm, hpos⟩
    exact add_nonpos h.1 (not_lt.mp hsmall)
  · exact h.1

theorem passHolds_matchTrade {f : Fill} (h : PassHolds task s) (hok : SettledWhenRead s (.matchTrade f)) :
    PassHolds task (s.step task (.matchTrade f)) := by
  intro pass hpass
  have hheld := h pass hpass
  obtain ⟨current, later, stage⟩ := pass
  have hpass' : s.pass = some ⟨current, later, stage⟩ := hpass
  have hgone : ¬(f.tokenId = current.tokenId ∧ 0 < f.signedSize) → Gone s current.tokenId →
      Gone (s.step task (.matchTrade f)) current.tokenId := by
    rintro hother ⟨hwallet, hflight⟩
    refine ⟨hwallet, ?_⟩
    rintro ⟨g, hg, htoken, hpos⟩
    rcases List.mem_cons.mp hg with rfl | hold
    · exact hother ⟨htoken, hpos⟩
    · exact hflight ⟨g, hold, htoken, hpos⟩
  cases stage with
  | idle => trivial
  | answered onchainShares =>
    simp only [SettledWhenRead, hpass'] at hok
    exact fun hzero => hgone (hok hzero) (hheld hzero)
  | redeeming req => exact hheld
  | redeemed usdc =>
    simp only [SettledWhenRead, hpass'] at hok
    exact hgone hok hheld

theorem passHolds_settleTrade (h : PassHolds task s) (fillId : String) :
    PassHolds task (s.step task (.settleTrade fillId)) := by
  dsimp only [State.step]
  split
  · exact h
  · rename_i f hfind
    have hf : f ∈ s.unsettled := List.mem_of_find?_eq_some hfind
    intro pass hpass
    refine (h pass hpass).of_gone fun hgone => ⟨hgone.settle hf, ?_⟩
    rintro ⟨g, hg, hflight⟩
    exact hgone.2 ⟨g, List.mem_of_mem_erase hg, hflight⟩

theorem passHolds_answerApplied (h : PassHolds task s) (marketActive gammaFinds : Bool) :
    PassHolds task (s.passStep task (.answerApplied marketActive gammaFinds)) := by
  dsimp only [State.passStep]
  split
  · dsimp only [State.applyAnswer]
    split
    · exact passHolds_passOver _ _
    · split
      · split
        · rename_i req hreq
          intro pass hpass
          obtain rfl := Option.some.inj hpass
          exact congrArg RedeemRequest.conditionId (SyncTask.claimRequest_eq hreq)
        · exact passHolds_passOver _ _
      · exact passHolds_passOver _ _
  · exact h

theorem passHolds_redeemConfirmed (h : PassHolds task s) (hok : SettledWhenRead s (.pass .redeemConfirmed)) :
    PassHolds task (s.passStep task .redeemConfirmed) := by
  dsimp only [State.passStep]
  split
  · rename_i current later req hpass
    have hreq : req.conditionId = task.conditionOf current.tokenId := h _ hpass
    simp only [SettledWhenRead, hpass] at hok
    intro pass hpass'
    obtain rfl := Option.some.inj hpass'
    refine ⟨?_, hok⟩
    simp only [hreq, if_true]
    exact le_refl _
  · exact h

theorem passHolds_passStep {event : PassEvent} (h : PassHolds task s) (hok : SettledWhenRead s (.pass event)) :
    PassHolds task (s.passStep task event) := by
  cases event with
  | passStarts order =>
    dsimp only [State.passStep]
    split
    · exact passHolds_passOver _ _
    · exact h
  | balanceRead =>
    dsimp only [State.passStep]
    split
    · rename_i current later hpass
      simp only [SettledWhenRead, hpass] at hok
      split
      · intro pass hpass'
        obtain rfl := Option.some.inj hpass'
        exact fun hzero => ⟨hzero.le, hok hzero⟩
      · exact passHolds_passOver _ _
    · exact h
  | answerApplied marketActive gammaFinds => exact passHolds_answerApplied h marketActive gammaFinds
  | redeemConfirmed => exact passHolds_redeemConfirmed h hok
  | _ =>
    dsimp only [State.passStep]
    split
    · exact passHolds_passOver _ _
    · exact h

/-- The step lemma: as long as nothing is in flight at the wrong time, an answer of zero is still right when it is
applied. -/
theorem passHolds_step {event : Event} (h : PassHolds task s) (hok : SettledWhenRead s event) :
    PassHolds task (s.step task event) := by
  cases event with
  | matchTrade f => exact passHolds_matchTrade h hok
  | settleTrade fillId => exact passHolds_settleTrade h fillId
  | walletEmptied tokenId =>
    intro pass hpass
    refine (h pass hpass).of_gone fun hgone => ⟨?_, hgone.2⟩
    dsimp only [State.step]
    split
    · exact le_refl _
    · exact hgone.1
  | ledgerOp op => exact h
  | pass event => exact passHolds_passStep h hok

/-- Only the two conclusions of a pass close a position, the current one. -/
theorem closed_passStep {event : PassEvent} {tokenId : TokenId}
    (h : (s.passStep task event).closed = tokenId :: s.closed) :
    ∃ pass ∈ s.pass, pass.current.tokenId = tokenId ∧
      (pass.stage = .answered 0 ∨ ∃ usdc, pass.stage = .redeemed usdc) := by
  cases event with
  | answerApplied marketActive gammaFinds =>
    dsimp only [State.passStep] at h
    split at h
    · rename_i current later onchainShares hpass
      dsimp only [State.applyAnswer] at h
      split at h
      · rename_i hzero
        exact ⟨_, hpass, (List.cons.inj h).1, .inl (congrArg Stage.answered hzero.1)⟩
      · split at h
        · split at h <;> exact absurd h List.ne_cons_self
        · exact absurd h List.ne_cons_self
    · exact absurd h List.ne_cons_self
  | claimApplied =>
    dsimp only [State.passStep] at h
    split at h
    · rename_i current later usdc hpass
      exact ⟨_, hpass, (List.cons.inj h).1, .inr ⟨usdc, rfl⟩⟩
    · exact absurd h List.ne_cons_self
  | balanceRead =>
    dsimp only [State.passStep] at h
    split at h
    · split at h <;> exact absurd h List.ne_cons_self
    · exact absurd h List.ne_cons_self
  | _ =>
    dsimp only [State.passStep] at h
    split at h <;> exact absurd h List.ne_cons_self

theorem closesOnlyGone_of_passHolds (h : PassHolds task s) (event : Event) : ClosesOnlyGone task s event := by
  intro tokenId hclosed
  cases event with
  | pass event =>
    obtain ⟨pass, hpass, rfl, hstage⟩ := closed_passStep hclosed
    have hheld := h pass hpass
    rcases hstage with hzero | ⟨usdc, hredeemed⟩
    · rw [hzero] at hheld
      exact hheld rfl
    · rw [hredeemed] at hheld
      exact hheld
  | settleTrade fillId =>
    dsimp only [State.step] at hclosed
    split at hclosed <;> exact absurd hclosed List.ne_cons_self
  | _ => exact absurd hclosed List.ne_cons_self

end Step

def State.start (l : Ledger) (wallet : TokenId → Decimal) (unsettled : List Fill) : State :=
  ⟨l, wallet, unsettled, none, [], []⟩

/-- In every interleaving in which nothing is in flight when the wallet is read, only positions whose tokens are gone
are closed. -/
theorem closed_positions_are_gone (task : SyncTask) (l : Ledger) (wallet : TokenId → Decimal) (unsettled : List Fill)
    (events : List Event)
    (h : Throughout (State.step task) SettledWhenRead (.start l wallet unsettled) events) :
    Throughout (State.step task) (ClosesOnlyGone task) (.start l wallet unsettled) events := by
  refine throughout_imp (PassHolds task) ?_ ?_ ?_ h
  · intro s event hpass hok
    exact passHolds_step hpass hok
  · intro s event hpass _
    exact closesOnlyGone_of_passHolds hpass event
  · intro pass hnone
    cases hnone

theorem settledWhenRead_of_all_settled {s : State} {event : Event} (h : s.unsettled = [])
    (hquiet : ∀ f, event ≠ .matchTrade f) : SettledWhenRead s event := by
  have hflight : ∀ t, ¬InFlight s t := by
    rintro t ⟨f, hf, -⟩
    rw [h] at hf
    cases hf
  unfold SettledWhenRead
  split
  · exact fun _ => hflight _
  · exact hflight _
  · exact absurd rfl (hquiet _)
  · exact absurd rfl (hquiet _)
  · trivial

def oneMarket : SyncTask where
  isU256 _ := true
  conditionOf _ := "m1"
  startupPairs := [.new "m1" "1" "2"]
  hasSigner := true
  redeemEnabled := true
  named pair hpair := by
    obtain rfl := List.mem_singleton.mp hpair
    exact ⟨rfl, rfl⟩

def buyTen : Fill := ⟨"t1", "o1", "1", .Buy, 1 / 2, 10, 0, none, 0⟩

private def boughtTen : Ledger := (Ledger.new 100).processFill buyTen

private def zeroingPass : List Event :=
  [.pass (.passStarts boughtTen.positions.allPositions), .pass .balanceRead, .pass (.answerApplied true false)]

/-- Tokens that were sold outside the bot are found gone. -/
theorem gone_position_is_closed :
    Throughout (State.step oneMarket) (ClosesOnlyGone oneMarket) (.start boughtTen (fun _ => 0) []) zeroingPass := by
  apply closed_positions_are_gone
  refine ⟨trivial, settledWhenRead_of_all_settled ?_ nofun, trivial, trivial⟩
  decide +kernel

/-- The trade is matched and its fill processed, but the tokens are still on their way. -/
private def unsettledPass : List Event :=
  .matchTrade buyTen :: .ledgerOp (.processFill buyTen) :: (zeroingPass ++ [.settleTrade "t1"])

private def freshBot : State := .start (.new 100) (fun _ => 0) []

/-- The ten shares arrive in the wallet after their position was closed, and the fill is not taken again. -/
theorem fresh_position_is_zeroed :
    let final := unsettledPass.foldl (State.step oneMarket) freshBot
    final.closed = ["1"] ∧ final.wallet "1" = 10 ∧ (final.ledger.getPosition "1").shares = 0 ∧
      ((final.ledger.processFill buyTen).getPosition "1").shares = 0 ∧
      ¬Throughout (State.step oneMarket) (ClosesOnlyGone oneMarket) freshBot unsettledPass := by
  refine ⟨by decide +kernel, by decide +kernel, by decide +kernel, by decide +kernel, ?_⟩
  rintro ⟨-, -, -, -, hgone, -⟩
  have hflight := (hgone "1" (by decide +kernel)).2
  exact hflight ⟨buyTen, by decide +kernel, by decide +kernel, by decide +kernel⟩

end PositionSync

end PolyBot.Sync
