import PolyBot.Sync.PositionSync

/-! What the position sync credits for a resolved market, over any number of passes and redemptions. A redemption takes
all tokens of the market out of the wallet, but is requested and credited for one position. -/

namespace PolyBot.Sync.Redemption
open General.AdditiveRuns Ledger PositionSync

inductive Moved (task : SyncTask) (s : State) : PassEvent → State → Prop where
  | stays (event : PassEvent)
      (hidle : event = .claimApplied → ∀ current later usdc, s.pass ≠ some ⟨current, later, .redeemed usdc⟩) :
      Moved task s event s
  | starts (order : List Position) (hopen : order.Perm s.ledger.positions.allPositions) (hnone : s.pass = none) :
      Moved task s (.passStarts order) { s with pass := passOver order }
  | passesOver (event : PassEvent) {pass : Pass} (hpass : s.pass = some pass)
      (hstage : ∀ usdc, pass.stage ≠ .redeemed usdc) : Moved task s event { s with pass := passOver pass.later }
  | answers {current : Position} {later : List Position} (hpass : s.pass = some ⟨current, later, .idle⟩) :
      Moved task s .balanceRead { s with pass := some ⟨current, later, .answered (s.wallet current.tokenId)⟩ }
  | zeroes (event : PassEvent) {current : Position} {later : List Position}
      (hpass : s.pass = some ⟨current, later, .answered 0⟩) :
      Moved task s event { s.closePosition current.tokenId with pass := passOver later }
  | requests (event : PassEvent) {current : Position} {later : List Position} {onchainShares : Decimal}
      (hpass : s.pass = some ⟨current, later, .answered onchainShares⟩) (hheld : 0 < onchainShares) :
      Moved task s event { s with
        pass := some ⟨current, later, .redeeming ⟨task.conditionOf current.tokenId, onchainShares⟩⟩ }
  | redeems {current : Position} {later : List Position} {req : RedeemRequest}
      (hpass : s.pass = some ⟨current, later, .redeeming req⟩) :
      Moved task s .redeemConfirmed { s with
        wallet := fun t => if task.conditionOf t = req.conditionId then 0 else s.wallet t
        pass := some ⟨current, later, .redeemed req.shares⟩ }
  | claims {current : Position} {later : List Position} {usdc : Decimal}
      (hpass : s.pass = some ⟨current, later, .redeemed usdc⟩) :
      Moved task s .claimApplied (s.applyClaim ⟨current, later, .redeemed usdc⟩ usdc)

theorem moved_answerApplied {task : SyncTask} {s : State} {current : Position} {later : List Position}
    {onchainShares : Decimal} (hpass : s.pass = some ⟨current, later, .answered onchainShares⟩)
    (marketActive gammaFinds : Bool) :
    Moved task s (.answerApplied marketActive gammaFinds)
      (s.applyAnswer task ⟨current, later, .answered onchainShares⟩ onchainShares marketActive gammaFinds) := by
  dsimp only [State.applyAnswer]
  split
  · rename_i hzero
    rw [hzero.1] at hpass
    exact .zeroes _ hpass
  · split
    · rename_i hheld
      split
      · rename_i req hreq
        rw [SyncTask.claimRequest_eq hreq]
        exact .requests _ hpass hheld.1
      · exact .passesOver _ hpass nofun
    · exact .passesOver _ hpass nofun

theorem moved_passStep (task : SyncTask) (s : State) (event : PassEvent) :
    Moved task s event (s.passStep task event) := by
  cases event with
  | passStarts order =>
    dsimp only [State.passStep]
    split
    · rename_i h
      exact .starts order h.2 h.1
    · exact .stays _ nofun
  | balanceRead =>
    dsimp only [State.passStep]
    split
    · rename_i current later hpass
      split
      · exact .answers hpass
      · exact .passesOver _ hpass nofun
    · exact .stays _ nofun
  | answerApplied marketActive gammaFinds =>
    dsimp only [State.passStep]
    split
    · rename_i current later onchainShares hpass
      exact moved_answerApplied hpass marketActive gammaFinds
    · exact .stays _ nofun
  | redeemConfirmed =>
    dsimp only [State.passStep]
    split
    · rename_i current later req hpass
      exact .redeems hpass
    · exact .stays _ nofun
  | claimApplied =>
    dsimp only [State.passStep]
    split
    · rename_i current later usdc hpass
      exact .claims hpass
    · rename_i hidle
      exact .stays _ fun _ => hidle
  | _ =>
    dsimp only [State.passStep]
    split
    · rename_i hpass
      exact .passesOver _ hpass nofun
    · exact .stays _ nofun

def held (l : Ledger) (t : TokenId) : Decimal := (l.positions.get t).shares

def OfMarket (task : SyncTask) (winner t : TokenId) : Prop := task.conditionOf t = task.conditionOf winner

instance (task : SyncTask) (winner t : TokenId) : Decidable (OfMarket task winner t) :=
  inferInstanceAs (Decidable (_ = _))

def credited (task : SyncTask) (winner : TokenId) (s : State) : Decimal :=
  ((s.credits.filter fun e => OfMarket task winner e.1).map (·.2)).sum

def Closed (task : SyncTask) (winner : TokenId) (s : State) : Prop := ∃ t ∈ s.closed, OfMarket task winner t

instance (task : SyncTask) (winner : TokenId) (s : State) : Decidable (Closed task winner s) :=
  inferInstanceAs (Decidable (∃ t ∈ s.closed, OfMarket task winner t))

/-- One dollar was credited for each winning share once a position of the market is closed, and nothing before. Each
position that was open in `l` has been closed once if it is closed now, and not at all otherwise. -/
structure PaidOnce (task : SyncTask) (winner : TokenId) (l : Ledger) (s : State) : Prop where
  credit : credited task winner s = if Closed task winner s then held l winner else 0
  once : ∀ t, OfMarket task winner t → held l t ≠ 0 → s.closed.count t = if held s.ledger t = 0 then 1 else 0

/-- A redemption is applied only to a position of as many shares as the winning one. -/
def RedeemsWorth (task : SyncTask) (winner : TokenId) (s : State) (event : PassEvent) : Prop :=
  match event, s.pass with
  | .claimApplied, some ⟨current, _, .redeemed _⟩ =>
    OfMarket task winner current.tokenId → held s.ledger current.tokenId = held s.ledger winner
  | _, _ => True

structure Listed (task : SyncTask) (winner : TokenId) (l : Ledger) (s : State) (ps : List Position) : Prop where
  nodup : (ps.map (·.tokenId)).Nodup
  shares : ∀ p ∈ ps, p.shares ≠ 0
  isOpen : ∀ p ∈ ps, OfMarket task winner p.tokenId → p.tokenId ∉ s.closed ∧ held l p.tokenId ≠ 0

/-- A position of the market keeps its shares until it is closed, which happens once. -/
structure Kept (task : SyncTask) (winner : TokenId) (l : Ledger) (s : State) : Prop where
  wellKeyed : s.ledger.positions.WellKeyed
  shares : ∀ t, OfMarket task winner t → held s.ledger t = if t ∈ s.closed then 0 else held l t
  once : ∀ t, OfMarket task winner t → s.closed.count t ≤ 1
  listed : ∀ pass ∈ s.pass, Listed task winner l s (pass.current :: pass.later)

section Kept
variable {task : SyncTask} {winner : TokenId} {l : Ledger} {s s' : State}

theorem Listed.tail {p : Position} {ps : List Position} (h : Listed task winner l s (p :: ps)) :
    Listed task winner l s ps :=
  ⟨(List.nodup_cons.mp h.nodup).2, fun q hq => h.shares q (List.mem_cons_of_mem p hq),
    fun q hq => h.isOpen q (List.mem_cons_of_mem p hq)⟩

theorem Listed.of_closed {ps : List Position} (h : Listed task winner l s ps) (hclosed : s'.closed = s.closed) :
    Listed task winner l s' ps :=
  ⟨h.nodup, h.shares, hclosed ▸ h.isOpen⟩

theorem listed_of_passOver {ps : List Position} (h : Listed task winner l s ps) :
    ∀ pass ∈ passOver ps, Listed task winner l s (pass.current :: pass.later) := by
  intro pass hpass
  cases ps with
  | nil => cases hpass
  | cons current later =>
    obtain rfl := Option.some.inj hpass
    exact h

/-- The ledger and the closed positions are as before, and the pass is still over open positions. -/
theorem Kept.of_same (h : Kept task winner l s) (hledger : s'.ledger = s.ledger) (hclosed : s'.closed = s.closed)
    (hlisted : ∀ pass ∈ s'.pass, Listed task winner l s (pass.current :: pass.later)) : Kept task winner l s' where
  wellKeyed := hledger ▸ h.wellKeyed
  shares := by
    rw [hledger, hclosed]
    exact h.shares
  once := hclosed ▸ h.once
  listed pass hpass := (hlisted pass hpass).of_closed hclosed

theorem Kept.listed_order (h : Kept task winner l s) {order : List Position}
    (hopen : order.Perm s.ledger.positions.allPositions) : Listed task winner l s order := by
  have hmem : ∀ p ∈ order, s.ledger.positions.get p.tokenId = p ∧ p.shares ≠ 0 := fun p hp =>
    Positions.get_of_mem_allPositions h.wellKeyed (hopen.mem_iff.mp hp)
  refine ⟨(hopen.map _).nodup_iff.mpr (Positions.nodup_tokens h.wellKeyed), fun p hp => (hmem p hp).2, ?_⟩
  intro p hp hmarket
  obtain ⟨hget, hshares⟩ := hmem p hp
  have hheld : held s.ledger p.tokenId ≠ 0 := by
    rw [held, hget]
    exact hshares
  rw [h.shares p.tokenId hmarket] at hheld
  split at hheld
  · exact absurd rfl hheld
  · rename_i hclosed
    exact ⟨hclosed, hheld⟩

/-- Closing the current position of a pass. -/
theorem Kept.close (h : Kept task winner l s) {current : Position} {later : List Position} {stage : Stage}
    (hpass : s.pass = some ⟨current, later, stage⟩)
    (hpositions : s'.ledger.positions = s.ledger.positions.forceClose current.tokenId)
    (hclosed : s'.closed = current.tokenId :: s.closed) (hpass' : s'.pass = passOver later) :
    Kept task winner l s' := by
  have hlisted := h.listed _ hpass
  have hfresh : OfMarket task winner current.tokenId → current.tokenId ∉ s.closed := fun hmarket =>
    (hlisted.isOpen current (by simp) hmarket).1
  refine ⟨hpositions ▸ h.wellKeyed.forceClose _, ?_, ?_, ?_⟩
  · intro t hmarket
    rw [held, hpositions, hclosed]
    by_cases ht : t = current.tokenId
    · rw [ht, Positions.get_forceClose_self, if_pos (by simp)]
    · rw [Positions.get_forceClose_ne _ ht, ← held, h.shares t hmarket]
      simp only [List.mem_cons, ht, false_or]
  · intro t hmarket
    rw [hclosed]
    by_cases ht : t = current.tokenId
    · subst ht
      rw [List.count_cons_self, List.count_eq_zero.mpr (hfresh hmarket)]
    · rw [List.count_cons_of_ne (Ne.symm ht)]
      exact h.once t hmarket
  · rw [hpass']
    refine listed_of_passOver ⟨hlisted.tail.nodup, hlisted.tail.shares, ?_⟩
    intro p hp hmarket
    obtain ⟨hopen, hheld⟩ := hlisted.tail.isOpen p hp hmarket
    refine ⟨?_, hheld⟩
    have hne : p.tokenId ≠ current.tokenId := by
      intro heq
      exact (List.nodup_cons.mp hlisted.nodup).1 (List.mem_map.mpr ⟨p, hp, heq⟩)
    rw [hclosed, List.mem_cons, not_or]
    exact ⟨hne, hopen⟩

theorem Kept.moved {event : PassEvent} (h : Kept task winner l s) (hmoved : Moved task s event s') :
    Kept task winner l s' := by
  cases hmoved with
  | stays => exact h
  | starts order hopen => exact h.of_same rfl rfl (listed_of_passOver (h.listed_order hopen))
  | passesOver _ hpass => exact h.of_same rfl rfl (listed_of_passOver (h.listed _ hpass).tail)
  | zeroes _ hpass => exact h.close hpass rfl rfl rfl
  | claims hpass => exact h.close hpass rfl rfl rfl
  | answers hpass | requests _ hpass _ | redeems hpass =>
    have hlisted := h.listed _ hpass
    refine h.of_same rfl rfl ?_
    intro pass hpass'
    obtain rfl := Option.some.inj hpass'
    exact hlisted

end Kept

/-- What a pass knows of the current position agrees with the wallet. No redemption of the market is confirmed and not
yet credited. -/
def StageFits (task : SyncTask) (winner : TokenId) (s : State) (current : Position) : Stage → Prop
  | .idle => True
  | .answered onchainShares => OfMarket task winner current.tokenId → onchainShares = s.wallet current.tokenId
  | .redeeming req => req.conditionId = task.conditionOf current.tokenId ∧
      (OfMarket task winner current.tokenId → req.shares = s.wallet current.tokenId ∧ 0 < s.wallet current.tokenId)
  | .redeemed _ => ¬OfMarket task winner current.tokenId

/-- The wallet's tokens of the market and the credits for them, between redemptions. -/
structure Resting (task : SyncTask) (winner : TokenId) (wallet : TokenId → Decimal) (credit : Decimal) (s : State) :
    Prop where
  wallet_eq : ∀ t, OfMarket task winner t → s.wallet t = wallet t
  credit_eq : credited task winner s = credit
  fits : ∀ pass ∈ s.pass, StageFits task winner s pass.current pass.stage

/-- The market's tokens are in the wallet; or they were redeemed for one position and are still to be credited; or they
were credited. -/
inductive Phase (task : SyncTask) (winner : TokenId) (l : Ledger) (s : State) : Prop where
  | untouched (hrest : Resting task winner (held l) 0 s) (hclosed : ¬Closed task winner s)
  | redeemed {current : Position} {later : List Position} (hmarket : OfMarket task winner current.tokenId)
      (hheld : 0 < held l current.tokenId) (hpass : s.pass = some ⟨current, later, .redeemed (held l current.tokenId)⟩)
      (hwallet : ∀ t, OfMarket task winner t → s.wallet t = 0) (hcredit : credited task winner s = 0)
      (hclosed : ¬Closed task winner s)
  | paid (hrest : Resting task winner 0 (held l winner) s) (hclosed : Closed task winner s)

section Phase
variable {task : SyncTask} {winner : TokenId} {l : Ledger} {s s' : State} {wallet : TokenId → Decimal}
  {credit : Decimal}

theorem fits_passOver (s : State) (later : List Position) :
    ∀ pass ∈ passOver later, StageFits task winner s pass.current pass.stage := by
  intro pass hpass
  cases later with
  | nil => cases hpass
  | cons current later =>
    obtain rfl := Option.some.inj hpass
    trivial

theorem credited_applyClaim_other {pass : Pass} {usdc : Decimal} (h : ¬OfMarket task winner pass.current.tokenId) :
    credited task winner (s.applyClaim pass usdc) = credited task winner s := by
  simp only [credited, State.applyClaim, State.closePosition, List.filter_cons, h, decide_false, Bool.false_eq_true,
    if_false]

theorem credited_applyClaim_self {pass : Pass} {usdc : Decimal} (h : OfMarket task winner pass.current.tokenId)
    (hpos : 0 < usdc) : credited task winner (s.applyClaim pass usdc) = usdc + credited task winner s := by
  have hdeposit : ((LedgerOp.deposit usdc).apply s.ledger).cash.total - s.ledger.cash.total = usdc := by
    simp only [LedgerOp.apply, CashBalance.deposit, CashBalance.total, if_neg (not_le.mpr hpos)]
    ring
  simp only [credited, State.applyClaim, State.closePosition, List.filter_cons, h, decide_true, if_true, List.map_cons,
    List.sum_cons, hdeposit]

/-- A step between redemptions, other than the confirmation of one for the market, leaves wallet and credits. -/
theorem Resting.moved {event : PassEvent} (h : Resting task winner wallet credit s) (hmoved : Moved task s event s') :
    Resting task winner wallet credit s' ∨ ∃ current later, OfMarket task winner current.tokenId ∧
      0 < wallet current.tokenId ∧ s' = { s with
        wallet := fun t => if task.conditionOf t = task.conditionOf current.tokenId then 0 else s.wallet t
        pass := some ⟨current, later, .redeemed (wallet current.tokenId)⟩ } := by
  cases hmoved with
  | stays => exact .inl h
  | starts order => exact .inl ⟨h.wallet_eq, h.credit_eq, fits_passOver _ _⟩
  | passesOver => exact .inl ⟨h.wallet_eq, h.credit_eq, fits_passOver _ _⟩
  | zeroes => exact .inl ⟨h.wallet_eq, h.credit_eq, fits_passOver _ _⟩
  | answers hpass =>
    refine .inl ⟨h.wallet_eq, h.credit_eq, ?_⟩
    intro pass hpass'
    obtain rfl := Option.some.inj hpass'
    exact fun _ => rfl
  | requests _ hpass hheld =>
    have hfits := h.fits _ hpass
    refine .inl ⟨h.wallet_eq, h.credit_eq, ?_⟩
    intro pass hpass'
    obtain rfl := Option.some.inj hpass'
    exact ⟨rfl, fun hmarket => ⟨hfits hmarket, hfits hmarket ▸ hheld⟩⟩
  | @redeems current later req hpass =>
    obtain ⟨hcondition, hshares⟩ := h.fits _ hpass
    by_cases hmarket : OfMarket task winner current.tokenId
    · obtain ⟨heq, hpos⟩ := hshares hmarket
      have hwallet := h.wallet_eq current.tokenId hmarket
      refine .inr ⟨current, later, hmarket, hwallet ▸ hpos, ?_⟩
      rw [hcondition, heq, hwallet]
    · refine .inl ⟨?_, h.credit_eq, ?_⟩
      · intro t ht
        have hother : task.conditionOf t ≠ req.conditionId := by
          intro hsame
          exact hmarket ((hsame.trans hcondition).symm.trans ht)
        exact (if_neg hother).trans (h.wallet_eq t ht)
      · intro pass hpass'
        obtain rfl := Option.some.inj hpass'
        exact hmarket
  | claims hpass =>
    have hother : ¬OfMarket task winner _ := h.fits _ hpass
    exact .inl ⟨h.wallet_eq, (credited_applyClaim_other hother).trans h.credit_eq, fits_passOver _ _⟩

theorem Closed.moved {event : PassEvent} (h : Closed task winner s) (hmoved : Moved task s event s') :
    Closed task winner s' := by
  obtain ⟨t, ht, hmarket⟩ := h
  cases hmoved with
  | zeroes | claims => exact ⟨t, List.mem_cons_of_mem _ ht, hmarket⟩
  | _ => exact ⟨t, ht, hmarket⟩

/-- As long as the wallet holds what is tracked, no position of the market is closed. -/
theorem Resting.not_closed {event : PassEvent} (h : Resting task winner (held l) credit s)
    (hkept : Kept task winner l s) (hclosed : ¬Closed task winner s) (hmoved : Moved task s event s') :
    ¬Closed task winner s' := by
  have hcons : ∀ current : Position, ¬OfMarket task winner current.tokenId →
      ¬∃ t ∈ current.tokenId :: s.closed, OfMarket task winner t := by
    rintro current hother ⟨t, ht, hmarket⟩
    rcases List.mem_cons.mp ht with rfl | hold
    · exact hother hmarket
    · exact hclosed ⟨t, hold, hmarket⟩
  cases hmoved with
  | zeroes _ hpass =>
    refine hcons _ fun hmarket => ?_
    have hwallet := (h.fits _ hpass hmarket).trans (h.wallet_eq _ hmarket)
    exact ((hkept.listed _ hpass).isOpen _ (by simp) hmarket).2 hwallet.symm
  | claims hpass => exact hcons _ (h.fits _ hpass)
  | _ => exact hclosed

/-- What a redemption is applied to: nothing of the market, or the position it was confirmed for. -/
theorem Phase.claims {current : Position} {later : List Position} {usdc : Decimal} (h : Phase task winner l s)
    (hpass : s.pass = some ⟨current, later, .redeemed usdc⟩) (hmarket : OfMarket task winner current.tokenId) :
    usdc = held l current.tokenId ∧ 0 < usdc ∧ (∀ t, OfMarket task winner t → s.wallet t = 0) ∧
      credited task winner s = 0 ∧ ¬Closed task winner s := by
  cases h with
  | untouched hrest | paid hrest => exact absurd hmarket (hrest.fits _ hpass)
  | redeemed _ hheld hpass' hwallet hcredit hclosed =>
    obtain ⟨rfl, rfl, rfl⟩ : current = _ ∧ later = _ ∧ usdc = _ := by simpa using hpass.symm.trans hpass'
    exact ⟨rfl, hheld, hwallet, hcredit, hclosed⟩

theorem Kept.redeemsWorth_iff (h : Kept task winner l s) (hclosed : ¬Closed task winner s) {current : Position}
    {later : List Position} {usdc : Decimal} (hpass : s.pass = some ⟨current, later, .redeemed usdc⟩)
    (hmarket : OfMarket task winner current.tokenId) :
    RedeemsWorth task winner s .claimApplied ↔ held l current.tokenId = held l winner := by
  have hopen : ∀ t, OfMarket task winner t → held s.ledger t = held l t := by
    intro t ht
    rw [h.shares t ht, if_neg fun hmem => hclosed ⟨t, hmem, ht⟩]
  simp only [RedeemsWorth, hpass, hmarket, true_imp_iff, hopen _ hmarket, hopen winner rfl]

/-- Once the market's payout is credited, the next answer about another of its positions closes that one too. -/
theorem Resting.closes_when_read (h : Resting task winner 0 credit s) (hkept : Kept task winner l s)
    {current : Position} {later : List Position} (hpass : s.pass = some ⟨current, later, .idle⟩)
    (hmarket : OfMarket task winner current.tokenId) (hid : task.isU256 current.tokenId = true)
    (marketActive gammaFinds : Bool) :
    ((s.passStep task .balanceRead).passStep task (.answerApplied marketActive gammaFinds)).closed =
      current.tokenId :: s.closed := by
  have hwallet : s.wallet current.tokenId = 0 := h.wallet_eq _ hmarket
  have hshares : 0 < |current.shares| := abs_pos.mpr ((hkept.listed _ hpass).shares current List.mem_cons_self)
  simp only [State.passStep, hpass, hid, if_true, hwallet, State.applyAnswer, hshares, and_self, State.closePosition]

theorem Phase.moved {event : PassEvent} (h : Phase task winner l s) (hkept : Kept task winner l s)
    (hok : RedeemsWorth task winner s event) (hmoved : Moved task s event s') : Phase task winner l s' := by
  cases h with
  | untouched hrest hclosed =>
    have hclosed' := hrest.not_closed hkept hclosed hmoved
    rcases hrest.moved hmoved with hrest' | ⟨current, later, hmarket, hpos, rfl⟩
    · exact .untouched hrest' hclosed'
    · exact .redeemed hmarket hpos rfl (fun t ht => if_pos (ht.trans hmarket.symm)) hrest.credit_eq hclosed
  | paid hrest hclosed =>
    rcases hrest.moved hmoved with hrest' | ⟨current, later, _, hpos, _⟩
    · exact .paid hrest' (hclosed.moved hmoved)
    · exact absurd hpos (lt_irrefl 0)
  | redeemed hmarket hheld hpass hwallet hcredit hclosed =>
    cases hmoved with
    | stays => exact .redeemed hmarket hheld hpass hwallet hcredit hclosed
    | starts _ _ hnone =>
      rw [hnone] at hpass
      cases hpass
    | passesOver _ hpass' hstage =>
      rw [hpass] at hpass'
      obtain rfl := Option.some.inj hpass'
      exact absurd rfl (hstage _)
    | answers hpass' | zeroes _ hpass' | requests _ hpass' | redeems hpass' =>
      rw [hpass] at hpass'
      cases hpass'
    | claims hpass' =>
      rw [hpass] at hpass'
      obtain ⟨rfl, rfl, hstage⟩ := Pass.mk.inj (Option.some.inj hpass')
      obtain rfl := Stage.redeemed.inj hstage
      have hworth := (hkept.redeemsWorth_iff hclosed hpass hmarket).mp hok
      refine .paid ⟨hwallet, ?_, fits_passOver _ _⟩ ⟨_, List.mem_cons_self, hmarket⟩
      rw [credited_applyClaim_self hmarket hheld, hcredit, add_zero, hworth]

theorem Phase.credit_eq (h : Phase task winner l s) :
    credited task winner s = if Closed task winner s then held l winner else 0 := by
  cases h with
  | untouched hrest hclosed => rw [if_neg hclosed, hrest.credit_eq]
  | redeemed _ _ _ _ hcredit hclosed => rw [if_neg hclosed, hcredit]
  | paid hrest hclosed => rw [if_pos hclosed, hrest.credit_eq]

theorem Kept.count_eq (h : Kept task winner l s) {t : TokenId} (hmarket : OfMarket task winner t)
    (hheld : held l t ≠ 0) : s.closed.count t = if held s.ledger t = 0 then 1 else 0 := by
  rw [h.shares t hmarket]
  by_cases hclosed : t ∈ s.closed
  · have hpos := List.count_pos_iff.mpr hclosed
    have honce := h.once t hmarket
    rw [if_pos hclosed, if_pos rfl]
    omega
  · rw [if_neg hclosed, if_neg hheld, List.count_eq_zero.mpr hclosed]

theorem redeemsWorth_of_not_claimed {event : PassEvent}
    (h : event = .claimApplied → ∀ current later usdc, s.pass ≠ some ⟨current, later, .redeemed usdc⟩) :
    RedeemsWorth task winner s event := by
  unfold RedeemsWorth
  split
  · rename_i current later usdc hpass
    exact absurd hpass (h rfl current later usdc)
  · trivial

/-- The step lemma: a step pays rightly exactly if the redemption it applies is of the right worth. -/
theorem paidOnce_moved_iff {event : PassEvent} (hkept : Kept task winner l s) (h : Phase task winner l s)
    (hmoved : Moved task s event s') : RedeemsWorth task winner s event ↔ PaidOnce task winner l s' := by
  constructor
  · intro hok
    exact ⟨(h.moved hkept hok hmoved).credit_eq, fun t hmarket hheld => (hkept.moved hmoved).count_eq hmarket hheld⟩
  · intro hpaid
    cases hmoved with
    | @claims current later usdc hpass =>
      by_cases hmarket : OfMarket task winner current.tokenId
      · obtain ⟨husdc, hpos, _, hcredit, hclosed⟩ := h.claims hpass hmarket
        have hcredit' := hpaid.credit
        rw [credited_applyClaim_self hmarket hpos, hcredit, add_zero, if_pos ⟨_, List.mem_cons_self, hmarket⟩] at hcredit'
        exact (hkept.redeemsWorth_iff hclosed hpass hmarket).mpr (husdc.symm.trans hcredit')
      · simp only [RedeemsWorth, hpass, hmarket, false_imp_iff]
    | stays _ hidle => exact redeemsWorth_of_not_claimed hidle
    | starts | answers | redeems => exact redeemsWorth_of_not_claimed nofun
    | passesOver _ hpass hstage =>
      refine redeemsWorth_of_not_claimed fun _ current later usdc hpass' => ?_
      rw [hpass] at hpass'
      obtain rfl := Option.some.inj hpass'
      exact hstage usdc rfl
    | zeroes _ hpass | requests _ hpass =>
      refine redeemsWorth_of_not_claimed fun _ current later usdc hpass' => ?_
      rw [hpass] at hpass'
      cases hpass'

end Phase

def tracking (task : SyncTask) (winner : TokenId) (l : Ledger) (elsewhere : TokenId → Decimal) : State :=
  .start l (fun t => if OfMarket task winner t then held l t else elsewhere t) []

section Start
variable (task : SyncTask) (winner : TokenId) {l : Ledger} (elsewhere : TokenId → Decimal)

theorem kept_tracking (h : l.positions.WellKeyed) : Kept task winner l (tracking task winner l elsewhere) where
  wellKeyed := h
  shares _ _ := rfl
  once _ _ := Nat.zero_le 1
  listed _ hpass := nomatch hpass

theorem phase_tracking : Phase task winner l (tracking task winner l elsewhere) := by
  refine .untouched ⟨fun _ hmarket => if_pos hmarket, List.sum_nil, fun _ hpass => nomatch hpass⟩ ?_
  rintro ⟨t, ht, -⟩
  exact List.not_mem_nil ht

end Start

/-- After any run of the ledger and over any passes and redemptions, the credits are the market's payout and each
position is closed once exactly if each redemption is applied to a position of as many shares as the winning one. -/
theorem redemption_pays_once_iff (task : SyncTask) (winner : TokenId) (initialCash : Decimal) (ops : List LedgerOp)
    (elsewhere : TokenId → Decimal) (events : List PassEvent) :
    let l := run (.new initialCash) ops
    (∀ p, p <+: events →
        PaidOnce task winner l (p.foldl (State.passStep task) (tracking task winner l elsewhere))) ↔
      Throughout (State.passStep task) (RedeemsWorth task winner) (tracking task winner l elsewhere) events := by
  intro l
  have hkept := kept_tracking task winner elsewhere (wellKeyed_run initialCash ops)
  have hphase : Phase task winner l _ := phase_tracking task winner elsewhere
  have hstart : PaidOnce task winner l (tracking task winner l elsewhere) :=
    ⟨hphase.credit_eq, fun t hmarket hheld => hkept.count_eq hmarket hheld⟩
  rw [forall_prefix_iff, and_iff_right hstart]
  symm
  refine throughout_congr (fun s => Kept task winner l s ∧ Phase task winner l s) ?_ ?_ ⟨hkept, hphase⟩
  · rintro s event ⟨hkept, hphase⟩ hok
    have hmoved := moved_passStep task s event
    exact ⟨hkept.moved hmoved, hphase.moved hkept hok hmoved⟩
  · rintro s event ⟨hkept, hphase⟩
    exact paidOnce_moved_iff hkept hphase (moved_passStep task s event)

private def bothSides : Ledger :=
  run (.new 100) [.processFill buyTen, .processFill ⟨"t2", "o2", "2", .Buy, 2 / 5, 6, 0, none, 0⟩]

private def losingFirst : List PassEvent :=
  [.passStarts [bothSides.getPosition "2", bothSides.getPosition "1"], .balanceRead, .answerApplied false true,
    .redeemConfirmed, .claimApplied, .balanceRead, .answerApplied false true]

/-- Six dollars are credited although the redemption paid ten. -/
theorem losing_side_is_credited :
    let final := losingFirst.foldl (State.passStep oneMarket) (tracking oneMarket "1" bothSides fun _ => 0)
    final.closed = ["1", "2"] ∧ final.pass = none ∧ credited oneMarket "1" final = 6 ∧ held bothSides "1" = 10 ∧
      ¬PaidOnce oneMarket "1" bothSides final := by
  intro final
  have hclosed : final.closed = ["1", "2"] := by decide +kernel
  have hcredited : credited oneMarket "1" final = 6 := by decide +kernel
  have hheld : held bothSides "1" = 10 := by decide +kernel
  refine ⟨hclosed, by decide +kernel, hcredited, hheld, fun hpaid => ?_⟩
  have hcredit := hpaid.credit
  rw [if_pos ⟨"1", hclosed ▸ List.mem_cons_self, rfl⟩, hcredited, hheld] at hcredit
  exact absurd hcredit (by decide)

end PolyBot.Sync.Redemption
