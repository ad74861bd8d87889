import PolyBot.Ledger.OrderLifecycle
import PolyBot.Ledger.PositionIdentity
import PolyBot.Ledger.Runs
import PolyBot.Risk.RiskLimits
import Mathlib.Algebra.Order.BigOperators.Group.List

/-! The position limit over runs of checked orders and their fills. -/

namespace PolyBot.PositionLimit
open General.AdditiveRuns General.KeyedStore Ledger Ledger.PositionIdentity

/-- `place` proposes an order, `fill` reports a fill of a placed one, `close` ends one that will not fill any more, and
`cash` is any movement of the cash. -/
inductive Event where
  | place (localId : Uuid) (tokenId : TokenId) (side : Side) (price size : Decimal) (now : Timestamp)
  | fill (localId : Uuid) (fill : Fill) (now : Timestamp)
  | close (localId : Uuid) (final : OrderState) (now : Timestamp)
  | cash (cash : CashBalance)

def tracked (localId : Uuid) (tokenId : TokenId) (side : Side) (price size : Decimal) (now : Timestamp) :
    TrackedOrder :=
  { TrackedOrder.new localId tokenId side price size none now with state := .Acked }

/-- An order is placed only when the check accepts it against the ledger of the moment. -/
def step (r : RiskLimits) (l : Ledger) : Event → Ledger
  | .place localId tokenId side price size now =>
    match r.checkOrder tokenId side price size l with
    | .ok () => { l with orders := l.orders.add (tracked localId tokenId side price size now) }
    | .error _ => l
  | .fill localId f now => (LedgerOp.applyOrderFill localId f.size now).apply (l.processFill f)
  | .close localId final now => (LedgerOp.transition localId final now).apply l
  | .cash cash => { l with cash := cash }

def NoWorse (o : TrackedOrder) (f : Fill) : Prop :=
  (o.side = .Buy → f.price ≤ o.price) ∧ (o.side = .Sell → o.price ≤ f.price)

structure Fills (l : Ledger) (localId : Uuid) (f : Fill) (o : TrackedOrder) : Prop where
  order : l.orders.getByLocalId localId = some o
  active : o.state.isActive = true
  token : f.tokenId = o.tokenId
  side : f.side = o.side
  size : 0 ≤ f.size ∧ f.size ≤ o.remainingSize
  price : 0 ≤ f.price
  noWorse : NoWorse o f

def Admissible (l : Ledger) : Event → Prop
  | .place localId _ _ price size _ => l.orders.getByLocalId localId = none ∧ 0 ≤ price ∧ 0 ≤ size
  | .fill localId f _ => ∃ o, Fills l localId f o
  | .close _ final _ => final.isTerminal = true
  | .cash _ => True

def share (quantity : TrackedOrder → Decimal) (side : Side) (t : TokenId) (o : TrackedOrder) : Decimal :=
  if o.state.isActive = true ∧ o.tokenId = t ∧ o.side = side then quantity o else 0

def pending (quantity : TrackedOrder → Decimal) (side : Side) (t : TokenId) (os : OpenOrders) : Decimal :=
  ((values os.byLocalId).map (share quantity side t)).sum

def pendingBuys (l : Ledger) (t : TokenId) : Decimal := pending (·.remainingNotional) .Buy t l.orders

def pendingSells (l : Ledger) (t : TokenId) : Decimal := pending (·.remainingSize) .Sell t l.orders

/-- An order keeps to the limit with what is outstanding: a purchase counts on top of the position and the active
purchases, a sale sells no more than the active sales leave of the position. -/
def FitsPending (limit : Decimal) (l : Ledger) (tokenId : TokenId) (price size : Decimal) : Side → Prop
  | .Buy => (l.getPosition tokenId).notional + pendingBuys l tokenId + price * size ≤ limit
  | .Sell => pendingSells l tokenId + size ≤ (l.getPosition tokenId).shares

def CountsPending (r : RiskLimits) (l : Ledger) : Event → Prop
  | .place _ tokenId side price size _ =>
    r.checkOrder tokenId side price size l = .ok () →
      FitsPending r.config.maxPositionExposure l tokenId price size side
  | _ => True

def WithinLimit (r : RiskLimits) (l : Ledger) : Prop :=
  ∀ t, |(l.getPosition t).shares| * (l.getPosition t).avgCost ≤ r.config.maxPositionExposure

structure Sound (o : TrackedOrder) : Prop where
  remaining_eq : o.remainingSize = o.originalSize - o.filledSize
  remaining : 0 ≤ o.remainingSize
  price : 0 ≤ o.price

/-- The invariant: positions are long, the active sales are covered by them, and the exposure with the active purchases
is within the limit. -/
structure Covered (limit : Decimal) (l : Ledger) : Prop where
  sound : ∀ id o, l.orders.byLocalId.lookup id = some o → o.state.isActive = true → Sound o
  avgCost : ∀ t, 0 ≤ (l.getPosition t).avgCost
  sells : ∀ t, pendingSells l t ≤ (l.getPosition t).shares
  buys : ∀ t, (l.getPosition t).notional + pendingBuys l t ≤ limit

section Positions
variable {p : Position} {f : Fill}

/-- A purchase adds its cost to the exposure of a long position. -/
theorem buy_exposure (hside : f.side = .Buy) (hshares : 0 ≤ p.shares) (havg : 0 ≤ p.avgCost) (hsize : 0 ≤ f.size)
    (hprice : 0 ≤ f.price) :
    0 ≤ (p.applyFill f).avgCost ∧ (p.applyFill f).notional = p.notional + f.price * f.size := by
  have hsigned : f.signedSize = f.size := by rw [Fill.signedSize, hside]
  have hadded : 0 ≤ p.shares + f.size := add_nonneg hshares hsize
  unfold Position.notional Position.applyFill
  split_ifs with hflat hsame
  · simp only [Position.openWith, Position.trackCosts, hsigned, hflat, zero_add, abs_of_nonneg hsize, abs_zero, zero_mul]
    exact ⟨hprice, mul_comm _ _⟩
  · have hpos : 0 < p.shares := lt_of_le_of_ne hshares (Ne.symm hflat)
    have hsum : 0 < p.shares + f.size := add_pos_of_pos_of_nonneg hpos hsize
    simp only [Position.addWith, Position.trackCosts, hsigned, abs_of_nonneg hadded, abs_of_nonneg hshares,
      abs_of_nonneg hsize, if_pos hsum]
    have htotal : 0 ≤ p.avgCost * p.shares + f.price * f.size :=
      add_nonneg (mul_nonneg havg hshares) (mul_nonneg hprice hsize)
    refine ⟨div_nonneg htotal hadded, ?_⟩
    rw [mul_div_cancel₀ _ hsum.ne']
    ring
  · have hpos : 0 < p.shares := lt_of_le_of_ne hshares (Ne.symm hflat)
    have hzero : f.size = 0 := by
      by_contra hne
      have hbuy : 0 < f.signedSize := hsigned ▸ lt_of_le_of_ne hsize (Ne.symm hne)
      exact hsame (by simp [hpos, hbuy])
    have hkept : p.shares + f.signedSize = p.shares := by rw [hsigned, hzero, add_zero]
    have hopen : ¬p.shares = 0 := hflat
    have hlong : ¬((0 < p.shares ∧ p.shares < 0) ∨ (p.shares < 0 ∧ 0 < p.shares)) := by
      rintro (⟨-, hneg⟩ | ⟨hneg, -⟩) <;> exact absurd hneg (not_lt.mpr hshares)
    simp only [Position.reduceWith, Position.trackCosts, hkept, if_neg hopen, if_neg hlong]
    exact ⟨havg, by rw [hzero, mul_zero, add_zero]⟩

/-- A sale out of a long position does not raise its exposure. -/
theorem sell_exposure (hside : f.side = .Sell) (havg : 0 ≤ p.avgCost) (hsize : 0 ≤ f.size) (hprice : 0 ≤ f.price)
    (hcovered : f.size ≤ p.shares) :
    0 ≤ (p.applyFill f).avgCost ∧ (p.applyFill f).notional ≤ p.notional := by
  have hsigned : f.signedSize = -f.size := by rw [Fill.signedSize, hside]
  have hshares : 0 ≤ p.shares := hsize.trans hcovered
  have hleft : 0 ≤ p.shares + -f.size := by linarith
  unfold Position.notional Position.applyFill
  split_ifs with hflat hsame
  · have hzero : f.size = 0 := le_antisymm (hcovered.trans_eq hflat) hsize
    simp only [Position.openWith, Position.trackCosts, hsigned, hflat, hzero, neg_zero, add_zero, abs_zero, zero_mul]
    exact ⟨hprice, le_rfl⟩
  · have hpos : 0 < p.shares := lt_of_le_of_ne hshares (Ne.symm hflat)
    have hsell : ¬0 < f.signedSize := by
      rw [hsigned]
      linarith
    exact absurd hsame (by simp [hpos, hsell])
  · have hlong : ¬((0 < p.shares ∧ p.shares + -f.size < 0) ∨ (p.shares < 0 ∧ 0 < p.shares + -f.size)) := by
      rintro (⟨-, hneg⟩ | ⟨hneg, -⟩)
      · exact absurd hneg (not_lt.mpr hleft)
      · exact absurd hneg (not_lt.mpr hshares)
    simp only [Position.reduceWith, Position.trackCosts, hsigned, if_neg hlong]
    split_ifs with hclosed
    · refine ⟨le_rfl, ?_⟩
      rw [mul_zero]
      exact mul_nonneg (abs_nonneg _) havg
    · refine ⟨havg, mul_le_mul_of_nonneg_right ?_ havg⟩
      rw [abs_of_nonneg hleft, abs_of_nonneg hshares]
      linarith

end Positions

section Pending
variable {quantity : TrackedOrder → Decimal} {side : Side} {t : TokenId} {os : OpenOrders}

theorem pending_nonneg (h : ∀ id o, os.byLocalId.lookup id = some o → o.state.isActive = true → 0 ≤ quantity o) :
    0 ≤ pending quantity side t os := by
  apply List.sum_nonneg
  intro x hx
  obtain ⟨o, ho, rfl⟩ := List.mem_map.mp hx
  obtain ⟨id, hid⟩ := mem_values_iff.mp ho
  unfold share
  split_ifs with hcounts
  · exact h id o hid hcounts.1
  · exact le_rfl

/-- Storing an order changes a pending quantity by its own share less that of the copy it replaces. -/
theorem pending_insert (quantity : TrackedOrder → Decimal) (side : Side) (t : TokenId) {os os' : OpenOrders} {k : Uuid}
    {o : TrackedOrder} (h : os'.byLocalId = os.byLocalId.insert k o) :
    pending quantity side t os' = pending quantity side t os -
      ((os.byLocalId.lookup k).map (share quantity side t)).getD 0 + share quantity side t o := by
  rw [pending, h, sum_values_insert]
  rfl

theorem share_of_inactive {o : TrackedOrder} (h : o.state.isActive = false) : share quantity side t o = 0 :=
  if_neg fun hcounts => by
    rw [h] at hcounts
    cases hcounts.1

theorem share_nonneg {o : TrackedOrder} (h : o.state.isActive = true → 0 ≤ quantity o) :
    0 ≤ share quantity side t o := by
  unfold share
  split_ifs with hcounts
  · exact h hcounts.1
  · exact le_rfl

end Pending

section Orders
variable {r : RiskLimits} {l : Ledger} {localId : Uuid} {o : TrackedOrder}

/-- An order after a fill within what remains. -/
theorem Sound.applyFill (h : Sound o) {size : Decimal} (hsize : size ≤ o.remainingSize) (now : Timestamp) :
    Sound (o.applyFill size now) := by
  have hremaining : o.originalSize - (o.filledSize + size) = o.remainingSize - size := by
    rw [h.remaining_eq]
    ring
  refine ⟨rfl, ?_, h.price⟩
  change 0 ≤ o.originalSize - (o.filledSize + size)
  rw [hremaining]
  exact sub_nonneg.mpr hsize

/-- A fill takes its size out of the share of its order, which is nothing when the order is done. -/
theorem share_applyFill (h : Sound o) (hactive : o.state.isActive = true) {size : Decimal}
    (hsize : size ≤ o.remainingSize) (now : Timestamp) (quantity : TrackedOrder → Decimal) (factor : Decimal)
    (hquantity : ∀ o' : TrackedOrder, o'.price = o.price → quantity o' = o'.remainingSize * factor) (side : Side)
    (t : TokenId) :
    share quantity side t (o.applyFill size now) =
      share quantity side t o - if o.tokenId = t ∧ o.side = side then size * factor else 0 := by
  have hremaining : (o.applyFill size now).remainingSize = o.remainingSize - size := by
    change o.originalSize - (o.filledSize + size) = o.remainingSize - size
    rw [h.remaining_eq]
    ring
  by_cases hmatch : o.tokenId = t ∧ o.side = side
  · have hold : share quantity side t o = o.remainingSize * factor := by
      rw [share, if_pos ⟨hactive, hmatch⟩, hquantity o rfl]
    rw [if_pos hmatch, hold, ← sub_mul, ← hremaining]
    by_cases hdone : (o.applyFill size now).remainingSize ≤ 0
    · have hinactive : (o.applyFill size now).state.isActive = false := by
        have hstate : (o.applyFill size now).state = .Filled := if_pos hdone
        rw [hstate]
        rfl
      have hzero : (o.applyFill size now).remainingSize = 0 := le_antisymm hdone (h.applyFill hsize now).remaining
      rw [share_of_inactive hinactive, hzero, zero_mul]
    · have hstill : (o.applyFill size now).state.isActive = true := by
        have hstate : (o.applyFill size now).state = if o.state = .Acked then .PartiallyFilled else o.state :=
          if_neg hdone
        rw [hstate]
        split_ifs
        · rfl
        · exact hactive
      rw [share, if_pos ⟨hstill, hmatch⟩]
      exact hquantity _ rfl
  · have hnone : share quantity side t o = 0 := if_neg fun hcounts => hmatch hcounts.2
    have hnone' : share quantity side t (o.applyFill size now) = 0 := if_neg fun hcounts => hmatch hcounts.2
    rw [hnone, hnone', if_neg hmatch, sub_zero]

theorem sound_tracked {tokenId : TokenId} {side : Side} {price size : Decimal} {now : Timestamp} (hprice : 0 ≤ price)
    (hsize : 0 ≤ size) : Sound (tracked localId tokenId side price size now) where
  remaining_eq := (sub_zero size).symm
  remaining := hsize
  price := hprice

theorem share_tracked (quantity : TrackedOrder → Decimal) (side' : Side) (t : TokenId) {tokenId : TokenId} {side : Side}
    {price size : Decimal} {now : Timestamp} :
    share quantity side' t (tracked localId tokenId side price size now) =
      if tokenId = t ∧ side = side' then quantity (tracked localId tokenId side price size now) else 0 := by
  unfold share
  exact if_congr (and_iff_right rfl) rfl rfl

/-- A placement that fits with what is pending keeps the invariant. -/
theorem Covered.place {limit : Decimal} (h : Covered limit l) {tokenId : TokenId} {side : Side} {price size : Decimal}
    {now : Timestamp} (hfresh : l.orders.getByLocalId localId = none) (hprice : 0 ≤ price) (hsize : 0 ≤ size)
    (hfits : FitsPending limit l tokenId price size side) :
    Covered limit { l with orders := l.orders.add (tracked localId tokenId side price size now) } := by
  have hadded : ∀ (quantity : TrackedOrder → Decimal) side' t,
      pending quantity side' t (l.orders.add (tracked localId tokenId side price size now)) =
        pending quantity side' t l.orders +
          if tokenId = t ∧ side = side' then quantity (tracked localId tokenId side price size now) else 0 := by
    intro quantity side' t
    have hstored : (l.orders.add (tracked localId tokenId side price size now)).byLocalId =
        l.orders.byLocalId.insert localId (tracked localId tokenId side price size now) := rfl
    have hnone : l.orders.byLocalId.lookup localId = none := hfresh
    rw [pending_insert quantity side' t hstored, hnone, share_tracked, Option.map_none, Option.getD_none, sub_zero]
  refine ⟨fun id o ho => ?_, h.avgCost, fun t => ?_, fun t => ?_⟩
  · exact forall_lookup_insert (p := fun _ o => o.state.isActive = true → Sound o) h.sound
      (fun _ => sound_tracked hprice hsize) ho
  · have hold := h.sells t
    change pending _ _ t (l.orders.add _) ≤ (l.getPosition t).shares
    rw [hadded]
    split_ifs with hmatch
    · obtain ⟨rfl, rfl⟩ := hmatch
      exact hfits
    · rw [add_zero]
      exact hold
  · have hold := h.buys t
    change (l.getPosition t).notional + pending _ _ t (l.orders.add _) ≤ limit
    rw [hadded]
    split_ifs with hmatch
    · obtain ⟨rfl, rfl⟩ := hmatch
      have hvalue : (tracked localId tokenId .Buy price size now).remainingNotional = price * size := mul_comm size price
      rw [hvalue, ← add_assoc]
      exact hfits
    · rw [add_zero]
      exact hold

theorem Covered.pendingSells_nonneg {limit : Decimal} (h : Covered limit l) (t : TokenId) : 0 ≤ pendingSells l t :=
  pending_nonneg fun id o ho hactive => (h.sound id o ho hactive).remaining

theorem Covered.pendingBuys_nonneg {limit : Decimal} (h : Covered limit l) (t : TokenId) : 0 ≤ pendingBuys l t :=
  pending_nonneg fun id o ho hactive => mul_nonneg (h.sound id o ho hactive).remaining (h.sound id o ho hactive).price

/-- The orders after a fill: its order is advanced by it. -/
theorem Fills.apply_eq {f : Fill} (hfill : Fills l localId f o) (now : Timestamp) :
    ∃ os : OpenOrders, os.byLocalId = l.orders.byLocalId.insert localId (o.applyFill f.size now) ∧
      (LedgerOp.applyOrderFill localId f.size now).apply (l.processFill f) = { l.processFill f with orders := os } := by
  rw [LedgerOp.apply, OpenOrders.applyFill, orders_processFill, hfill.order]
  exact ⟨_, rfl, rfl⟩

/-- The position of a token after a fill: nothing happens to it, or the fill is applied to it. -/
theorem getPosition_processFill (l : Ledger) (f : Fill) (t : TokenId) :
    (l.processFill f).getPosition t = l.getPosition t ∨
      f.tokenId = t ∧ (l.processFill f).getPosition t = (l.getPosition t).applyFill (l.resolve f) := by
  by_cases hseen : f.fillId ∈ l.seenFillIds
  · exact .inl (by rw [processFill_of_seen hseen])
  · rw [processFill_of_new hseen]
    by_cases htoken : f.tokenId = t
    · subst htoken
      exact .inr ⟨rfl, Positions.get_applyFill_self l.positions (l.resolve f)⟩
    · exact .inl (Positions.get_applyFill_ne l.positions (l.resolve f) htoken)

/-- A fill moves the position of its token by no more than its size and its worth at the limit of its order. -/
theorem Fills.position_le {f : Fill} (hfill : Fills l localId f o) {t : TokenId}
    (hshares : 0 ≤ (l.getPosition t).shares) (havg : 0 ≤ (l.getPosition t).avgCost)
    (hcovered : o.tokenId = t ∧ o.side = .Sell → f.size ≤ (l.getPosition t).shares) :
    let p := (l.processFill f).getPosition t
    0 ≤ p.avgCost ∧
      (l.getPosition t).shares - (if o.tokenId = t ∧ o.side = .Sell then f.size else 0) ≤ p.shares ∧
      p.notional ≤ (l.getPosition t).notional + if o.tokenId = t ∧ o.side = .Buy then f.size * o.price else 0 := by
  intro p
  have hkept : p = l.getPosition t ∨ f.tokenId = t ∧ p = (l.getPosition t).applyFill (l.resolve f) :=
    getPosition_processFill l f t
  clear_value p
  obtain ⟨hsize, -⟩ := hfill.size
  rcases hkept with rfl | ⟨htoken, hp⟩
  · refine ⟨havg, sub_le_self _ ?_, le_add_of_nonneg_right ?_⟩
    · split_ifs
      exacts [hsize, le_rfl]
    · split_ifs with hbuy
      · exact mul_nonneg hsize (hfill.price.trans (hfill.noWorse.1 hbuy.2))
      · exact le_rfl
  · have hto : o.tokenId = t := hfill.token.symm.trans htoken
    have hmoved : p.shares = (l.getPosition t).shares + f.signedSize := by
      rw [hp]
      exact shares_applyFill _ _
    cases hside : o.side with
    | Buy =>
      have hbuy : f.side = .Buy := hfill.side.trans hside
      have hnot : ¬(o.tokenId = t ∧ Side.Buy = .Sell) := fun hsell => by cases hsell.2
      obtain ⟨havg', hexposure⟩ :=
        buy_exposure (p := l.getPosition t) (f := l.resolve f) hbuy hshares havg hsize hfill.price
      rw [← hp] at havg' hexposure
      refine ⟨havg', ?_, ?_⟩
      · rw [if_neg hnot, hmoved, Fill.signedSize, hbuy, sub_zero]
        exact le_add_of_nonneg_right hsize
      · have hworth : f.price * f.size ≤ f.size * o.price :=
          (mul_comm _ _).trans_le (mul_le_mul_of_nonneg_left (hfill.noWorse.1 hside) hsize)
        rw [if_pos ⟨hto, rfl⟩, hexposure]
        exact add_le_add_right hworth _
    | Sell =>
      have hsell : f.side = .Sell := hfill.side.trans hside
      have hnot : ¬(o.tokenId = t ∧ Side.Sell = .Buy) := fun hbuy => by cases hbuy.2
      obtain ⟨havg', hexposure⟩ := sell_exposure (p := l.getPosition t) (f := l.resolve f) hsell havg hsize
        hfill.price (hcovered ⟨hto, hside⟩)
      rw [← hp] at havg' hexposure
      refine ⟨havg', ?_, ?_⟩
      · rw [if_pos ⟨hto, rfl⟩, hmoved, Fill.signedSize, hsell, sub_eq_add_neg]
      · rw [if_neg hnot, add_zero]
        exact hexposure

/-- A fill of an active order keeps the invariant. -/
theorem Covered.fill {limit : Decimal} (h : Covered limit l) {f : Fill} {now : Timestamp} (hfill : Fills l localId f o) :
    Covered limit ((LedgerOp.applyOrderFill localId f.size now).apply (l.processFill f)) := by
  have hsound : Sound o := h.sound localId o hfill.order hfill.active
  obtain ⟨os, hos, happly⟩ := hfill.apply_eq now
  rw [happly]
  have hstored : ∀ id o', os.byLocalId.lookup id = some o' → o'.state.isActive = true → Sound o' := by
    intro id o' ho'
    rw [hos] at ho'
    exact forall_lookup_insert (p := fun _ o => o.state.isActive = true → Sound o) h.sound
      (fun _ => hsound.applyFill hfill.size.2 now) ho'
  have hadvanced : ∀ (quantity : TrackedOrder → Decimal) (factor : Decimal) side t,
      (∀ o' : TrackedOrder, o'.price = o.price → quantity o' = o'.remainingSize * factor) →
        pending quantity side t os =
          pending quantity side t l.orders - if o.tokenId = t ∧ o.side = side then f.size * factor else 0 := by
    intro quantity factor side t hquantity
    have horder : l.orders.byLocalId.lookup localId = some o := hfill.order
    rw [pending_insert quantity side t hos, horder, Option.map_some, Option.getD_some,
      share_applyFill hsound hfill.active hfill.size.2 now quantity factor hquantity]
    ring
  have hsells : ∀ t, pending (·.remainingSize) .Sell t os =
      pendingSells l t - if o.tokenId = t ∧ o.side = .Sell then f.size else 0 := by
    intro t
    rw [hadvanced (·.remainingSize) 1 .Sell t fun o' _ => (mul_one _).symm, mul_one]
    rfl
  have hbuys : ∀ t, pending (·.remainingNotional) .Buy t os =
      pendingBuys l t - if o.tokenId = t ∧ o.side = .Buy then f.size * o.price else 0 := by
    intro t
    refine hadvanced (·.remainingNotional) o.price .Buy t fun o' hprice => ?_
    rw [TrackedOrder.remainingNotional, hprice]
  have hsellsLeft : ∀ t, 0 ≤ pending (·.remainingSize) .Sell t os := fun t =>
    pending_nonneg fun id o' ho' hactive => (hstored id o' ho' hactive).remaining
  have hshares : ∀ t, 0 ≤ (l.getPosition t).shares := fun t => (h.pendingSells_nonneg t).trans (h.sells t)
  have hposition := fun t => hfill.position_le (hshares t) (h.avgCost t) fun hsell => by
    have hleft := hsellsLeft t
    rw [hsells, if_pos hsell] at hleft
    exact (sub_nonneg.mp hleft).trans (h.sells t)
  refine ⟨hstored, fun t => (hposition t).1, fun t => ?_, fun t => ?_⟩
  · change pending _ _ t os ≤ ((l.processFill f).getPosition t).shares
    rw [hsells]
    exact (sub_le_sub_right (h.sells t) _).trans (hposition t).2.1
  · change ((l.processFill f).getPosition t).notional + pending _ _ t os ≤ limit
    rw [hbuys]
    linarith [(hposition t).2.2, h.buys t]

/-- What ending an order stores, when there is one to end. -/
theorem transition_eq (l : Ledger) (localId : Uuid) (final : OrderState) (now : Timestamp) :
    (LedgerOp.transition localId final now).apply l = l ∨
      ∃ o os, l.orders.byLocalId.lookup localId = some o ∧
        OpenOrders.byLocalId os = l.orders.byLocalId.insert localId { o with state := final, lastUpdate := now } ∧
        (LedgerOp.transition localId final now).apply l = { l with orders := os } := by
  rw [LedgerOp.apply, OpenOrders.transition]
  cases hget : l.orders.getByLocalId localId with
  | none => exact .inl rfl
  | some o =>
    dsimp only
    by_cases hcan : o.state.canTransitionTo final = true
    · rw [if_pos hcan]
      exact .inr ⟨o, _, hget, rfl, rfl⟩
    · rw [if_neg hcan]
      exact .inl rfl

/-- An order that is done no longer counts. -/
theorem Covered.close {limit : Decimal} (h : Covered limit l) {final : OrderState} {now : Timestamp}
    (hfinal : final.isTerminal = true) : Covered limit ((LedgerOp.transition localId final now).apply l) := by
  have hdone : final.isActive = false := OrderState.isActive_of_isDone (OrderState.isDone_of_isTerminal hfinal)
  rcases transition_eq l localId final now with hsame | ⟨o, os, hget, hos, happly⟩
  · rw [hsame]
    exact h
  · rw [happly]
    have hsound := h.sound localId o hget
    have hless : ∀ (quantity : TrackedOrder → Decimal) side t, (o.state.isActive = true → 0 ≤ quantity o) →
        pending quantity side t os ≤ pending quantity side t l.orders := by
      intro quantity side t hquantity
      have hshare : 0 ≤ share quantity side t o := share_nonneg hquantity
      rw [pending_insert quantity side t hos, hget, share_of_inactive hdone, Option.map_some, Option.getD_some,
        add_zero]
      exact sub_le_self _ hshare
    refine ⟨fun id o' ho' => ?_, h.avgCost, fun t => ?_, fun t => ?_⟩
    · have hlookup : os.byLocalId.lookup id = some o' := ho'
      rw [hos] at hlookup
      refine forall_lookup_insert (p := fun _ o => o.state.isActive = true → Sound o) h.sound (fun hactive => ?_)
        hlookup
      rw [hdone] at hactive
      cases hactive
    · exact (hless (·.remainingSize) .Sell t fun hactive => (hsound hactive).remaining).trans (h.sells t)
    · have hbuys := hless (·.remainingNotional) .Buy t fun hactive =>
        mul_nonneg (hsound hactive).remaining (hsound hactive).price
      exact (add_le_add_right hbuys _).trans (h.buys t)

end Orders

/-- The step lemma. -/
theorem Covered.step {r : RiskLimits} {l : Ledger} (h : Covered r.config.maxPositionExposure l) {e : Event}
    (hevent : Admissible l e) (hcounts : CountsPending r l e) : Covered r.config.maxPositionExposure (step r l e) := by
  cases e with
  | place localId tokenId side price size now =>
    obtain ⟨hfresh, hprice, hsize⟩ := hevent
    unfold PositionLimit.step
    dsimp only
    split
    · rename_i haccepted
      exact h.place hfresh hprice hsize (hcounts haccepted)
    · exact h
  | fill localId f now =>
    obtain ⟨o, hfill⟩ := hevent
    exact h.fill hfill
  | close localId final now => exact h.close hevent
  | cash cash => exact ⟨h.sound, h.avgCost, h.sells, h.buys⟩

theorem Covered.new {limit : Decimal} (hlimit : 0 ≤ limit) (initialCash : Decimal) :
    Covered limit (Ledger.new initialCash) where
  sound _ _ h := by cases h
  avgCost _ := le_rfl
  sells _ := le_rfl
  buys t := by
    have hflat : ((Ledger.new initialCash).getPosition t).notional = 0 := zero_mul _
    have hnone : pendingBuys (Ledger.new initialCash) t = 0 := rfl
    rw [hflat, hnone, add_zero]
    exact hlimit

theorem Covered.withinLimit {r : RiskLimits} {l : Ledger} (h : Covered r.config.maxPositionExposure l) :
    WithinLimit r l := fun t =>
  (le_add_of_nonneg_right (h.pendingBuys_nonneg t)).trans (h.buys t)

/-- From a new ledger, the exposure keeps to the limit throughout a run in which every accepted order fits with what is
pending when it is placed. -/
theorem exposure_within_limit {r : RiskLimits} (hlimit : 0 ≤ r.config.maxPositionExposure) {initialCash : Decimal}
    {events : List Event} (hevents : Throughout (step r) Admissible (Ledger.new initialCash) events)
    (hcounts : Throughout (step r) (CountsPending r) (Ledger.new initialCash) events) :
    ∀ before, before <+: events → WithinLimit r (before.foldl (step r) (Ledger.new initialCash)) := by
  rintro before ⟨after, rfl⟩
  have hboth := throughout_and_iff.mpr ⟨(throughout_append_iff.mp hevents).1, (throughout_append_iff.mp hcounts).1⟩
  have hcovered : Covered r.config.maxPositionExposure (before.foldl (step r) (Ledger.new initialCash)) :=
    hboth.foldl_induction (fun l e h ⟨hevent, hfits⟩ => h.step hevent hfits) (Covered.new hlimit initialCash)
  exact hcovered.withinLimit

private def defaults : RiskLimits := RiskLimits.withConfig .default

private def buy (localId : Uuid) (size : Decimal) : Event := .place localId "yes" .Buy (1 / 2) size 0

private def filled (localId : Uuid) (fillId : String) (size : Decimal) : Event :=
  .fill localId ⟨fillId, "", "yes", .Buy, 1 / 2, size, 0, none, 0⟩ 0

private theorem fills_buy {l : Ledger} {localId : Uuid} {fillId : String} {size : Decimal}
    (horder : l.orders.getByLocalId localId = some (tracked localId "yes" .Buy (1 / 2) size 0)) (hsize : 0 ≤ size) :
    Admissible l (filled localId fillId size) :=
  ⟨_, { order := horder
        active := rfl
        token := rfl
        side := rfl
        size := ⟨hsize, le_rfl⟩
        price := by norm_num
        noWorse := ⟨fun _ => le_rfl, fun hsell => by cases hsell⟩ }⟩

private theorem admissible_buy {l : Ledger} {localId : Uuid} {size : Decimal}
    (hfresh : l.orders.getByLocalId localId = none) (hsize : 0 ≤ size) : Admissible l (buy localId size) :=
  ⟨hfresh, by norm_num, hsize⟩

/-- Two purchases outstanding together and worth the limit, one of them filled. -/
theorem two_half_orders_fit :
    let run := [buy 1 5000, buy 2 5000, filled 2 "f1" 5000]
    WithinLimit defaults (run.foldl (step defaults) (Ledger.new 10000)) := by
  intro run
  have hevents : Throughout (step defaults) Admissible (Ledger.new 10000) run :=
    ⟨admissible_buy rfl (by norm_num), admissible_buy (by decide +kernel) (by norm_num),
      fills_buy (by decide +kernel) (by norm_num), trivial⟩
  have hcounts : Throughout (step defaults) (CountsPending defaults) (Ledger.new 10000) run :=
    ⟨fun _ => show _ ≤ _ by decide +kernel, fun _ => show _ ≤ _ by decide +kernel, trivial, trivial⟩
  have hlimit : 0 ≤ defaults.config.maxPositionExposure := by decide +kernel
  exact exposure_within_limit hlimit hevents hcounts run List.prefix_rfl

/-- Two purchases of 3000 dollars each are accepted while nothing is filled, and leave a position of 6000 against a
limit of 5000. -/
theorem two_pending_orders_exceed :
    let run := [buy 1 6000, buy 2 6000, filled 1 "f1" 6000, filled 2 "f2" 6000]
    let l := run.foldl (step defaults) (Ledger.new 10000)
    Throughout (step defaults) Admissible (Ledger.new 10000) run ∧ defaults.config.maxPositionExposure = 5000 ∧
      (l.getPosition "yes").notional = 6000 ∧ ¬WithinLimit defaults l := by
  intro run l
  have hexposure : (l.getPosition "yes").notional = 6000 := by decide +kernel
  have hlimit : defaults.config.maxPositionExposure = 5000 := rfl
  refine ⟨⟨admissible_buy rfl (by norm_num), admissible_buy (by decide +kernel) (by norm_num),
    fills_buy (by decide +kernel) (by norm_num), fills_buy (by decide +kernel) (by norm_num), trivial⟩, hlimit,
    hexposure, fun hwithin => ?_⟩
  have hyes : (l.getPosition "yes").notional ≤ defaults.config.maxPositionExposure := hwithin "yes"
  rw [hexposure, hlimit] at hyes
  norm_num at hyes

end PolyBot.PositionLimit
