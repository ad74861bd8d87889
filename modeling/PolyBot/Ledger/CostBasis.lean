import Mathlib.Tactic.FieldSimp
import Mathlib.Tactic.Linarith
import PolyBot.Ledger.PositionIdentity

/-! What the cost of a position says about its shares and about the prices that it was built from. -/

namespace PolyBot
open General.AdditiveRuns

namespace Position

def Flips (before after : Decimal) : Prop := (0 < before ∧ after < 0) ∨ (before < 0 ∧ 0 < after)

instance (before after : Decimal) : Decidable (Flips before after) :=
  inferInstanceAs (Decidable ((0 < before ∧ after < 0) ∨ (before < 0 ∧ 0 < after)))

/-- The prices of the fills that opened a position or added to it since it was last flat or flipped, after a fill that
takes the shares from `before` to `after`. -/
def openPrices (before after price : Decimal) (prices : List Decimal) : List Decimal :=
  if after = 0 then []
  else if before = 0 ∨ Flips before after then [price]
  else if |before| < |after| then prices ++ [price]
  else prices

structure CostsOf (p : Position) (prices : List Decimal) : Prop where
  positive : ∀ price ∈ prices, 0 < price
  basis : p.costBasis = |p.shares| * p.avgCost
  flat : p.shares = 0 → p.avgCost = 0
  range : p.shares ≠ 0 → ∃ low ∈ prices, ∃ high ∈ prices, low ≤ p.avgCost ∧ p.avgCost ≤ high

theorem costsOf_new (tokenId : TokenId) : (Position.new tokenId).CostsOf [] where
  positive := nofun
  basis := (mul_zero _).symm
  flat := fun _ => rfl
  range := fun h => absurd rfl h

theorem costsOf_of_flat {p : Position} (hshares : p.shares = 0) (hcost : p.avgCost = 0) (hbasis : p.costBasis = 0) :
    p.CostsOf [] where
  positive := nofun
  basis := by rw [hbasis, hcost, mul_zero]
  flat := fun _ => hcost
  range := fun h => absurd hshares h

theorem costsOf_single {p : Position} {price : Decimal} (hprice : 0 < price) (hshares : p.shares ≠ 0)
    (hcost : p.avgCost = price) (hbasis : p.costBasis = |p.shares| * price) : p.CostsOf [price] where
  positive := fun _ h => List.mem_singleton.mp h ▸ hprice
  basis := by rw [hbasis, hcost]
  flat := fun h => absurd h hshares
  range := fun _ => ⟨price, List.mem_singleton_self _, price, List.mem_singleton_self _, hcost.ge, hcost.le⟩

namespace CostsOf
variable {p : Position} {prices : List Decimal}

theorem avgCost_pos (h : p.CostsOf prices) (hopen : p.shares ≠ 0) : 0 < p.avgCost := by
  obtain ⟨low, hlow, -, -, hle, -⟩ := h.range hopen
  exact (h.positive low hlow).trans_le hle

theorem avgCost_nonneg (h : p.CostsOf prices) : 0 ≤ p.avgCost := by
  by_cases hopen : p.shares = 0
  · exact (h.flat hopen).ge
  · exact (h.avgCost_pos hopen).le

theorem costBasis_nonneg (h : p.CostsOf prices) : 0 ≤ p.costBasis := by
  rw [h.basis]
  exact mul_nonneg (abs_nonneg _) h.avgCost_nonneg

theorem shares_eq_zero_iff (h : p.CostsOf prices) : p.shares = 0 ↔ p.avgCost = 0 := by
  refine ⟨h.flat, fun hcost => ?_⟩
  by_contra hopen
  exact (h.avgCost_pos hopen).ne' hcost

theorem avgCost_eq_zero_iff (h : p.CostsOf prices) : p.avgCost = 0 ↔ p.costBasis = 0 := by
  rw [h.basis, mul_eq_zero, abs_eq_zero, h.shares_eq_zero_iff, or_self]

/-- Only the unrealized profit, or nothing that is about cost, has changed. -/
theorem congr {q : Position} (h : p.CostsOf prices) (hshares : q.shares = p.shares) (hcost : q.avgCost = p.avgCost)
    (hbasis : q.costBasis = p.costBasis) : q.CostsOf prices where
  positive := h.positive
  basis := by rw [hbasis, hshares, hcost, h.basis]
  flat := fun hflat => hcost.trans (h.flat (hshares ▸ hflat))
  range := fun hopen => hcost ▸ h.range (hshares ▸ hopen)

theorem markToMarket (h : p.CostsOf prices) (marketPrice : Decimal) : (p.markToMarket marketPrice).CostsOf prices := by
  unfold Position.markToMarket
  split <;> exact h.congr rfl rfl rfl

theorem trackCosts (h : p.CostsOf prices) (f : Fill) : (p.trackCosts f).CostsOf prices := h.congr rfl rfl rfl

end CostsOf

/-- A mean with positive weights lies between its two values. -/
private theorem mean_between {a b q r : Decimal} (hq : 0 < q) (hr : 0 < r) (hab : a ≤ b) :
    a ≤ (a * q + b * r) / (q + r) ∧ (a * q + b * r) / (q + r) ≤ b := by
  have hsum : 0 < q + r := add_pos hq hr
  constructor
  · rw [le_div_iff₀ hsum]
    nlinarith
  · rw [div_le_iff₀ hsum]
    nlinarith

private theorem signedSize_ne_zero {f : Fill} (h : 0 < f.size) : f.signedSize ≠ 0 := by
  unfold Fill.signedSize
  cases f.side with
  | Buy => exact h.ne'
  | Sell => exact (neg_lt_zero.mpr h).ne

private theorem same_direction {x y : Decimal} (hx : x ≠ 0) (hy : y ≠ 0) (h : decide (0 < x) = decide (0 < y)) :
    (0 < x ∧ 0 < y) ∨ (x < 0 ∧ y < 0) := by
  have hiff : 0 < x ↔ 0 < y := decide_eq_decide.mp h
  rcases lt_or_gt_of_ne hx with hneg | hpos
  · exact .inr ⟨hneg, lt_of_le_of_ne (not_lt.mp fun hy => hneg.not_gt (hiff.mpr hy)) hy⟩
  · exact .inl ⟨hpos, hiff.mp hpos⟩

private theorem opposite_direction {x y : Decimal} (hx : x ≠ 0) (hy : y ≠ 0)
    (h : decide (0 < x) ≠ decide (0 < y)) : (0 < x ∧ y < 0) ∨ (x < 0 ∧ 0 < y) := by
  have hiff : ¬(0 < x ↔ 0 < y) := fun hiff => h (decide_eq_decide.mpr hiff)
  rcases lt_or_gt_of_ne hx with hneg | hpos
  · exact .inr ⟨hneg, not_le.mp fun hle => hiff (iff_of_false hneg.not_gt hle.not_gt)⟩
  · exact .inl ⟨hpos, lt_of_le_of_ne (not_lt.mp fun hgt => hiff (iff_of_true hpos hgt)) hy⟩

variable {p : Position} {f : Fill} {prices : List Decimal}

theorem costsOf_openWith (hflat : p.shares = 0) (hprice : 0 < f.price) (hsize : 0 < f.size) :
    (p.openWith f).CostsOf (openPrices p.shares (p.openWith f).shares f.price prices) := by
  have hshares : (p.openWith f).shares = f.signedSize := by rw [openWith, hflat, zero_add]
  have hopen : (p.openWith f).shares ≠ 0 := hshares ▸ signedSize_ne_zero hsize
  rw [openPrices, if_neg hopen, if_pos (.inl hflat)]
  exact costsOf_single hprice hopen rfl (mul_comm _ _)

theorem costsOf_addWith (h : p.CostsOf prices) (hopen : p.shares ≠ 0) (hprice : 0 < f.price) (hsize : 0 < f.size)
    (hsame : decide (0 < p.shares) = decide (0 < f.signedSize)) :
    (p.addWith f).CostsOf (openPrices p.shares (p.addWith f).shares f.price prices) := by
  have hdirection := same_direction hopen (signedSize_ne_zero hsize) hsame
  have habs : |p.shares + f.signedSize| = |p.shares| + |f.signedSize| := by
    refine (abs_add_eq_add_abs_iff _ _).mpr ?_
    exact hdirection.imp (fun hd => ⟨hd.1.le, hd.2.le⟩) fun hd => ⟨hd.1.le, hd.2.le⟩
  have hold : 0 < |p.shares| := abs_pos.mpr hopen
  have hnew : 0 < |f.signedSize| := abs_pos.mpr (signedSize_ne_zero hsize)
  have hcost : (p.addWith f).avgCost =
      (p.avgCost * |p.shares| + f.price * |f.signedSize|) / (|p.shares| + |f.signedSize|) := by
    rw [addWith]
    dsimp only
    rw [habs, if_pos (add_pos hold hnew)]
  have hafter : (p.addWith f).shares ≠ 0 := abs_pos.mp (habs ▸ add_pos hold hnew)
  have hstays : ¬(p.shares = 0 ∨ Flips p.shares (p.addWith f).shares) := by
    have hshares : (p.addWith f).shares = p.shares + f.signedSize := rfl
    rw [hshares]
    rintro (hzero | ⟨hbefore, hlater⟩ | ⟨hbefore, hlater⟩)
    · exact hopen hzero
    · rcases hdirection with hd | hd <;> linarith
    · rcases hdirection with hd | hd <;> linarith
  have hgrows : |p.shares| < |(p.addWith f).shares| := habs ▸ lt_add_of_pos_right _ hnew
  rw [openPrices, if_neg hafter, if_neg hstays, if_pos hgrows]
  refine ⟨fun price hmem => ?_, ?_, fun hzero => absurd hzero hafter, fun _ => ?_⟩
  · rcases List.mem_append.mp hmem with hmem | hmem
    · exact h.positive price hmem
    · exact List.mem_singleton.mp hmem ▸ hprice
  · have hbasis : (p.addWith f).costBasis = p.avgCost * |p.shares| + f.price * |f.signedSize| := rfl
    have hshares : |(p.addWith f).shares| = |p.shares| + |f.signedSize| := habs
    rw [hbasis, hcost, hshares, mul_div_cancel₀ _ (add_pos hold hnew).ne']
  · -- the new mean lies between the old one and the price of the fill
    obtain ⟨low, hlow, high, hhigh, hle, hge⟩ := h.range hopen
    have hlast : f.price ∈ prices ++ [f.price] := List.mem_append_right _ (List.mem_singleton_self _)
    rw [hcost]
    rcases le_total p.avgCost f.price with hcheaper | hdearer
    · have hmean := mean_between hold hnew hcheaper
      exact ⟨low, List.mem_append_left _ hlow, f.price, hlast, hle.trans hmean.1, hmean.2⟩
    · have hmean := mean_between hnew hold hdearer
      rw [add_comm (f.price * _), add_comm |f.signedSize|] at hmean
      exact ⟨f.price, hlast, high, List.mem_append_left _ hhigh, hmean.1, hmean.2.trans hge⟩

/-- A fill in the other direction closes the position, flips it or closes a part of it. -/
theorem reduceWith_cases (p : Position) (f : Fill) :
    (p.shares + f.signedSize = 0 ∧ (p.reduceWith f).shares = 0 ∧ (p.reduceWith f).avgCost = 0 ∧
        (p.reduceWith f).costBasis = 0) ∨
      (p.shares + f.signedSize ≠ 0 ∧ (p.reduceWith f).shares = p.shares + f.signedSize ∧
        ((Flips p.shares (p.shares + f.signedSize) ∧ (p.reduceWith f).avgCost = f.price ∧
            (p.reduceWith f).costBasis = f.price * (|f.signedSize| - |p.shares|)) ∨
          (¬Flips p.shares (p.shares + f.signedSize) ∧ (p.reduceWith f).avgCost = p.avgCost ∧
            (p.reduceWith f).costBasis = p.avgCost * |p.shares + f.signedSize|))) := by
  by_cases hclose : p.shares + f.signedSize = 0
  · refine .inl ⟨hclose, ?_⟩
    simp only [reduceWith, if_pos hclose, and_self]
  · refine .inr ⟨hclose, ?_⟩
    by_cases hflip : (0 < p.shares ∧ p.shares + f.signedSize < 0) ∨ (p.shares < 0 ∧ 0 < p.shares + f.signedSize)
    · simp only [reduceWith, if_neg hclose, if_pos hflip, true_and, and_true]
      exact .inl hflip
    · simp only [reduceWith, if_neg hclose, if_neg hflip, true_and, and_true]
      exact .inr hflip

private theorem abs_of_flips {x y : Decimal} (h : Flips x (x + y)) : |y| - |x| = |x + y| := by
  rcases h with ⟨hbefore, hafter⟩ | ⟨hbefore, hafter⟩
  · rw [abs_of_pos hbefore, abs_of_neg hafter, abs_of_neg (by linarith)]
    ring
  · rw [abs_of_neg hbefore, abs_of_pos hafter, abs_of_pos (by linarith)]
    ring

private theorem abs_of_not_flips {x y : Decimal} (hopposite : (0 < x ∧ y < 0) ∨ (x < 0 ∧ 0 < y))
    (h : ¬Flips x (x + y)) : |x + y| ≤ |x| := by
  rcases hopposite with ⟨hbefore, hfill⟩ | ⟨hbefore, hfill⟩
  · have hafter : 0 ≤ x + y := not_lt.mp fun hlt => h (.inl ⟨hbefore, hlt⟩)
    rw [abs_of_pos hbefore, abs_of_nonneg hafter]
    linarith
  · have hafter : x + y ≤ 0 := not_lt.mp fun hlt => h (.inr ⟨hbefore, hlt⟩)
    rw [abs_of_neg hbefore, abs_of_nonpos hafter]
    linarith

theorem costsOf_reduceWith (h : p.CostsOf prices) (hopen : p.shares ≠ 0) (hprice : 0 < f.price) (hsize : 0 < f.size)
    (hopposite : decide (0 < p.shares) ≠ decide (0 < f.signedSize)) :
    (p.reduceWith f).CostsOf (openPrices p.shares (p.reduceWith f).shares f.price prices) := by
  have hdirection := opposite_direction hopen (signedSize_ne_zero hsize) hopposite
  rcases reduceWith_cases p f with ⟨-, hshares, hcost, hbasis⟩ | ⟨hrest, hshares, hflip | hpart⟩
  · rw [openPrices, if_pos hshares]
    exact costsOf_of_flat hshares hcost hbasis
  · obtain ⟨hflip, hcost, hbasis⟩ := hflip
    have hprices : openPrices p.shares (p.reduceWith f).shares f.price prices = [f.price] := by
      rw [openPrices, hshares, if_neg hrest, if_pos (.inr hflip)]
    rw [hprices]
    refine costsOf_single hprice (hshares ▸ hrest) hcost ?_
    rw [hbasis, abs_of_flips hflip, hshares, mul_comm]
  · obtain ⟨hflip, hcost, hbasis⟩ := hpart
    have hless := abs_of_not_flips hdirection hflip
    have hprices : openPrices p.shares (p.reduceWith f).shares f.price prices = prices := by
      rw [openPrices, hshares, if_neg hrest, if_neg (not_or.mpr ⟨hopen, hflip⟩), if_neg (not_lt.mpr hless)]
    rw [hprices]
    refine ⟨h.positive, ?_, fun hzero => absurd (hshares ▸ hzero) hrest, fun _ => hcost ▸ h.range hopen⟩
    rw [hbasis, hcost, hshares, mul_comm]

/-- A fill keeps the cost of a position in step with its shares and the prices behind it. -/
theorem CostsOf.applyFill (h : p.CostsOf prices) (hprice : 0 < f.price) (hsize : 0 < f.size) :
    (p.applyFill f).CostsOf (openPrices p.shares (p.applyFill f).shares f.price prices) := by
  have htracked := h.trackCosts f
  rw [Position.applyFill]
  split
  · rename_i hflat
    exact costsOf_openWith (p := p.trackCosts f) hflat hprice hsize
  · rename_i hopen
    split
    · rename_i hsame
      exact costsOf_addWith htracked hopen hprice hsize hsame
    · rename_i hopposite
      exact costsOf_reduceWith htracked hopen hprice hsize hopposite

theorem costsOf_forceClose (p : Position) : p.forceClose.CostsOf [] := costsOf_of_flat rfl rfl rfl

end Position

namespace Positions
open General.KeyedStore

inductive Change where
  | fill (f : Fill)
  | markToMarket (tokenId : TokenId) (marketPrice : Decimal)
  | markAllToMarket (prices : List (TokenId × Decimal))
  | forceClose (tokenId : TokenId)
  deriving DecidableEq, Repr

def Change.Positive : Change → Prop
  | .fill f => 0 < f.price ∧ 0 < f.size
  | _ => True

def applyChange (ps : Positions) : Change → Positions
  | .fill f => ps.applyFill f
  | .markToMarket tokenId marketPrice => modify tokenId (·.markToMarket marketPrice) ps
  | .markAllToMarket prices => ps.markAllToMarket prices
  | .forceClose tokenId => ps.forceClose tokenId

def recordPrices (ps : Positions) (record : TokenId → List Decimal) : Change → TokenId → List Decimal
  | .fill f => Function.update record f.tokenId
      (Position.openPrices (ps.get f.tokenId).shares ((ps.applyFill f).get f.tokenId).shares f.price (record f.tokenId))
  | .forceClose tokenId => Function.update record tokenId []
  | _ => record

def recorded (s : Positions × (TokenId → List Decimal)) (c : Change) : Positions × (TokenId → List Decimal) :=
  (s.1.applyChange c, s.1.recordPrices s.2 c)

/-- A change that leaves the empty position alone may be thought of as one of every token's position. -/
theorem get_modify_self (ps : Positions) (t : TokenId) {g : Position → Position}
    (hnew : g (Position.new t) = Position.new t) : Positions.get (modify t g ps) t = g (ps.get t) := by
  rw [get, lookup_modify_self, get]
  cases ps.lookup t with
  | none => exact hnew.symm
  | some p => rfl

theorem get_modify_ne (ps : Positions) {t u : TokenId} (h : u ≠ t) (g : Position → Position) :
    Positions.get (modify t g ps) u = ps.get u := by
  rw [get, lookup_modify_ne h, get]

def Recorded (ps : Positions) (record : TokenId → List Decimal) : Prop := ∀ t, (ps.get t).CostsOf (record t)

namespace Recorded
variable {ps : Positions} {record : TokenId → List Decimal}

/-- One position changes, and its record with it. -/
theorem update (h : ps.Recorded record) {ps' : Positions} {t : TokenId} {prices : List Decimal}
    (hchanged : (ps'.get t).CostsOf prices) (hothers : ∀ u ≠ t, ps'.get u = ps.get u) :
    ps'.Recorded (Function.update record t prices) := by
  intro u
  rcases eq_or_ne u t with rfl | hne
  · rw [Function.update_self]
    exact hchanged
  · rw [Function.update_of_ne hne, hothers u hne]
    exact h u

theorem markToMarket (h : ps.Recorded record) (t : TokenId) (marketPrice : Decimal) :
    Recorded (modify t (·.markToMarket marketPrice) ps) record := by
  rw [← Function.update_eq_self t record]
  refine h.update ?_ fun u hu => get_modify_ne ps hu _
  rw [get_modify_self ps t (by simp [Position.markToMarket, Position.new, Position.isFlat])]
  exact (h t).markToMarket marketPrice

theorem markAllToMarket (h : ps.Recorded record) (prices : List (TokenId × Decimal)) :
    (ps.markAllToMarket prices).Recorded record := by
  unfold Positions.markAllToMarket
  induction prices generalizing ps with
  | nil => exact h
  | cons tp prices ih => exact ih (h.markToMarket tp.1 tp.2)

theorem forceClose (h : ps.Recorded record) (t : TokenId) :
    (ps.forceClose t).Recorded (Function.update record t []) := by
  refine h.update ?_ fun u hu => get_forceClose_ne ps hu
  rw [Positions.forceClose, get_modify_self ps t rfl]
  exact Position.costsOf_forceClose _

theorem applyFill (h : ps.Recorded record) {f : Fill} (hprice : 0 < f.price) (hsize : 0 < f.size) :
    (ps.applyFill f).Recorded (ps.recordPrices record (.fill f)) := by
  refine h.update ?_ fun u hu => get_applyFill_ne ps f hu.symm
  rw [get_applyFill_self]
  exact (h f.tokenId).applyFill hprice hsize

theorem applyChange (h : ps.Recorded record) {c : Change} (hc : c.Positive) :
    (ps.applyChange c).Recorded (ps.recordPrices record c) := by
  cases c with
  | fill f => exact h.applyFill hc.1 hc.2
  | markToMarket tokenId marketPrice => exact h.markToMarket tokenId marketPrice
  | markAllToMarket prices => exact h.markAllToMarket prices
  | forceClose tokenId => exact h.forceClose tokenId

end Recorded

/-- The record of the prices changes nothing. -/
theorem foldl_applyChange (changes : List Change) (ps : Positions) (record : TokenId → List Decimal) :
    changes.foldl applyChange ps = (changes.foldl recorded (ps, record)).1 := by
  induction changes generalizing ps record with
  | nil => rfl
  | cons c changes ih => exact ih (ps.applyChange c) (ps.recordPrices record c)

theorem recorded_new : new.Recorded fun _ => [] := by
  intro t
  rw [get_new]
  exact Position.costsOf_new t

theorem recorded_run {changes : List Change} (h : ∀ c ∈ changes, c.Positive) :
    (changes.foldl recorded (new, fun _ => [])).1.Recorded (changes.foldl recorded (new, fun _ => [])).2 := by
  induction changes using List.reverseRecOn with
  | nil => exact recorded_new
  | append_singleton changes c ih =>
    rw [List.foldl_append]
    exact (ih fun c' hc' => h c' (List.mem_append_left _ hc')).applyChange (h c (by simp))

/-- After any fills at positive prices, marks and closings: what a position costs is what its shares cost on average,
nothing of it is negative or zero for open shares, and the average is within the prices that the shares were bought or
sold short at. -/
theorem cost_of_every_position (changes : List Change) (h : ∀ c ∈ changes, c.Positive) (t : TokenId) :
    let p := (changes.foldl applyChange new).get t
    let prices := (changes.foldl recorded (new, fun _ => [])).2 t
    p.costBasis = |p.shares| * p.avgCost ∧ 0 ≤ p.avgCost ∧ 0 ≤ p.costBasis ∧ (p.shares = 0 ↔ p.avgCost = 0) ∧
      (p.avgCost = 0 ↔ p.costBasis = 0) ∧
      (p.shares ≠ 0 → ∃ low ∈ prices, ∃ high ∈ prices, low ≤ p.avgCost ∧ p.avgCost ≤ high) := by
  intro p prices
  have hcosts : ((changes.foldl applyChange new).get t).CostsOf prices := by
    rw [foldl_applyChange changes new fun _ => []]
    exact recorded_run h t
  exact ⟨hcosts.basis, hcosts.avgCost_nonneg, hcosts.costBasis_nonneg, hcosts.shares_eq_zero_iff,
    hcosts.avgCost_eq_zero_iff, hcosts.range⟩

private def boughtTwice : List Change :=
  [.fill ⟨"f1", "o1", "t", .Sell, 9 / 10, 5, 0, none, 0⟩, .fill ⟨"f2", "o2", "t", .Buy, 2 / 5, 15, 0, none, 0⟩,
    .fill ⟨"f3", "o3", "t", .Buy, 3 / 5, 10, 0, none, 0⟩, .markAllToMarket [("t", 1 / 2)],
    .fill ⟨"f4", "o4", "t", .Sell, 7 / 10, 5, 0, none, 0⟩]

/-- Five shares sold short, ten bought beyond them, ten more bought and five sold. -/
theorem cost_after_a_flip :
    let p := (boughtTwice.foldl applyChange new).get "t"
    p.shares = 15 ∧ p.costBasis = |p.shares| * p.avgCost ∧
      ∃ low ∈ [(2 / 5 : Decimal), 3 / 5], ∃ high ∈ [(2 / 5 : Decimal), 3 / 5], low ≤ p.avgCost ∧ p.avgCost ≤ high := by
  intro p
  have hpositive : ∀ c ∈ boughtTwice, c.Positive := by
    simp [boughtTwice, Change.Positive]
  have hprices : (boughtTwice.foldl recorded (new, fun _ => [])).2 "t" = [2 / 5, 3 / 5] := by decide +kernel
  have hshares : p.shares = 15 := by decide +kernel
  obtain ⟨hbasis, -, -, -, -, hrange⟩ := cost_of_every_position boughtTwice hpositive "t"
  rw [hprices] at hrange
  exact ⟨hshares, hbasis, hrange (by rw [hshares]; norm_num)⟩

end Positions

end PolyBot
