import PolyBot.General.DecimalText
import PolyBot.General.Ladder
import PolyBot.State.BookUpdates
import Mathlib.Order.Bounds.Defs

/-! The order books as sorted maps: for each token and side a map from price to size. -/

namespace PolyBot.BookRefinement
open General.Ladder

/-- The first of two prices is the better one to trade with on this side of the book. -/
def better : Side → Decimal → Decimal → Prop
  | .Buy => (· > ·)
  | .Sell => (· < ·)

instance (side : Side) : IsStrictTotalOrder Decimal (better side) := by
  cases side with
  | Buy => exact inferInstanceAs (IsStrictTotalOrder Decimal (· > ·))
  | Sell => exact inferInstanceAs (IsStrictTotalOrder Decimal (· < ·))

abbrev ReferenceBooks := TokenId → Side → Decimal → Option Decimal

variable (parse : String → Option Decimal)

def listed (levels : List PriceLevel) (price : Decimal) : Option Decimal :=
  (levels.find? fun l => parse l.price = some price).bind fun l => parse l.size

/-- What a message says about the sizes: a snapshot replaces both sides, a level sets or removes one price. -/
def reference (ref : ReferenceBooks) : BookMessage → ReferenceBooks
  | .snapshot tokenId _ bids asks _ _ =>
    Function.update ref tokenId fun
      | .Buy => listed parse bids
      | .Sell => listed parse asks
  | .level tokenId _ side price size _ _ =>
    match parse price, parse size, sideOf side with
    | some p, some s, some sd =>
      let sizes := Function.update (ref tokenId sd) p (if s = 0 then none else some s)
      Function.update ref tokenId (Function.update (ref tokenId) sd sizes)
    | _, _, _ => ref

/-- A side of a snapshot as the exchange sends it: prices and sizes are positive, no price is listed twice. A level
whose price is no number is left out of account. -/
structure WellFormedSide (levels : List PriceLevel) : Prop where
  positive : ∀ l ∈ levels, ∀ p ∈ parse l.price, 0 < p ∧ ∃ s ∈ parse l.size, 0 < s
  distinct : levels.Pairwise fun a b => ∀ p ∈ parse a.price, parse b.price ≠ some p

instance (levels : List PriceLevel) : Decidable (WellFormedSide parse levels) :=
  decidable_of_iff (_ ∧ _) ⟨fun h => ⟨h.1, h.2⟩, fun h => ⟨h.positive, h.distinct⟩⟩

def WellFormed : BookMessage → Prop
  | .snapshot _ _ bids asks _ _ => WellFormedSide parse bids ∧ WellFormedSide parse asks
  | .level _ _ side price size _ _ =>
    (∃ p ∈ parse price, 0 < p) ∧ (∃ s ∈ parse size, 0 ≤ s) ∧ (sideOf side).isSome = true

instance (message : BookMessage) : Decidable (WellFormed parse message) :=
  match message with
  | .snapshot .. => inferInstanceAs (Decidable (_ ∧ _))
  | .level .. => inferInstanceAs (Decidable (_ ∧ _ ∧ _))

/-- No snapshot lists an ask whose price is no number before an ask at the largest decimal. -/
def LargestAskFirst : BookMessage → Prop
  | .snapshot _ _ _ asks _ _ => asks.Pairwise fun a b => parse a.price = none → parse b.price ≠ some Decimal.max
  | .level .. => True

instance (message : BookMessage) : Decidable (LargestAskFirst parse message) :=
  match message with
  | .snapshot .. => inferInstanceAs (Decidable (List.Pairwise _ _))
  | .level .. => inferInstanceAs (Decidable True)

structure Refines (books : OrderBookState) (ref : ReferenceBooks) (tokenId : TokenId) : Prop where
  bids_descend : ((books.levels tokenId .Buy).filterMap (parse ·.price)).Pairwise (· > ·)
  asks_ascend : ((books.levels tokenId .Sell).filterMap (parse ·.price)).Pairwise (· < ·)
  sizes : ∀ side p s, ref tokenId side p = some s ↔
    ∃ l ∈ books.levels tokenId side, parse l.price = some p ∧ parse l.size = some s
  sized : ∀ side, ∀ l ∈ books.levels tokenId side, ∀ p, parse l.price = some p → ∃ s, parse l.size = some s
  best_bid : ∀ b, books.bestBid parse tokenId = some b ↔ IsGreatest {p | ∃ s, ref tokenId .Buy p = some s} b
  best_ask : ∀ a, books.bestAsk parse tokenId = some a ↔ IsLeast {p | ∃ s, ref tokenId .Sell p = some s} a
  bid_readable : ∀ l ∈ books.levels tokenId .Buy, ∀ p, parse l.price = some p →
    ∃ b, books.bestBid parse tokenId = some b
  ask_readable : ∀ l ∈ books.levels tokenId .Sell, ∀ p, parse l.price = some p →
    ∃ a, books.bestAsk parse tokenId = some a

def Sides (books : OrderBookState) (ref : ReferenceBooks) : Prop :=
  ∀ tokenId side, Represents (better side) (fun l => parse l.price) (fun l => parse l.size) (books.levels tokenId side)
    (ref tokenId side)

variable {parse} {books : OrderBookState} {ref : ReferenceBooks}

theorem bestBid_eq (tokenId : TokenId) :
    books.bestBid parse tokenId = (books.levels tokenId .Buy).head?.bind fun l => parse l.price := by
  unfold OrderBookState.bestBid OrderBookState.levels
  cases books.getBook tokenId <;> rfl

theorem bestAsk_eq (tokenId : TokenId) :
    books.bestAsk parse tokenId = (books.levels tokenId .Sell).head?.bind fun l => parse l.price := by
  unfold OrderBookState.bestAsk OrderBookState.levels
  cases books.getBook tokenId <;> rfl

theorem Sides.refines (h : Sides parse books ref) (tokenId : TokenId) : Refines parse books ref tokenId where
  bids_descend := (h tokenId .Buy).keys_pairwise
  asks_ascend := (h tokenId .Sell).keys_pairwise
  sizes side := (h tokenId side).graph
  sized side := (h tokenId side).valued
  best_bid b := by
    rw [bestBid_eq, (h tokenId .Buy).head_iff]
    refine and_congr_right fun _ => ⟨?_, ?_⟩
    · rintro hfirst j ⟨s, hj⟩
      exact (hfirst j s hj).elim le_of_eq le_of_lt
    · intro hupper j s hj
      exact (hupper ⟨s, hj⟩).eq_or_lt
  best_ask a := by
    rw [bestAsk_eq, (h tokenId .Sell).head_iff]
    refine and_congr_right fun _ => ⟨?_, ?_⟩
    · rintro hfirst j ⟨s, hj⟩
      exact (hfirst j s hj).elim (fun heq => heq.ge) le_of_lt
    · intro hlower j s hj
      exact (hlower ⟨s, hj⟩).eq_or_lt.imp Eq.symm id
  bid_readable l hmem p hp := by
    rw [bestBid_eq]
    exact (h tokenId .Buy).head_keyed hmem hp
  ask_readable l hmem p hp := by
    rw [bestAsk_eq]
    exact (h tokenId .Sell).head_keyed hmem hp

theorem better_iff_of_placeIdx (side : Side) (levels : List PriceLevel) (price : Decimal) :
    ∃ p : PriceLevel → Bool, placeIdx parse side levels price = levels.findIdx p ∧
      ∀ l, p l = true ↔ ∀ j, parse l.price = some j → better side price j := by
  cases side with
  | Buy | Sell =>
    refine ⟨_, rfl, fun l => ?_⟩
    cases hl : parse l.price <;> simp [better]

/-- One level message keeps a side in order and has the effect of the reference. -/
theorem represents_changeLevel {side : Side} {levels : List PriceLevel} {m : Decimal → Option Decimal}
    (h : Represents (better side) (fun l => parse l.price) (fun l => parse l.size) levels m) {price size : String}
    {p s : Decimal} (hp : parse price = some p) (hs : parse size = some s) :
    Represents (better side) (fun l => parse l.price) (fun l => parse l.size)
      (changeLevel parse side levels ⟨price, size⟩ p s) (Function.update m p (if s = 0 then none else some s)) := by
  have hfree : existingIdx parse levels p = none → ∀ l ∈ levels, parse l.price ≠ some p := fun hnone l hmem hl =>
    absurd (List.findIdx?_eq_none_iff.mp hnone l hmem) (by simp [hl])
  unfold changeLevel
  split
  · split
    · rename_i idx hidx
      exact h.eraseIdx hidx
    · rename_i hnone
      rw [Function.update_eq_self_iff.mpr (h.absent (hfree hnone)).symm]
      exact h
  · split
    · rename_i idx hidx
      exact h.set hp hs hidx
    · rename_i hnone
      obtain ⟨q, hplace, hq⟩ := better_iff_of_placeIdx side levels p
      rw [hplace]
      exact h.insertIdx hp hs (hfree hnone) hq

/-- A sorted snapshot side has the listed sizes. -/
theorem represents_sort {side : Side} {levels : List PriceLevel} (h : WellFormedSide parse levels) (worst : Decimal)
    {s : PriceLevel → PriceLevel → Prop} [DecidableRel s]
    (hs : ∀ a b, s a b ↔ ¬better side ((parse b.price).getD worst) ((parse a.price).getD worst))
    (hworst : ∀ l ∈ levels, ∀ p, parse l.price = some p → ¬better side worst p)
    (hlast : levels.Pairwise fun a b => parse a.price = none → parse b.price ≠ some worst) :
    Represents (better side) (fun l => parse l.price) (fun l => parse l.size) (levels.insertionSort s)
      (listed parse levels) := by
  refine .insertionSort hs hworst h.distinct hlast (fun l hmem p hp => ?_) (graph_find? h.distinct)
  obtain ⟨-, size, hsize, -⟩ := h.positive l hmem p hp
  exact ⟨size, hsize⟩

theorem represents_bids {bids : List PriceLevel} (h : WellFormedSide parse bids) :
    Represents (better .Buy) (fun l => parse l.price) (fun l => parse l.size)
      (bids.insertionSort fun a b => (parse b.price).getD 0 ≤ (parse a.price).getD 0) (listed parse bids) := by
  refine represents_sort h 0 (fun _ _ => not_lt.symm) (fun l hmem p hp => ?_) ?_
  · exact not_lt.mpr (h.positive l hmem p hp).1.le
  · refine List.pairwise_of_forall_mem_list fun a _ b hb _ hzero => ?_
    exact lt_irrefl _ (h.positive b hb 0 hzero).1

theorem represents_asks (hparse : ∀ text p, parse text = some p → p ≤ Decimal.max) {asks : List PriceLevel}
    (h : WellFormedSide parse asks)
    (hlast : asks.Pairwise fun a b => parse a.price = none → parse b.price ≠ some Decimal.max) :
    Represents (better .Sell) (fun l => parse l.price) (fun l => parse l.size)
      (asks.insertionSort fun a b => (parse a.price).getD Decimal.max ≤ (parse b.price).getD Decimal.max)
      (listed parse asks) :=
  represents_sort h Decimal.max (fun _ _ => not_lt.symm) (fun l _ p hp => not_lt.mpr (hparse l.price p hp)) hlast

/-- A book with the sizes of the reference may replace that of its token. -/
theorem Sides.insert (h : Sides parse books ref) {tokenId : TokenId} {book : BookSnapshot}
    {sizes : Side → Decimal → Option Decimal}
    (hbook : ∀ side, Represents (better side) (fun l => parse l.price) (fun l => parse l.size) (book.levels side)
      (sizes side)) : Sides parse (books.insert tokenId book) (Function.update ref tokenId sizes) := by
  intro token side
  by_cases htoken : token = tokenId
  · subst htoken
    rw [OrderBookState.levels_insert_self, Function.update_self]
    exact hbook side
  · rw [books.levels_insert_ne htoken, Function.update_of_ne htoken]
    exact h token side

theorem Sides.stampedBook (h : Sides parse books ref) (tokenId : TokenId) (market : ConditionId)
    (timestamp : Option ℤ) (hash : Option String) {sd : Side} {levels : List PriceLevel}
    {sizes : Decimal → Option Decimal}
    (hlevels : Represents (better sd) (fun l => parse l.price) (fun l => parse l.size) levels sizes) (side : Side) :
    Represents (better side) (fun l => parse l.price) (fun l => parse l.size)
      (((books.stampedBook tokenId market timestamp hash).setLevels sd levels).levels side)
      (Function.update (ref tokenId) sd sizes side) := by
  by_cases hsame : side = sd
  · subst hsame
    rw [BookSnapshot.levels_setLevels_self, Function.update_self]
    exact hlevels
  · rw [BookSnapshot.levels_setLevels_ne _ hsame, Function.update_of_ne hsame, OrderBookState.levels_stampedBook]
    exact h tokenId side

/-- A level message that can be read changes one side of the book. -/
theorem take_level (books : OrderBookState) (tokenId : TokenId) (market : ConditionId) {sideText price size : String}
    (timestamp : Option ℤ) (hash : Option String) {sd : Side} {p s : Decimal} (hsd : sideOf sideText = some sd)
    (hp : parse price = some p) (hs : parse size = some s) :
    books.take parse (.level tokenId market sideText price size timestamp hash) =
      books.insert tokenId ((books.stampedBook tokenId market timestamp hash).setLevels sd
        (changeLevel parse sd (books.levels tokenId sd) ⟨price, size⟩ p s)) := by
  simp only [OrderBookState.take, OrderBookState.updateLevel, hp, hs, hsd, OrderBookState.levels_stampedBook]

/-- Each message takes the books and the reference to the same sides. -/
theorem Sides.take (hparse : ∀ text p, parse text = some p → p ≤ Decimal.max) (h : Sides parse books ref)
    {message : BookMessage} (hwf : WellFormed parse message) (hlast : LargestAskFirst parse message) :
    Sides parse (books.take parse message) (reference parse ref message) := by
  cases message with
  | snapshot tokenId market bids asks timestamp hash =>
    refine h.insert fun side => ?_
    cases side with
    | Buy => exact represents_bids hwf.1
    | Sell => exact represents_asks hparse hwf.2 hlast
  | level tokenId market sideText price size timestamp hash =>
    obtain ⟨⟨p, hp, -⟩, ⟨s, hs, -⟩, hside⟩ := hwf
    obtain ⟨sd, hsd⟩ := Option.isSome_iff_exists.mp hside
    rw [Option.mem_def] at hp hs
    have href : reference parse ref (.level tokenId market sideText price size timestamp hash) =
        Function.update ref tokenId (Function.update (ref tokenId) sd
          (Function.update (ref tokenId sd) p (if s = 0 then none else some s))) := by
      simp only [reference, hp, hs, hsd]
    rw [take_level books tokenId market timestamp hash hsd hp hs, href]
    exact h.insert (h.stampedBook tokenId market timestamp hash (represents_changeLevel (h tokenId sd) hp hs))

/-- After every run of well-formed messages in which no ask without a price is listed before one at the largest
decimal, the books are the sorted maps of the reference. -/
theorem books_refine_sorted_maps (hparse : ∀ text p, parse text = some p → p ≤ Decimal.max)
    (messages : List BookMessage) (hwf : ∀ m ∈ messages, WellFormed parse m)
    (hlast : ∀ m ∈ messages, LargestAskFirst parse m) (tokenId : TokenId) :
    Refines parse (messages.foldl (·.take parse) ∅) (messages.foldl (reference parse) fun _ _ _ => none) tokenId := by
  have hrun : ∀ (books : OrderBookState) (ref : ReferenceBooks), Sides parse books ref →
      Sides parse (messages.foldl (·.take parse) books) (messages.foldl (reference parse) ref) := by
    induction messages with
    | nil => exact fun _ _ h => h
    | cons message messages ih =>
      intro books ref h
      obtain ⟨hwfHead, hwfTail⟩ := List.forall_mem_cons.mp hwf
      obtain ⟨hlastHead, hlastTail⟩ := List.forall_mem_cons.mp hlast
      exact ih hwfTail hlastTail _ _ (h.take hparse hwfHead hlastHead)
  exact (hrun ∅ _ fun _ _ => .nil).refines tokenId

private def readPrice (text : String) : Option Decimal :=
  ((General.DecimalText.ScaledDecimal.fromStr text).map (·.value)).filter (· ≤ Decimal.max)

private theorem readPrice_le (text : String) (p : Decimal) (h : readPrice text = some p) : p ≤ Decimal.max :=
  of_decide_eq_true (Option.filter_eq_some_iff.mp h).2

private def mixedMessages : List BookMessage :=
  [.snapshot "1" "m1" [⟨"0.50", "10"⟩, ⟨"n/a", "5"⟩, ⟨"0.52", "3"⟩] [⟨"n/a", "5"⟩, ⟨"0.55", "4"⟩] (some 1) none,
    .level "1" "m1" "buy" "0.520" "0" (some 2) none, .level "1" "m1" "Sell" "0.54" "7" (some 3) none]

/-- A snapshot out of order, the removal of its best bid under another text and a better ask. -/
theorem mixed_messages_refine :
    Refines readPrice (mixedMessages.foldl (·.take readPrice) ∅)
        (mixedMessages.foldl (reference readPrice) fun _ _ _ => none) "1" ∧
      OrderBookState.bestBid readPrice (mixedMessages.foldl (·.take readPrice) ∅) "1" = some (1 / 2) ∧
      OrderBookState.bestAsk readPrice (mixedMessages.foldl (·.take readPrice) ∅) "1" = some (54 / 100) :=
  ⟨books_refine_sorted_maps readPrice_le mixedMessages (by decide +kernel) (by decide +kernel) "1", by decide +kernel,
    by decide +kernel⟩

private def largestAskLast : BookMessage :=
  .snapshot "1" "m1" [] [⟨"n/a", "5"⟩, ⟨"79228162514264337593543950335", "5"⟩] none none

/-- An ask without a price is listed before one at the largest decimal: there is no best ask. -/
theorem largest_ask_is_hidden :
    WellFormed readPrice largestAskLast ∧
      OrderBookState.bestAsk readPrice (OrderBookState.take readPrice ∅ largestAskLast) "1" = none ∧
      ¬Refines readPrice (OrderBookState.take readPrice ∅ largestAskLast)
        (reference readPrice (fun _ _ _ => none) largestAskLast) "1" := by
  have hnone : OrderBookState.bestAsk readPrice (OrderBookState.take readPrice ∅ largestAskLast) "1" = none := by
    decide +kernel
  refine ⟨by decide +kernel, hnone, fun hrefines => ?_⟩
  obtain ⟨a, ha⟩ := hrefines.ask_readable ⟨"79228162514264337593543950335", "5"⟩ (by decide +kernel) Decimal.max
    (by decide +kernel)
  exact absurd (hnone.symm.trans ha) (by simp)

end PolyBot.BookRefinement
