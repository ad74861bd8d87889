import PolyBot.State.BookRefinement
import PolyBot.State.ExchangeBooks

/-! What is read of the order books beyond the best prices. -/

namespace PolyBot
open General.Ladder

namespace OrderBookState
variable (parse : String → Option Decimal)

def spread (books : OrderBookState) (tokenId : TokenId) : Option Decimal := do
  let bid ← books.bestBid parse tokenId
  let ask ← books.bestAsk parse tokenId
  pure (ask - bid)

/-- A decimal as an unsigned integer of 32 bits, its fraction cut off. -/
def toU32 (d : Decimal) : Option ℕ := if d < 0 ∨ 2 ^ 32 ≤ ⌊d⌋ then none else some ⌊d⌋.toNat

/-- The spread in basis points of the mid price; a crossed book has none. -/
def spreadBps (books : OrderBookState) (tokenId : TokenId) : Option ℕ := do
  let spread ← books.spread parse tokenId
  let mid ← books.midPrice parse tokenId
  if mid = 0 then none else toU32 (spread / mid * 10000)

def isTwoSided (books : OrderBookState) (tokenId : TokenId) : Bool :=
  match books.getBook tokenId with
  | none => false
  | some book => book.isTwoSided

/-- Those of the first `n` levels of either side that can be read. -/
def topLevels (books : OrderBookState) (tokenId : TokenId) (n : ℕ) :
    List (Decimal × Decimal) × List (Decimal × Decimal) :=
  match books.getBook tokenId with
  | none => ([], [])
  | some book =>
    let level (l : PriceLevel) : Option (Decimal × Decimal) :=
      (parse l.price).bind fun p => (parse l.size).map fun s => (p, s)
    ((book.bids.take n).filterMap level, (book.asks.take n).filterMap level)

end OrderBookState

namespace BookRefinement

/-- The levels without a price that the last snapshot of a token had on a side. -/
abbrev UnreadLevels := TokenId → Side → List PriceLevel

/-- Only a snapshot changes them. -/
def unread (parse : String → Option Decimal) (levels : UnreadLevels) : BookMessage → UnreadLevels
  | .snapshot tokenId _ bids asks _ _ =>
    Function.update levels tokenId fun
      | .Buy => keyless (fun l => parse l.price) bids
      | .Sell => keyless (fun l => parse l.price) asks
  | .level .. => levels

/-- What is read of a token's book, by the lists of its bids and asks, best first, and its levels without a price. -/
structure ViewsAgree (parse : String → Option Decimal) (books : OrderBookState) (tokenId : TokenId)
    (bids asks : List (Decimal × Decimal)) (unread : Side → List PriceLevel) : Prop where
  topLevels : ∀ n, books.topLevels parse tokenId n = (bids.take n, asks.take n)
  bestBid : books.bestBid parse tokenId = bids.head?.map (·.1)
  bestAsk : books.bestAsk parse tokenId = asks.head?.map (·.1)
  bidDepth : books.bidDepth parse tokenId = (bids.head?.map (·.2)).or ((unread .Buy).head?.bind fun l => parse l.size)
  askDepth : books.askDepth parse tokenId = (asks.head?.map (·.2)).or ((unread .Sell).head?.bind fun l => parse l.size)
  spread : books.spread parse tokenId = asks.head?.bind fun ask => bids.head?.map fun bid => ask.1 - bid.1
  midPrice : books.midPrice parse tokenId = asks.head?.bind fun ask => bids.head?.map fun bid => (bid.1 + ask.1) / 2
  isTwoSided : books.isTwoSided tokenId = true ↔ (bids ≠ [] ∨ unread .Buy ≠ []) ∧ (asks ≠ [] ∨ unread .Sell ≠ [])
  /-- The spread is given in basis points unless the book is crossed. -/
  spreadBps : books.spreadBps parse tokenId = asks.head?.bind fun ask => bids.head?.bind fun bid =>
    if bid.1 ≤ ask.1 then some ⌊(ask.1 - bid.1) / ((bid.1 + ask.1) / 2) * 10000⌋.toNat else none

variable {parse : String → Option Decimal} {books : OrderBookState} {ref : ReferenceBooks}

theorem topLevels_eq (tokenId : TokenId) (n : ℕ) : books.topLevels parse tokenId n =
    (((books.levels tokenId .Buy).take n).filterMap (entry (fun l => parse l.price) fun l => parse l.size),
      ((books.levels tokenId .Sell).take n).filterMap (entry (fun l => parse l.price) fun l => parse l.size)) := by
  unfold OrderBookState.topLevels OrderBookState.levels
  cases books.getBook tokenId with
  | none => simp
  | some book => rfl

theorem depth_eq (tokenId : TokenId) :
    books.bidDepth parse tokenId = (books.levels tokenId .Buy).head?.bind (fun l => parse l.size) ∧
      books.askDepth parse tokenId = (books.levels tokenId .Sell).head?.bind fun l => parse l.size := by
  unfold OrderBookState.bidDepth OrderBookState.askDepth OrderBookState.levels
  cases books.getBook tokenId <;> exact ⟨rfl, rfl⟩

theorem isTwoSided_eq (tokenId : TokenId) : books.isTwoSided tokenId =
    (!(books.levels tokenId .Buy).isEmpty && !(books.levels tokenId .Sell).isEmpty) := by
  unfold OrderBookState.isTwoSided OrderBookState.levels
  cases books.getBook tokenId <;> rfl

/-- Between positive prices that are not crossed the spread is at most twice the mid price. -/
theorem toU32_eq {bid ask : Decimal} (hbid : 0 < bid) (hask : 0 < ask) :
    OrderBookState.toU32 ((ask - bid) / ((bid + ask) / 2) * 10000) =
      if bid ≤ ask then some ⌊(ask - bid) / ((bid + ask) / 2) * 10000⌋.toNat else none := by
  have hmid : 0 < (bid + ask) / 2 := by positivity
  unfold OrderBookState.toU32
  by_cases hle : bid ≤ ask
  · have hnonneg : 0 ≤ (ask - bid) / ((bid + ask) / 2) * 10000 :=
      mul_nonneg (div_nonneg (by linarith) hmid.le) (by norm_num)
    have htwo : (ask - bid) / ((bid + ask) / 2) ≤ 2 := by
      rw [div_le_iff₀ hmid]
      linarith
    have hsmall : ⌊(ask - bid) / ((bid + ask) / 2) * 10000⌋ < 2 ^ 32 := by
      rw [Int.floor_lt]
      push_cast
      linarith
    rw [if_pos hle, if_neg (not_or.mpr ⟨not_lt.mpr hnonneg, not_le.mpr hsmall⟩)]
  · have hneg : (ask - bid) / ((bid + ask) / 2) * 10000 < 0 :=
      mul_neg_of_neg_of_pos (div_neg_of_neg_of_pos (by linarith) hmid) (by norm_num)
    rw [if_neg hle, if_pos (.inl hneg)]

section Best
variable {tokenId : TokenId} {bid ask : Option (Decimal × Decimal)}

theorem spread_of_best (hbid : books.bestBid parse tokenId = bid.map (·.1))
    (hask : books.bestAsk parse tokenId = ask.map (·.1)) :
    books.spread parse tokenId = ask.bind fun a => bid.map fun b => a.1 - b.1 := by
  rw [OrderBookState.spread, hbid, hask]
  cases bid <;> cases ask <;> rfl

theorem midPrice_of_best (hbid : books.bestBid parse tokenId = bid.map (·.1))
    (hask : books.bestAsk parse tokenId = ask.map (·.1)) :
    books.midPrice parse tokenId = ask.bind fun a => bid.map fun b => (b.1 + a.1) / 2 := by
  rw [OrderBookState.midPrice, hbid, hask]
  cases bid <;> cases ask <;> rfl

theorem spreadBps_of_best (hbid : books.bestBid parse tokenId = bid.map (·.1))
    (hask : books.bestAsk parse tokenId = ask.map (·.1)) (hbidPos : ∀ b ∈ bid, 0 < b.1) (haskPos : ∀ a ∈ ask, 0 < a.1) :
    books.spreadBps parse tokenId = ask.bind fun a => bid.bind fun b =>
      if b.1 ≤ a.1 then some ⌊(a.1 - b.1) / ((b.1 + a.1) / 2) * 10000⌋.toNat else none := by
  rw [OrderBookState.spreadBps, spread_of_best hbid hask, midPrice_of_best hbid hask]
  cases bid with
  | none => cases ask <;> rfl
  | some b =>
    cases ask with
    | none => rfl
    | some a =>
      have hb := hbidPos b rfl
      have ha := haskPos a rfl
      have hmid : (b.1 + a.1) / 2 ≠ 0 := by positivity
      simp [hmid, ← toU32_eq hb ha]

end Best

/-- The books represent their sizes, at positive prices, and have the levels without a price that they should. -/
structure Viewed (parse : String → Option Decimal) (books : OrderBookState) (ref : ReferenceBooks)
    (levels : UnreadLevels) : Prop where
  sides : Sides parse books ref
  unread : ∀ tokenId side, keyless (fun l => parse l.price) (books.levels tokenId side) = levels tokenId side
  positive : ∀ tokenId side p s, ref tokenId side p = some s → 0 < p

variable {levels : UnreadLevels}

/-- A side without a readable level begins with its first level without a price. -/
theorem Viewed.depth (h : Viewed parse books ref levels) (tokenId : TokenId) (side : Side)
    {entries : List (Decimal × Decimal)}
    (hentries : (books.levels tokenId side).filterMap (entry (fun l => parse l.price) fun l => parse l.size) = entries) :
    (books.levels tokenId side).head?.bind (fun l => parse l.size) =
      (entries.head?.map (·.2)).or ((levels tokenId side).head?.bind fun l => parse l.size) := by
  cases entries with
  | nil =>
    rw [← h.unread, keyless_of_entries_nil (h.sides tokenId side).valued hentries]
    rfl
  | cons first rest =>
    rw [(((h.sides tokenId side).head_entries hentries).2 (List.cons_ne_nil first rest)).1]
    rfl

/-- In books that represent their sizes, all views agree with the sorted lists of these. -/
theorem Viewed.viewsAgree (h : Viewed parse books ref levels) (tokenId : TokenId) : ∃ bids asks,
    Lists (better .Buy) (ref tokenId .Buy) bids ∧ Lists (better .Sell) (ref tokenId .Sell) asks ∧
      ViewsAgree parse books tokenId bids asks (levels tokenId) := by
  have hbuy := h.sides tokenId .Buy
  have hsell := h.sides tokenId .Sell
  refine ⟨_, _, hbuy.lists, hsell.lists, ?_⟩
  generalize hbids : (books.levels tokenId .Buy).filterMap (entry (fun l => parse l.price) fun l => parse l.size) = bids
  generalize hasks : (books.levels tokenId .Sell).filterMap (entry (fun l => parse l.price) fun l => parse l.size) = asks
  have hbid := (hbuy.head_entries hbids).1
  have hask := (hsell.head_entries hasks).1
  rw [← bestBid_eq] at hbid
  rw [← bestAsk_eq] at hask
  have hpositive : ∀ {side entries}, Lists (better side) (ref tokenId side) entries → ∀ e ∈ entries.head?, 0 < e.1 := by
    intro side entries hlists e he
    exact h.positive tokenId side e.1 e.2 ((hlists.mem_iff e.1 e.2).mp (List.mem_of_mem_head? he))
  refine ⟨fun n => ?_, hbid, hask, ?_, ?_, spread_of_best hbid hask, midPrice_of_best hbid hask, ?_,
    spreadBps_of_best hbid hask (hpositive (hbids ▸ hbuy.lists)) (hpositive (hasks ▸ hsell.lists))⟩
  · rw [topLevels_eq, hbuy.filterMap_take, hsell.filterMap_take, hbids, hasks]
  · rw [(depth_eq tokenId).1, h.depth tokenId .Buy hbids]
  · rw [(depth_eq tokenId).2, h.depth tokenId .Sell hasks]
  · rw [isTwoSided_eq, Bool.and_eq_true, Bool.not_eq_true', Bool.not_eq_true', isEmpty_eq_false_iff hbuy.valued,
      isEmpty_eq_false_iff hsell.valued, hbids, hasks, h.unread, h.unread]

theorem keyless_changeLevel (side : Side) (levels : List PriceLevel) {price size : String} {p : Decimal} (s : Decimal)
    (hp : parse price = some p) : keyless (fun l => parse l.price) (changeLevel parse side levels ⟨price, size⟩ p s) =
      keyless (fun l => parse l.price) levels := by
  unfold changeLevel
  split
  · split
    · rename_i idx hidx
      exact keyless_eraseIdx hidx
    · rfl
  · split
    · rename_i idx hidx
      exact keyless_set hp hidx
    · obtain ⟨q, hplace, -⟩ := better_iff_of_placeIdx side levels p
      rw [hplace]
      exact keyless_insertIdx (fun l => parse l.price) (e := ⟨price, size⟩) hp q

theorem unread_take (message : BookMessage) (hwf : WellFormed parse message)
    (h : ∀ tokenId side, keyless (fun l => parse l.price) (books.levels tokenId side) = levels tokenId side)
    (tokenId : TokenId) (side : Side) :
    keyless (fun l => parse l.price) ((books.take parse message).levels tokenId side) =
      unread parse levels message tokenId side := by
  cases message with
  | snapshot token market bids asks timestamp hash =>
    by_cases htoken : tokenId = token
    · subst htoken
      rw [OrderBookState.take, OrderBookState.updateBook, OrderBookState.levels_insert_self, unread,
        Function.update_self]
      cases side with
      | Buy =>
        exact keyless_insertionSort (fun l : PriceLevel => (parse l.price).getD 0) (fun a b => b ≤ a) fun l hl => by
          rw [hl, Option.getD_none]
      | Sell =>
        exact keyless_insertionSort (fun l : PriceLevel => (parse l.price).getD Decimal.max) (fun a b => a ≤ b)
          fun l hl => by rw [hl, Option.getD_none]
    · rw [OrderBookState.take, OrderBookState.updateBook, OrderBookState.levels_insert_ne _ htoken, unread,
        Function.update_of_ne htoken]
      exact h tokenId side
  | level token market sideText price size timestamp hash =>
    obtain ⟨⟨p, hp, -⟩, ⟨s, hs, -⟩, hside⟩ := hwf
    obtain ⟨sd, hsd⟩ := Option.isSome_iff_exists.mp hside
    rw [take_level books token market timestamp hash hsd hp hs, unread, ← h tokenId side]
    by_cases htoken : tokenId = token
    · subst htoken
      rw [OrderBookState.levels_insert_self]
      by_cases hsame : side = sd
      · subst hsame
        rw [BookSnapshot.levels_setLevels_self]
        exact keyless_changeLevel side _ s hp
      · rw [BookSnapshot.levels_setLevels_ne _ hsame, OrderBookState.levels_stampedBook]
    · rw [OrderBookState.levels_insert_ne _ htoken]

/-- Well-formed messages list positive prices. -/
theorem positive_reference (message : BookMessage) (hwf : WellFormed parse message)
    (h : ∀ tokenId side p s, ref tokenId side p = some s → 0 < p) (tokenId : TokenId) (side : Side) (p s : Decimal)
    (href : reference parse ref message tokenId side p = some s) : 0 < p := by
  have hlisted : ∀ {levels : List PriceLevel}, WellFormedSide parse levels → listed parse levels p = some s → 0 < p := by
    intro levels hside hp
    obtain ⟨l, hl, -⟩ := Option.bind_eq_some_iff.mp hp
    exact (hside.positive l (List.mem_of_find?_eq_some hl) p (by simpa using List.find?_some hl)).1
  cases message with
  | snapshot token market bids asks timestamp hash =>
    by_cases htoken : tokenId = token
    · subst htoken
      rw [reference, Function.update_self] at href
      cases side with
      | Buy => exact hlisted hwf.1 href
      | Sell => exact hlisted hwf.2 href
    · rw [reference, Function.update_of_ne htoken] at href
      exact h tokenId side p s href
  | level token market sideText price size timestamp hash =>
    obtain ⟨⟨q, hq, hqPos⟩, ⟨t, ht, -⟩, hside⟩ := hwf
    obtain ⟨sd, hsd⟩ := Option.isSome_iff_exists.mp hside
    rw [Option.mem_def] at hq ht
    simp only [reference, hq, ht, hsd] at href
    by_cases hpq : p = q
    · exact hpq ▸ hqPos
    · refine h tokenId side p s ?_
      rw [← href]
      by_cases htoken : tokenId = token
      · subst htoken
        rw [Function.update_self]
        by_cases hsame : side = sd
        · subst hsame
          rw [Function.update_self, Function.update_of_ne hpq]
        · rw [Function.update_of_ne hsame]
      · rw [Function.update_of_ne htoken]

/-- The step lemma. -/
theorem Viewed.take (hparse : ∀ text p, parse text = some p → p ≤ Decimal.max) (h : Viewed parse books ref levels)
    {message : BookMessage} (hwf : WellFormed parse message) (hlast : LargestAskFirst parse message) :
    Viewed parse (books.take parse message) (reference parse ref message)
      (BookRefinement.unread parse levels message) where
  sides := h.sides.take hparse hwf hlast
  unread := unread_take message hwf h.unread
  positive := positive_reference message hwf h.positive

/-- After every run of well-formed messages, as for the sorted maps, all views of every book are those of the sizes
listed by price, best first, and of the levels without a price. -/
theorem views_after_run (hparse : ∀ text p, parse text = some p → p ≤ Decimal.max) (messages : List BookMessage)
    (hwf : ∀ m ∈ messages, WellFormed parse m) (hlast : ∀ m ∈ messages, LargestAskFirst parse m) (tokenId : TokenId) :
    ∃ bids asks,
      Lists (better .Buy) (messages.foldl (reference parse) (fun _ _ _ => none) tokenId .Buy) bids ∧
      Lists (better .Sell) (messages.foldl (reference parse) (fun _ _ _ => none) tokenId .Sell) asks ∧
      ViewsAgree parse (messages.foldl (·.take parse) ∅) tokenId bids asks
        (messages.foldl (unread parse) (fun _ _ => []) tokenId) := by
  have hrun : ∀ books ref levels, Viewed parse books ref levels → Viewed parse (messages.foldl (·.take parse) books)
      (messages.foldl (reference parse) ref) (messages.foldl (unread parse) levels) := by
    induction messages with
    | nil => exact fun _ _ _ h => h
    | cons message messages ih =>
      intro books ref levels h
      obtain ⟨hwfHead, hwfTail⟩ := List.forall_mem_cons.mp hwf
      obtain ⟨hlastHead, hlastTail⟩ := List.forall_mem_cons.mp hlast
      exact ih hwfTail hlastTail _ _ _ (h.take hparse hwfHead hlastHead)
  exact (hrun ∅ _ _ ⟨fun _ _ => .nil, fun _ _ => rfl, nofun⟩).viewsAgree tokenId

private def cappedDecimal (text : String) : Option Decimal := (readDecimal text).filter (· ≤ Decimal.max)

private theorem cappedDecimal_le (text : String) (p : Decimal) (h : cappedDecimal text = some p) : p ≤ Decimal.max :=
  of_decide_eq_true (Option.filter_eq_some_iff.mp h).2

private def deepBook : List BookMessage :=
  [.snapshot "1" "m1" [⟨"0.48", "10"⟩, ⟨"n/a", "5"⟩, ⟨"0.49", "3"⟩, ⟨"0.47", "8"⟩] [⟨"0.55", "4"⟩] (some 1) none,
    .level "1" "m1" "buy" "0.49" "0" (some 2) none, .level "1" "m1" "SELL" "0.52" "7" (some 3) none]

/-- The best bid is removed and a better ask comes in. -/
theorem two_best_levels :
    (∃ bids asks,
      Lists (better .Buy) (deepBook.foldl (reference cappedDecimal) (fun _ _ _ => none) "1" .Buy) bids ∧
      Lists (better .Sell) (deepBook.foldl (reference cappedDecimal) (fun _ _ _ => none) "1" .Sell) asks ∧
      ViewsAgree cappedDecimal (deepBook.foldl (·.take cappedDecimal) ∅) "1" bids asks
        (deepBook.foldl (unread cappedDecimal) (fun _ _ => []) "1")) ∧
    OrderBookState.topLevels cappedDecimal (deepBook.foldl (·.take cappedDecimal) ∅) "1" 2 =
      ([(48 / 100, 10), (47 / 100, 8)], [(52 / 100, 7), (55 / 100, 4)]) ∧
    OrderBookState.spreadBps cappedDecimal (deepBook.foldl (·.take cappedDecimal) ∅) "1" = some 800 :=
  ⟨views_after_run cappedDecimal_le deepBook (by decide +kernel) (by decide +kernel) "1", by decide +kernel,
    by decide +kernel⟩

end BookRefinement

end PolyBot
