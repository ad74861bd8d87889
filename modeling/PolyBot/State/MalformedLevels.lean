import PolyBot.General.DecimalText
import PolyBot.State.BookUpdates

/-! What a level message that cannot be read leaves behind. -/

namespace PolyBot

/-- The price or the size is no decimal, or the side is neither of the two. -/
def MalformedLevel (parse : String → Option Decimal) (side price size : String) : Prop :=
  parse price = none ∨ parse size = none ∨ sideOf side = none

instance (parse : String → Option Decimal) (side price size : String) :
    Decidable (MalformedLevel parse side price size) :=
  inferInstanceAs (Decidable (parse price = none ∨ parse size = none ∨ sideOf side = none))

namespace OrderBookState
variable {parse : String → Option Decimal} {side price size : String}

/-- The time and the hash are written before anything is read. -/
theorem updateLevel_of_malformed (h : MalformedLevel parse side price size) (books : OrderBookState) (tokenId : TokenId)
    (market : ConditionId) (timestamp : Option ℤ) (hash : Option String) :
    books.updateLevel parse tokenId market side price size timestamp hash =
      books.insert tokenId (books.stampedBook tokenId market timestamp hash) := by
  rw [updateLevel]
  rcases h with hprice | hsize | hside
  · rw [hprice]
  · rw [hsize]
    cases parse price <;> rfl
  · rw [hside]
    cases parse price <;> cases parse size <;> rfl

theorem getBook_updateLevel_self (h : MalformedLevel parse side price size) (books : OrderBookState)
    (tokenId : TokenId) (market : ConditionId) (timestamp : Option ℤ) (hash : Option String) :
    (books.updateLevel parse tokenId market side price size timestamp hash).getBook tokenId =
      some (books.stampedBook tokenId market timestamp hash) := by
  rw [updateLevel_of_malformed h, getBook, AList.lookup_insert]

theorem getBook_updateLevel_ne (h : MalformedLevel parse side price size) (books : OrderBookState)
    {tokenId other : TokenId} (hne : other ≠ tokenId) (market : ConditionId) (timestamp : Option ℤ)
    (hash : Option String) :
    (books.updateLevel parse tokenId market side price size timestamp hash).getBook other = books.getBook other := by
  rw [updateLevel_of_malformed h, getBook, AList.lookup_insert_ne hne, getBook]

/-- Stamping changes nothing in a book that has this time and this hash already. -/
theorem stampedBook_eq_iff (books : OrderBookState) (tokenId : TokenId) (market : ConditionId) (timestamp : Option ℤ)
    (hash : Option String) :
    some (books.stampedBook tokenId market timestamp hash) = books.getBook tokenId ↔
      ∃ book, books.getBook tokenId = some book ∧ book.lastUpdate = timestamp ∧ book.hash = hash := by
  constructor
  · intro h
    exact ⟨_, h.symm, rfl, rfl⟩
  · rintro ⟨book, hbook, rfl, rfl⟩
    rw [stampedBook, hbook, Option.getD_some]

/-- A message that cannot be read leaves the books as they are exactly when the token has a book with the time and the
hash of the message. -/
theorem malformed_ignored_iff (books : OrderBookState) (tokenId : TokenId) (market : ConditionId)
    (timestamp : Option ℤ) (hash : Option String) (h : MalformedLevel parse side price size) :
    (∀ t, (books.updateLevel parse tokenId market side price size timestamp hash).getBook t = books.getBook t) ↔
      ∃ book, books.getBook tokenId = some book ∧ book.lastUpdate = timestamp ∧ book.hash = hash := by
  rw [← stampedBook_eq_iff books tokenId market, ← getBook_updateLevel_self h]
  refine ⟨fun hsame => hsame tokenId, fun hself t => ?_⟩
  rcases eq_or_ne t tokenId with rfl | hne
  · exact hself
  · exact getBook_updateLevel_ne h books hne market timestamp hash

private def readDecimal (text : String) : Option Decimal :=
  (General.DecimalText.ScaledDecimal.fromStr text).map (·.value)

private def knownBook : OrderBookState := AList.insert "1" ⟨"1", "m", [⟨"0.40", "10"⟩], [], some 7, some "h"⟩ ∅

/-- A price that is no number is ignored by a book that carries the time and the hash of the message. -/
theorem repeated_message_ignored :
    (knownBook.updateLevel readDecimal "1" "m" "BUY" "n/a" "5" (some 7) (some "h")).getBook "1" =
      knownBook.getBook "1" :=
  (malformed_ignored_iff knownBook "1" "m" (some 7) (some "h") (by decide +kernel)).mpr ⟨_, rfl, rfl, rfl⟩ "1"

/-- A price that is no number opens an empty book for a token without one and makes an old book look fresh. -/
theorem malformed_price_leaves_a_mark :
    MalformedLevel readDecimal "BUY" "n/a" "5" ∧ OrderBookState.getBook ∅ "1" = none ∧
      (OrderBookState.updateLevel readDecimal ∅ "1" "m" "BUY" "n/a" "5" (some 9) none).getBook "1" =
        some ⟨"1", "m", [], [], some 9, none⟩ ∧
      (knownBook.updateLevel readDecimal "1" "m" "BUY" "n/a" "5" (some 9) none).getBook "1" =
        some ⟨"1", "m", [⟨"0.40", "10"⟩], [], some 9, none⟩ := by
  decide +kernel

end OrderBookState

end PolyBot
