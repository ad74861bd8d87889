import PolyBot.Ledger.Ledger
import PolyBot.Websocket.User
import Mathlib.Tactic.FieldSimp

/-! The recent trades that are loaded at startup, and how they compare with the same trades received live. -/

namespace PolyBot.Bot
open General.DecimalText Websocket

/-- A trade record of the exchange. The socket carries the same fields. -/
structure TradeRecord where
  id : String
  takerOrderId : OrderId
  assetId : ℕ
  side : TradeSide
  size : ScaledDecimal
  price : ScaledDecimal
  feeRateBps : ScaledDecimal
  status : TradeStatusType
  traderSide : Option TraderSide
  deriving DecidableEq, Repr

namespace TradeRecord

def message (t : TradeRecord) : TradeMessage :=
  ⟨t.id, some t.takerOrderId, t.assetId, t.side, t.size, t.price, some t.feeRateBps, t.status, t.traderSide⟩

def isLoaded (t : TradeRecord) : Bool :=
  match t.status with
  | .Confirmed | .Mined | .Matched => true
  | _ => false

def loadedFill (t : TradeRecord) : Option Fill :=
  match t.side.side? with
  | none => none
  | some side => some {
      fillId := t.id
      orderId := t.takerOrderId
      tokenId := toString t.assetId
      side := side
      price := t.price.value
      size := t.size.value
      fee := Decimal.roundDp 4 (t.price.value * t.size.value) * t.feeRateBps.value / 10000
      expectedPrice := none
      slippageCost := 0 }

end TradeRecord

/-- The fills of a page of trades, none when the request failed. -/
def loadRecentTrades (page : Option (List TradeRecord)) : List Fill :=
  match page with
  | none => []
  | some trades => (trades.filter (·.isLoaded)).filterMap (·.loadedFill)

def replayRecent (l : Ledger) (fills : List Fill) : Ledger := fills.foldl Ledger.processFill l

/-- What a trade notification does to the ledger; one that makes no fill is only logged. -/
def handleNotification (l : Ledger) (n : TradeNotification) : Ledger :=
  match n.toFill with
  | .ok f => l.processFill f
  | .error _ => l

namespace TradeRecord

def startupFill (t : TradeRecord) : Option Fill := if t.isLoaded then t.loadedFill else none

def liveFill (t : TradeRecord) : Option Fill := t.message.notification.toFill.toOption

/-- The fee rate is a whole number of 64 bits, or there is nothing to take it of. -/
def FeeIsRead (t : TradeRecord) : Prop :=
  t.feeRateBps.mantissa = 0 ∨ Decimal.roundDp 4 (t.price.value * t.size.value) = 0 ∨
    t.feeRateBps.scale = 0 ∧ -2 ^ 63 ≤ t.feeRateBps.mantissa ∧ t.feeRateBps.mantissa < 2 ^ 63

def ReadAlike (t : TradeRecord) : Prop :=
  t.side = .Unknown ∨ t.isLoaded = true ∧ t.traderSide ≠ some .Maker ∧ t.FeeIsRead

theorem liveFill_eq (t : TradeRecord) : t.liveFill = t.side.side?.map t.message.fillOf := by
  rw [liveFill, TradeMessage.toFill_notification]
  have hside : t.message.side = t.side := rfl
  rw [hside]
  cases t.side.side? <;> rfl

theorem feeRate_eq_iff (d : ScaledDecimal) :
    ((if d.scale = 0 ∧ -2 ^ 63 ≤ d.mantissa ∧ d.mantissa < 2 ^ 63 then d.mantissa else 0 : ℤ) : ℚ) = d.value ↔
      d.mantissa = 0 ∨ d.scale = 0 ∧ -2 ^ 63 ≤ d.mantissa ∧ d.mantissa < 2 ^ 63 := by
  split
  · rename_i hwhole
    refine iff_of_true ?_ (.inr hwhole)
    rw [ScaledDecimal.value, hwhole.1, pow_zero, div_one]
  · rename_i hwhole
    rw [or_iff_left hwhole, ScaledDecimal.value, Int.cast_zero, eq_comm, div_eq_zero_iff, Int.cast_eq_zero,
      or_iff_left (by positivity)]

theorem fee_eq_iff (t : TradeRecord) :
    Decimal.roundDp 4 (t.price.value * t.size.value) * (t.message.feeBps / 10 ^ 4) =
        Decimal.roundDp 4 (t.price.value * t.size.value) * t.feeRateBps.value / 10000 ↔ t.FeeIsRead := by
  have hscale : ∀ n a b : ℚ, n * (a / 10 ^ 4) = n * b / 10000 ↔ n = 0 ∨ a = b := by
    intro n a b
    have hleft : n * (a / 10 ^ 4) = n * a / 10000 := by ring
    rw [hleft, div_left_inj' (by norm_num), mul_eq_mul_left_iff, or_comm]
  have hrate := feeRate_eq_iff t.feeRateBps
  rw [hscale, FeeIsRead, or_left_comm]
  exact or_congr_right hrate

theorem opposite_ne (side : Side) : side.opposite ≠ side := by
  cases side <;> decide

/-- The two fills of a trade with a side differ in the side and the fee at most. -/
theorem fillOf_eq_iff (t : TradeRecord) {side : Side} {f : Fill} (hside : t.side.side? = some side)
    (hf : t.loadedFill = some f) : t.message.fillOf side = f ↔ t.traderSide ≠ some .Maker ∧ t.FeeIsRead := by
  rw [loadedFill, hside] at hf
  obtain rfl := Option.some.inj hf
  have hwallet : (if t.traderSide = some .Maker then side.opposite else side) = side ↔ t.traderSide ≠ some .Maker := by
    split
    · rename_i hmaker
      exact iff_of_false (opposite_ne side) (not_not_intro hmaker)
    · rename_i hmaker
      exact iff_of_true rfl hmaker
  constructor
  · intro h
    exact ⟨hwallet.mp (congrArg Fill.side h), t.fee_eq_iff.mp (congrArg Fill.fee h)⟩
  · rintro ⟨hrole, hread⟩
    have hside' : (if t.message.traderSide = some .Maker then side.opposite else side) = side := hwallet.mpr hrole
    have hfee : Decimal.roundDp 4 (t.message.price.value * t.message.size.value) * (t.message.feeBps / 10 ^ 4) =
        Decimal.roundDp 4 (t.price.value * t.size.value) * t.feeRateBps.value / 10000 := t.fee_eq_iff.mpr hread
    rw [TradeMessage.fillOf, hside', hfee]
    rfl

/-- A record is decoded alike exactly if it is of the kind that both paths read the same way. -/
theorem liveFill_eq_startupFill_iff (t : TradeRecord) : t.liveFill = t.startupFill ↔ t.ReadAlike := by
  rw [liveFill_eq, startupFill, ReadAlike]
  cases hside : t.side.side? with
  | none =>
    have hunknown : t.side = .Unknown := by
      revert hside
      cases t.side <;> simp [TradeSide.side?]
    have hnone : t.loadedFill = none := by rw [loadedFill, hside]
    rw [hnone, ite_self]
    exact iff_of_true rfl (.inl hunknown)
  | some side =>
    have hknown : t.side ≠ .Unknown := by
      intro hunknown
      rw [hunknown] at hside
      cases hside
    obtain ⟨f, hf⟩ : ∃ f, t.loadedFill = some f := by
      rw [loadedFill, hside]
      exact ⟨_, rfl⟩
    rw [or_iff_right hknown, Option.map_some, hf]
    by_cases hloaded : t.isLoaded
    · rw [if_pos hloaded, Option.some.injEq, fillOf_eq_iff t hside hf, and_iff_right hloaded]
    · rw [if_neg hloaded]
      exact iff_of_false nofun fun h => hloaded h.1

end TradeRecord

theorem loadRecentTrades_some (trades : List TradeRecord) :
    loadRecentTrades (some trades) = trades.filterMap (·.startupFill) := by
  induction trades with
  | nil => rfl
  | cons t trades ih =>
    simp only [loadRecentTrades] at ih ⊢
    by_cases hloaded : t.isLoaded
    · simp only [List.filter_cons, List.filterMap_cons, hloaded, if_true, TradeRecord.startupFill, ih]
    · simp only [List.filter_cons, List.filterMap_cons, hloaded, if_false, TradeRecord.startupFill, ih,
        Bool.false_eq_true]

theorem handleNotification_eq (l : Ledger) (t : TradeRecord) :
    handleNotification l t.message.notification = (t.liveFill.toList).foldl Ledger.processFill l := by
  rw [handleNotification, TradeRecord.liveFill]
  cases t.message.notification.toFill <;> rfl

/-- Records that are decoded alike leave the same ledger, loaded at startup or received live. -/
theorem replayRecent_eq_live {trades : List TradeRecord} (h : ∀ t ∈ trades, t.liveFill = t.startupFill) (l : Ledger) :
    replayRecent l (loadRecentTrades (some trades)) =
      (trades.map (·.message.notification)).foldl handleNotification l := by
  rw [loadRecentTrades_some, replayRecent]
  induction trades generalizing l with
  | nil => rfl
  | cons t trades ih =>
    have hhead := h t List.mem_cons_self
    have hrest := ih fun u hu => h u (List.mem_cons_of_mem t hu)
    rw [List.map_cons, List.foldl_cons, handleNotification_eq, hhead, ← hrest, List.filterMap_cons]
    cases t.startupFill <;> rfl

/-- The two decoders agree on a list of records exactly if each record is one that both read the same way, and then the
ledger after the import is the one that receiving the trades live leaves. -/
theorem decoders_agree_iff (trades : List TradeRecord) :
    ((∀ t ∈ trades, t.liveFill = t.startupFill) ↔ ∀ t ∈ trades, t.ReadAlike) ∧
      ((∀ t ∈ trades, t.ReadAlike) → ∀ l, replayRecent l (loadRecentTrades (some trades)) =
        (trades.map (·.message.notification)).foldl handleNotification l) := by
  have hiff : (∀ t ∈ trades, t.liveFill = t.startupFill) ↔ ∀ t ∈ trades, t.ReadAlike :=
    forall₂_congr fun t _ => t.liveFill_eq_startupFill_iff
  exact ⟨hiff, fun halike l => replayRecent_eq_live (hiff.mpr halike) l⟩

private def makerTrade : TradeRecord :=
  ⟨"t1", "o1", 7, .Buy, .ofParts 10 0, .ofParts 5 1, .ofParts 0 0, .Confirmed, some .Maker⟩

/-- Received live it is a sale of ten shares, loaded at startup a purchase. -/
theorem maker_trade_changes_side :
    makerTrade.liveFill.map (·.side) = some .Sell ∧ makerTrade.startupFill.map (·.side) = some .Buy ∧
      makerTrade.liveFill ≠ makerTrade.startupFill ∧
      ((handleNotification (.new 100) makerTrade.message.notification).getPosition "7").shares = -10 ∧
      ((replayRecent (.new 100) (loadRecentTrades (some [makerTrade]))).getPosition "7").shares = 10 := by
  have hlive : makerTrade.liveFill.map (·.side) = some .Sell := by decide +kernel
  have hstartup : makerTrade.startupFill.map (·.side) = some .Buy := by decide +kernel
  refine ⟨hlive, hstartup, ?_, by decide +kernel, by decide +kernel⟩
  intro h
  rw [h, hstartup] at hlive
  cases hlive

end PolyBot.Bot
