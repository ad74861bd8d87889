import PolyBot.Execution.Legs

/-! What an accepted order traded, and what the executor counts of it. -/

namespace PolyBot.Execution.FillAccounting
open OrderExecutor

structure Trade where
  shares : Decimal
  usdc : Decimal
  shares_le_max : shares ≤ Decimal.max

/-- The exchange's whole answer; the executor reads no making amount. -/
structure FullResponse extends PostOrderResponse where
  makingAmount : Decimal
  deriving DecidableEq, Repr

/-- The taking amount is in the asset that an order of the side receives, the making amount in the one it gives. -/
def Reports (side : Side) (trade : Trade) (response : FullResponse) : Prop :=
  match side with
  | .Buy => response.takingAmount = trade.shares ∧ response.makingAmount = trade.usdc
  | .Sell => response.takingAmount = trade.usdc ∧ response.makingAmount = trade.shares

instance (side : Side) (trade : Trade) (response : FullResponse) : Decidable (Reports side trade response) :=
  match side with
  | .Buy => inferInstanceAs (Decidable (_ ∧ _))
  | .Sell => inferInstanceAs (Decidable (_ ∧ _))

structure Submission where
  params : OrderParams
  response : FullResponse
  trade : Trade
  accepted : response.success = true
  reports : Reports params.side trade response

namespace Submission

def CountsShares (s : Submission) : Prop :=
  ∀ (ex : OrderExecutor) (now : Instant), (ex.processResponse now s.params s.response.toPostOrderResponse).1.filledSize =
      min s.trade.shares s.params.size ∧
    ((ex.processResponse now s.params s.response.toPostOrderResponse).1.status = .FullyFilled ↔
      s.params.size ≤ s.trade.shares)

/-- The amount that is read is the traded shares, or both amounts cover the order. -/
def SharesRead (s : Submission) : Prop :=
  s.params.side = .Buy ∨ s.trade.usdc = s.trade.shares ∨
    s.params.size ≤ s.trade.usdc ∧ s.params.size ≤ s.trade.shares

instance (s : Submission) : Decidable s.SharesRead := inferInstanceAs (Decidable (_ ∨ _ ∨ _))

def inShares (s : Submission) : PostOrderResponse :=
  { s.response.toPostOrderResponse with takingAmount := s.trade.shares, taking_le_max := s.trade.shares_le_max }

/-- The order as the unwind of a leg: the breaker is tripped unless all its shares were traded. -/
def TripsUnlessTraded (s : Submission) : Prop :=
  ∀ (ex : OrderExecutor) (deadline : Instant) (turn : UnwindTurn) (unwind : OrderIntent) (answeredAt : Instant),
    ex.Admits turn.start → ex.policy.orderParams turn.startSecs unwind = s.params →
    turn.reply = some (.ok s.response.toPostOrderResponse, answeredAt) →
    (ex.unwindOne deadline turn unwind).2 =
      if s.params.size ≤ s.trade.shares then (ex.afterAdmission turn.start).recordOrderResult none answeredAt
      else ((ex.afterAdmission turn.start).recordOrderResult none answeredAt).manualOpen answeredAt

end Submission

inductive LegOutcome where
  | accepted (s : Submission)
  | unfilled (result : ExecutionResult) (hzero : result.filledSize = 0)

namespace LegOutcome

def result : LegOutcome → ExecutionResult
  | accepted s => acceptedResult s.params s.response.toPostOrderResponse
  | unfilled result _ => result

def shareResult : LegOutcome → ExecutionResult
  | accepted s => acceptedResult s.params s.inShares
  | unfilled result _ => result

def CountsShares : LegOutcome → Prop
  | accepted s => s.CountsShares
  | unfilled _ _ => True

def SharesRead : LegOutcome → Prop
  | accepted s => s.SharesRead
  | unfilled _ _ => True

end LegOutcome

/-- An executed group: every result is in shares, the unwinds close the excesses in shares, and an unwind trips the
breaker unless all its shares were traded. -/
structure AccountedInShares (legs : List (LegOutcome × OrderIntent)) (unwinds : List Submission) : Prop where
  results : ∀ leg ∈ legs, leg.1.CountsShares
  plan : plannedUnwinds (legs.map Prod.snd) (legs.map fun leg => leg.1.result) =
    plannedUnwinds (legs.map Prod.snd) (legs.map fun leg => leg.1.shareResult)
  residuals : ∀ s ∈ unwinds, s.CountsShares ∧ s.TripsUnlessTraded

theorem processResponse_of_success {params : OrderParams} {response : PostOrderResponse} (h : response.success = true)
    (ex : OrderExecutor) (now : Instant) :
    ex.processResponse now params response = (acceptedResult params response, ex.recordOrderResult none now) := by
  rw [processResponse, if_pos h]

theorem acceptedStatus_fullyFilled_iff (params : OrderParams) (filledSize : Decimal) :
    acceptedStatus params filledSize = .FullyFilled ↔ params.size ≤ filledSize := by
  unfold acceptedStatus
  split
  · rename_i hwhole
    exact iff_of_true rfl hwhole
  · rename_i hpart
    refine iff_of_false ?_ hpart
    split
    · decide
    · split <;> decide

/-- The result of an accepted order depends on the taking amount only below the size of the order. -/
theorem acceptedResult_congr {params : OrderParams} {r r' : PostOrderResponse} (hid : r.orderId = r'.orderId)
    (hfill : min r.takingAmount params.size = min r'.takingAmount params.size) :
    acceptedResult params r = acceptedResult params r' := by
  simp only [acceptedResult, hid, hfill]

namespace Submission

/-- The amount that is read amounts to the traded shares, as far as the order goes. -/
theorem sharesRead_iff (s : Submission) :
    s.SharesRead ↔ min s.response.takingAmount s.params.size = min s.trade.shares s.params.size := by
  have hreports := s.reports
  cases hside : s.params.side with
  | Buy =>
    rw [hside] at hreports
    exact iff_of_true (.inl hside) (congrArg (min · s.params.size) hreports.1)
  | Sell =>
    rw [hside] at hreports
    rw [SharesRead, hside, hreports.1]
    constructor
    · rintro (hbuy | heq | ⟨husdc, hshares⟩)
      · cases hbuy
      · rw [heq]
      · rw [min_eq_right husdc, min_eq_right hshares]
    · intro hmin
      rcases le_total s.params.size s.trade.usdc with husdc | husdc
      · rw [min_eq_right husdc] at hmin
        exact .inr (.inr ⟨husdc, min_eq_right_iff.mp hmin.symm⟩)
      · rw [min_eq_left husdc] at hmin
        rcases le_total s.params.size s.trade.shares with hshares | hshares
        · rw [min_eq_right hshares] at hmin
          exact .inr (.inr ⟨hmin.ge, hshares⟩)
        · rw [min_eq_left hshares] at hmin
          exact .inr (.inl hmin)

theorem countsShares_iff (s : Submission) : s.CountsShares ↔ s.SharesRead := by
  rw [sharesRead_iff]
  constructor
  · intro h
    have hfilled := (h (new DualPolicy.new.policy (CircuitBreaker.new 0)) 0).1
    rw [processResponse_of_success s.accepted] at hfilled
    exact hfilled
  · intro h ex now
    rw [processResponse_of_success s.accepted]
    refine ⟨h, ?_⟩
    change acceptedStatus s.params (min s.response.takingAmount s.params.size) = .FullyFilled ↔ _
    rw [acceptedStatus_fullyFilled_iff, h, le_min_iff]
    exact and_iff_left (le_refl _)

theorem acceptedResult_inShares {s : Submission} (h : s.SharesRead) :
    acceptedResult s.params s.response.toPostOrderResponse = acceptedResult s.params s.inShares :=
  acceptedResult_congr rfl ((sharesRead_iff s).mp h)

theorem tripsUnlessTraded_of_sharesRead {s : Submission} (h : s.SharesRead) : s.TripsUnlessTraded := by
  intro ex deadline turn unwind answeredAt hadmits hparams hreply
  have hstatus := ((countsShares_iff s).mpr h (ex.afterAdmission turn.start) answeredAt).2
  rw [processResponse_of_success s.accepted] at hstatus
  rw [unwindOne, passChecks_of_admits hadmits]
  simp only [hparams, hreply, answer, processResponse_of_success s.accepted]
  by_cases htraded : s.params.size ≤ s.trade.shares
  · rw [if_pos htraded, if_pos (hstatus.mpr htraded)]
  · rw [if_neg htraded, if_neg (mt hstatus.mp htraded)]

end Submission

namespace LegOutcome

theorem countsShares_iff (leg : LegOutcome) : leg.CountsShares ↔ leg.SharesRead := by
  cases leg with
  | accepted s => exact s.countsShares_iff
  | unfilled result hzero => exact Iff.rfl

theorem result_eq_shareResult {leg : LegOutcome} (h : leg.SharesRead) : leg.result = leg.shareResult := by
  cases leg with
  | accepted s => exact Submission.acceptedResult_inShares h
  | unfilled result hzero => rfl

end LegOutcome

/-- An executed group is accounted in shares exactly when the amount read of each of its orders is. -/
theorem accountedInShares_iff (legs : List (LegOutcome × OrderIntent)) (unwinds : List Submission) :
    AccountedInShares legs unwinds ↔ (∀ leg ∈ legs, leg.1.SharesRead) ∧ ∀ s ∈ unwinds, s.SharesRead := by
  constructor
  · intro h
    exact ⟨fun leg hleg => leg.1.countsShares_iff.mp (h.results leg hleg),
      fun s hs => s.countsShares_iff.mp (h.residuals s hs).1⟩
  · rintro ⟨hlegs, hunwinds⟩
    refine ⟨fun leg hleg => leg.1.countsShares_iff.mpr (hlegs leg hleg), ?_, fun s hs => ?_⟩
    · exact congrArg _ (List.map_congr_left fun leg hleg => LegOutcome.result_eq_shareResult (hlegs leg hleg))
    · exact ⟨s.countsShares_iff.mpr (hunwinds s hs), Submission.tripsUnlessTraded_of_sharesRead (hunwinds s hs)⟩

private def tenSold : Submission where
  params :=
    DualPolicy.new.policy.orderParams 0 (OrderIntent.new "m1" "yes" .Sell (1 / 2) 10 .Immediate "LateEntryStrategy")
  response := ⟨.taking "x" 5, 10⟩
  trade := ⟨10, 5, by decide +kernel⟩
  accepted := rfl
  reports := by decide +kernel

/-- Ten shares sold for five dollars count as five shares. -/
theorem whole_sale_counts_half :
    tenSold.params.size = 10 ∧ tenSold.trade.shares = 10 ∧
      (acceptedResult tenSold.params tenSold.response.toPostOrderResponse).filledSize = 5 ∧
      (acceptedResult tenSold.params tenSold.response.toPostOrderResponse).status = .PartialFill ∧
      ¬tenSold.CountsShares := by
  refine ⟨by decide +kernel, by decide +kernel, by decide +kernel, by decide +kernel, ?_⟩
  rw [Submission.countsShares_iff]
  decide +kernel

end PolyBot.Execution.FillAccounting
