import PolyBot.Ledger.Orders

/-! Reconciliation of the local orders with those that the exchange lists. What the exchange answers is an argument. -/

namespace PolyBot.Risk
open General.KeyedStore

inductive OrderStatusType where
  | Live
  | Matched
  | Canceled
  | Delayed
  | Unmatched
  | Unknown (name : String)
  deriving DecidableEq, Repr

structure ServerOrder where
  id : OrderId
  status : OrderStatusType
  sizeMatched : Decimal
  deriving DecidableEq, Repr

structure Page where
  data : List ServerOrder
  nextCursor : String
  deriving DecidableEq, Repr

inductive Discrepancy where
  | LocalNotRemote (localId : Uuid) (orderId : Option OrderId) (state : OrderState)
  | RemoteNotLocal (orderId : OrderId)
  | StateMismatch (orderId : OrderId) (localState : OrderState) (remoteFilled localFilled : Decimal)
  deriving DecidableEq, Repr

structure ReconciliationResult where
  serverOrderCount : ℕ
  localOrderCount : ℕ
  discrepancies : List Discrepancy
  success : Bool
  deriving DecidableEq, Repr

inductive ReconciliationMessage where
  | Completed (result : ReconciliationResult)
  | Failed (error : String)
  | DiscrepancyDetected (discrepancy : Discrepancy)
  deriving DecidableEq, Repr

def parseSdkStatus : OrderStatusType → OrderState
  | .Live => .Acked
  | .Matched => .Filled
  | .Canceled => .Cancelled
  | .Delayed => .Acked
  | .Unmatched => .Rejected
  | .Unknown _ => .Unknown

def isLive : OrderState → Bool
  | .Acked | .PartiallyFilled => true
  | _ => false

namespace Discrepancy

def isCritical : Discrepancy → Bool
  | RemoteNotLocal _ => true
  | LocalNotRemote _ _ state => isLive state
  | StateMismatch _ localState remoteFilled localFilled => localFilled < remoteFilled ∧ isLive localState

end Discrepancy

namespace Reconciliation

/-- The orders of all pages, once the last page or an error has come. -/
def fetchOrders : List (Except String Page) → Option (Except String (List ServerOrder))
  | [] => none
  | .error e :: _ => some (.error ("Failed to fetch orders: " ++ e))
  | .ok page :: answers =>
    if page.nextCursor = "" ∨ page.nextCursor = "LTE=" then some (.ok page.data)
    else
      match fetchOrders answers with
      | none => none
      | some (.error e) => some (.error e)
      | some (.ok orders) => some (.ok (page.data ++ orders))

variable (serverOrders : List ServerOrder) (orders : OpenOrders)

def localIds : List OrderId := orders.allOpen.filterMap (·.orderId)

def remoteNotLocal : List Discrepancy :=
  (serverOrders.filter fun s => s.id ∉ localIds orders).map fun s => .RemoteNotLocal s.id

def localNotRemote : List Discrepancy :=
  orders.allOpen.filterMap fun o =>
    match o.orderId with
    | none => none
    | some orderId =>
      if orderId ∈ serverOrders.map (·.id) then none
      else if o.state.isActive then some (.LocalNotRemote o.localId (some orderId) o.state)
      else none

/-- The active order with an exchange id that is come upon first. -/
def findLocal (orderId : OrderId) : Option TrackedOrder := orders.allOpen.find? (·.orderId = some orderId)

def stateMismatches : List Discrepancy :=
  serverOrders.filterMap fun s =>
    match findLocal orders s.id with
    | none => none
    | some o =>
      if parseSdkStatus s.status = .Filled ∧ o.state ≠ .Filled then
        some (.StateMismatch s.id o.state s.sizeMatched o.filledSize)
      else none

def reconcile : ReconciliationResult :=
  let discrepancies := remoteNotLocal serverOrders orders ++ localNotRemote serverOrders orders ++
    stateMismatches serverOrders orders
  { serverOrderCount := serverOrders.length
    localOrderCount := orders.allOpen.length
    discrepancies := discrepancies
    success := discrepancies.isEmpty || discrepancies.all fun d => !d.isCritical }

/-- One pass, if the exchange has answered it to its end. -/
def reconcileOnce (answers : List (Except String Page)) : Option (Except String ReconciliationResult) :=
  match fetchOrders answers with
  | none => none
  | some (.error e) => some (.error e)
  | some (.ok serverOrders) => some (.ok (reconcile serverOrders orders))

structure InAgreement : Prop where
  remote : ∀ s ∈ serverOrders, ∃ o ∈ orders.allOpen, o.orderId = some s.id
  listed : ∀ o ∈ orders.allOpen, isLive o.state = true → ∀ orderId ∈ o.orderId, orderId ∈ serverOrders.map (·.id)
  matched : ∀ s ∈ serverOrders, s.status = .Matched → ∀ o, findLocal orders s.id = some o → isLive o.state = true →
    s.sizeMatched ≤ o.filledSize

variable {serverOrders : List ServerOrder} {orders : OpenOrders}

theorem isActive_of_mem_allOpen {o : TrackedOrder} (h : o ∈ orders.allOpen) : o.state.isActive = true :=
  (List.mem_filter.mp h).2

theorem mem_localIds_iff {orderId : OrderId} :
    orderId ∈ localIds orders ↔ ∃ o ∈ orders.allOpen, o.orderId = some orderId := by
  rw [localIds, List.mem_filterMap]

theorem parseSdkStatus_eq_filled_iff (status : OrderStatusType) :
    parseSdkStatus status = .Filled ↔ status = .Matched := by
  cases status <;> simp [parseSdkStatus]

theorem isSafe_remoteNotLocal_iff :
    (∀ d ∈ remoteNotLocal serverOrders orders, d.isCritical = false) ↔
      ∀ s ∈ serverOrders, ∃ o ∈ orders.allOpen, o.orderId = some s.id := by
  rw [remoteNotLocal, List.forall_mem_map]
  constructor
  · intro h s hs
    by_contra hno
    have hmem : s ∈ serverOrders.filter fun s => s.id ∉ localIds orders :=
      List.mem_filter.mpr ⟨hs, decide_eq_true (mt mem_localIds_iff.mp hno)⟩
    exact absurd (h s hmem) Bool.noConfusion
  · intro h s hs
    obtain ⟨hmem, hnot⟩ := List.mem_filter.mp hs
    exact absurd (mem_localIds_iff.mpr (h s hmem)) (of_decide_eq_true hnot)

theorem isSafe_localNotRemote_iff :
    (∀ d ∈ localNotRemote serverOrders orders, d.isCritical = false) ↔
      ∀ o ∈ orders.allOpen, isLive o.state = true → ∀ orderId ∈ o.orderId, orderId ∈ serverOrders.map (·.id) := by
  have hmem : ∀ d, d ∈ localNotRemote serverOrders orders ↔ ∃ o ∈ orders.allOpen, ∃ orderId ∈ o.orderId,
      orderId ∉ serverOrders.map (·.id) ∧ d = .LocalNotRemote o.localId (some orderId) o.state := by
    intro d
    rw [localNotRemote, List.mem_filterMap]
    refine exists_congr fun o => and_congr_right fun ho => ?_
    have hactive := isActive_of_mem_allOpen ho
    cases o.orderId with
    | none => simp
    | some orderId =>
      by_cases hlisted : orderId ∈ serverOrders.map (·.id)
      · simp only [hlisted, if_true, Option.mem_some_iff, exists_eq_left', not_true, false_and, reduceCtorEq]
      · simp only [hlisted, if_false, hactive, if_true, Option.mem_some_iff, exists_eq_left', not_false_eq_true,
          true_and, Option.some.injEq]
        exact eq_comm
  constructor
  · intro h o ho hlive orderId horder
    by_contra hno
    have hsafe := h _ ((hmem _).mpr ⟨o, ho, orderId, horder, hno, rfl⟩)
    rw [Discrepancy.isCritical, hlive] at hsafe
    cases hsafe
  · intro h d hd
    obtain ⟨o, ho, orderId, horder, hno, rfl⟩ := (hmem d).mp hd
    rw [Discrepancy.isCritical, Bool.eq_false_iff]
    exact fun hlive => hno (h o ho hlive orderId horder)

theorem isSafe_stateMismatches_iff :
    (∀ d ∈ stateMismatches serverOrders orders, d.isCritical = false) ↔
      ∀ s ∈ serverOrders, s.status = .Matched → ∀ o, findLocal orders s.id = some o → isLive o.state = true →
        s.sizeMatched ≤ o.filledSize := by
  have hmem : ∀ d, d ∈ stateMismatches serverOrders orders ↔ ∃ s ∈ serverOrders, ∃ o, findLocal orders s.id = some o ∧
      s.status = .Matched ∧ d = .StateMismatch s.id o.state s.sizeMatched o.filledSize := by
    intro d
    rw [stateMismatches, List.mem_filterMap]
    refine exists_congr fun s => and_congr_right fun _ => ?_
    cases hlocal : findLocal orders s.id with
    | none => simp
    | some o =>
      have hactive := isActive_of_mem_allOpen (List.mem_of_find?_eq_some hlocal)
      have hopen : o.state ≠ .Filled := by
        intro hfilled
        rw [hfilled] at hactive
        cases hactive
      simp only [parseSdkStatus_eq_filled_iff, hopen, ne_eq, not_false_eq_true, and_true, Option.some.injEq,
        exists_eq_left']
      split
      · rename_i hmatched
        simp [hmatched, eq_comm]
      · rename_i hmatched
        simp [hmatched]
  constructor
  · intro h s hs hmatched o hlocal hlive
    have hsafe := h _ ((hmem _).mpr ⟨s, hs, o, hlocal, hmatched, rfl⟩)
    rw [Discrepancy.isCritical, decide_eq_false_iff_not] at hsafe
    exact not_lt.mp fun hlt => hsafe ⟨hlt, hlive⟩
  · intro h d hd
    obtain ⟨s, hs, o, hlocal, hmatched, rfl⟩ := (hmem d).mp hd
    rw [Discrepancy.isCritical, decide_eq_false_iff_not]
    rintro ⟨hlt, hlive⟩
    exact hlt.not_ge (h s hs hmatched o hlocal hlive)

/-- No critical discrepancy is found exactly if what the pass looks for is not there. -/
theorem noneCritical_iff :
    (∀ d ∈ (reconcile serverOrders orders).discrepancies, d.isCritical = false) ↔ InAgreement serverOrders orders := by
  have hsplit : (∀ d ∈ (reconcile serverOrders orders).discrepancies, d.isCritical = false) ↔
      ((∀ d ∈ remoteNotLocal serverOrders orders, d.isCritical = false) ∧
        ∀ d ∈ localNotRemote serverOrders orders, d.isCritical = false) ∧
        ∀ d ∈ stateMismatches serverOrders orders, d.isCritical = false := by
    rw [← List.forall_mem_append, ← List.forall_mem_append]
    rfl
  rw [hsplit, isSafe_remoteNotLocal_iff, isSafe_localNotRemote_iff, isSafe_stateMismatches_iff]
  exact ⟨fun ⟨⟨remote, listed⟩, hmatched⟩ => ⟨remote, listed, hmatched⟩, fun h => ⟨⟨h.remote, h.listed⟩, h.matched⟩⟩

theorem success_iff : (reconcile serverOrders orders).success = true ↔ InAgreement serverOrders orders := by
  rw [← noneCritical_iff, reconcile, Bool.or_eq_true, List.all_eq_true]
  simp only [Bool.not_eq_true']
  refine or_iff_right_of_imp fun hempty d hd => ?_
  rw [List.isEmpty_iff.mp hempty] at hd
  cases hd

end Reconciliation

end PolyBot.Risk
