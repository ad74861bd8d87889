import PolyBot.General.AdditiveRuns
import PolyBot.Ledger.Runs

/-! The order sync: the exchange lists its open orders page by page while orders come and go on both sides. -/

namespace PolyBot.Sync
open General.KeyedStore General.AdditiveRuns Ledger

/-- The exchange ids under which the ledger tracks an order as active although no page listed them. -/
def ghosts (l : Ledger) (serverIds : List OrderId) : List OrderId :=
  (l.orders.activeOrders.filterMap (·.orderId)).filter (· ∉ serverIds)

def syncOrders (l : Ledger) (serverIds : List OrderId) (now : Timestamp) : Ledger :=
  (ghosts l serverIds).foldl (fun l orderId => (l.applyServerCancel orderId now).2) l

namespace OrderSync

inductive BookStatus where
  | Open
  | Filled
  | Cancelled
  deriving DecidableEq, Repr

/-- An order on the exchange, with the moments at which it came to the book and left it. -/
structure BookOrder where
  status : BookStatus
  openedAt : ℕ
  leftAt : Option ℕ
  deriving DecidableEq, Repr

structure Page where
  orderIds : List OrderId
  isLast : Bool
  deriving DecidableEq, Repr

/-- A fetch under way: the ids received so far, the answer that is on its way, and when each page was answered. -/
structure Fetch where
  serverIds : List OrderId
  reply : Option Page
  answeredAt : List ℕ
  deriving DecidableEq, Repr

/-- The clock counts the events. -/
structure State where
  ledger : Ledger
  book : Store OrderId BookOrder
  fetch : Option Fetch
  clock : ℕ

/-- The exchange answers a request at one moment, and the sync receives the answer at a later one. -/
inductive Event where
  | exchangeOpens (orderId : OrderId)
  | exchangeFills (orderId : OrderId)
  | exchangeCancels (orderId : OrderId)
  | ledgerOp (op : LedgerOp)
  | fetchStarts
  | pageAnswered
  | pageReceived (now : Timestamp)
  | fetchFails

def links : LedgerOp → Option OrderId
  | .linkOrderId _ orderId _ => some orderId
  | .addOrder order => order.orderId
  | _ => none

def leave (book : Store OrderId BookOrder) (orderId : OrderId) (status : BookStatus) (clock : ℕ) :
    Store OrderId BookOrder :=
  match book.lookup orderId with
  | some ⟨.Open, openedAt, _⟩ => book.insert orderId ⟨status, openedAt, some clock⟩
  | _ => book

def isOpen (book : Store OrderId BookOrder) (orderId : OrderId) : Bool :=
  (book.lookup orderId).any (·.status = .Open)

/-- The exchange lists an open order on one page, which does not change while the order is open; the last page is the
one after which no open order is listed. -/
def answer (pageOf : OrderId → ℕ) (book : Store OrderId BookOrder) (page : ℕ) : Page where
  orderIds := book.keys.filter fun orderId => isOpen book orderId ∧ pageOf orderId = page
  isLast := book.keys.all fun orderId => isOpen book orderId → pageOf orderId ≤ page

namespace State

def start (initialCash : Decimal) : State := ⟨.new initialCash, ∅, none, 0⟩

/-- Ids come from the exchange: an id that it has not given out is not linked. -/
def next (pageOf : OrderId → ℕ) (s : State) : Event → State
  | .exchangeOpens orderId =>
    if (s.book.lookup orderId).isSome then s
    else { s with book := s.book.insert orderId ⟨.Open, s.clock, none⟩ }
  | .exchangeFills orderId => { s with book := leave s.book orderId .Filled s.clock }
  | .exchangeCancels orderId => { s with book := leave s.book orderId .Cancelled s.clock }
  | .ledgerOp op =>
    if (links op).all fun orderId => (s.book.lookup orderId).isSome then { s with ledger := op.apply s.ledger } else s
  | .fetchStarts => if s.fetch.isSome then s else { s with fetch := some ⟨[], none, []⟩ }
  | .pageAnswered =>
    match s.fetch with
    | some ⟨serverIds, none, answeredAt⟩ =>
      { s with fetch := some ⟨serverIds, answer pageOf s.book answeredAt.length, answeredAt ++ [s.clock]⟩ }
    | _ => s
  | .pageReceived now =>
    match s.fetch with
    | some ⟨serverIds, some page, answeredAt⟩ =>
      if page.isLast then
        { s with ledger := syncOrders s.ledger (serverIds ++ page.orderIds) now, fetch := none }
      else { s with fetch := some ⟨serverIds ++ page.orderIds, none, answeredAt⟩ }
    | _ => s
  | .fetchFails => { s with fetch := none }

def step (pageOf : OrderId → ℕ) (s : State) (event : Event) : State :=
  { s.next pageOf event with clock := s.clock + 1 }

end State

def cancels (s : State) : Event → List OrderId
  | .pageReceived _ =>
    match s.fetch with
    | some ⟨serverIds, some page, _⟩ => if page.isLast then ghosts s.ledger (serverIds ++ page.orderIds) else []
    | _ => []
  | _ => []

/-- The sync cancels only what the exchange has cancelled. -/
def CancelsCancelled (s : State) (event : Event) : Prop :=
  ∀ orderId ∈ cancels s event, (s.book.lookup orderId).map (·.status) = some .Cancelled

/-- When its page was answered, the order had come to the book and had not left it. -/
def StoodWhenAnswered (pageOf : OrderId → ℕ) (answeredAt : List ℕ) (orderId : OrderId) (o : BookOrder) : Prop :=
  ∃ answered, answeredAt[pageOf orderId]? = some answered ∧ o.openedAt < answered ∧ ∀ left ∈ o.leftAt, answered < left

/-- When the last page is received, every order that the ledger tracks as active, and that the exchange has open or has
filled, stood on the book at the moment at which its page was answered. -/
def ActiveStoodWhenAnswered (pageOf : OrderId → ℕ) (s : State) (event : Event) : Prop :=
  ∀ now, event = .pageReceived now → ∀ fetch ∈ s.fetch, ∀ page ∈ fetch.reply, page.isLast = true →
    ∀ tracked ∈ s.ledger.orders.activeOrders, ∀ orderId ∈ tracked.orderId, ∀ o ∈ s.book.lookup orderId,
      o.status = .Open ∨ o.status = .Filled → StoodWhenAnswered pageOf fetch.answeredAt orderId o

def Tracked (os : OpenOrders) (orderId : OrderId) : Prop := ∃ o ∈ values os.byLocalId, o.orderId = some orderId

section Tracked
variable {os os' : OpenOrders} {l : Ledger} {orderId : OrderId}

/-- Replacing an order by one with the same exchange id tracks nothing new. -/
theorem tracked_of_insert {localId : Uuid} {o : TrackedOrder} (hget : os.getByLocalId localId = some o)
    (o' : TrackedOrder) (hsame : o'.orderId = o.orderId)
    (hinsert : os'.byLocalId = os.byLocalId.insert localId o') (h : Tracked os' orderId) : Tracked os orderId := by
  obtain ⟨t, ht, hid⟩ := h
  rw [hinsert] at ht
  rcases mem_values_insert ht with rfl | hold
  · exact ⟨o, mem_values_iff.mpr ⟨localId, hget⟩, hsame ▸ hid⟩
  · exact ⟨t, hold, hid⟩

theorem tracked_transition {localId : Uuid} {newState oldState : OrderState} {now : Timestamp}
    (hok : os.transition localId newState now = .ok (oldState, os')) (h : Tracked os' orderId) : Tracked os orderId := by
  unfold OpenOrders.transition at hok
  split at hok
  · cases hok
  · rename_i o hget
    split at hok
    · cases hok
      exact tracked_of_insert hget { o with state := newState, lastUpdate := now } rfl rfl h
    · cases hok

theorem tracked_applyFill {localId : Uuid} {fillSize remaining : Decimal} {now : Timestamp}
    (hok : os.applyFill localId fillSize now = .ok (remaining, os')) (h : Tracked os' orderId) : Tracked os orderId := by
  unfold OpenOrders.applyFill at hok
  split at hok
  · cases hok
  · rename_i o hget
    cases hok
    exact tracked_of_insert hget (o.applyFill fillSize now) rfl rfl h

theorem tracked_applyServerCancel {cancelled : OrderId} {now : Timestamp}
    (h : Tracked (l.applyServerCancel cancelled now).2.orders orderId) : Tracked l.orders orderId := by
  unfold applyServerCancel at h
  split at h
  · exact h
  · split at h
    · dsimp only at h
      split at h
      · rename_i hok
        exact tracked_transition hok h
      · exact h
    · exact h

theorem tracked_remove {localId : Uuid} (h : Tracked (os.remove localId) orderId) : Tracked os orderId := by
  unfold OpenOrders.remove at h
  split at h
  · exact h
  · obtain ⟨o, ho, hid⟩ := h
    exact ⟨o, mem_values_erase ho, hid⟩

theorem tracked_removeTerminal (h : Tracked os.removeTerminal orderId) : Tracked os orderId := by
  unfold OpenOrders.removeTerminal at h
  generalize ((values os.byLocalId).filter (·.state.isTerminal)).map (·.localId) = localIds at h
  induction localIds generalizing os with
  | nil => exact h
  | cons localId localIds ih => exact tracked_remove (ih h)

/-- An operation tracks no exchange id but the one it links. -/
theorem tracked_apply {op : LedgerOp} (h : Tracked (op.apply l).orders orderId) :
    Tracked l.orders orderId ∨ links op = some orderId := by
  cases op with
  | processFill f =>
    left
    rwa [LedgerOp.apply, orders_processFill] at h
  | addOrder order =>
    obtain ⟨o, ho, hid⟩ := h
    rcases mem_values_insert ho with rfl | hold
    · exact .inr hid
    · exact .inl ⟨o, hold, hid⟩
  | linkOrderId localId linked now =>
    dsimp only [LedgerOp.apply, OpenOrders.linkOrderId] at h
    cases hget : l.orders.getByLocalId localId with
    | none =>
      rw [hget] at h
      exact .inl h
    | some order =>
      rw [hget] at h
      obtain ⟨o, ho, hid⟩ := h
      rcases mem_values_insert ho with rfl | hold
      · exact .inr hid
      · exact .inl ⟨o, hold, hid⟩
  | transition localId newState now =>
    dsimp only [LedgerOp.apply] at h
    split at h
    · rename_i hok
      exact .inl (tracked_transition hok h)
    · exact .inl h
  | applyOrderFill localId fillSize now =>
    dsimp only [LedgerOp.apply] at h
    split at h
    · rename_i hok
      exact .inl (tracked_applyFill hok h)
    · exact .inl h
  | removeTerminal => exact .inl (tracked_removeTerminal h)
  | applyServerCancel cancelled now => exact .inl (tracked_applyServerCancel h)
  | _ => exact .inl h

theorem tracked_syncOrders {serverIds : List OrderId} {now : Timestamp}
    (h : Tracked (syncOrders l serverIds now).orders orderId) : Tracked l.orders orderId := by
  unfold syncOrders at h
  generalize ghosts l serverIds = ids at h
  induction ids generalizing l with
  | nil => exact h
  | cons id ids ih => exact tracked_applyServerCancel (ih h)

end Tracked

theorem mem_ghosts_iff {l : Ledger} {serverIds : List OrderId} {orderId : OrderId} :
    orderId ∈ ghosts l serverIds ↔
      (∃ o ∈ l.orders.activeOrders, o.orderId = some orderId) ∧ orderId ∉ serverIds := by
  simp [ghosts, List.mem_filter, List.mem_filterMap]

structure Timely (clock : ℕ) (o : BookOrder) : Prop where
  opened : o.openedAt < clock
  left : ∀ left ∈ o.leftAt, left < clock
  open_iff : o.status = .Open ↔ o.leftAt = none

structure Lists (pageOf : OrderId → ℕ) (book : Store OrderId BookOrder) (clock : ℕ) (fetch : Fetch) : Prop where
  answered : ∀ answered ∈ fetch.answeredAt, answered < clock
  listed_iff : ∀ orderId, (orderId ∈ fetch.serverIds ∨ ∃ page ∈ fetch.reply, orderId ∈ page.orderIds) ↔
    ∃ o ∈ book.lookup orderId, StoodWhenAnswered pageOf fetch.answeredAt orderId o

structure Consistent (pageOf : OrderId → ℕ) (s : State) : Prop where
  known : ∀ orderId, Tracked s.ledger.orders orderId → (s.book.lookup orderId).isSome = true
  timely : ∀ orderId, ∀ o ∈ s.book.lookup orderId, Timely s.clock o
  lists : ∀ fetch ∈ s.fetch, Lists pageOf s.book s.clock fetch

theorem isOpen_iff {book : Store OrderId BookOrder} {orderId : OrderId} :
    isOpen book orderId = true ↔ ∃ o ∈ book.lookup orderId, o.status = .Open := by
  simp [isOpen, Option.any_eq_true]

theorem mem_answer_iff {pageOf : OrderId → ℕ} {book : Store OrderId BookOrder} {page : ℕ} {orderId : OrderId} :
    orderId ∈ (answer pageOf book page).orderIds ↔ isOpen book orderId = true ∧ pageOf orderId = page := by
  simp only [answer, List.mem_filter, decide_eq_true_eq]
  refine and_iff_right_of_imp fun h => ?_
  obtain ⟨o, ho, -⟩ := isOpen_iff.mp h.1
  exact AList.mem_keys.mp (AList.lookup_isSome.mp (Option.isSome_of_mem ho))

theorem Timely.later {clock clock' : ℕ} {o : BookOrder} (h : Timely clock o) (hle : clock ≤ clock') : Timely clock' o :=
  ⟨h.opened.trans_le hle, fun left hleft => (h.left left hleft).trans_le hle, h.open_iff⟩

/-- What leaves the book had come to it before, and nothing else changes. -/
theorem lookup_leave (book : Store OrderId BookOrder) (left orderId : OrderId) (status : BookStatus) (clock : ℕ) :
    (leave book left status clock).lookup orderId = book.lookup orderId ∨
      ∃ o, book.lookup orderId = some o ∧ o.status = .Open ∧
        (leave book left status clock).lookup orderId = some ⟨status, o.openedAt, some clock⟩ := by
  unfold leave
  split
  · rename_i openedAt leftAt hopen
    by_cases heq : orderId = left
    · subst heq
      exact .inr ⟨_, hopen, rfl, AList.lookup_insert _⟩
    · exact .inl (AList.lookup_insert_ne heq)
  · exact .inl rfl

section Step
variable {pageOf : OrderId → ℕ} {s : State}

/-- No event happens twice at one moment: what the pages list does not depend on what leaves the book now. -/
theorem stood_leave_iff {answeredAt : List ℕ} {clock : ℕ} (hanswered : ∀ answered ∈ answeredAt, answered < clock)
    {orderId : OrderId} {o : BookOrder} (hnone : o.leftAt = none) (status : BookStatus) :
    StoodWhenAnswered pageOf answeredAt orderId ⟨status, o.openedAt, some clock⟩ ↔
      StoodWhenAnswered pageOf answeredAt orderId o := by
  refine exists_congr fun answered => and_congr_right fun hat => and_congr_right fun _ => ?_
  have hbefore := hanswered answered (List.mem_of_getElem? hat)
  simp [hnone, hbefore]

theorem Consistent.leave (h : Consistent pageOf s) (left : OrderId) {status : BookStatus} (hstatus : status ≠ .Open) :
    Consistent pageOf { s with book := leave s.book left status s.clock, clock := s.clock + 1 } where
  known orderId htracked := by
    rcases lookup_leave s.book left orderId status s.clock with hsame | ⟨o, -, -, hleft⟩
    · exact hsame ▸ h.known orderId htracked
    · exact hleft ▸ rfl
  timely orderId o ho := by
    rcases lookup_leave s.book left orderId status s.clock with hsame | ⟨old, hold, -, hleft⟩
    · exact (h.timely orderId o (hsame ▸ ho)).later (Nat.le_succ _)
    · obtain rfl := Option.some.inj (hleft.symm.trans ho)
      refine ⟨(h.timely orderId old hold).opened.trans (Nat.lt_succ_self _), fun moment hmoment => ?_, ?_⟩
      · obtain rfl := Option.some.inj hmoment
        exact Nat.lt_succ_self _
      · simp [hstatus]
  lists fetch hfetch := by
    have hlists := h.lists fetch hfetch
    refine ⟨fun answered ha => (hlists.answered answered ha).trans (Nat.lt_succ_self _), fun orderId => ?_⟩
    rw [hlists.listed_iff]
    rcases lookup_leave s.book left orderId status s.clock with hsame | ⟨old, hold, hopen, hleft⟩
    · simp only [hsame]
    · have hnone := (h.timely orderId old hold).open_iff.mp hopen
      simp only [hleft, hold, Option.mem_some_iff, exists_eq_left']
      exact (stood_leave_iff hlists.answered hnone status).symm

theorem Consistent.exchangeOpens (h : Consistent pageOf s) {opened : OrderId} (hnew : s.book.lookup opened = none) :
    Consistent pageOf { s with book := s.book.insert opened ⟨.Open, s.clock, none⟩, clock := s.clock + 1 } where
  known orderId htracked := by
    by_cases heq : orderId = opened
    · rw [heq, AList.lookup_insert]
      rfl
    · rw [AList.lookup_insert_ne heq]
      exact h.known orderId htracked
  timely orderId o ho := by
    by_cases heq : orderId = opened
    · rw [heq, AList.lookup_insert] at ho
      obtain rfl := Option.some.inj ho
      exact ⟨Nat.lt_succ_self _, nofun, iff_of_true rfl rfl⟩
    · rw [AList.lookup_insert_ne heq] at ho
      exact (h.timely orderId o ho).later (Nat.le_succ _)
  lists fetch hfetch := by
    have hlists := h.lists fetch hfetch
    refine ⟨fun answered ha => (hlists.answered answered ha).trans (Nat.lt_succ_self _), fun orderId => ?_⟩
    rw [hlists.listed_iff]
    by_cases heq : orderId = opened
    · -- a page that was answered before lists no order that opens now
      subst heq
      rw [AList.lookup_insert]
      refine iff_of_false (by simp [hnew]) ?_
      rintro ⟨o, ho, answered, hat, hbefore, -⟩
      obtain rfl := Option.some.inj ho
      exact absurd hbefore (hlists.answered answered (List.mem_of_getElem? hat)).not_gt
    · rw [AList.lookup_insert_ne heq]

/-- Time passes, and the ledger tracks nothing that the exchange does not know. -/
theorem Consistent.ledger (h : Consistent pageOf s) {l : Ledger}
    (hknown : ∀ orderId, Tracked l.orders orderId → (s.book.lookup orderId).isSome = true) :
    Consistent pageOf { s with ledger := l, clock := s.clock + 1 } where
  known := hknown
  timely orderId o ho := (h.timely orderId o ho).later (Nat.le_succ _)
  lists fetch hfetch :=
    ⟨fun answered ha => ((h.lists fetch hfetch).answered answered ha).trans (Nat.lt_succ_self _),
      (h.lists fetch hfetch).listed_iff⟩

theorem Consistent.later (h : Consistent pageOf s) : Consistent pageOf { s with clock := s.clock + 1 } :=
  h.ledger h.known

/-- Another fetch that agrees with the book. -/
theorem Consistent.withFetch (h : Consistent pageOf s) {fetch : Option Fetch}
    (hlists : ∀ f ∈ fetch, Lists pageOf s.book (s.clock + 1) f) :
    Consistent pageOf { s with fetch := fetch, clock := s.clock + 1 } :=
  ⟨h.known, h.later.timely, hlists⟩

theorem Consistent.ledgerOp (h : Consistent pageOf s) (op : LedgerOp) :
    Consistent pageOf (s.step pageOf (.ledgerOp op)) := by
  dsimp only [State.step, State.next]
  split
  · rename_i hlinks
    refine h.ledger fun orderId htracked => ?_
    rcases tracked_apply htracked with hold | hnew
    · exact h.known orderId hold
    · simpa [hnew] using hlinks
  · exact h.later

/-- The answer lists the orders that stand on the book now. -/
theorem Consistent.answered (h : Consistent pageOf s) {serverIds : List OrderId} {answeredAt : List ℕ}
    (hfetch : s.fetch = some ⟨serverIds, none, answeredAt⟩) : Lists pageOf s.book (s.clock + 1)
      ⟨serverIds, answer pageOf s.book answeredAt.length, answeredAt ++ [s.clock]⟩ := by
  have hlists := h.lists _ hfetch
  constructor
  · intro answered ha
    rcases List.mem_append.mp ha with hbefore | hnow
    · exact (hlists.answered answered hbefore).trans (Nat.lt_succ_self _)
    · exact List.mem_singleton.mp hnow ▸ Nat.lt_succ_self _
  · intro orderId
    have hbefore : orderId ∈ serverIds ↔
        ∃ o ∈ s.book.lookup orderId, StoodWhenAnswered pageOf answeredAt orderId o := by
      rw [← hlists.listed_iff]
      simp
    simp only [Option.mem_some_iff, exists_eq_left', mem_answer_iff, hbefore, isOpen_iff]
    rcases lt_trichotomy (pageOf orderId) answeredAt.length with hlt | heq | hgt
    · -- the page was answered before
      simp [StoodWhenAnswered, List.getElem?_append_left hlt, hlt.ne]
    · have hnone : answeredAt[pageOf orderId]? = none := List.getElem?_eq_none heq.ge
      have hnow : (answeredAt ++ [s.clock])[pageOf orderId]? = some s.clock := by simp [heq]
      have hstands : ∀ o ∈ s.book.lookup orderId,
          StoodWhenAnswered pageOf (answeredAt ++ [s.clock]) orderId o ↔ o.status = .Open := by
        intro o ho
        have htimely := h.timely orderId o ho
        rw [htimely.open_iff, StoodWhenAnswered, hnow]
        constructor
        · rintro ⟨answered, hanswered, -, hleft⟩
          obtain rfl := Option.some.inj hanswered
          exact Option.eq_none_iff_forall_not_mem.mpr fun left hmem =>
            (hleft left hmem).not_gt (htimely.left left hmem)
        · exact fun hopen => ⟨s.clock, rfl, htimely.opened, by simp [hopen]⟩
      have hnever : ∀ o, ¬StoodWhenAnswered pageOf answeredAt orderId o := by
        rintro o ⟨answered, hanswered, -⟩
        rw [hnone] at hanswered
        cases hanswered
      simp only [hnever, and_false, exists_false, false_or, heq, and_true]
      exact exists_congr fun o => and_congr_right fun ho => (hstands o ho).symm
    · have hnone : (answeredAt ++ [s.clock])[pageOf orderId]? = none := by
        rw [List.getElem?_eq_none_iff, List.length_append, List.length_singleton]
        exact hgt
      have hnone' : answeredAt[pageOf orderId]? = none := List.getElem?_eq_none hgt.le
      simp [StoodWhenAnswered, hnone, hnone', hgt.ne']

/-- The step lemma: whatever happens, the pages stay consistent with the book, and the book with the tracked orders. -/
theorem Consistent.step (h : Consistent pageOf s) (event : Event) : Consistent pageOf (s.step pageOf event) := by
  cases event with
  | exchangeOpens orderId =>
    dsimp only [State.step, State.next]
    split
    · exact h.later
    · rename_i hnone
      exact h.exchangeOpens (by simpa using hnone)
  | exchangeFills orderId => exact h.leave orderId (by decide)
  | exchangeCancels orderId => exact h.leave orderId (by decide)
  | ledgerOp op => exact h.ledgerOp op
  | fetchStarts =>
    dsimp only [State.step, State.next]
    split
    · exact h.later
    · refine h.withFetch fun fetch hfetch => ?_
      obtain rfl := Option.some.inj hfetch
      exact ⟨nofun, by simp [StoodWhenAnswered]⟩
  | pageAnswered =>
    dsimp only [State.step, State.next]
    split
    · rename_i hfetch
      refine h.withFetch fun fetch hfetch' => ?_
      obtain rfl := Option.some.inj hfetch'
      exact h.answered hfetch
    · exact h.later
  | pageReceived now =>
    dsimp only [State.step, State.next]
    split
    · rename_i serverIds page answeredAt hfetch
      split
      · have hended : Consistent pageOf { s with fetch := none } := ⟨h.known, h.timely, nofun⟩
        exact hended.ledger fun orderId htracked => h.known orderId (tracked_syncOrders htracked)
      · refine h.withFetch fun fetch hfetch' => ?_
        obtain rfl := Option.some.inj hfetch'
        have hlists := h.later.lists _ hfetch
        refine ⟨hlists.answered, fun orderId => ?_⟩
        rw [← hlists.listed_iff]
        simp
    · exact h.later
  | fetchFails => exact h.withFetch nofun

theorem mem_cancels_iff {event : Event} {orderId : OrderId} :
    orderId ∈ cancels s event ↔
      (∃ now, event = .pageReceived now) ∧ ∃ fetch ∈ s.fetch, ∃ page ∈ fetch.reply, page.isLast = true ∧
        (∃ tracked ∈ s.ledger.orders.activeOrders, tracked.orderId = some orderId) ∧
          ¬(orderId ∈ fetch.serverIds ∨ ∃ page ∈ fetch.reply, orderId ∈ page.orderIds) := by
  cases event with
  | pageReceived now =>
    have hevent : ∃ now', Event.pageReceived now = .pageReceived now' := ⟨now, rfl⟩
    rw [and_iff_right hevent, cancels]
    split
    · rename_i serverIds page answeredAt hfetch
      simp only [hfetch, Option.mem_some_iff, exists_eq_left']
      split
      · rename_i hlast
        rw [mem_ghosts_iff, List.mem_append, and_iff_right hlast]
      · rename_i hmore
        simp [hmore]
    · rename_i hnone
      refine iff_of_false List.not_mem_nil ?_
      rintro ⟨⟨serverIds, reply, answeredAt⟩, hfetch, page, hpage, -⟩
      obtain rfl : reply = some page := hpage
      exact hnone serverIds page answeredAt hfetch
  | _ => simp [cancels]

theorem cancelsCancelled_iff (h : Consistent pageOf s) (event : Event) :
    CancelsCancelled s event ↔ ActiveStoodWhenAnswered pageOf s event := by
  have hlisted : ∀ fetch ∈ s.fetch, ∀ {orderId o}, s.book.lookup orderId = some o →
      ((orderId ∈ fetch.serverIds ∨ ∃ page ∈ fetch.reply, orderId ∈ page.orderIds) ↔
        StoodWhenAnswered pageOf fetch.answeredAt orderId o) := by
    intro fetch hfetch orderId o ho
    rw [(h.lists fetch hfetch).listed_iff, ho]
    simp
  constructor
  · intro hcancels now hevent fetch hfetch page hpage hlast tracked htracked orderId hid o ho hstatus
    by_contra hnot
    have hunlisted := (hlisted fetch hfetch ho).not.mpr hnot
    have hcancelled := hcancels orderId (mem_cancels_iff.mpr
      ⟨⟨now, hevent⟩, fetch, hfetch, page, hpage, hlast, ⟨tracked, htracked, hid⟩, hunlisted⟩)
    rw [ho, Option.map_some, Option.some.injEq] at hcancelled
    rcases hstatus with hopen | hfilled
    · cases hopen.symm.trans hcancelled
    · cases hfilled.symm.trans hcancelled
  · intro hstood orderId hmem
    obtain ⟨⟨now, hevent⟩, fetch, hfetch, page, hpage, hlast, ⟨tracked, htracked, hid⟩, hunlisted⟩ :=
      mem_cancels_iff.mp hmem
    obtain ⟨o, ho⟩ := Option.isSome_iff_exists.mp (h.known orderId ⟨tracked, List.mem_of_mem_filter htracked, hid⟩)
    have hnot := (hlisted fetch hfetch ho).not.mp hunlisted
    have hcase := fun hstatus =>
      hnot (hstood now hevent fetch hfetch page hpage hlast tracked htracked orderId hid o ho hstatus)
    rw [ho, Option.map_some, Option.some.injEq]
    cases hstatus : o.status with
    | Cancelled => rfl
    | Open => exact absurd (.inl hstatus) hcase
    | Filled => exact absurd (.inr hstatus) hcase

end Step

/-- In every interleaving the sync cancels only what the exchange has cancelled, exactly if whenever the last page of a
fetch is received every active order that the exchange has not cancelled stood on the book when its page was answered:
it had not opened later, and it had not been filled before. -/
theorem sync_cancels_cancelled_iff (pageOf : OrderId → ℕ) (initialCash : Decimal) (events : List Event) :
    Throughout (State.step pageOf) CancelsCancelled (.start initialCash) events ↔
      Throughout (State.step pageOf) (ActiveStoodWhenAnswered pageOf) (.start initialCash) events := by
  refine throughout_congr (Consistent pageOf) ?_ ?_ ?_
  · intro s event h _
    exact h.step event
  · intro s event h
    exact cancelsCancelled_iff h event
  · refine ⟨?_, nofun, nofun⟩
    rintro orderId ⟨o, ho, -⟩
    cases ho

private def ackedBuy : List Event :=
  [.exchangeOpens "o1", .ledgerOp (.reserve 50), .ledgerOp (.addOrder (.new 1 "yes" .Buy (1 / 2) 100 none 0)),
    .ledgerOp (.transition 1 .Signed 1), .ledgerOp (.transition 1 .Submitted 2), .ledgerOp (.transition 1 .Acked 3),
    .ledgerOp (.linkOrderId 1 "o1" 4)]

/-- The order fills on the exchange, and a fetch ends before the fill is heard of. -/
private def filledBeforeAnswer : List Event :=
  ackedBuy ++ [.exchangeFills "o1", .fetchStarts, .pageAnswered, .pageReceived 5]

/-- The order opens, is acked and linked while the answer is on its way. -/
private def openedAfterAnswer : List Event := [.fetchStarts, .pageAnswered] ++ ackedBuy ++ [.pageReceived 5]

private def onFirstPage (_ : OrderId) : ℕ := 0

private def endOf (events : List Event) : State := events.foldl (State.step onFirstPage) (.start 100)

/-- The fifty dollars that the fill has spent are free again, and so are those that the open order may still spend. -/
theorem live_orders_are_cancelled :
    (endOf ackedBuy).ledger.cash = ⟨50, 50⟩ ∧
      (endOf filledBeforeAnswer).ledger.cash = ⟨100, 0⟩ ∧
      ((endOf filledBeforeAnswer).book.lookup "o1").map (·.status) = some .Filled ∧
      (endOf openedAfterAnswer).ledger.cash = ⟨100, 0⟩ ∧
      ((endOf openedAfterAnswer).book.lookup "o1").map (·.status) = some .Open ∧
      ¬Throughout (State.step onFirstPage) CancelsCancelled (.start 100) filledBeforeAnswer ∧
      ¬Throughout (State.step onFirstPage) CancelsCancelled (.start 100) openedAfterAnswer := by
  refine ⟨by decide +kernel, by decide +kernel, by decide +kernel, by decide +kernel, by decide +kernel, ?_, ?_⟩
  · rintro ⟨-, -, -, -, -, -, -, -, -, -, hcancels, -⟩
    have hstatus := hcancels "o1" (by decide +kernel)
    exact absurd hstatus (by decide +kernel)
  · rintro ⟨-, -, -, -, -, -, -, -, -, hcancels, -⟩
    have hstatus := hcancels "o1" (by decide +kernel)
    exact absurd hstatus (by decide +kernel)

end OrderSync

end PolyBot.Sync
