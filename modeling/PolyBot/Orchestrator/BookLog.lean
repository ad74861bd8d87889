import PolyBot.General.Cooldown
import PolyBot.State.BookViews

/-! The book states that are logged as updates come in, at most once a second for each token. -/

namespace PolyBot.Bot.BookLog
open General.KeyedStore General.Cooldown

structure State where
  lastLogTime : Store TokenId Instant
  messageCounts : Store TokenId ℕ

def State.new : State := ⟨∅, ∅⟩

/-- A line of the log; the token's id is cut to twelve characters. -/
structure LogLine where
  book : String
  bid : Decimal
  ask : Decimal
  spreadBps : ℕ
  msgs : ℕ
  deriving DecidableEq, Repr

structure Update where
  tokenId : TokenId
  now : Instant
  books : OrderBookState

variable (parse : String → Option Decimal)

def Update.quote (u : Update) : Option (Decimal × Decimal × ℕ) :=
  match u.books.bestBid parse u.tokenId, u.books.bestAsk parse u.tokenId with
  | some bid, some ask =>
    let spreadBps := (u.books.spreadBps parse u.tokenId).getD 0
    if spreadBps < 5000 then some (bid, ask, spreadBps) else none
  | _, _ => none

def shouldLog (last : Option Instant) (now : Instant) : Bool :=
  match last with
  | none => true
  | some last => decide (1 ≤ last.elapsed now / Duration.fromSecs 1)

def logBookState (s : State) (u : Update) : Option LogLine × State :=
  let msgs := (s.messageCounts.lookup u.tokenId).getD 0 + 1
  let s := { s with messageCounts := s.messageCounts.insert u.tokenId msgs }
  if shouldLog (s.lastLogTime.lookup u.tokenId) u.now = false then (none, s)
  else match u.quote parse with
    | none => (none, s)
    | some (bid, ask, spreadBps) =>
      (some ⟨.ofList (u.tokenId.toList.take 12), bid, ask, spreadBps, msgs⟩,
        { s with lastLogTime := s.lastLogTime.insert u.tokenId u.now })

def step (s : State) (u : Update) : State := (logBookState parse s u).2
def run (updates : List Update) : State := updates.foldl (step parse) .new

def logged (before : List Update) (u : Update) : Option LogLine := (logBookState parse (run parse before) u).1

def messagesOf (tokenId : TokenId) (updates : List Update) : ℕ := updates.countP (·.tokenId = tokenId)

/-- Each line says what the book is and how many messages there were; lines of one token are a second apart, and a book
with both best prices is left out only if its spread is 5000 basis points or more or within a second of a line. -/
structure LogsBooks (updates : List Update) : Prop where
  lines : ∀ before u after, updates = before ++ u :: after → ∀ line ∈ logged parse before u,
    u.books.bestBid parse u.tokenId = some line.bid ∧ u.books.bestAsk parse u.tokenId = some line.ask ∧
      (u.books.spreadBps parse u.tokenId).getD 0 = line.spreadBps ∧ line.spreadBps < 5000 ∧
      line.msgs = messagesOf u.tokenId before + 1
  spaced : ∀ before u between u' after, updates = before ++ u :: between ++ u' :: after → u.tokenId = u'.tokenId →
    (logged parse before u).isSome = true → (logged parse (before ++ u :: between) u').isSome = true →
      Duration.fromSecs 1 ≤ u.now.elapsed u'.now
  complete : ∀ before u after, updates = before ++ u :: after → logged parse before u = none →
    (u.books.bestBid parse u.tokenId = none ∨ u.books.bestAsk parse u.tokenId = none ∨
        ∃ spreadBps, u.books.spreadBps parse u.tokenId = some spreadBps ∧ 5000 ≤ spreadBps) ∨
      ∃ earlier v between, before = earlier ++ v :: between ∧ v.tokenId = u.tokenId ∧
        (logged parse earlier v).isSome = true ∧ v.now.elapsed u.now < Duration.fromSecs 1

variable {parse} {s : State} {u : Update}

theorem Update.quote_eq_some_iff {bid ask : Decimal} {spreadBps : ℕ} : u.quote parse = some (bid, ask, spreadBps) ↔
    u.books.bestBid parse u.tokenId = some bid ∧ u.books.bestAsk parse u.tokenId = some ask ∧
      (u.books.spreadBps parse u.tokenId).getD 0 = spreadBps ∧ spreadBps < 5000 := by
  unfold Update.quote
  cases u.books.bestBid parse u.tokenId with
  | none => simp
  | some b =>
    cases u.books.bestAsk parse u.tokenId with
    | none => simp
    | some a =>
      dsimp only
      split
      · simp only [Option.some.injEq, Prod.mk.injEq]
        constructor
        · rintro ⟨rfl, rfl, rfl⟩
          exact ⟨rfl, rfl, rfl, ‹_›⟩
        · exact fun ⟨hb, ha, hs, _⟩ => ⟨hb, ha, hs⟩
      · rename_i hwide
        refine iff_of_false nofun fun ⟨_, _, hs, hlt⟩ => hwide ?_
        rwa [hs]

/-- A spread that cannot be told counts as none at all. -/
theorem Update.quote_eq_none_iff : u.quote parse = none ↔
    u.books.bestBid parse u.tokenId = none ∨ u.books.bestAsk parse u.tokenId = none ∨
      ∃ spreadBps, u.books.spreadBps parse u.tokenId = some spreadBps ∧ 5000 ≤ spreadBps := by
  unfold Update.quote
  cases hbid : u.books.bestBid parse u.tokenId with
  | none => simp
  | some b =>
    cases hask : u.books.bestAsk parse u.tokenId with
    | none => simp
    | some a => cases hspread : u.books.spreadBps parse u.tokenId <;> simp

theorem shouldLog_iff {last : Option Instant} {now : Instant} :
    shouldLog last now = true ↔ Elapsed (Duration.fromSecs 1) last now := by
  cases last with
  | none => exact iff_of_true rfl fun t ht => by cases ht
  | some last =>
    have hsec : 0 < Duration.fromSecs 1 := by decide
    rw [shouldLog, decide_eq_true_iff, Nat.le_div_iff_mul_le hsec, Nat.one_mul]
    exact ⟨fun h t ht => Option.some.inj ht ▸ h, fun h => h last rfl⟩

/-- An update is logged if its book is worth it and the gap has passed; it counts in any case. -/
theorem logBookState_cases (parse : String → Option Decimal) (s : State) (u : Update) :
    (logBookState parse s u).2.messageCounts =
        s.messageCounts.insert u.tokenId ((s.messageCounts.lookup u.tokenId).getD 0 + 1) ∧
      ((∃ line, (logBookState parse s u).1 = some line ∧
          u.quote parse = some (line.bid, line.ask, line.spreadBps) ∧
          line.msgs = (s.messageCounts.lookup u.tokenId).getD 0 + 1 ∧
          Elapsed (Duration.fromSecs 1) (s.lastLogTime.lookup u.tokenId) u.now ∧
          (logBookState parse s u).2.lastLogTime = s.lastLogTime.insert u.tokenId u.now) ∨
        (logBookState parse s u).1 = none ∧ (logBookState parse s u).2.lastLogTime = s.lastLogTime ∧
          (u.quote parse = none ∨ ¬Elapsed (Duration.fromSecs 1) (s.lastLogTime.lookup u.tokenId) u.now)) := by
  unfold logBookState
  dsimp only
  split
  · rename_i hearly
    refine ⟨rfl, .inr ⟨rfl, rfl, .inr fun hgap => ?_⟩⟩
    rw [shouldLog_iff.mpr hgap] at hearly
    cases hearly
  · rename_i hgap
    have helapsed := shouldLog_iff.mp (eq_true_of_ne_false hgap)
    split
    · rename_i hnone
      exact ⟨rfl, .inr ⟨rfl, rfl, .inl hnone⟩⟩
    · rename_i bid ask spreadBps hquote
      exact ⟨rfl, .inl ⟨_, rfl, hquote, rfl, helapsed, rfl⟩⟩

theorem run_concat (before : List Update) (u : Update) :
    run parse (before ++ [u]) = (logBookState parse (run parse before) u).2 := by
  rw [run, List.foldl_append]
  rfl

theorem messageCounts_run (updates : List Update) (tokenId : TokenId) :
    ((run parse updates).messageCounts.lookup tokenId).getD 0 = messagesOf tokenId updates := by
  induction updates using List.reverseRecOn with
  | nil => rfl
  | append_singleton before u ih =>
    rw [run_concat, (logBookState_cases parse _ u).1, messagesOf, List.countP_append, List.countP_singleton, ← messagesOf]
    by_cases htoken : u.tokenId = tokenId
    · subst htoken
      rw [AList.lookup_insert, Option.getD_some, ih]
      simp
    · rw [AList.lookup_insert_ne (Ne.symm htoken), ih]
      simp [htoken]

/-- The time that is kept of a token is that of its last line. -/
theorem exists_of_lastLogTime {updates : List Update} {tokenId : TokenId} {t : Instant}
    (h : (run parse updates).lastLogTime.lookup tokenId = some t) : ∃ earlier v between,
      updates = earlier ++ v :: between ∧ v.tokenId = tokenId ∧ (logged parse earlier v).isSome = true ∧ v.now = t := by
  induction updates using List.reverseRecOn with
  | nil => cases h
  | append_singleton before u ih =>
    have hearlier : (run parse before).lastLogTime.lookup tokenId = some t → ∃ earlier v between,
        before ++ [u] = earlier ++ v :: between ∧ v.tokenId = tokenId ∧ (logged parse earlier v).isSome = true ∧
          v.now = t := by
      intro hbefore
      obtain ⟨earlier, v, between, rfl, hv⟩ := ih hbefore
      exact ⟨earlier, v, between ++ [u], by simp, hv⟩
    rw [run_concat] at h
    obtain ⟨-, ⟨line, hline, -, -, -, hlast⟩ | ⟨-, hlast, -⟩⟩ := logBookState_cases parse (run parse before) u
    · rw [hlast] at h
      by_cases htoken : u.tokenId = tokenId
      · subst htoken
        rw [AList.lookup_insert] at h
        exact ⟨before, u, [], rfl, rfl, by rw [logged, hline]; rfl, Option.some.inj h⟩
      · rw [AList.lookup_insert_ne (Ne.symm htoken)] at h
        exact hearlier h
    · rw [hlast] at h
      exact hearlier h

/-- A step writes the time of a token only when it logs a line of it. -/
theorem paced_step (parse : String → Option Decimal) (s : State) (u : Update) :
    Paced (Duration.fromSecs 1) u.now (fun tokenId => s.lastLogTime.lookup tokenId)
      (fun tokenId => (step parse s u).lastLogTime.lookup tokenId)
      fun tokenId => u.tokenId = tokenId ∧ (logBookState parse s u).1.isSome = true := by
  obtain ⟨-, ⟨line, hline, -, -, hgap, hlast⟩ | ⟨hnone, hlast, -⟩⟩ := logBookState_cases parse s u
  · refine ⟨fun tokenId => ?_, ?_⟩
    · dsimp only [step]
      rw [hlast]
      by_cases htoken : u.tokenId = tokenId
      · subst htoken
        exact .inr ⟨AList.lookup_insert _, hgap⟩
      · exact .inl (AList.lookup_insert_ne (Ne.symm htoken))
    · rintro _ ⟨rfl, -⟩
      dsimp only [step]
      rw [hlast]
      exact ⟨AList.lookup_insert _, hgap⟩
  · refine ⟨fun tokenId => .inl ?_, ?_⟩
    · dsimp only [step]
      rw [hlast]
    · rintro _ ⟨-, hsome⟩
      rw [hnone] at hsome
      cases hsome

end PolyBot.Bot.BookLog
