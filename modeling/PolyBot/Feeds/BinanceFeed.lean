import PolyBot.Feeds.PriceWindow

/-! The loop that keeps the price feed connected: what it has written to the price store, and how long it waits. -/

namespace PolyBot.Feeds
open General.KeyedStore

inductive Frame where
  | text (text : String)
  | ping
  | close
  | other
  deriving DecidableEq, Repr

/-- What the stream of a connection yields and when; `none` is a transport error. -/
abbrev Stream := List (Instant × Option Frame)

def RECONNECT_DELAY_SECS : ℕ := 5
def MAX_DELAY_SECS : ℕ := 60

/-- The price store, the delay, and the pauses made so far, in seconds. -/
structure BinanceFeed where
  prices : Store String FeedRecord
  delaySecs : ℕ
  slept : List ℕ

namespace BinanceFeed

def new : BinanceFeed := ⟨∅, RECONNECT_DELAY_SECS, []⟩

section Attempts
variable (decode : String → Option (String × String)) (parse : String → Option Decimal)

def readStream (prices : Store String FeedRecord) : Stream → Store String FeedRecord × Bool
  | [] => (prices, true)
  | (_, none) :: _ => (prices, false)
  | (now, some (.text text)) :: stream => readStream (processMessage decode parse prices now text) stream
  | (_, some .close) :: _ => (prices, true)
  | (_, some _) :: stream => readStream prices stream

/-- `none` is a connection that was not made. -/
def connectAndStream (prices : Store String FeedRecord) : Option Stream → Store String FeedRecord × Bool
  | none => (prices, false)
  | some stream => readStream decode parse prices stream

/-- One pass of the loop: an error doubles the delay up to the cap before the pause. -/
def attempt (s : BinanceFeed) (connection : Option Stream) : BinanceFeed :=
  let (prices, clean) := connectAndStream decode parse s.prices connection
  let delaySecs := if clean then RECONNECT_DELAY_SECS else min (s.delaySecs * 2) MAX_DELAY_SECS
  ⟨prices, delaySecs, s.slept ++ [delaySecs]⟩

def run (connections : List (Option Stream)) : BinanceFeed := connections.foldl (attempt decode parse) new

end Attempts

def delivered : Stream → List (Instant × String)
  | [] => []
  | (_, none) :: _ => []
  | (now, some (.text text)) :: stream => (now, text) :: delivered stream
  | (_, some .close) :: _ => []
  | (_, some _) :: stream => delivered stream

def endsClean : Stream → Bool
  | [] => true
  | (_, none) :: _ => false
  | (_, some .close) :: _ => true
  | (_, some _) :: stream => endsClean stream

def allDelivered (connections : List (Option Stream)) : List (Instant × String) :=
  connections.flatMap fun connection => (connection.map delivered).getD []

def failures (connections : List (Option Stream)) : ℕ :=
  connections.foldl (fun n connection => if (connection.map endsClean).getD false then 0 else n + 1) 0

section Quotes
variable (decode : String → Option (String × String)) (parse : String → Option Decimal)

def quoteOf (asset : String) (message : Instant × String) : Option (Instant × Decimal) :=
  match decode message.2 with
  | none => none
  | some (symbol, price) =>
    if binanceSymbolToAsset symbol = some asset then (parse price).map fun newPrice => (message.1, newPrice) else none

def recordOf (asset : String) : List (Instant × Decimal) → Option FeedRecord
  | [] => none
  | first :: quotes =>
    some (quotes.foldl (fun r quote => r.update quote.2 WINDOW_SECS quote.1) (.new asset first.2 first.1))

end Quotes

variable {decode : String → Option (String × String)} {parse : String → Option Decimal}

theorem readStream_eq (prices : Store String FeedRecord) (stream : Stream) :
    readStream decode parse prices stream =
      ((delivered stream).foldl (fun ps m => processMessage decode parse ps m.1 m.2) prices, endsClean stream) := by
  induction stream generalizing prices with
  | nil => rfl
  | cons event stream ih =>
    obtain ⟨now, frame⟩ := event
    cases frame with
    | none => rfl
    | some frame =>
      cases frame with
      | text text => exact ih _
      | ping => exact ih prices
      | close => rfl
      | other => exact ih prices

theorem connectAndStream_eq (prices : Store String FeedRecord) (connection : Option Stream) :
    connectAndStream decode parse prices connection =
      (((connection.map delivered).getD []).foldl (fun ps m => processMessage decode parse ps m.1 m.2) prices,
        (connection.map endsClean).getD false) := by
  cases connection with
  | none => rfl
  | some stream => exact readStream_eq prices stream

theorem recordOf_concat (asset : String) (quotes : List (Instant × Decimal)) (quote : Instant × Decimal) :
    recordOf asset (quotes ++ [quote]) =
      match recordOf asset quotes with
      | some r => some (r.update quote.2 WINDOW_SECS quote.1)
      | none => some (.new asset quote.2 quote.1) := by
  cases quotes with
  | nil => rfl
  | cons first quotes => simp [recordOf]

/-- A text changes the record of the asset that it quotes, and no other. -/
theorem lookup_processMessage (prices : Store String FeedRecord) (message : Instant × String) (asset : String) :
    (processMessage decode parse prices message.1 message.2).lookup asset =
      match quoteOf decode parse asset message with
      | none => prices.lookup asset
      | some quote =>
        match prices.lookup asset with
        | some r => some (r.update quote.2 WINDOW_SECS quote.1)
        | none => some (.new asset quote.2 quote.1) := by
  rw [processMessage, quoteOf]
  cases decode message.2 with
  | none => rfl
  | some trade =>
    obtain ⟨symbol, price⟩ := trade
    dsimp only
    cases hasset : binanceSymbolToAsset symbol with
    | none => cases parse price <;> rfl
    | some quoted =>
      by_cases hsame : quoted = asset
      · subst hsame
        cases parse price with
        | none => simp
        | some newPrice =>
          cases hlookup : prices.lookup quoted with
          | none => simp [hlookup]
          | some record => simp [hlookup]
      · have hother : asset ≠ quoted := fun h => hsame h.symm
        cases parse price with
        | none => simp [hsame]
        | some newPrice =>
          cases hlookup : prices.lookup quoted <;> simp [hsame, AList.lookup_insert_ne hother, hlookup]

/-- Whatever texts arrive, each record is made of the quotes of its own asset. -/
theorem lookup_messages (messages : List (Instant × String)) (asset : String) :
    (messages.foldl (fun ps m => processMessage decode parse ps m.1 m.2) ∅).lookup asset =
      recordOf asset (messages.filterMap (quoteOf decode parse asset)) := by
  induction messages using List.reverseRecOn with
  | nil => simp [recordOf]
  | append_singleton messages message ih =>
    rw [List.foldl_append, List.foldl_cons, List.foldl_nil, lookup_processMessage, ih, List.filterMap_append]
    cases hquote : quoteOf decode parse asset message with
    | none => simp [hquote]
    | some quote => rw [List.filterMap_cons_some hquote, List.filterMap_nil, recordOf_concat]

theorem failures_concat (connections : List (Option Stream)) (connection : Option Stream) :
    failures (connections ++ [connection]) =
      if (connection.map endsClean).getD false then 0 else failures connections + 1 := by
  rw [failures, List.foldl_append]
  rfl

def delayAfter (n : ℕ) : ℕ := min (RECONNECT_DELAY_SECS * 2 ^ n) MAX_DELAY_SECS

example : (List.range 5).map (fun n => delayAfter (n + 1)) = [10, 20, 40, 60, 60] := by decide

theorem delayAfter_succ (n : ℕ) : delayAfter (n + 1) = min (delayAfter n * 2) MAX_DELAY_SECS := by
  have hdouble : RECONNECT_DELAY_SECS * 2 ^ (n + 1) = RECONNECT_DELAY_SECS * 2 ^ n * 2 := by
    rw [pow_succ, mul_assoc]
  rw [delayAfter, delayAfter, hdouble]
  omega

/-- What a run of the loop leaves: every record is made of the quotes of its asset in the texts delivered, over all
connections; only tracked assets have one; and each pause is doubled with every failure in a row, up to the cap. -/
structure FollowsStreams (decode : String → Option (String × String)) (parse : String → Option Decimal)
    (connections : List (Option Stream)) : Prop where
  record : ∀ asset, (run decode parse connections).prices.lookup asset =
    recordOf asset ((allDelivered connections).filterMap (quoteOf decode parse asset))
  tracked : ∀ asset, ((run decode parse connections).prices.lookup asset).isSome →
    asset ∈ TRACKED_SYMBOLS.map Prod.snd
  delay : (run decode parse connections).delaySecs = delayAfter (failures connections)
  paused : (run decode parse connections).slept =
    (List.range connections.length).map fun n => delayAfter (failures (connections.take (n + 1)))

theorem binanceSymbolToAsset_mem {symbol asset : String} (h : binanceSymbolToAsset symbol = some asset) :
    asset ∈ TRACKED_SYMBOLS.map Prod.snd := by
  rw [binanceSymbolToAsset, Option.map_eq_some_iff] at h
  obtain ⟨tracked, hfind, rfl⟩ := h
  exact List.mem_map_of_mem (List.mem_of_find?_eq_some hfind)

theorem mem_tracked_of_recordOf {messages : List (Instant × String)} {asset : String}
    (h : (recordOf asset (messages.filterMap (quoteOf decode parse asset))).isSome = true) :
    asset ∈ TRACKED_SYMBOLS.map Prod.snd := by
  cases hquotes : messages.filterMap (quoteOf decode parse asset) with
  | nil =>
    rw [hquotes] at h
    cases h
  | cons quote quotes =>
    have hmem : quote ∈ messages.filterMap (quoteOf decode parse asset) := by simp [hquotes]
    obtain ⟨message, -, hquote⟩ := List.mem_filterMap.mp hmem
    unfold quoteOf at hquote
    split at hquote
    · cases hquote
    · split at hquote
      · rename_i hasset
        exact binanceSymbolToAsset_mem hasset
      · cases hquote

theorem prices_run (connections : List (Option Stream)) : (run decode parse connections).prices =
    (allDelivered connections).foldl (fun ps m => processMessage decode parse ps m.1 m.2) ∅ := by
  induction connections using List.reverseRecOn with
  | nil => rfl
  | append_singleton connections connection ih =>
    have hall : allDelivered (connections ++ [connection]) =
        allDelivered connections ++ (connection.map delivered).getD [] := by
      simp [allDelivered]
    rw [run, List.foldl_append, List.foldl_cons, List.foldl_nil, ← run, attempt, connectAndStream_eq, ih, hall,
      List.foldl_append]

theorem delaySecs_run (connections : List (Option Stream)) :
    (run decode parse connections).delaySecs = delayAfter (failures connections) := by
  induction connections using List.reverseRecOn with
  | nil => rfl
  | append_singleton connections connection ih =>
    rw [run, List.foldl_append, List.foldl_cons, List.foldl_nil, ← run, attempt, connectAndStream_eq, failures_concat]
    dsimp only
    split
    · rfl
    · rw [ih, delayAfter_succ]

theorem slept_run (connections : List (Option Stream)) : (run decode parse connections).slept =
    (List.range connections.length).map fun n => delayAfter (failures (connections.take (n + 1))) := by
  induction connections using List.reverseRecOn with
  | nil => rfl
  | append_singleton connections connection ih =>
    have hbefore : (List.range connections.length).map
        (fun n => delayAfter (failures ((connections ++ [connection]).take (n + 1)))) =
        (List.range connections.length).map fun n => delayAfter (failures (connections.take (n + 1))) := by
      refine List.map_congr_left fun n hn => ?_
      rw [List.take_append_of_le_length (List.mem_range.mp hn)]
    have hlast : (run decode parse (connections ++ [connection])).slept =
        (run decode parse connections).slept ++ [(run decode parse (connections ++ [connection])).delaySecs] := by
      simp [run, attempt]
    rw [hlast, ih, delaySecs_run, List.length_append, List.length_singleton, List.range_succ, List.map_append, hbefore,
      List.map_singleton, List.take_of_length_le (by simp)]

/-- Over every run of the loop. -/
theorem follows_streams (decode : String → Option (String × String)) (parse : String → Option Decimal)
    (connections : List (Option Stream)) : FollowsStreams decode parse connections := by
  have hrecord : ∀ asset, (run decode parse connections).prices.lookup asset =
      recordOf asset ((allDelivered connections).filterMap (quoteOf decode parse asset)) := by
    intro asset
    rw [prices_run]
    exact lookup_messages _ asset
  refine ⟨hrecord, fun asset hsome => ?_, delaySecs_run connections, slept_run connections⟩
  rw [hrecord] at hsome
  exact mem_tracked_of_recordOf hsome

end BinanceFeed

end PolyBot.Feeds
