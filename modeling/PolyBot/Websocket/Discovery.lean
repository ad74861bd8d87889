import PolyBot.Strategy.MarketPair

/-! Discovery of binary markets: from the fields of a Gamma market to the pair the strategies trade. The two lists of
a market arrive as JSON texts; their parser is an argument. -/

namespace PolyBot

inductive BotError where
  | Config (msg : String)
  | Json (msg : String)
  deriving DecidableEq, Repr

inductive OutcomeType where
  | YesNo
  | UpDown
  | Other
  deriving DecidableEq, Repr

structure GammaMarket where
  conditionId : ConditionId
  question : String
  outcomes : String
  clobTokenIds : String
  feeRateBps : Option ℕ
  deriving DecidableEq, Repr

structure DiscoveredMarket where
  conditionId : ConditionId
  question : String
  firstTokenId : TokenId
  secondTokenId : TokenId
  firstOutcome : String
  secondOutcome : String
  outcomeType : OutcomeType
  feeRateBps : ℕ
  isCrypto15min : Bool
  eventSlug : String
  deriving DecidableEq, Repr

/-- Lower case is that of ASCII: no other letter lowers to a letter of these labels. -/
def classifyOutcomes (first second : String) : OutcomeType :=
  let firstLower := first.toLower
  let secondLower := second.toLower
  if firstLower = "yes" ∧ secondLower = "no" ∨ firstLower = "no" ∧ secondLower = "yes" then .YesNo
  else if firstLower = "up" ∧ secondLower = "down" ∨ firstLower = "down" ∧ secondLower = "up" then .UpDown
  else .Other

section Conversion
variable (parseJson : String → Except String (List String))

def GammaMarket.parseOutcomes (m : GammaMarket) : Except BotError (List String) :=
  if m.outcomes.isEmpty then .ok []
  else (parseJson m.outcomes).mapError fun e => .Json s!"Failed to parse outcomes '{m.outcomes}': {e}"

def GammaMarket.parseTokenIds (m : GammaMarket) : Except BotError (List TokenId) :=
  if m.clobTokenIds.isEmpty then .ok []
  else (parseJson m.clobTokenIds).mapError fun e => .Json s!"Failed to parse clob_token_ids '{m.clobTokenIds}': {e}"

def GammaMarket.discovered (m : GammaMarket) (eventSlug firstOutcome secondOutcome : String)
    (firstTokenId secondTokenId : TokenId) : DiscoveredMarket :=
  let outcomeType := classifyOutcomes firstOutcome secondOutcome
  let feeRateBps := m.feeRateBps.getD (if outcomeType = .UpDown then 1000 else 0)
  { conditionId := m.conditionId
    question := m.question
    firstTokenId := firstTokenId
    secondTokenId := secondTokenId
    firstOutcome := firstOutcome
    secondOutcome := secondOutcome
    outcomeType := outcomeType
    feeRateBps := feeRateBps
    isCrypto15min := outcomeType = .UpDown ∨ 100 ≤ feeRateBps
    eventSlug := eventSlug }

def tryConvertMarket (m : GammaMarket) (eventSlug : String) : Except BotError DiscoveredMarket :=
  match m.parseOutcomes parseJson with
  | .error e => .error e
  | .ok [firstOutcome, secondOutcome] =>
    match m.parseTokenIds parseJson with
    | .error e => .error e
    | .ok [firstTokenId, secondTokenId] =>
      .ok (m.discovered eventSlug firstOutcome secondOutcome firstTokenId secondTokenId)
    | .ok tokenIds => .error (.Config s!"Market {m.conditionId} has {tokenIds.length} tokens, expected 2")
  | .ok outcomes => .error (.Config s!"Market {m.conditionId} has {outcomes.length} outcomes, expected 2")

end Conversion

/-- The pair keeps the tokens in the order in which they were listed. -/
def DiscoveredMarket.toMarketPair (d : DiscoveredMarket) : MarketPair :=
  (MarketPair.new d.conditionId d.firstTokenId d.secondTokenId).withFeeRate d.feeRateBps

namespace Discovery

def PositiveLabel (label : String) : Prop := label.toLower = "yes" ∨ label.toLower = "up"

def NegativeLabel (label : String) : Prop := label.toLower = "no" ∨ label.toLower = "down"

instance (label : String) : Decidable (PositiveLabel label) := inferInstanceAs (Decidable (_ ∨ _))
instance (label : String) : Decidable (NegativeLabel label) := inferInstanceAs (Decidable (_ ∨ _))

/-- Every token stands where its label says. -/
def Oriented (pair : MarketPair) (labelled : List (String × TokenId)) : Prop :=
  ∀ outcome ∈ labelled, (PositiveLabel outcome.1 → pair.yesTokenId = outcome.2) ∧
    (NegativeLabel outcome.1 → pair.noTokenId = outcome.2)

theorem not_negative_of_positive {label : String} (h : PositiveLabel label) : ¬NegativeLabel label := by
  rintro (hno | hdown) <;> rcases h with hyes | hup
  · exact absurd (hyes.symm.trans hno) (by decide)
  · exact absurd (hup.symm.trans hno) (by decide)
  · exact absurd (hyes.symm.trans hdown) (by decide)
  · exact absurd (hup.symm.trans hdown) (by decide)

/-- Outcomes that are classified have one positive and one negative label, in either order. -/
theorem labels_of_classified {first second : String} (h : classifyOutcomes first second ≠ .Other) :
    PositiveLabel first ∧ NegativeLabel second ∨ NegativeLabel first ∧ PositiveLabel second := by
  unfold classifyOutcomes at h
  dsimp only at h
  split at h
  · rename_i hyesNo
    rcases hyesNo with ⟨hyes, hno⟩ | ⟨hno, hyes⟩
    · exact .inl ⟨.inl hyes, .inl hno⟩
    · exact .inr ⟨.inl hno, .inl hyes⟩
  · split at h
    · rename_i hupDown
      rcases hupDown with ⟨hup, hdown⟩ | ⟨hdown, hup⟩
      · exact .inl ⟨.inr hup, .inr hdown⟩
      · exact .inr ⟨.inr hdown, .inr hup⟩
    · exact absurd rfl h

/-- A market is converted exactly when both of its texts hold two entries. -/
theorem tryConvertMarket_eq_ok_iff {parseJson : String → Except String (List String)} {m : GammaMarket}
    {eventSlug : String} {d : DiscoveredMarket} :
    tryConvertMarket parseJson m eventSlug = .ok d ↔
      ∃ firstOutcome secondOutcome firstTokenId secondTokenId,
        m.parseOutcomes parseJson = .ok [firstOutcome, secondOutcome] ∧
        m.parseTokenIds parseJson = .ok [firstTokenId, secondTokenId] ∧
        d = m.discovered eventSlug firstOutcome secondOutcome firstTokenId secondTokenId := by
  unfold tryConvertMarket
  constructor
  · intro h
    split at h
    · cases h
    · rename_i firstOutcome secondOutcome houtcomes
      split at h
      · cases h
      · rename_i firstTokenId secondTokenId htokens
        cases h
        exact ⟨_, _, _, _, houtcomes, htokens, rfl⟩
      · cases h
    · cases h
  · rintro ⟨_, _, _, _, houtcomes, htokens, rfl⟩
    simp only [houtcomes, htokens]

/-- A classified market is oriented exactly when its first label is Yes or Up, or it has one token only. -/
theorem oriented_discovered_iff (m : GammaMarket) (eventSlug : String) {first second : String}
    (hclass : classifyOutcomes first second ≠ .Other) (firstTokenId secondTokenId : TokenId) :
    Oriented (m.discovered eventSlug first second firstTokenId secondTokenId).toMarketPair
        [(first, firstTokenId), (second, secondTokenId)] ↔
      PositiveLabel first ∨ firstTokenId = secondTokenId := by
  have hyes : (m.discovered eventSlug first second firstTokenId secondTokenId).toMarketPair.yesTokenId = firstTokenId :=
    rfl
  have hno : (m.discovered eventSlug first second firstTokenId secondTokenId).toMarketPair.noTokenId = secondTokenId :=
    rfl
  simp only [Oriented, List.forall_mem_cons, hyes, hno]
  rcases labels_of_classified hclass with ⟨hfirst, hsecond⟩ | ⟨hfirst, hsecond⟩
  · have hfirst' := not_negative_of_positive hfirst
    have hsecond' : ¬PositiveLabel second := fun h => not_negative_of_positive h hsecond
    simp [hfirst, hfirst', hsecond']
  · have hfirst' : ¬PositiveLabel first := fun h => not_negative_of_positive h hfirst
    have hsecond' := not_negative_of_positive hsecond
    simp [hfirst, hfirst', hsecond, hsecond', eq_comm]

/-- A market that is discovered as Yes/No or Up/Down becomes an oriented pair exactly when its first label is the
positive one, or both of its tokens are the same. -/
theorem discovered_market_oriented_iff (parseJson : String → Except String (List String)) (m : GammaMarket)
    (eventSlug : String) (d : DiscoveredMarket) (hd : tryConvertMarket parseJson m eventSlug = .ok d)
    (hclass : d.outcomeType ≠ .Other) :
    ∃ first second firstTokenId secondTokenId, m.parseOutcomes parseJson = .ok [first, second] ∧
      m.parseTokenIds parseJson = .ok [firstTokenId, secondTokenId] ∧
      (Oriented d.toMarketPair [(first, firstTokenId), (second, secondTokenId)] ↔
        PositiveLabel first ∨ firstTokenId = secondTokenId) := by
  obtain ⟨first, second, firstTokenId, secondTokenId, houtcomes, htokens, rfl⟩ := tryConvertMarket_eq_ok_iff.mp hd
  exact ⟨_, _, _, _, houtcomes, htokens, oriented_discovered_iff m eventSlug hclass firstTokenId secondTokenId⟩

private def listed (text : String) : Except String (List String) :=
  if text = "[\"Yes\", \"No\"]" then .ok ["Yes", "No"]
  else if text = "[\"Down\", \"Up\"]" then .ok ["Down", "Up"]
  else if text = "[\"1001\", \"1002\"]" then .ok ["1001", "1002"]
  else .error "expected value at line 1 column 1"

private def market (outcomes : String) : GammaMarket :=
  ⟨"0x1", "BTC up or down?", outcomes, "[\"1001\", \"1002\"]", none⟩

theorem yes_first_is_oriented :
    ∃ first second firstTokenId secondTokenId,
      (market "[\"Yes\", \"No\"]").parseOutcomes listed = .ok [first, second] ∧
      (market "[\"Yes\", \"No\"]").parseTokenIds listed = .ok [firstTokenId, secondTokenId] ∧
      Oriented ((market "[\"Yes\", \"No\"]").discovered "btc" "Yes" "No" "1001" "1002").toMarketPair
        [(first, firstTokenId), (second, secondTokenId)] := by
  obtain ⟨first, second, firstTokenId, secondTokenId, houtcomes, htokens, hiff⟩ :=
    discovered_market_oriented_iff listed (market "[\"Yes\", \"No\"]") "btc"
      ((market "[\"Yes\", \"No\"]").discovered "btc" "Yes" "No" "1001" "1002") (by decide +kernel) (by decide +kernel)
  have hlabels : (.ok [first, second] : Except BotError (List String)) = .ok ["Yes", "No"] := houtcomes.symm
  cases hlabels
  exact ⟨_, _, _, _, houtcomes, htokens, hiff.mpr (.inl (by decide +kernel))⟩

/-- Listed as Down and Up, the token of Down becomes the first token of the pair. -/
theorem down_first_is_reversed :
    tryConvertMarket listed (market "[\"Down\", \"Up\"]") "btc" =
        .ok ((market "[\"Down\", \"Up\"]").discovered "btc" "Down" "Up" "1001" "1002") ∧
      ((market "[\"Down\", \"Up\"]").discovered "btc" "Down" "Up" "1001" "1002").outcomeType = .UpDown ∧
      ¬Oriented ((market "[\"Down\", \"Up\"]").discovered "btc" "Down" "Up" "1001" "1002").toMarketPair
        [("Down", "1001"), ("Up", "1002")] := by
  refine ⟨by decide +kernel, by decide +kernel, fun h => ?_⟩
  have hup := (h ("Up", "1002") (by simp)).1 (by decide +kernel)
  exact absurd hup (by decide +kernel)

end Discovery

end PolyBot
