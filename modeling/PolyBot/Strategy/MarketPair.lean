import PolyBot.General.KeyedStore
import PolyBot.Types

namespace PolyBot
open General.KeyedStore

structure MarketPair where
  conditionId : ConditionId
  yesTokenId : TokenId
  noTokenId : TokenId
  feeRateBps : ℕ
  tickSize : Decimal
  deriving DecidableEq, Repr

namespace MarketPair

def new (conditionId : ConditionId) (yesTokenId noTokenId : TokenId) : MarketPair :=
  ⟨conditionId, yesTokenId, noTokenId, 0, 1 / 100⟩

def newUpDown (conditionId : ConditionId) (upTokenId downTokenId : TokenId) : MarketPair :=
  ⟨conditionId, upTokenId, downTokenId, 1000, 1 / 100⟩

def withFeeRate (p : MarketPair) (feeRateBps : ℕ) : MarketPair := { p with feeRateBps := feeRateBps }

/-- Markets with taker fees. -/
def isCrypto15min (p : MarketPair) : Bool := 100 ≤ p.feeRateBps

def complement (p : MarketPair) (tokenId : TokenId) : Option TokenId :=
  if tokenId = p.yesTokenId then some p.noTokenId
  else if tokenId = p.noTokenId then some p.yesTokenId
  else none

def contains (p : MarketPair) (tokenId : TokenId) : Bool := tokenId = p.yesTokenId ∨ tokenId = p.noTokenId

end MarketPair

structure MarketPairRegistry where
  byCondition : Store ConditionId MarketPair
  byToken : Store TokenId MarketPair

namespace MarketPairRegistry

def new : MarketPairRegistry := ⟨∅, ∅⟩

def register (r : MarketPairRegistry) (pair : MarketPair) : MarketPairRegistry where
  byCondition := r.byCondition.insert pair.conditionId pair
  byToken := (r.byToken.insert pair.yesTokenId pair).insert pair.noTokenId pair

def unregister (r : MarketPairRegistry) (conditionId : ConditionId) : MarketPairRegistry :=
  match r.byCondition.lookup conditionId with
  | none => r
  | some pair => ⟨r.byCondition.erase conditionId, (r.byToken.erase pair.yesTokenId).erase pair.noTokenId⟩

def getByCondition (r : MarketPairRegistry) (conditionId : ConditionId) : Option MarketPair :=
  r.byCondition.lookup conditionId

def getByToken (r : MarketPairRegistry) (tokenId : TokenId) : Option MarketPair := r.byToken.lookup tokenId

def getComplement (r : MarketPairRegistry) (tokenId : TokenId) : Option TokenId :=
  (r.byToken.lookup tokenId).bind fun pair => pair.complement tokenId

def clear (_ : MarketPairRegistry) : MarketPairRegistry := ⟨∅, ∅⟩

def allPairs (r : MarketPairRegistry) : List MarketPair := values r.byCondition

def allConditionIds (r : MarketPairRegistry) : List ConditionId := r.byCondition.keys

def Keyed (r : MarketPairRegistry) : Prop :=
  ∀ conditionId pair, r.byCondition.lookup conditionId = some pair → pair.conditionId = conditionId

theorem keyed_new : Keyed .new := by
  intro conditionId pair h
  simp [new] at h

theorem Keyed.register {r : MarketPairRegistry} (h : r.Keyed) (pair : MarketPair) : (r.register pair).Keyed := by
  intro conditionId other hlookup
  exact forall_lookup_insert h rfl hlookup

theorem byCondition_unregister (r : MarketPairRegistry) (conditionId : ConditionId) :
    (r.unregister conditionId).byCondition = r.byCondition.erase conditionId := by
  unfold unregister
  split
  · rename_i hnone
    apply AList.ext
    exact (List.kerase_of_notMem_keys (AList.lookup_eq_none.mp hnone)).symm
  · rfl

theorem Keyed.unregister {r : MarketPairRegistry} (h : r.Keyed) (conditionId : ConditionId) :
    (r.unregister conditionId).Keyed := by
  intro other pair hlookup
  rw [byCondition_unregister] at hlookup
  exact h other pair (lookup_of_lookup_erase hlookup)

theorem mem_allConditionIds_register {r : MarketPairRegistry} {pair : MarketPair} {conditionId : ConditionId} :
    conditionId ∈ (r.register pair).allConditionIds ↔
      conditionId = pair.conditionId ∨ conditionId ∈ r.allConditionIds :=
  AList.mem_insert _

theorem mem_allConditionIds_unregister {r : MarketPairRegistry} {conditionId other : ConditionId} :
    other ∈ (r.unregister conditionId).allConditionIds ↔ other ≠ conditionId ∧ other ∈ r.allConditionIds := by
  rw [allConditionIds, byCondition_unregister]
  exact AList.mem_erase

theorem mem_allConditionIds_foldl_register {pairs : List MarketPair} {r : MarketPairRegistry}
    {conditionId : ConditionId} :
    conditionId ∈ (pairs.foldl register r).allConditionIds ↔
      conditionId ∈ r.allConditionIds ∨ conditionId ∈ pairs.map (·.conditionId) := by
  induction pairs generalizing r with
  | nil => simp
  | cons pair pairs ih =>
    rw [List.foldl_cons, ih, mem_allConditionIds_register, List.map_cons, List.mem_cons]
    tauto

theorem mem_allConditionIds_foldl_unregister {ids : List ConditionId} {r : MarketPairRegistry}
    {conditionId : ConditionId} :
    conditionId ∈ (ids.foldl unregister r).allConditionIds ↔ conditionId ∈ r.allConditionIds ∧ conditionId ∉ ids := by
  induction ids generalizing r with
  | nil => simp
  | cons id ids ih =>
    rw [List.foldl_cons, ih, mem_allConditionIds_unregister, List.mem_cons]
    tauto

/-- The pair registered last for a condition is the one that is found. -/
theorem getByCondition_foldl_register (pairs : List MarketPair) (r : MarketPairRegistry) (conditionId : ConditionId) :
    (pairs.foldl register r).getByCondition conditionId =
      (pairs.reverse.find? (·.conditionId = conditionId)).or (r.getByCondition conditionId) := by
  induction pairs generalizing r with
  | nil => rfl
  | cons pair pairs ih =>
    rw [List.foldl_cons, ih, List.reverse_cons, List.find?_append, Option.or_assoc]
    congr 1
    by_cases hid : pair.conditionId = conditionId
    · subst hid
      simp [getByCondition, register]
    · simp [getByCondition, register, hid, AList.lookup_insert_ne (Ne.symm hid)]

theorem getByCondition_foldl_unregister (ids : List ConditionId) (r : MarketPairRegistry) (conditionId : ConditionId) :
    (ids.foldl unregister r).getByCondition conditionId =
      if conditionId ∈ ids then none else r.getByCondition conditionId := by
  induction ids generalizing r with
  | nil => rfl
  | cons id ids ih =>
    rw [List.foldl_cons, ih, getByCondition, byCondition_unregister]
    by_cases hid : conditionId = id
    · subst hid
      simp [AList.lookup_erase]
    · simp [hid, AList.lookup_erase_ne hid, getByCondition]

theorem mem_allConditionIds {r : MarketPairRegistry} {conditionId : ConditionId} :
    conditionId ∈ r.allConditionIds ↔ ∃ pair, r.getByCondition conditionId = some pair :=
  AList.lookup_isSome.symm.trans Option.isSome_iff_exists

theorem Keyed.mem_allConditionIds_iff {r : MarketPairRegistry} (h : r.Keyed) {conditionId : ConditionId} :
    conditionId ∈ r.allConditionIds ↔ ∃ pair ∈ r.allPairs, pair.conditionId = conditionId := by
  rw [mem_allConditionIds]
  constructor
  · rintro ⟨pair, hlookup⟩
    exact ⟨pair, mem_values_iff.mpr ⟨conditionId, hlookup⟩, h conditionId pair hlookup⟩
  · rintro ⟨pair, hpair, rfl⟩
    obtain ⟨key, hlookup⟩ := mem_values_iff.mp hpair
    exact ⟨pair, h key pair hlookup ▸ hlookup⟩

end MarketPairRegistry

end PolyBot
