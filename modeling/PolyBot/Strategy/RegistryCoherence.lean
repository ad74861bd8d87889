import PolyBot.General.AdditiveRuns
import PolyBot.General.LinkedIndex
import PolyBot.Strategy.MarketPair

/-! Whether the two maps of the registry tell of the same pairs. -/

namespace PolyBot.MarketPairRegistry
open General.AdditiveRuns General.LinkedIndex

inductive RegistryOp where
  | register (pair : MarketPair)
  | unregister (conditionId : ConditionId)
  | clear
  deriving DecidableEq, Repr

def apply (r : MarketPairRegistry) : RegistryOp → MarketPairRegistry
  | .register pair => r.register pair
  | .unregister conditionId => r.unregister conditionId
  | .clear => r.clear

/-- A token leads to the pair that is registered with it, and the complement of a complement is the token. -/
structure Coherent (r : MarketPairRegistry) : Prop where
  tokens : ∀ tokenId pair, r.getByToken tokenId = some pair ↔
    r.getByCondition pair.conditionId = some pair ∧ pair.contains tokenId = true
  complements : ∀ tokenId other, r.getComplement tokenId = some other → r.getComplement other = some tokenId

/-- A pair may be registered when it has all the tokens of the pair it replaces and none of another condition's. -/
def Fits (r : MarketPairRegistry) : RegistryOp → Prop
  | .register pair =>
    (∀ old, r.getByCondition pair.conditionId = some old →
      ∀ tokenId, old.contains tokenId = true → pair.contains tokenId = true) ∧
    ∀ other, r.getByCondition other.conditionId = some other → other.conditionId ≠ pair.conditionId →
      ∀ tokenId, other.contains tokenId = true → pair.contains tokenId = false
  | .unregister _ => True
  | .clear => True

def tokensOf (pair : MarketPair) : List TokenId := [pair.yesTokenId, pair.noTokenId]

theorem mem_tokensOf_iff {pair : MarketPair} {tokenId : TokenId} :
    tokenId ∈ tokensOf pair ↔ pair.contains tokenId = true := by
  simp [tokensOf, MarketPair.contains]

def Indexed (r : MarketPairRegistry) : Prop := Agree MarketPair.conditionId tokensOf r.byCondition r.byToken

/-- The other token of a pair is one of its own, and the other way round. -/
theorem complement_complement {pair : MarketPair} {tokenId other : TokenId}
    (h : pair.complement tokenId = some other) :
    pair.contains other = true ∧ pair.complement other = some tokenId := by
  unfold MarketPair.complement at h
  split at h
  · rename_i hyes
    cases h
    refine ⟨by simp [MarketPair.contains], ?_⟩
    unfold MarketPair.complement
    split
    · rename_i hsame
      rw [hyes, hsame]
    · rw [if_pos rfl, hyes]
  · split at h
    · rename_i hno
      cases h
      exact ⟨by simp [MarketPair.contains], by rw [MarketPair.complement, if_pos rfl, hno]⟩
    · cases h

theorem Indexed.coherent {r : MarketPairRegistry} (h : r.Indexed) : r.Coherent := by
  have htokens : ∀ tokenId pair, r.getByToken tokenId = some pair ↔
      r.getByCondition pair.conditionId = some pair ∧ pair.contains tokenId = true := fun tokenId pair => by
    rw [← mem_tokensOf_iff]
    exact h.linked tokenId pair
  refine ⟨htokens, fun tokenId other hother => ?_⟩
  obtain ⟨pair, hpair, hcomplement⟩ := Option.bind_eq_some_iff.mp hother
  obtain ⟨hcontains, hback⟩ := complement_complement hcomplement
  have hsame : r.byToken.lookup other = some pair := (htokens other pair).mpr ⟨((htokens _ _).mp hpair).1, hcontains⟩
  rw [getComplement, hsame, Option.bind_some, hback]

theorem indexed_iff {r : MarketPairRegistry} (hkeyed : r.Keyed) : r.Indexed ↔ r.Coherent := by
  refine ⟨Indexed.coherent, fun h => ⟨hkeyed, fun tokenId pair => ?_⟩⟩
  rw [mem_tokensOf_iff]
  exact h.tokens tokenId pair

theorem indexed_new : Indexed .new := agree_empty

theorem Indexed.unregister {r : MarketPairRegistry} (h : r.Indexed) (conditionId : ConditionId) :
    (r.unregister conditionId).Indexed := by
  unfold MarketPairRegistry.unregister
  split
  · exact h
  · rename_i pair hpair
    exact h.erase hpair

theorem fits_register_iff (r : MarketPairRegistry) (pair : MarketPair) :
    General.LinkedIndex.Fits MarketPair.conditionId tokensOf r.byCondition pair ↔ r.Fits (.register pair) := by
  simp only [General.LinkedIndex.Fits, Fits, mem_tokensOf_iff, Bool.not_eq_true]
  exact Iff.rfl

/-- An operation keeps the two maps in agreement exactly when what it registers fits. -/
theorem Indexed.apply_iff {r : MarketPairRegistry} (h : r.Indexed) (op : RegistryOp) :
    (r.apply op).Indexed ↔ r.Fits op := by
  cases op with
  | register pair => exact (h.insert_iff pair).trans (fits_register_iff r pair)
  | unregister conditionId => exact iff_of_true (h.unregister conditionId) trivial
  | clear => exact iff_of_true agree_empty trivial

theorem keyed_apply {r : MarketPairRegistry} (h : r.Keyed) (op : RegistryOp) : (r.apply op).Keyed := by
  cases op with
  | register pair => exact h.register pair
  | unregister conditionId => exact h.unregister conditionId
  | clear => exact keyed_new

/-- The registry stays coherent exactly when every pair fits at the time it is registered. -/
theorem coherent_iff (ops : List RegistryOp) :
    (∀ p, p <+: ops → (p.foldl apply .new).Coherent) ↔ Throughout apply Fits .new ops := by
  have hkeyed : ∀ p : List RegistryOp, (p.foldl apply .new).Keyed := fun p => by
    induction p using List.reverseRecOn with
    | nil => exact keyed_new
    | append_singleton p op ih =>
      rw [List.foldl_append]
      exact keyed_apply ih op
  simp only [← indexed_iff (hkeyed _)]
  rw [forall_prefix_iff, and_iff_right indexed_new]
  exact throughout_congr Indexed (fun _ _ _ hafter => hafter) (fun _ op h => h.apply_iff op) indexed_new

private def renewed : List RegistryOp := [.register (.new "c1" "a" "b"), .register (.new "c1" "d" "e")]
private def shared : List RegistryOp := [.register (.new "c1" "a" "b"), .register (.new "c2" "b" "d")]

/-- A condition that is registered again leaves its old tokens behind; a token of two conditions breaks complements. -/
theorem stale_tokens :
    (renewed.foldl apply .new).getByToken "a" = some (.new "c1" "a" "b") ∧
      (renewed.foldl apply .new).getByCondition "c1" = some (.new "c1" "d" "e") ∧
      ¬(renewed.foldl apply .new).Coherent ∧
      (shared.foldl apply .new).getComplement "a" = some "b" ∧
      (shared.foldl apply .new).getComplement "b" = some "d" ∧
      ¬(shared.foldl apply .new).Coherent := by
  have hstale : (renewed.foldl apply .new).getByToken "a" = some (.new "c1" "a" "b") := by decide +kernel
  have hcurrent : (renewed.foldl apply .new).getByCondition "c1" = some (.new "c1" "d" "e") := by decide +kernel
  have hab : (shared.foldl apply .new).getComplement "a" = some "b" := by decide +kernel
  have hbd : (shared.foldl apply .new).getComplement "b" = some "d" := by decide +kernel
  refine ⟨hstale, hcurrent, fun h => ?_, hab, hbd, fun h => ?_⟩
  · have hnow := ((h.tokens _ _).mp hstale).1
    exact absurd (hcurrent.symm.trans hnow) (by decide +kernel)
  · exact absurd (hbd.symm.trans (h.complements _ _ hab)) (by decide)

end PolyBot.MarketPairRegistry
