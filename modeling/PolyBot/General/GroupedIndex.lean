import Mathlib.Data.Finset.Insert
import Mathlib.Data.Finset.Erase
import PolyBot.General.KeyedStore

/-! The keys of a store, filed under a group that some of the values have. -/

namespace PolyBot.General.GroupedIndex
open General.KeyedStore

variable {κ ι α : Type*} [DecidableEq κ] [DecidableEq ι]

def keysAt (index : Store ι (Finset κ)) (x : ι) : Finset κ := (index.lookup x).getD ∅

def file (x : ι) (k : κ) (index : Store ι (Finset κ)) : Store ι (Finset κ) :=
  index.insert x (insert k (keysAt index x))

def unfile (x : ι) (k : κ) (index : Store ι (Finset κ)) : Store ι (Finset κ) := modify x (·.erase k) index

def fileIn : Option ι → κ → Store ι (Finset κ) → Store ι (Finset κ)
  | none, _, index => index
  | some x, k, index => file x k index

def unfileIn : Option ι → κ → Store ι (Finset κ) → Store ι (Finset κ)
  | none, _, index => index
  | some x, k, index => unfile x k index

def Exact (group : α → Option ι) (primary : Store κ α) (index : Store ι (Finset κ)) : Prop :=
  ∀ x k, k ∈ keysAt index x ↔ (primary.lookup k).bind group = some x

theorem keysAt_fileIn (y : Option ι) (k : κ) (index : Store ι (Finset κ)) (x : ι) :
    keysAt (fileIn y k index) x = if y = some x then insert k (keysAt index x) else keysAt index x := by
  cases y with
  | none => rfl
  | some y =>
    unfold fileIn file keysAt
    by_cases hxy : x = y
    · subst hxy
      rw [AList.lookup_insert, if_pos rfl, Option.getD_some]
    · rw [AList.lookup_insert_ne hxy, if_neg fun h => hxy (Option.some.inj h).symm]

theorem keysAt_unfileIn (y : Option ι) (k : κ) (index : Store ι (Finset κ)) (x : ι) :
    keysAt (unfileIn y k index) x = if y = some x then (keysAt index x).erase k else keysAt index x := by
  cases y with
  | none => rfl
  | some y =>
    unfold unfileIn unfile keysAt
    by_cases hxy : x = y
    · subst hxy
      rw [lookup_modify_self, if_pos rfl]
      cases index.lookup x <;> simp
    · rw [lookup_modify_ne hxy, if_neg fun h => hxy (Option.some.inj h).symm]

variable {group : α → Option ι} {primary : Store κ α} {index : Store ι (Finset κ)}

theorem exact_empty (group : α → Option ι) : Exact group (∅ : Store κ α) (∅ : Store ι (Finset κ)) := by
  intro x k
  simp [keysAt]

/-- A new key is filed under the group of its value. -/
theorem Exact.insert (h : Exact group primary index) {k : κ} (hnew : primary.lookup k = none) (a : α) :
    Exact group (primary.insert k a) (fileIn (group a) k index) := by
  intro x j
  have hold : k ∉ keysAt index x := by
    rw [h, hnew]
    nofun
  by_cases hjk : j = k
  · subst hjk
    rw [keysAt_fileIn, AList.lookup_insert, Option.bind_some]
    split
    · rename_i hx
      exact iff_of_true (Finset.mem_insert_self _ _) hx
    · rename_i hx
      exact iff_of_false hold hx
  · rw [keysAt_fileIn, AList.lookup_insert_ne hjk, ← h]
    split
    · rw [Finset.mem_insert, or_iff_right hjk]
    · rfl

/-- A key that goes leaves its group. -/
theorem Exact.erase (h : Exact group primary index) {k : κ} {a : α} (hk : primary.lookup k = some a) :
    Exact group (primary.erase k) (unfileIn (group a) k index) := by
  intro x j
  by_cases hjk : j = k
  · subst hjk
    rw [keysAt_unfileIn, AList.lookup_erase, Option.bind_none]
    refine iff_of_false ?_ nofun
    split
    · exact Finset.notMem_erase _ _
    · rename_i hx
      rw [h, hk, Option.bind_some]
      exact hx
  · rw [keysAt_unfileIn, AList.lookup_erase_ne hjk, ← h]
    split
    · rw [Finset.mem_erase, and_iff_right hjk]
    · rfl

/-- A value may change under its key as long as its group does not. -/
theorem Exact.replace (h : Exact group primary index) {k : κ} {a b : α} (hk : primary.lookup k = some a)
    (hgroup : group b = group a) : Exact group (primary.insert k b) index := by
  intro x j
  rw [h]
  by_cases hjk : j = k
  · subst hjk
    rw [AList.lookup_insert, hk, Option.bind_some, Option.bind_some, hgroup]
  · rw [AList.lookup_insert_ne hjk]

/-- Looking through a group for a value is looking through the values of the group. -/
theorem Exact.exists_keysAt_iff (h : Exact group primary index) (x : ι) (p : α → Prop) :
    (∃ k ∈ keysAt index x, ∃ a, primary.lookup k = some a ∧ p a) ↔
      ∃ a ∈ values primary, group a = some x ∧ p a := by
  constructor
  · rintro ⟨k, hmem, a, hk, hp⟩
    rw [h, hk, Option.bind_some] at hmem
    exact ⟨a, mem_values_iff.mpr ⟨k, hk⟩, hmem, hp⟩
  · rintro ⟨a, hmem, hx, hp⟩
    obtain ⟨k, hk⟩ := mem_values_iff.mp hmem
    refine ⟨k, ?_, a, hk, hp⟩
    rw [h, hk, Option.bind_some]
    exact hx

end PolyBot.General.GroupedIndex
