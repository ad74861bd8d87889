import Mathlib.Algebra.BigOperators.Group.List.Basic
import Mathlib.Data.Finset.Dedup
import Mathlib.Data.Finset.Lattice.Lemmas
import Mathlib.Data.List.Basic

/-! Folds of a step function that ignores an input whose key it has already accepted. -/

namespace PolyBot.General.Replay

variable {σ α κ : Type*} [DecidableEq κ]

/-- The elements of a list whose key is neither in `seen` nor carried by an earlier element. -/
def fresh (key : α → κ) : Finset κ → List α → List α
  | _, [] => []
  | seen, a :: l =>
    if key a ∈ seen then fresh key seen l else a :: fresh key (insert (key a) seen) l

def firstOccurrences (key : α → κ) (l : List α) : List α := fresh key ∅ l

/-- A step function that accepts each key once: it records the key, and changes nothing when the
key is already recorded. -/
structure Deduplicates (key : α → κ) (seen : σ → Finset κ) (step : σ → α → σ) : Prop where
  records : ∀ s a, seen (step s a) = insert (key a) (seen s)
  ignores : ∀ s a, key a ∈ seen s → step s a = s

variable {key : α → κ} {seen : σ → Finset κ} {step : σ → α → σ}

theorem fresh_cons_of_mem {S : Finset κ} {a : α} {l : List α} (h : key a ∈ S) :
    fresh key S (a :: l) = fresh key S l := by
  rw [fresh, if_pos h]

theorem fresh_cons_of_notMem {S : Finset κ} {a : α} {l : List α} (h : key a ∉ S) :
    fresh key S (a :: l) = a :: fresh key (insert (key a) S) l := by
  rw [fresh, if_neg h]

theorem fresh_append (S : Finset κ) (l l' : List α) :
    fresh key S (l ++ l') = fresh key S l ++ fresh key (S ∪ (l.map key).toFinset) l' := by
  induction l generalizing S with
  | nil => simp [fresh]
  | cons a l ih =>
    rw [List.cons_append, List.map_cons, List.toFinset_cons, Finset.union_insert, ← Finset.insert_union]
    by_cases ha : key a ∈ S
    · rw [fresh_cons_of_mem ha, fresh_cons_of_mem ha, ih, Finset.insert_eq_of_mem ha]
    · rw [fresh_cons_of_notMem ha, fresh_cons_of_notMem ha, ih, List.cons_append]

/-- The last element is a first occurrence unless its key has come before. -/
theorem firstOccurrences_concat (l : List α) (a : α) :
    firstOccurrences key (l ++ [a]) = firstOccurrences key l ++ if key a ∈ l.map key then [] else [a] := by
  rw [firstOccurrences, fresh_append, Finset.empty_union]
  congr 1
  by_cases ha : key a ∈ l.map key
  · rw [fresh_cons_of_mem (List.mem_toFinset.mpr ha), if_pos ha]
    rfl
  · rw [fresh_cons_of_notMem (mt List.mem_toFinset.mp ha), if_neg ha]
    rfl

/-- Dropping the inputs whose key was recorded at the start, and every repetition, does not change
the state a fold reaches. -/
theorem Deduplicates.foldl_fresh (h : Deduplicates key seen step) (s : σ) (l : List α) {S : Finset κ}
    (hS : S ⊆ seen s) : l.foldl step s = (fresh key S l).foldl step s := by
  induction l generalizing s S with
  | nil => rfl
  | cons a l ih =>
    by_cases ha : key a ∈ S
    · rw [fresh_cons_of_mem ha, List.foldl_cons, h.ignores s a (hS ha)]
      exact ih s hS
    · rw [fresh_cons_of_notMem ha, List.foldl_cons, List.foldl_cons]
      apply ih
      rw [h.records]
      exact Finset.insert_subset_insert _ hS

theorem Deduplicates.foldl_firstOccurrences (h : Deduplicates key seen step) (s : σ) (l : List α) :
    l.foldl step s = (firstOccurrences key l).foldl step s :=
  h.foldl_fresh s l (Finset.empty_subset _)

/-- Inputs with keys of their own are all first occurrences. -/
theorem fresh_of_nodup {S : Finset κ} {l : List α} (hnew : ∀ a ∈ l, key a ∉ S) (h : (l.map key).Nodup) :
    fresh key S l = l := by
  induction l generalizing S with
  | nil => rfl
  | cons a l ih =>
    obtain ⟨ha, hl⟩ := List.nodup_cons.mp h
    rw [fresh_cons_of_notMem (hnew a List.mem_cons_self), ih ?_ hl]
    intro b hb hmem
    rcases Finset.mem_insert.mp hmem with heq | hold
    · exact ha (heq ▸ List.mem_map_of_mem hb)
    · exact hnew b (List.mem_cons_of_mem a hb) hold

/-- A measure to which every accepted input adds its contribution, in the states that an invariant allows, ends with
the contributions of the first occurrences added. -/
theorem Deduplicates.measure_foldl {M : Type*} [AddMonoid M] (h : Deduplicates key seen step) (Inv : σ → Prop)
    (measure : σ → M) {contribution : α → M} (hkeep : ∀ s a, Inv s → key a ∉ seen s → Inv (step s a))
    (hadd : ∀ s a, Inv s → key a ∉ seen s → measure (step s a) = measure s + contribution a) (s : σ) (l : List α)
    (hs : Inv s) : measure (l.foldl step s) = measure s + ((fresh key (seen s) l).map contribution).sum := by
  induction l generalizing s with
  | nil => simp [fresh]
  | cons a l ih =>
    by_cases ha : key a ∈ seen s
    · rw [fresh_cons_of_mem ha, List.foldl_cons, h.ignores s a ha]
      exact ih s hs
    · rw [fresh_cons_of_notMem ha, List.foldl_cons, ih _ (hkeep s a hs ha), h.records, hadd s a hs ha, List.map_cons,
        List.sum_cons, add_assoc]

end PolyBot.General.Replay
