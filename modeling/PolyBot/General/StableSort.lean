import Mathlib.Data.List.Sort

/-! Stable sorts in descending order of a rank, and what fixes their result. -/

namespace PolyBot.General.StableSort

variable {α ε κ : Type*}

section Insertion
variable {s : ε → ε → Prop} [DecidableRel s] {l : List ε}

/-- Insertion sort leaves the entries of one rank in their order. -/
theorem filter_insertionSort [Std.Total s] [IsTrans ε s] {p : ε → Bool} (hp : ∀ a b, p a → p b → s a b) :
    (l.insertionSort s).filter p = l.filter p := by
  have hsub : (l.filter p).Sublist (l.insertionSort s) := by
    refine List.sublist_insertionSort ?_ List.filter_sublist
    exact List.pairwise_of_forall_mem_list fun a ha b hb => hp a b (List.mem_filter.mp ha).2 (List.mem_filter.mp hb).2
  have hfilter := hsub.filter p
  rw [List.filter_filter, funext fun a => Bool.and_self (p a)] at hfilter
  exact (hfilter.eq_of_length ((List.perm_insertionSort s l).filter p).length_eq.symm).symm

/-- What holds of the entries of one rank in their order holds of them after the sort. -/
theorem pairwise_insertionSort_of_rank [Std.Total s] [IsTrans ε s] {p : ε → Bool} {q : ε → ε → Prop}
    (hp : ∀ a b, p a → p b → s a b) (hq : l.Pairwise q) :
    (l.insertionSort s).Pairwise fun a b => p a → p b → q a b := by
  rw [← List.pairwise_filter, filter_insertionSort hp]
  exact hq.filter p

end Insertion

/-- The first entry after a sort by a value has the value that comes before all. -/
theorem head_insertionSort_iff (f : ε → κ) (r : κ → κ → Prop) [DecidableRel r] [Std.Total r] [IsTrans κ r]
    [Std.Antisymm r] (l : List ε) {k : κ} :
    (l.insertionSort fun a b => r (f a) (f b)).head?.map f = some k ↔ (∃ a ∈ l, f a = k) ∧ ∀ a ∈ l, r k (f a) := by
  have htotal : Std.Total fun a b : ε => r (f a) (f b) := ⟨fun a b => total_of r (f a) (f b)⟩
  have htrans : IsTrans ε fun a b => r (f a) (f b) := ⟨fun _ _ _ hab hbc => trans_of r hab hbc⟩
  have hsorted := List.pairwise_insertionSort (fun a b => r (f a) (f b)) l
  have hperm := List.perm_insertionSort (fun a b => r (f a) (f b)) l
  cases h : l.insertionSort fun a b => r (f a) (f b) with
  | nil =>
    rw [h] at hperm
    simp [List.nil_perm.mp hperm]
  | cons first rest =>
    rw [h] at hsorted hperm
    have hmem : first ∈ l := hperm.subset List.mem_cons_self
    have hfirst : ∀ a ∈ l, r (f first) (f a) := by
      intro a ha
      rcases List.mem_cons.mp (hperm.symm.subset ha) with rfl | hrest
      · exact refl_of r _
      · exact List.rel_of_pairwise_cons hsorted hrest
    rw [List.head?_cons, Option.map_some, Option.some_inj]
    constructor
    · rintro rfl
      exact ⟨⟨first, hmem, rfl⟩, hfirst⟩
    · rintro ⟨⟨a, ha, rfl⟩, hall⟩
      exact antisymm_of r (hfirst a ha) (hall first hmem)

variable [LinearOrder κ] {rank : ε → κ} {l l' sorted sorted' : List ε}

/-- `sorted` has the entries of `l` in descending order, those of one rank as they stand in `l`. -/
structure IsStableSort (rank : ε → κ) (l sorted : List ε) : Prop where
  perm : sorted.Perm l
  descending : sorted.Pairwise fun a b => rank b ≤ rank a
  stable : ∀ k, sorted.filter (rank · = k) = l.filter (rank · = k)

theorem isStableSort_insertionSort (rank : ε → κ) (l : List ε) :
    IsStableSort rank l (l.insertionSort fun a b => rank b ≤ rank a) := by
  have htotal : Std.Total fun a b : ε => rank b ≤ rank a := ⟨fun a b => le_total (rank b) (rank a)⟩
  have htrans : IsTrans ε fun a b => rank b ≤ rank a := ⟨fun _ _ _ hab hbc => hbc.trans hab⟩
  refine ⟨List.perm_insertionSort _ l, List.pairwise_insertionSort _ l, fun k => ?_⟩
  refine filter_insertionSort fun a b ha hb => ?_
  rw [of_decide_eq_true ha, of_decide_eq_true hb]

/-- A list in descending order is fixed by its entries of each rank. -/
theorem eq_of_descending (h : l.Pairwise fun a b => rank b ≤ rank a) (h' : l'.Pairwise fun a b => rank b ≤ rank a)
    (hsame : ∀ k, l.filter (rank · = k) = l'.filter (rank · = k)) : l = l' := by
  induction l generalizing l' with
  | nil =>
    refine (List.eq_nil_iff_forall_not_mem.mpr fun b hb => ?_).symm
    have hnone := hsame (rank b)
    rw [List.filter_nil] at hnone
    exact List.filter_eq_nil_iff.mp hnone.symm b hb (decide_eq_true rfl)
  | cons a l ih =>
    cases l' with
    | nil =>
      have hnone := hsame (rank a)
      rw [List.filter_nil] at hnone
      exact absurd (decide_eq_true rfl) (List.filter_eq_nil_iff.mp hnone a List.mem_cons_self)
    | cons b l' =>
      obtain ⟨hle, hl⟩ := List.pairwise_cons.mp h
      obtain ⟨hle', hl'⟩ := List.pairwise_cons.mp h'
      -- both heads have the highest rank
      have hab : rank a ≤ rank b := by
        have hmem : a ∈ (b :: l').filter (rank · = rank a) := by
          rw [← hsame (rank a)]
          exact List.mem_filter.mpr ⟨List.mem_cons_self, decide_eq_true rfl⟩
        rcases List.mem_cons.mp (List.mem_of_mem_filter hmem) with rfl | ha
        · exact le_rfl
        · exact hle' a ha
      have hba : rank b ≤ rank a := by
        have hmem : b ∈ (a :: l).filter (rank · = rank b) := by
          rw [hsame (rank b)]
          exact List.mem_filter.mpr ⟨List.mem_cons_self, decide_eq_true rfl⟩
        rcases List.mem_cons.mp (List.mem_of_mem_filter hmem) with rfl | hb
        · exact le_rfl
        · exact hle b hb
      have hrank : rank b = rank a := le_antisymm hba hab
      have hheads := hsame (rank a)
      simp only [List.filter_cons, hrank, decide_true, if_true] at hheads
      obtain rfl := (List.cons.inj hheads).1
      refine congrArg (a :: ·) (ih hl hl' fun k => ?_)
      have hk := hsame k
      simp only [List.filter_cons] at hk
      split at hk
      · exact (List.cons.inj hk).2
      · exact hk

theorem IsStableSort.unique (h : IsStableSort rank l sorted) (h' : IsStableSort rank l' sorted')
    (hsame : ∀ k, l.filter (rank · = k) = l'.filter (rank · = k)) : sorted = sorted' :=
  eq_of_descending h.descending h'.descending fun k => (h.stable k).trans ((hsame k).trans (h'.stable k).symm)

/-- Lists that share no rank can be put together in any order, as far as the entries of one rank are concerned. -/
theorem filter_flatMap_of_perm {f : α → List ε} {xs ys : List α} (hperm : xs.Perm ys)
    (hapart : xs.Pairwise fun x y => ∀ a ∈ f x, ∀ b ∈ f y, rank a ≠ rank b) (k : κ) :
    (xs.flatMap f).filter (rank · = k) = (ys.flatMap f).filter (rank · = k) := by
  induction hperm with
  | nil => rfl
  | cons x _ ih =>
    have hrest := ih (List.pairwise_cons.mp hapart).2
    rw [List.flatMap_cons, List.flatMap_cons, List.filter_append, List.filter_append, hrest]
  | swap x y xs =>
    have hnone : (f y).filter (rank · = k) = [] ∨ (f x).filter (rank · = k) = [] := by
      rw [or_iff_not_imp_left]
      intro hsome
      obtain ⟨a, ha⟩ := List.exists_mem_of_ne_nil _ hsome
      refine List.filter_eq_nil_iff.mpr fun b hb hbk => ?_
      have hdistinct := (List.pairwise_cons.mp hapart).1 x List.mem_cons_self a (List.mem_of_mem_filter ha) b hb
      exact hdistinct ((of_decide_eq_true (List.mem_filter.mp ha).2).trans (of_decide_eq_true hbk).symm)
    simp only [List.flatMap_cons, List.filter_append]
    rcases hnone with hnone | hnone <;> rw [hnone] <;> simp
  | trans hxy _ ihxy ihyz =>
    have hapart' := (hxy.pairwise_iff fun h a ha b hb => (h b hb a ha).symm).mp hapart
    exact (ihxy hapart).trans (ihyz hapart')

end PolyBot.General.StableSort
