import Mathlib.Algebra.BigOperators.Group.List.Basic
import Mathlib.Data.List.AList

/-! Association lists with constant value type, updated in place. -/

namespace PolyBot.General.KeyedStore

variable {κ α : Type*} [DecidableEq κ]

abbrev Store (κ : Type*) (α : Type*) := AList fun _ : κ => α

/-- Rewrites the value at `k`; a store without `k` is left alone. -/
def modify (k : κ) (g : α → α) (m : Store κ α) : Store κ α :=
  match m.lookup k with
  | none => m
  | some v => m.insert k (g v)

def values (m : Store κ α) : List α := m.entries.map Sigma.snd

def retain (p : κ → α → Bool) (m : Store κ α) : Store κ α :=
  ⟨m.entries.filter fun e => p e.1 e.2, m.nodupKeys.sublist List.filter_sublist⟩

def mapValues (g : κ → α → α) (m : Store κ α) : Store κ α :=
  ⟨m.entries.map fun e => ⟨e.1, g e.1 e.2⟩, by
    have hkeys : (m.entries.map fun e => (⟨e.1, g e.1 e.2⟩ : Sigma fun _ : κ => α)).keys = m.entries.keys := by
      simp [List.keys, Function.comp_def]
    rw [List.NodupKeys, hkeys]
    exact m.nodupKeys⟩

theorem lookup_modify_self (k : κ) (g : α → α) (m : Store κ α) : (modify k g m).lookup k = (m.lookup k).map g := by
  unfold modify
  split
  · rename_i hnone
    rw [hnone]
    rfl
  · rename_i v hv
    rw [AList.lookup_insert, hv]
    rfl

theorem lookup_modify_ne {k k' : κ} (h : k' ≠ k) (g : α → α) (m : Store κ α) :
    (modify k g m).lookup k' = m.lookup k' := by
  unfold modify
  split
  · rfl
  · exact AList.lookup_insert_ne h

theorem lookup_of_lookup_erase {k k' : κ} {v : α} {m : Store κ α} (h : (m.erase k).lookup k' = some v) :
    m.lookup k' = some v := by
  by_cases hk : k' = k
  · rw [hk, AList.lookup_erase] at h
    cases h
  · rwa [AList.lookup_erase_ne hk] at h

section Entries
variable {p : κ → α → Prop} {m : Store κ α}

/-- What holds of the stored entry and held of all the others holds of every entry. -/
theorem forall_lookup_insert (h : ∀ k v, m.lookup k = some v → p k v) {k : κ} {w : α} (hw : p k w) {k' : κ} {v : α}
    (hlookup : (m.insert k w).lookup k' = some v) : p k' v := by
  by_cases hk : k' = k
  · subst hk
    rw [AList.lookup_insert] at hlookup
    exact Option.some.inj hlookup ▸ hw
  · rw [AList.lookup_insert_ne hk] at hlookup
    exact h k' v hlookup

theorem forall_lookup_modify (h : ∀ k v, m.lookup k = some v → p k v) {k : κ} {g : α → α}
    (hg : ∀ v, p k v → p k (g v)) {k' : κ} {v : α} (hlookup : (modify k g m).lookup k' = some v) : p k' v := by
  by_cases hk : k' = k
  · subst hk
    rw [lookup_modify_self] at hlookup
    obtain ⟨w, hw, rfl⟩ := Option.map_eq_some_iff.mp hlookup
    exact hg w (h k' w hw)
  · rw [lookup_modify_ne hk] at hlookup
    exact h k' v hlookup

end Entries

/-- Storing the value that is there changes no answer. -/
theorem lookup_insert_of_lookup {k : κ} {v : α} {m : Store κ α} (h : m.lookup k = some v) (k' : κ) :
    (m.insert k v).lookup k' = m.lookup k' := by
  by_cases hk : k' = k
  · rw [hk, AList.lookup_insert, h]
  · exact AList.lookup_insert_ne hk

theorem lookup_insert_congr {m m' : Store κ α} (h : ∀ k, m.lookup k = m'.lookup k) (k : κ) (v : α) (k' : κ) :
    (m.insert k v).lookup k' = (m'.insert k v).lookup k' := by
  by_cases hk : k' = k
  · rw [hk, AList.lookup_insert, AList.lookup_insert]
  · rw [AList.lookup_insert_ne hk, AList.lookup_insert_ne hk, h]

theorem lookup_erase_congr {m m' : Store κ α} (h : ∀ k, m.lookup k = m'.lookup k) (k k' : κ) :
    (m.erase k).lookup k' = (m'.erase k).lookup k' := by
  by_cases hk : k' = k
  · rw [hk, AList.lookup_erase, AList.lookup_erase]
  · rw [AList.lookup_erase_ne hk, AList.lookup_erase_ne hk, h]

theorem mem_values_iff {v : α} {m : Store κ α} : v ∈ values m ↔ ∃ k, m.lookup k = some v := by
  constructor
  · intro h
    obtain ⟨⟨k, w⟩, hmem, rfl⟩ := List.mem_map.mp h
    exact ⟨k, AList.mem_lookup_iff.mpr hmem⟩
  · rintro ⟨k, h⟩
    exact List.mem_map.mpr ⟨⟨k, v⟩, AList.mem_lookup_iff.mp h, rfl⟩

theorem mem_values_insert {k : κ} {v w : α} {m : Store κ α} (h : v ∈ values (m.insert k w)) :
    v = w ∨ v ∈ values m := by
  obtain ⟨k', hk'⟩ := mem_values_iff.mp h
  have hold : ∀ j u, m.lookup j = some u → u = w ∨ u ∈ values m :=
    fun j u hj => .inr (mem_values_iff.mpr ⟨j, hj⟩)
  exact forall_lookup_insert hold (.inl rfl) hk'

theorem mem_values_erase {k : κ} {v : α} {m : Store κ α} (h : v ∈ values (m.erase k)) : v ∈ values m := by
  obtain ⟨k', hk'⟩ := mem_values_iff.mp h
  exact mem_values_iff.mpr ⟨k', lookup_of_lookup_erase hk'⟩

theorem mem_values_foldl_erase {ks : List κ} {v : α} {m : Store κ α}
    (h : v ∈ values (ks.foldl (fun m k => m.erase k) m)) : v ∈ values m := by
  induction ks generalizing m with
  | nil => exact h
  | cons k ks ih => exact mem_values_erase (ih h)

theorem lookup_foldl_erase (ks : List κ) (k : κ) (m : Store κ α) :
    (ks.foldl (fun m k => m.erase k) m).lookup k = if k ∈ ks then none else m.lookup k := by
  induction ks generalizing m with
  | nil => rfl
  | cons k' ks ih =>
    rw [List.foldl_cons, ih]
    by_cases hk : k = k'
    · subst hk
      simp
    · simp [hk]

/-- A key has at most one entry. -/
theorem filter_entries_key (k : κ) (m : Store κ α) :
    m.entries.filter (fun e => e.1 = k) = (m.lookup k).toList.map (Sigma.mk k) := by
  have hlist : ∀ l : List (Sigma fun _ : κ => α), l.NodupKeys →
      l.filter (fun e => e.1 = k) = (l.dlookup k).toList.map (Sigma.mk k) := by
    intro l hl
    induction l with
    | nil => rfl
    | cons e l ih =>
      obtain ⟨k', v⟩ := e
      obtain ⟨hfresh, hrest⟩ := List.nodupKeys_cons.mp hl
      by_cases hk : k' = k
      · subst hk
        rw [List.filter_cons_of_pos (by simp), List.dlookup_cons_eq, ih hrest, List.dlookup_eq_none.mpr hfresh]
        rfl
      · rw [List.filter_cons_of_neg (by simpa using hk), List.dlookup_cons_ne _ _ (Ne.symm hk), ih hrest]
  exact hlist m.entries m.nodupKeys

/-- Storing a value puts it before the others. -/
theorem values_insert (k : κ) (v : α) (m : Store κ α) : values (m.insert k v) = v :: values (m.erase k) := rfl

/-- A stored value and the others, in some order. -/
theorem values_perm_of_lookup {k : κ} {v : α} {m : Store κ α} (h : m.lookup k = some v) :
    (values m).Perm (v :: values (m.erase k)) := by
  have hentries : m.entries.Perm (⟨k, v⟩ :: m.entries.kerase k) := by
    have hmem : ⟨k, v⟩ ∈ m.entries := AList.mem_lookup_iff.mp h
    obtain ⟨w, before, after, -, hsplit, hrest⟩ := List.exists_of_kerase (List.mem_keys_of_mem hmem)
    have hw : w = v := m.nodupKeys.eq_of_mk_mem (hsplit ▸ List.mem_append_right _ List.mem_cons_self) hmem
    rw [hrest, hsplit, hw]
    exact List.perm_middle
  exact hentries.map Sigma.snd

theorem values_erase_of_lookup_none {k : κ} {m : Store κ α} (h : m.lookup k = none) :
    values (m.erase k) = values m := by
  have hkeys : k ∉ m.entries.keys := AList.lookup_eq_none.mp h
  change (m.entries.kerase k).map Sigma.snd = values m
  rw [List.kerase_of_notMem_keys hkeys, values]

/-- Stores with the same answers hold the same values, in some order. -/
theorem values_perm_of_lookup_eq {m m' : Store κ α} (h : ∀ k, m.lookup k = m'.lookup k) :
    (values m).Perm (values m') := by
  have hentries : m.entries.Perm m'.entries :=
    List.lookup_ext m.nodupKeys m'.nodupKeys fun k v => by
      change m.lookup k = some v ↔ m'.lookup k = some v
      rw [h]
  exact hentries.map Sigma.snd

section Sum
variable {M : Type*} [AddCommGroup M] (g : α → M)

/-- Storing a value changes a sum over the values by its own share less the share of the value it replaces. -/
theorem sum_values_insert (k : κ) (v : α) (m : Store κ α) :
    ((values (m.insert k v)).map g).sum = ((values m).map g).sum - ((m.lookup k).map g).getD 0 + g v := by
  rw [values_insert, List.map_cons, List.sum_cons]
  cases hlookup : m.lookup k with
  | none =>
    rw [values_erase_of_lookup_none hlookup]
    simp [add_comm]
  | some w =>
    have hsum := ((values_perm_of_lookup hlookup).map g).sum_eq
    rw [List.map_cons, List.sum_cons] at hsum
    rw [hsum, Option.map_some, Option.getD_some, add_sub_cancel_left, add_comm]

/-- Rewriting a value without changing its share leaves the sum. -/
theorem sum_values_modify {f : α → α} (h : ∀ v, g (f v) = g v) (k : κ) (m : Store κ α) :
    ((values (modify k f m)).map g).sum = ((values m).map g).sum := by
  unfold modify
  split
  · rfl
  · rename_i v hv
    rw [sum_values_insert, hv, Option.map_some, Option.getD_some, h, sub_add_cancel]

end Sum

theorem length_entries_insert_of_lookup_none {k : κ} {m : Store κ α} (h : m.lookup k = none) (v : α) :
    (m.insert k v).entries.length = m.entries.length + 1 := by
  rw [AList.entries_insert_of_notMem (AList.lookup_eq_none.mp h), List.length_cons]

theorem length_entries_erase_of_lookup {k : κ} {v : α} {m : Store κ α} (h : m.lookup k = some v) :
    (m.erase k).entries.length + 1 = m.entries.length := by
  have hperm := (values_perm_of_lookup h).length_eq
  simpa [values] using hperm.symm

/-- Rewriting a stored value leaves the number of entries. -/
theorem length_entries_insert_of_lookup {k : κ} {v : α} {m : Store κ α} (h : m.lookup k = some v) (w : α) :
    (m.insert k w).entries.length = m.entries.length := by
  rw [← length_entries_erase_of_lookup h]
  have hvalues := congrArg List.length (values_insert k w m)
  simpa [values] using hvalues

theorem lookup_retain (p : κ → α → Bool) (m : Store κ α) (k : κ) :
    (retain p m).lookup k = (m.lookup k).filter (p k) := by
  ext v
  rw [Option.filter_eq_some_iff]
  constructor
  · intro h
    obtain ⟨hmem, hp⟩ := List.mem_filter.mp (AList.mem_lookup_iff.mp h)
    exact ⟨AList.mem_lookup_iff.mpr hmem, hp⟩
  · rintro ⟨h, hp⟩
    exact AList.mem_lookup_iff.mpr (List.mem_filter.mpr ⟨AList.mem_lookup_iff.mp h, hp⟩)

theorem lookup_mapValues (g : κ → α → α) (m : Store κ α) (k : κ) :
    (mapValues g m).lookup k = (m.lookup k).map (g k) := by
  ext v
  rw [Option.map_eq_some_iff]
  constructor
  · intro h
    obtain ⟨⟨k', w⟩, hmem, heq⟩ := List.mem_map.mp (AList.mem_lookup_iff.mp h)
    cases heq
    exact ⟨w, AList.mem_lookup_iff.mpr hmem, rfl⟩
  · rintro ⟨w, h, rfl⟩
    exact AList.mem_lookup_iff.mpr (List.mem_map.mpr ⟨⟨k, w⟩, AList.mem_lookup_iff.mp h, rfl⟩)

omit [DecidableEq κ] in
theorem values_mapValues (g : κ → α → α) (m : Store κ α) :
    values (mapValues g m) = m.entries.map fun e => g e.1 e.2 := by
  rw [values, mapValues, List.map_map]
  rfl

omit [DecidableEq κ] in
theorem retain_empty (p : κ → α → Bool) : retain p (∅ : Store κ α) = ∅ := rfl

end PolyBot.General.KeyedStore
