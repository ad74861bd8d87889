import PolyBot.General.StableSort
import Mathlib.Data.List.Pairwise
import Mathlib.Logic.Function.Basic
import Mathlib.Order.RelClasses

/-! Lists of entries with an optional key, in the strict order of the keys and with the keyless entries last, and
the maps from keys to values that they represent. -/

namespace PolyBot.General.Ladder
open StableSort

variable {ε κ ν : Type*} (r : κ → κ → Prop) (key : ε → Option κ) (value : ε → Option ν)

/-- `a` may stand before `b`: if `b` has a key, `a` has a key that comes before it. -/
def Ahead (a b : ε) : Prop := ∀ k, key b = some k → ∃ j, key a = some j ∧ r j k

/-- `m` has the values of the keyed entries of `l`, whatever their order. -/
def Graph (l : List ε) (m : κ → Option ν) : Prop := ∀ k v, m k = some v ↔ ∃ e ∈ l, key e = some k ∧ value e = some v

/-- `l` is in order, its keyed entries have values, and these are the values of `m`. -/
structure Represents (l : List ε) (m : κ → Option ν) : Prop where
  ordered : l.Pairwise (Ahead r key)
  valued : ∀ e ∈ l, ∀ k, key e = some k → ∃ v, value e = some v
  graph : Graph key value l m

variable {r key value} {l : List ε} {m : κ → Option ν} {k : κ} {v : ν}

theorem Represents.nil : Represents r key value [] fun _ => none :=
  ⟨.nil, nofun, fun _ _ => ⟨nofun, fun ⟨_, hmem, _⟩ => absurd hmem List.not_mem_nil⟩⟩

theorem Represents.keys_pairwise (h : Represents r key value l m) : (l.filterMap key).Pairwise r := by
  rw [List.pairwise_filterMap]
  refine h.ordered.imp fun {a b} hahead j hj k hk => ?_
  obtain ⟨j', hj', hr⟩ := hahead k hk
  rwa [Option.some.inj (hj.symm.trans hj')]

/-- The first entry has the first key of the map; without keys there is none. -/
theorem Represents.head_iff [IsStrictOrder κ r] (h : Represents r key value l m) :
    l.head?.bind key = some k ↔ (∃ v, m k = some v) ∧ ∀ j v, m j = some v → j = k ∨ r k j := by
  cases l with
  | nil =>
    refine ⟨nofun, fun ⟨⟨v, hv⟩, _⟩ => ?_⟩
    obtain ⟨e, hmem, -⟩ := (h.graph k v).mp hv
    exact absurd hmem List.not_mem_nil
  | cons a l =>
    have hahead := (List.pairwise_cons.mp h.ordered).1
    constructor
    · intro hk
      obtain ⟨v, hv⟩ := h.valued a List.mem_cons_self k hk
      refine ⟨⟨v, (h.graph k v).mpr ⟨a, List.mem_cons_self, hk, hv⟩⟩, fun j w hj => ?_⟩
      obtain ⟨e, hmem, he, -⟩ := (h.graph j w).mp hj
      rcases List.mem_cons.mp hmem with rfl | hmem
      · exact .inl (Option.some.inj (he.symm.trans hk))
      · obtain ⟨k', hk', hr⟩ := hahead e hmem j he
        rw [Option.some.inj (hk.symm.trans hk')]
        exact .inr hr
    · rintro ⟨⟨v, hv⟩, hfirst⟩
      obtain ⟨e, hmem, he, -⟩ := (h.graph k v).mp hv
      rcases List.mem_cons.mp hmem with rfl | hmem
      · exact he
      · obtain ⟨j, hj, hr⟩ := hahead e hmem k he
        obtain ⟨w, hw⟩ := h.valued a List.mem_cons_self j hj
        rcases hfirst j w ((h.graph j w).mpr ⟨a, List.mem_cons_self, hj, hw⟩) with rfl | hback
        · exact absurd hr (irrefl_of r j)
        · exact absurd hback (asymm_of r hr)

/-- In a list with a keyed entry the first entry is keyed. -/
theorem Represents.head_keyed (h : Represents r key value l m) {e : ε} (hmem : e ∈ l) (he : key e = some k) :
    ∃ j, l.head?.bind key = some j := by
  cases l with
  | nil => cases hmem
  | cons a l =>
    rcases List.mem_cons.mp hmem with rfl | hmem
    · exact ⟨k, he⟩
    · obtain ⟨j, hj, -⟩ := (List.pairwise_cons.mp h.ordered).1 e hmem k he
      exact ⟨j, hj⟩

section Update
variable [DecidableEq κ]

/-- A list that differs in its entries of one key has the map that differs at this key. -/
theorem Graph.update {l' : List ε} {o : Option ν} (h : Graph key value l m)
    (hother : ∀ e, key e ≠ some k → (e ∈ l' ↔ e ∈ l))
    (hkey : ∀ v, o = some v ↔ ∃ e ∈ l', key e = some k ∧ value e = some v) :
    Graph key value l' (Function.update m k o) := by
  intro j v
  by_cases hj : j = k
  · rw [hj, Function.update_self]
    exact hkey v
  · rw [Function.update_of_ne hj, h j v]
    have hne : ∀ e, key e = some j → key e ≠ some k := fun e he hk => hj (Option.some.inj (he.symm.trans hk))
    constructor
    · rintro ⟨e, hmem, he, hv⟩
      exact ⟨e, (hother e (hne e he)).mpr hmem, he, hv⟩
    · rintro ⟨e, hmem, he, hv⟩
      exact ⟨e, (hother e (hne e he)).mp hmem, he, hv⟩

/-- Where no key occurs twice, looking entries up gives the map. -/
theorem graph_find? (h : l.Pairwise fun a b => ∀ k, key a = some k → key b ≠ some k) :
    Graph key value l fun k => (l.find? fun e => key e = some k).bind value := by
  intro k v
  rw [Option.bind_eq_some_iff]
  constructor
  · rintro ⟨e, hfind, hv⟩
    exact ⟨e, List.mem_of_find?_eq_some hfind, by simpa using List.find?_some hfind, hv⟩
  · rintro ⟨e, hmem, he, hv⟩
    cases hfind : l.find? fun e => key e = some k with
    | none => exact absurd he (by simpa using List.find?_eq_none.mp hfind e hmem)
    | some e' =>
      have he' : key e' = some k := by simpa using List.find?_some hfind
      have hsame : e' = e := by
        by_contra hne
        have hsymm : Std.Symm fun a b => ∀ k, key a = some k → key b ≠ some k := ⟨fun _ _ hab k hk ha => hab k ha hk⟩
        exact h.forall (List.mem_of_find?_eq_some hfind) hmem hne k he' he
      exact ⟨e', rfl, hsame ▸ hv⟩

theorem exists_split_of_findIdx? {p : ε → Bool} {i : ℕ} (h : l.findIdx? p = some i) :
    ∃ before e after, l = before ++ e :: after ∧ before.length = i ∧ p e = true := by
  obtain ⟨hlt, hp, -⟩ := List.findIdx?_eq_some_iff_getElem.mp h
  refine ⟨l.take i, l[i], l.drop (i + 1), ?_, List.length_take_of_le hlt.le, hp⟩
  rw [← List.drop_eq_getElem_cons hlt, List.take_append_drop]

omit [DecidableEq κ] in
/-- The entries around one with key `k` have other keys. -/
theorem Represents.key_ne [IsStrictOrder κ r] {before after : List ε} {e : ε}
    (h : Represents r key value (before ++ e :: after) m) (he : key e = some k) {a : ε}
    (hmem : a ∈ before ++ after) : key a ≠ some k := by
  intro hk
  obtain ⟨-, hafter, hbefore⟩ := List.pairwise_append.mp h.ordered
  rcases List.mem_append.mp hmem with hmem | hmem
  · obtain ⟨j, hj, hr⟩ := hbefore a hmem e List.mem_cons_self k he
    exact irrefl_of r k (Option.some.inj (hj.symm.trans hk) ▸ hr)
  · obtain ⟨j, hj, hr⟩ := (List.pairwise_cons.mp hafter).1 a hmem k hk
    exact irrefl_of r k (Option.some.inj (hj.symm.trans he) ▸ hr)

/-- Without one entry the list represents the map without its key. -/
theorem Represents.without [IsStrictOrder κ r] {before after : List ε} {e : ε}
    (h : Represents r key value (before ++ e :: after) m) (he : key e = some k) :
    Represents r key value (before ++ after) (Function.update m k none) := by
  have hsub : (before ++ after).Sublist (before ++ e :: after) :=
    List.Sublist.append_left (List.sublist_cons_self e after) before
  refine ⟨h.ordered.sublist hsub, fun a ha => h.valued a (hsub.mem ha), h.graph.update (fun a ha => ?_) fun v => ?_⟩
  · have hne : a ≠ e := fun hae => ha (hae ▸ he)
    simp [hne]
  · exact ⟨nofun, fun ⟨a, ha, hk, _⟩ => absurd hk (h.key_ne he ha)⟩

/-- With one entry more, in its place and with a key of its own, the list represents the map with its value. -/
theorem Represents.between {before after : List ε} {e : ε} (h : Represents r key value (before ++ after) m)
    (hfree : ∀ a ∈ before ++ after, key a ≠ some k) (he : key e = some k) (hv : value e = some v)
    (hbefore : ∀ a ∈ before, Ahead r key a e) (hafter : ∀ a ∈ after, Ahead r key e a) :
    Represents r key value (before ++ e :: after) (Function.update m k (some v)) := by
  have hmiddle : ∀ a, a ∈ before ++ e :: after ↔ a = e ∨ a ∈ before ++ after := fun a => by
    rw [List.perm_middle.mem_iff, List.mem_cons]
  obtain ⟨hordBefore, hordAfter, hcross⟩ := List.pairwise_append.mp h.ordered
  refine ⟨?_, fun a ha j hj => ?_, h.graph.update (fun a ha => ?_) fun w => ?_⟩
  · refine List.pairwise_append.mpr ⟨hordBefore, List.pairwise_cons.mpr ⟨hafter, hordAfter⟩, fun a ha b hb => ?_⟩
    rcases List.mem_cons.mp hb with rfl | hb
    · exact hbefore a ha
    · exact hcross a ha b hb
  · rcases (hmiddle a).mp ha with rfl | ha
    · exact ⟨v, hv⟩
    · exact h.valued a ha j hj
  · rw [hmiddle]
    exact or_iff_right fun hae => ha (hae ▸ he)
  · constructor
    · intro hw
      exact ⟨e, (hmiddle e).mpr (.inl rfl), he, hv.trans hw⟩
    · rintro ⟨a, ha, hk, haw⟩
      rcases (hmiddle a).mp ha with rfl | ha
      · exact hv.symm.trans haw
      · exact absurd hk (hfree a ha)

/-- Erasing the entry of a key. -/
theorem Represents.eraseIdx [IsStrictOrder κ r] (h : Represents r key value l m) {i : ℕ}
    (hi : l.findIdx? (fun e => key e = some k) = some i) :
    Represents r key value (l.eraseIdx i) (Function.update m k none) := by
  obtain ⟨before, e, after, rfl, rfl, he⟩ := exists_split_of_findIdx? hi
  rw [List.eraseIdx_append_of_length_le le_rfl, Nat.sub_self, List.eraseIdx_cons_zero]
  exact h.without (of_decide_eq_true he)

/-- Writing an entry over the one with its key. -/
theorem Represents.set [IsStrictOrder κ r] (h : Represents r key value l m) {e : ε} {i : ℕ} (he : key e = some k)
    (hv : value e = some v) (hi : l.findIdx? (fun e => key e = some k) = some i) :
    Represents r key value (l.set i e) (Function.update m k (some v)) := by
  obtain ⟨before, old, after, rfl, rfl, hold⟩ := exists_split_of_findIdx? hi
  have hold := of_decide_eq_true hold
  have hsame : key e = key old := he.trans hold.symm
  obtain ⟨-, hafter, hcross⟩ := List.pairwise_append.mp h.ordered
  have hupdate : Function.update m k (some v) = Function.update (Function.update m k none) k (some v) :=
    (Function.update_idem ..).symm
  rw [List.set_append_right _ _ le_rfl, Nat.sub_self, List.set_cons_zero, hupdate]
  refine (h.without hold).between (fun a => h.key_ne hold) he hv (fun a ha j hj => ?_) fun a ha j hj => ?_
  · exact hcross a ha old List.mem_cons_self j (hsame ▸ hj)
  · rw [hsame]
    exact (List.pairwise_cons.mp hafter).1 a ha j hj

omit [DecidableEq κ] in
/-- A key without entry has no value. -/
theorem Represents.absent (h : Represents r key value l m) (hfree : ∀ e ∈ l, key e ≠ some k) : m k = none := by
  by_contra hsome
  obtain ⟨v, hv⟩ := Option.ne_none_iff_exists'.mp hsome
  obtain ⟨e, hmem, he, -⟩ := (h.graph k v).mp hv
  exact hfree e hmem he

theorem exists_split_insertIdx (p : ε → Bool) (l : List ε) (e : ε) :
    ∃ before after, l = before ++ after ∧ l.insertIdx (l.findIdx p) e = before ++ e :: after ∧
      (∀ a ∈ before, p a = false) ∧ ∀ a ∈ after.head?, p a = true := by
  induction l with
  | nil => exact ⟨[], [], rfl, rfl, nofun, nofun⟩
  | cons a l ih =>
    cases hp : p a with
    | true =>
      refine ⟨[], a :: l, rfl, by simp [List.findIdx_cons, hp], nofun, fun b hb => ?_⟩
      rwa [← Option.some.inj hb]
    | false =>
      obtain ⟨before, after, hsplit, hinsert, hbefore, hafter⟩ := ih
      refine ⟨a :: before, after, congrArg (a :: ·) hsplit, ?_, ?_, hafter⟩
      · simp [List.findIdx_cons, hp, hinsert]
      · intro b hb
        rcases List.mem_cons.mp hb with rfl | hb
        · exact hp
        · exact hbefore b hb

/-- Inserting an entry with a new key before the first entry it may stand before. -/
theorem Represents.insertIdx [IsStrictTotalOrder κ r] (h : Represents r key value l m) {e : ε} {p : ε → Bool}
    (he : key e = some k) (hv : value e = some v) (hfree : ∀ e ∈ l, key e ≠ some k)
    (hp : ∀ e, p e = true ↔ ∀ j, key e = some j → r k j) :
    Represents r key value (l.insertIdx (l.findIdx p) e) (Function.update m k (some v)) := by
  obtain ⟨before, after, rfl, hinsert, hbefore, hafter⟩ := exists_split_insertIdx p l e
  rw [hinsert]
  refine h.between hfree he hv (fun a ha i hi => ?_) fun a ha j hj => ⟨k, he, ?_⟩
  · -- Before the place stand smaller keys, since the new key is none of theirs.
    have hnot : ¬∀ j, key a = some j → r k j := fun hall => Bool.eq_false_iff.mp (hbefore a ha) ((hp a).mpr hall)
    push Not at hnot
    obtain ⟨j, hj, hkj⟩ := hnot
    refine ⟨j, hj, ?_⟩
    rw [← Option.some.inj (he.symm.trans hi)]
    rcases trichotomous_of r j k with hr | rfl | hr
    · exact hr
    · exact absurd hj (hfree a (List.mem_append_left _ ha))
    · exact absurd hr hkj
  · cases after with
    | nil => cases ha
    | cons b after =>
      have hb := (hp b).mp (hafter b rfl)
      rcases List.mem_cons.mp ha with rfl | ha
      · exact hb j hj
      · have hordAfter := (List.pairwise_append.mp h.ordered).2.1
        obtain ⟨i, hi, hr⟩ := (List.pairwise_cons.mp hordAfter).1 a ha j hj
        exact trans_of r (hb i hi) hr

end Update

section Sorting
variable [IsStrictTotalOrder κ r] {s : ε → ε → Prop} [DecidableRel s] {worst : κ}

/-- Sorting by key, where entries without key count as `worst`, puts a list in order, provided that no keyless entry
stands before one whose key is `worst`. -/
theorem Represents.insertionSort (hs : ∀ a b, s a b ↔ ¬r ((key b).getD worst) ((key a).getD worst))
    (hworst : ∀ e ∈ l, ∀ k, key e = some k → ¬r worst k)
    (hdistinct : l.Pairwise fun a b => ∀ k, key a = some k → key b ≠ some k)
    (hlast : l.Pairwise fun a b => key a = none → key b ≠ some worst)
    (hvalued : ∀ e ∈ l, ∀ k, key e = some k → ∃ v, value e = some v) (hgraph : Graph key value l m) :
    Represents r key value (l.insertionSort s) m := by
  have htotal : Std.Total s := ⟨fun a b => by
    rw [hs, hs, ← not_and_or]
    exact fun ⟨hba, hab⟩ => asymm_of r hba hab⟩
  have htrans : IsTrans ε s := ⟨fun a b c hab hbc => by
    rw [hs] at hab hbc ⊢
    intro hca
    rcases IsOrderConnected.conn _ ((key b).getD worst) _ hca with hcb | hba
    · exact hbc hcb
    · exact hab hba⟩
  have hperm := List.perm_insertionSort s l
  refine ⟨?_, fun e he => hvalued e (hperm.mem_iff.mp he), fun k v => ?_⟩
  · have hapart := (hperm.pairwise_iff fun hab k hk ha => hab k ha hk).mpr hdistinct
    have hkept : (l.insertionSort s).Pairwise fun a b => key a = none → key b ≠ some worst := by
      classical
      have hrank : ∀ a b, decide ((key a).getD worst = worst) → decide ((key b).getD worst = worst) → s a b := by
        intro a b ha hb
        rw [hs, of_decide_eq_true ha, of_decide_eq_true hb]
        exact irrefl_of r worst
      refine (pairwise_insertionSort_of_rank hrank hlast).imp fun {a b} hab ha hb => hab ?_ ?_ ha hb
      · simp [ha]
      · simp [hb]
    refine ((List.pairwise_insertionSort s l).and (hapart.and hkept)).imp_of_mem fun {a b} _ hb hab k hk => ?_
    obtain ⟨hle, hne, hnone⟩ := hab
    rw [hs, hk, Option.getD_some] at hle
    cases hj : key a with
    | none =>
      rw [hj, Option.getD_none] at hle
      rcases trichotomous_of r k worst with hr | rfl | hr
      · exact absurd hr hle
      · exact absurd hk (hnone hj)
      · exact absurd hr (hworst b (hperm.mem_iff.mp hb) k hk)
    | some j =>
      rw [hj, Option.getD_some] at hle
      refine ⟨j, rfl, ?_⟩
      rcases trichotomous_of r j k with hr | rfl | hr
      · exact hr
      · exact absurd hk (hne j hj)
      · exact absurd hr hle
  · rw [hgraph k v]
    simp only [hperm.mem_iff]

end Sorting

section Entries

def entry (key : ε → Option κ) (value : ε → Option ν) (e : ε) : Option (κ × ν) :=
  (key e).bind fun k => (value e).map fun v => (k, v)

theorem entry_eq_some_iff {e : ε} : entry key value e = some (k, v) ↔ key e = some k ∧ value e = some v := by
  unfold entry
  cases key e <;> cases value e <;> simp

structure Lists (r : κ → κ → Prop) (m : κ → Option ν) (entries : List (κ × ν)) : Prop where
  sorted : entries.Pairwise fun a b => r a.1 b.1
  mem_iff : ∀ k v, (k, v) ∈ entries ↔ m k = some v

theorem Represents.lists (h : Represents r key value l m) : Lists r m (l.filterMap (entry key value)) where
  sorted := by
    rw [List.pairwise_filterMap]
    refine h.ordered.imp fun {a b} hahead => ?_
    rintro ⟨j, w⟩ ha ⟨k, v⟩ hb
    obtain ⟨j', hj', hr⟩ := hahead k (entry_eq_some_iff.mp hb).1
    rwa [Option.some.inj ((entry_eq_some_iff.mp ha).1.symm.trans hj')]
  mem_iff k v := by
    rw [h.graph k v, List.mem_filterMap]
    exact exists_congr fun e => and_congr_right fun _ => entry_eq_some_iff

/-- Keyless entries stand last, so the first entries of the list have the first keys of the map. -/
theorem Represents.filterMap_take (h : Represents r key value l m) (n : ℕ) :
    (l.take n).filterMap (entry key value) = (l.filterMap (entry key value)).take n := by
  obtain ⟨hordered, hvalued, -⟩ := h
  induction l generalizing n with
  | nil => simp
  | cons e l ih =>
    obtain ⟨hahead, hrest⟩ := List.pairwise_cons.mp hordered
    have hvaluedRest : ∀ e ∈ l, ∀ k, key e = some k → ∃ v, value e = some v :=
      fun e he => hvalued e (List.mem_cons_of_mem _ he)
    cases n with
    | zero => simp
    | succ n =>
      rw [List.take_succ_cons]
      cases hkey : key e with
      | some k =>
        obtain ⟨v, hv⟩ := hvalued e List.mem_cons_self k hkey
        have hentry : entry key value e = some (k, v) := entry_eq_some_iff.mpr ⟨hkey, hv⟩
        rw [List.filterMap_cons_some hentry, List.filterMap_cons_some hentry, List.take_succ_cons,
          ih n hrest hvaluedRest]
      | none =>
        have hkeyless : ∀ b ∈ e :: l, entry key value b = none := by
          intro b hb
          have hb : key b = none := by
            rcases List.mem_cons.mp hb with rfl | hb
            · exact hkey
            · refine Option.eq_none_iff_forall_ne_some.mpr fun k hk => ?_
              obtain ⟨j, hj, -⟩ := hahead b hb k hk
              rw [hkey] at hj
              cases hj
          rw [entry, hb, Option.bind_none]
        rw [List.filterMap_eq_nil_iff.mpr fun b hb => ?_, List.filterMap_eq_nil_iff.mpr hkeyless, List.take_nil]
        exact hkeyless b (List.mem_cons.mpr ((List.mem_cons.mp hb).imp_right List.mem_of_mem_take))

/-- The first entry has the first key of the map, and its value unless the map is empty. -/
theorem Represents.head_entries (h : Represents r key value l m) {entries : List (κ × ν)}
    (heq : l.filterMap (entry key value) = entries) :
    l.head?.bind key = entries.head?.map (·.1) ∧
      (entries ≠ [] → l.head?.bind value = entries.head?.map (·.2) ∧ l.isEmpty = false) := by
  have hone := h.filterMap_take 1
  rw [heq] at hone
  cases l with
  | nil =>
    subst heq
    exact ⟨rfl, fun hne => absurd rfl hne⟩
  | cons e l =>
    cases hkey : key e with
    | none =>
      have hnone : entries = [] := by
        have htake : entries.take 1 = [] := by
          rw [← hone]
          simp [entry, hkey]
        simpa using htake
      rw [hnone]
      exact ⟨by simp [hkey], fun hne => absurd rfl hne⟩
    | some k =>
      obtain ⟨v, hv⟩ := h.valued e List.mem_cons_self k hkey
      have hentry : entry key value e = some (k, v) := entry_eq_some_iff.mpr ⟨hkey, hv⟩
      rw [List.filterMap_cons_some hentry] at heq
      subst heq
      exact ⟨by simp [hkey], fun _ => ⟨by simp [hv], rfl⟩⟩

end Entries

section Keyless

def keyless (key : ε → Option κ) (l : List ε) : List ε := l.filter fun e => (key e).isNone

theorem keyless_of_entries_nil (h : ∀ e ∈ l, ∀ k, key e = some k → ∃ v, value e = some v)
    (hnil : l.filterMap (entry key value) = []) : keyless key l = l := by
  refine List.filter_eq_self.mpr fun e he => Option.isNone_iff_eq_none.mpr ?_
  refine Option.eq_none_iff_forall_ne_some.mpr fun k hk => ?_
  obtain ⟨v, hv⟩ := h e he k hk
  cases (List.filterMap_eq_nil_iff.mp hnil e he).symm.trans (entry_eq_some_iff.mpr ⟨hk, hv⟩)

/-- A list is empty if it has neither an entry with key and value nor one without key. -/
theorem isEmpty_eq_false_iff (h : ∀ e ∈ l, ∀ k, key e = some k → ∃ v, value e = some v) :
    l.isEmpty = false ↔ l.filterMap (entry key value) ≠ [] ∨ keyless key l ≠ [] := by
  cases hentries : l.filterMap (entry key value) with
  | nil => simp [keyless_of_entries_nil h hentries]
  | cons e rest =>
    refine iff_of_true ?_ (.inl (List.cons_ne_nil e rest))
    cases l with
    | nil => cases hentries
    | cons => rfl

variable [DecidableEq κ]

theorem keyless_eraseIdx {i : ℕ} (hi : l.findIdx? (fun e => key e = some k) = some i) :
    keyless key (l.eraseIdx i) = keyless key l := by
  obtain ⟨before, e, after, rfl, rfl, he⟩ := exists_split_of_findIdx? hi
  have he := of_decide_eq_true he
  rw [List.eraseIdx_append_of_length_le le_rfl, Nat.sub_self, List.eraseIdx_cons_zero]
  simp [keyless, he]

theorem keyless_set {e : ε} {i : ℕ} {j : κ} (he : key e = some j) (hi : l.findIdx? (fun e => key e = some k) = some i) :
    keyless key (l.set i e) = keyless key l := by
  obtain ⟨before, old, after, rfl, rfl, hold⟩ := exists_split_of_findIdx? hi
  have hold := of_decide_eq_true hold
  rw [List.set_append_right _ _ le_rfl, Nat.sub_self, List.set_cons_zero]
  simp [keyless, he, hold]

omit [DecidableEq κ] in
theorem keyless_insertIdx (key : ε → Option κ) {e : ε} (he : key e = some k) (p : ε → Bool) :
    keyless key (l.insertIdx (l.findIdx p) e) = keyless key l := by
  obtain ⟨before, after, rfl, hinsert, -, -⟩ := exists_split_insertIdx p l e
  rw [hinsert]
  simp [keyless, he]

omit [DecidableEq κ] in
/-- A stable sort in which all entries without key rank alike leaves them in their order. -/
theorem keyless_insertionSort {ω : Type*} (rank : ε → ω) (s : ω → ω → Prop) [DecidableRel s] [Std.Total s]
    [IsTrans ω s] {worst : ω} (hworst : ∀ e, key e = none → rank e = worst) :
    keyless key (l.insertionSort fun a b => s (rank a) (rank b)) = keyless key l := by
  have htotal : Std.Total fun a b : ε => s (rank a) (rank b) := ⟨fun a b => total_of s (rank a) (rank b)⟩
  have htrans : IsTrans ε fun a b => s (rank a) (rank b) := ⟨fun _ _ _ hab hbc => trans_of s hab hbc⟩
  refine filter_insertionSort fun a b ha hb => ?_
  rw [hworst a (Option.isNone_iff_eq_none.mp ha), hworst b (Option.isNone_iff_eq_none.mp hb)]
  exact (total_of s worst worst).elim id id

end Keyless

end PolyBot.General.Ladder
