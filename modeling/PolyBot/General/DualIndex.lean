import PolyBot.General.KeyedStore

/-! Values kept under a key of their own and, once they have a link, a second time under the link. -/

namespace PolyBot.General.DualIndex
open General.KeyedStore

variable {κ ι α : Type*} [DecidableEq κ] [DecidableEq ι]

/-- The two stores agree: every value is under its own key, and the second store has the linked values of the
first, each under its link. -/
structure Agree (key : α → κ) (link : α → Option ι) (primary : Store κ α) (secondary : Store ι α) : Prop where
  keyed : ∀ k a, primary.lookup k = some a → key a = k
  linked : ∀ x a, secondary.lookup x = some a ↔ primary.lookup (key a) = some a ∧ link a = some x

variable {key : α → κ} {link : α → Option ι} {primary : Store κ α} {secondary : Store ι α}

theorem agree_empty : Agree key link (∅ : Store κ α) (∅ : Store ι α) := by
  constructor
  · intro k a h
    simp at h
  · intro x a
    simp

/-- A link leads to the value under its own key. -/
theorem Agree.lookup_key (h : Agree key link primary secondary) {x : ι} {a : α} (hx : secondary.lookup x = some a) :
    primary.lookup (key a) = some a ∧ link a = some x :=
  (h.linked x a).mp hx

theorem Agree.lookup_link (h : Agree key link primary secondary) {k : κ} {a : α} {x : ι}
    (hk : primary.lookup k = some a) (hx : link a = some x) : secondary.lookup x = some a :=
  (h.linked x a).mpr ⟨(h.keyed k a hk).symm ▸ hk, hx⟩

/-- A link is in the second store exactly when some value of the first store has it. -/
theorem Agree.isSome_lookup_iff (h : Agree key link primary secondary) (x : ι) :
    (secondary.lookup x).isSome = true ↔ ∃ k a, primary.lookup k = some a ∧ link a = some x := by
  constructor
  · intro hsome
    obtain ⟨a, ha⟩ := Option.isSome_iff_exists.mp hsome
    exact ⟨key a, a, h.lookup_key ha⟩
  · rintro ⟨k, a, hk, hx⟩
    rw [h.lookup_link hk hx]
    rfl

theorem Agree.keyed_insert (h : Agree key link primary secondary) {k : κ} {b : α} (hb : key b = k) :
    ∀ j c, (primary.insert k b).lookup j = some c → key c = j := by
  intro j c hj
  exact forall_lookup_insert h.keyed hb hj

/-- A new value without a link. -/
theorem Agree.insert_unlinked (h : Agree key link primary secondary) {a : α}
    (hnew : primary.lookup (key a) = none) (hlink : link a = none) :
    Agree key link (primary.insert (key a) a) secondary := by
  refine ⟨h.keyed_insert rfl, ?_⟩
  intro x b
  by_cases hkey : key b = key a
  · refine iff_of_false ?_ ?_
    · intro hx
      have hb := (h.lookup_key hx).1
      rw [hkey, hnew] at hb
      cases hb
    · rintro ⟨hb, hx⟩
      rw [hkey, AList.lookup_insert] at hb
      obtain rfl := Option.some.inj hb
      rw [hlink] at hx
      cases hx
  · rw [AList.lookup_insert_ne hkey]
    exact h.linked x b

def patch (link : α → Option ι) (a : α) (g : α → α) (secondary : Store ι α) : Store ι α :=
  match link a with
  | none => secondary
  | some x => modify x g secondary

theorem Agree.lookup_patch (h : Agree key link primary secondary) {k : κ} {a : α} (hk : primary.lookup k = some a)
    (g : α → α) (x : ι) :
    (patch link a g secondary).lookup x = if link a = some x then some (g a) else secondary.lookup x := by
  unfold patch
  cases hlink : link a with
  | none => rw [if_neg (by simp)]
  | some y =>
    by_cases hxy : y = x
    · subst hxy
      simp only [if_true]
      rw [lookup_modify_self, h.lookup_link hk hlink]
      rfl
    · rw [if_neg (by simpa using hxy)]
      exact lookup_modify_ne (Ne.symm hxy) g secondary

/-- One value rewritten in both stores, its key and its link kept. -/
theorem Agree.rewrite (h : Agree key link primary secondary) {k : κ} {a : α} (hk : primary.lookup k = some a)
    {g : α → α} (hkey : key (g a) = key a) (hlink : link (g a) = link a) :
    Agree key link (primary.insert k (g a)) (patch link a g secondary) := by
  have hka : key a = k := h.keyed k a hk
  refine ⟨h.keyed_insert (hkey.trans hka), ?_⟩
  intro x c
  rw [h.lookup_patch hk]
  by_cases hx : link a = some x
  · rw [if_pos hx]
    constructor
    · intro hc
      obtain rfl := Option.some.inj hc
      rw [hkey, hka, AList.lookup_insert]
      exact ⟨rfl, hlink.trans hx⟩
    · rintro ⟨hc, hcx⟩
      by_cases hck : key c = k
      · rwa [hck, AList.lookup_insert] at hc
      · rw [AList.lookup_insert_ne hck] at hc
        have hsame := (h.lookup_link hk hx).symm.trans (h.lookup_link hc hcx)
        obtain rfl := Option.some.inj hsame
        exact absurd hka hck
  · rw [if_neg hx, h.linked]
    by_cases hck : key c = k
    · rw [hck, hk, AList.lookup_insert]
      refine iff_of_false ?_ ?_
      · rintro ⟨hac, hcx⟩
        obtain rfl := Option.some.inj hac
        exact hx hcx
      · rintro ⟨hbc, hcx⟩
        obtain rfl := Option.some.inj hbc
        exact hx (hlink.symm.trans hcx)
    · rw [AList.lookup_insert_ne hck]

/-- A value receives its first link, which no other value has. -/
theorem Agree.link_first (h : Agree key link primary secondary) {k : κ} {a b : α} {x : ι}
    (hk : primary.lookup k = some a) (hkey : key b = key a) (hunlinked : link a = none) (hlink : link b = some x)
    (hfree : secondary.lookup x = none) : Agree key link (primary.insert k b) (secondary.insert x b) := by
  have hka : key a = k := h.keyed k a hk
  refine ⟨h.keyed_insert (hkey.trans hka), ?_⟩
  intro y c
  by_cases hyx : y = x
  · subst hyx
    rw [AList.lookup_insert]
    constructor
    · intro hc
      obtain rfl := Option.some.inj hc
      rw [hkey, hka, AList.lookup_insert]
      exact ⟨rfl, hlink⟩
    · rintro ⟨hc, hcx⟩
      by_cases hck : key c = k
      · rwa [hck, AList.lookup_insert] at hc
      · rw [AList.lookup_insert_ne hck] at hc
        have htaken := h.lookup_link hc hcx
        rw [hfree] at htaken
        cases htaken
  · rw [AList.lookup_insert_ne hyx, h.linked]
    by_cases hck : key c = k
    · rw [hck, hk, AList.lookup_insert]
      refine iff_of_false ?_ ?_
      · rintro ⟨hac, hcy⟩
        obtain rfl := Option.some.inj hac
        rw [hunlinked] at hcy
        cases hcy
      · rintro ⟨hbc, hcy⟩
        obtain rfl := Option.some.inj hbc
        exact hyx (Option.some.inj (hcy.symm.trans hlink))
    · rw [AList.lookup_insert_ne hck]

def cut (link : α → Option ι) (a : α) (secondary : Store ι α) : Store ι α :=
  match link a with
  | none => secondary
  | some x => secondary.erase x

omit [DecidableEq κ] in
theorem lookup_cut (a : α) (x : ι) :
    (cut link a secondary).lookup x = if link a = some x then none else secondary.lookup x := by
  unfold cut
  cases hlink : link a with
  | none => rw [if_neg (by simp)]
  | some y =>
    by_cases hxy : y = x
    · subst hxy
      simp
    · rw [if_neg (by simpa using hxy)]
      exact AList.lookup_erase_ne (Ne.symm hxy)

/-- One value dropped from both stores. -/
theorem Agree.erase (h : Agree key link primary secondary) {k : κ} {a : α} (hk : primary.lookup k = some a) :
    Agree key link (primary.erase k) (cut link a secondary) := by
  have hka : key a = k := h.keyed k a hk
  constructor
  · intro j c hj
    by_cases hjk : j = k
    · subst hjk
      rw [AList.lookup_erase] at hj
      cases hj
    · rw [AList.lookup_erase_ne hjk] at hj
      exact h.keyed j c hj
  · intro x c
    rw [lookup_cut]
    by_cases hck : key c = k
    · rw [hck, AList.lookup_erase]
      refine iff_of_false ?_ nofun
      intro hc
      split at hc
      · cases hc
      · rename_i hx
        obtain ⟨hca, hcx⟩ := h.lookup_key hc
        rw [hck, hk] at hca
        obtain rfl := Option.some.inj hca
        exact hx hcx
    · rw [AList.lookup_erase_ne hck, ← h.linked]
      split
      · rename_i hx
        refine iff_of_false nofun ?_
        intro hc
        have hsame := (h.lookup_link hk hx).symm.trans hc
        obtain rfl := Option.some.inj hsame
        exact hck hka
      · exact Iff.rfl

end PolyBot.General.DualIndex
