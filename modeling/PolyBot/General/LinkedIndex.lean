import PolyBot.General.KeyedStore

/-! Values kept under a key of their own and a second time under each of their links. -/

namespace PolyBot.General.LinkedIndex
open General.KeyedStore

variable {κ ι α : Type*} [DecidableEq κ] [DecidableEq ι]

def linkAll (secondary : Store ι α) (xs : List ι) (a : α) : Store ι α := xs.foldl (fun s x => s.insert x a) secondary

def unlinkAll (secondary : Store ι α) (xs : List ι) : Store ι α := xs.foldl (fun s x => s.erase x) secondary

theorem lookup_linkAll (secondary : Store ι α) (xs : List ι) (a : α) (x : ι) :
    (linkAll secondary xs a).lookup x = if x ∈ xs then some a else secondary.lookup x := by
  induction xs generalizing secondary with
  | nil => simp [linkAll]
  | cons y xs ih =>
    rw [linkAll, List.foldl_cons]
    refine (ih (secondary.insert y a)).trans ?_
    by_cases hxs : x ∈ xs
    · rw [if_pos hxs, if_pos (List.mem_cons_of_mem y hxs)]
    · rw [if_neg hxs]
      rcases eq_or_ne x y with rfl | hne
      · rw [AList.lookup_insert, if_pos List.mem_cons_self]
      · rw [AList.lookup_insert_ne hne, if_neg (by simp [hne, hxs])]

theorem lookup_unlinkAll (secondary : Store ι α) (xs : List ι) (x : ι) :
    (unlinkAll secondary xs).lookup x = if x ∈ xs then none else secondary.lookup x := by
  induction xs generalizing secondary with
  | nil => simp [unlinkAll]
  | cons y xs ih =>
    rw [unlinkAll, List.foldl_cons]
    refine (ih (secondary.erase y)).trans ?_
    by_cases hxs : x ∈ xs
    · rw [if_pos hxs, if_pos (List.mem_cons_of_mem y hxs)]
    · rw [if_neg hxs]
      rcases eq_or_ne x y with rfl | hne
      · rw [AList.lookup_erase, if_pos List.mem_cons_self]
      · rw [AList.lookup_erase_ne hne, if_neg (by simp [hne, hxs])]

/-- The two stores agree: every value is under its own key, and under each link is the value that has it. -/
structure Agree (key : α → κ) (links : α → List ι) (primary : Store κ α) (secondary : Store ι α) : Prop where
  keyed : ∀ k a, primary.lookup k = some a → key a = k
  linked : ∀ x a, secondary.lookup x = some a ↔ primary.lookup (key a) = some a ∧ x ∈ links a

/-- The value takes the place of one whose links it has too, and no value under another key has any of its links. -/
def Fits (key : α → κ) (links : α → List ι) (primary : Store κ α) (a : α) : Prop :=
  (∀ old, primary.lookup (key a) = some old → ∀ x ∈ links old, x ∈ links a) ∧
    ∀ b, primary.lookup (key b) = some b → key b ≠ key a → ∀ x ∈ links b, x ∉ links a

variable {key : α → κ} {links : α → List ι} {primary : Store κ α} {secondary : Store ι α}

theorem agree_empty : Agree key links (∅ : Store κ α) (∅ : Store ι α) := by
  constructor
  · intro k a h
    simp at h
  · intro x a
    simp

/-- Inserting a value under its key and its links keeps the stores in agreement exactly when it fits. -/
theorem Agree.insert_iff (h : Agree key links primary secondary) (a : α) :
    Agree key links (primary.insert (key a) a) (linkAll secondary (links a) a) ↔ Fits key links primary a := by
  constructor
  · intro hafter
    refine ⟨fun old hold x hx => ?_, fun b hb hne x hx hxa => ?_⟩
    · by_contra hxa
      -- the link of the replaced value still leads to it
      have hkey := h.keyed _ _ hold
      have hstale : (linkAll secondary (links a) a).lookup x = some old := by
        rw [lookup_linkAll, if_neg hxa]
        exact (h.linked x old).mpr ⟨hkey.symm ▸ hold, hx⟩
      have hnow := ((hafter.linked x old).mp hstale).1
      rw [hkey, AList.lookup_insert, Option.some.injEq] at hnow
      exact hxa (hnow ▸ hx)
    · have hkept : (primary.insert (key a) a).lookup (key b) = some b := by rwa [AList.lookup_insert_ne hne]
      have hlink := (hafter.linked x b).mpr ⟨hkept, hx⟩
      rw [lookup_linkAll, if_pos hxa, Option.some.injEq] at hlink
      exact hne (congrArg key hlink.symm)
  · rintro ⟨hold, hother⟩
    refine ⟨fun k b hb => forall_lookup_insert h.keyed rfl hb, fun x b => ?_⟩
    rw [lookup_linkAll]
    by_cases hkey : key b = key a
    · rw [hkey, AList.lookup_insert, Option.some.injEq]
      by_cases hx : x ∈ links a
      · rw [if_pos hx, Option.some.injEq]
        constructor
        · rintro rfl
          exact ⟨rfl, hx⟩
        · exact And.left
      · rw [if_neg hx]
        refine iff_of_false (fun hb => ?_) fun ⟨heq, hxb⟩ => hx (heq ▸ hxb)
        obtain ⟨hlookup, hxb⟩ := (h.linked x b).mp hb
        exact hx (hold b (hkey ▸ hlookup) x hxb)
    · rw [AList.lookup_insert_ne hkey]
      by_cases hx : x ∈ links a
      · rw [if_pos hx, Option.some.injEq]
        refine iff_of_false (fun heq => hkey (congrArg key heq.symm)) fun ⟨hlookup, hxb⟩ => ?_
        exact hother b hlookup hkey x hxb hx
      · rw [if_neg hx]
        exact h.linked x b

/-- Removing a value from under its key and its links keeps the stores in agreement. -/
theorem Agree.erase (h : Agree key links primary secondary) {k : κ} {a : α} (ha : primary.lookup k = some a) :
    Agree key links (primary.erase k) (unlinkAll secondary (links a)) := by
  have hkey := h.keyed k a ha
  subst hkey
  refine ⟨fun j b hb => h.keyed j b (lookup_of_lookup_erase hb), fun x b => ?_⟩
  rw [lookup_unlinkAll]
  have hlinked : ∀ c, primary.lookup (key c) = some c → x ∈ links c → secondary.lookup x = some c :=
    fun c hc hx => (h.linked x c).mpr ⟨hc, hx⟩
  by_cases hkey : key b = key a
  · rw [hkey, AList.lookup_erase]
    refine iff_of_false (fun hb => ?_) fun hb => by cases hb.1
    split at hb
    · cases hb
    · rename_i hx
      obtain ⟨hlookup, hxb⟩ := (h.linked x b).mp hb
      rw [hkey, ha, Option.some.injEq] at hlookup
      exact hx (hlookup ▸ hxb)
  · rw [AList.lookup_erase_ne hkey]
    by_cases hx : x ∈ links a
    · rw [if_pos hx]
      refine iff_of_false (fun hb => by cases hb) fun ⟨hlookup, hxb⟩ => ?_
      have heq := (hlinked a ha hx).symm.trans (hlinked b hlookup hxb)
      exact hkey (congrArg key (Option.some.inj heq).symm)
    · rw [if_neg hx]
      exact h.linked x b

end PolyBot.General.LinkedIndex
