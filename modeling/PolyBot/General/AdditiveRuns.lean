import Mathlib.Algebra.BigOperators.Group.List.Basic
import Mathlib.Algebra.Group.Basic
import Mathlib.Algebra.Order.Monoid.Canonical.Defs
import Mathlib.Data.List.Induction

/-! Runs of a step function: what holds of every step, and measures of the state to which every step adds a
known amount. -/

namespace PolyBot.General.AdditiveRuns

variable {σ α M : Type*}

section Unconditional
variable [AddCommMonoid M] {step : σ → α → σ} {measure : σ → M} {contribution : α → M}

/-- Every step adds its own contribution, whatever the state it starts from. -/
def Accumulates (step : σ → α → σ) (measure : σ → M) (contribution : α → M) : Prop :=
  ∀ s a, measure (step s a) = measure s + contribution a

theorem Accumulates.foldl (h : Accumulates step measure contribution) (s : σ) (l : List α) :
    measure (l.foldl step s) = measure s + (l.map contribution).sum := by
  induction l generalizing s with
  | nil => simp
  | cons a l ih =>
    rw [List.foldl_cons, ih, h, List.map_cons, List.sum_cons, add_assoc]

/-- The measure does not see the order of the steps. -/
theorem Accumulates.foldl_perm (h : Accumulates step measure contribution) (s : σ) {l l' : List α}
    (hp : l.Perm l') : measure (l.foldl step s) = measure (l'.foldl step s) := by
  rw [h.foldl, h.foldl, (hp.map contribution).sum_eq]

end Unconditional

section EveryStep
variable {step : σ → α → σ}

/-- `p` holds of every step of the run of `l` from `s`, in the state the step starts from. -/
def Throughout (step : σ → α → σ) (p : σ → α → Prop) : σ → List α → Prop
  | _, [] => True
  | s, a :: l => p s a ∧ Throughout step p (step s a) l

instance decidableThroughout {p : σ → α → Prop} [∀ s a, Decidable (p s a)] (s : σ) (l : List α) :
    Decidable (Throughout step p s l) :=
  match l with
  | [] => inferInstanceAs (Decidable True)
  | a :: l =>
    have := decidableThroughout (p := p) (step s a) l
    inferInstanceAs (Decidable (p s a ∧ Throughout step p (step s a) l))

theorem Throughout.of_forall_mem {p : σ → α → Prop} {s : σ} {l : List α} (h : ∀ s, ∀ a ∈ l, p s a) :
    Throughout step p s l := by
  induction l generalizing s with
  | nil => trivial
  | cons a l ih => exact ⟨h s a (by simp), ih fun s b hb => h s b (by simp [hb])⟩

theorem throughout_append_iff {p : σ → α → Prop} {s : σ} {l l' : List α} :
    Throughout step p s (l ++ l') ↔ Throughout step p s l ∧ Throughout step p (l.foldl step s) l' := by
  induction l generalizing s with
  | nil => exact (and_iff_right trivial).symm
  | cons a l ih => simp only [List.cons_append, Throughout, List.foldl_cons, ih, and_assoc]

theorem throughout_and_iff {p q : σ → α → Prop} {s : σ} {l : List α} :
    Throughout step (fun s a => p s a ∧ q s a) s l ↔ Throughout step p s l ∧ Throughout step q s l := by
  induction l generalizing s with
  | nil => exact (and_iff_right trivial).symm
  | cons a l ih =>
    simp only [Throughout, ih]
    exact and_and_and_comm

theorem throughout_iff_prefixes {p : σ → α → Prop} {s : σ} {l : List α} :
    Throughout step p s l ↔ ∀ before a, before ++ [a] <+: l → p (before.foldl step s) a := by
  induction l using List.reverseRecOn with
  | nil => exact iff_of_true trivial fun before a h => by simp at h
  | append_singleton l b ih =>
    rw [throughout_append_iff, ih]
    constructor
    · rintro ⟨hbefore, hlast, -⟩ before a hp
      rcases List.prefix_concat_iff.mp hp with heq | hp
      · obtain ⟨rfl, rfl⟩ := List.append_singleton_inj.mp heq
        exact hlast
      · exact hbefore before a hp
    · intro h
      exact ⟨fun before a hp => h before a (hp.trans (List.prefix_append _ _)), h l b List.prefix_rfl, trivial⟩

/-- What steps of a kind preserve holds at the end of a run of such steps. -/
theorem Throughout.foldl_induction {Inv : σ → Prop} {p : σ → α → Prop}
    (hkeep : ∀ s a, Inv s → p s a → Inv (step s a)) {s : σ} {l : List α} (hs : Inv s)
    (h : Throughout step p s l) : Inv (l.foldl step s) := by
  induction l generalizing s with
  | nil => exact hs
  | cons a l ih => exact ih (hkeep s a hs h.1) h.2

theorem forall_prefix_concat_iff {P : List α → Prop} {l : List α} {a : α} :
    (∀ p, p <+: l ++ [a] → P p) ↔ (∀ p, p <+: l → P p) ∧ P (l ++ [a]) := by
  constructor
  · intro h
    exact ⟨fun p hp => h p (hp.trans (List.prefix_append _ _)), h _ List.prefix_rfl⟩
  · rintro ⟨hbefore, hlast⟩ p hp
    rcases List.prefix_concat_iff.mp hp with rfl | hp
    · exact hlast
    · exact hbefore p hp

theorem forall_prefix_cons_iff {P : List α → Prop} {a : α} {l : List α} :
    (∀ p, p <+: a :: l → P p) ↔ P [] ∧ ∀ p, p <+: l → P (a :: p) := by
  constructor
  · intro h
    exact ⟨h [] List.nil_prefix, fun p hp => h (a :: p) (List.cons_prefix_cons.mpr ⟨rfl, hp⟩)⟩
  · rintro ⟨hnil, hcons⟩ p hp
    cases p with
    | nil => exact hnil
    | cons b p =>
      obtain ⟨rfl, hpl⟩ := List.cons_prefix_cons.mp hp
      exact hcons p hpl

/-- A property holds after every prefix of a run exactly if it holds at first and after every step. -/
theorem forall_prefix_iff {Q : σ → Prop} {s : σ} {l : List α} :
    (∀ p, p <+: l → Q (p.foldl step s)) ↔ Q s ∧ Throughout step (fun s a => Q (step s a)) s l := by
  induction l generalizing s with
  | nil => simp [Throughout]
  | cons a l ih =>
    have hcons : (∀ p, p <+: a :: l → Q (p.foldl step s)) ↔ Q s ∧ ∀ p, p <+: l → Q (p.foldl step (step s a)) := by
      constructor
      · intro h
        exact ⟨h [] List.nil_prefix, fun p hp => h (a :: p) (by simpa using hp)⟩
      · rintro ⟨hs, h⟩ p hp
        cases p with
        | nil => exact hs
        | cons b p =>
          obtain ⟨rfl, hpl⟩ := List.cons_prefix_cons.mp hp
          exact h p hpl
    rw [hcons, ih]
    rfl

/-- A step condition that keeps an invariant and implies another condition under it implies it of whole runs. -/
theorem throughout_imp (Inv : σ → Prop) {p q : σ → α → Prop} (hkeep : ∀ s a, Inv s → p s a → Inv (step s a))
    (himp : ∀ s a, Inv s → p s a → q s a) {s : σ} {l : List α} (hs : Inv s) (h : Throughout step p s l) :
    Throughout step q s l := by
  induction l generalizing s with
  | nil => trivial
  | cons a l ih => exact ⟨himp s a hs h.1, ih (hkeep s a hs h.1) h.2⟩

/-- Two step conditions that agree wherever an invariant holds and a step is `ok` hold of the same runs of `ok`
steps, if the first keeps the invariant. -/
theorem throughout_congr_of (Inv : σ → Prop) {ok p q : σ → α → Prop}
    (hkeep : ∀ s a, Inv s → ok s a → p s a → Inv (step s a)) (hiff : ∀ s a, Inv s → ok s a → (p s a ↔ q s a))
    {s : σ} {l : List α} (hs : Inv s) (hok : Throughout step ok s l) :
    Throughout step p s l ↔ Throughout step q s l := by
  induction l generalizing s with
  | nil => exact Iff.rfl
  | cons a l ih =>
    have hhead := hiff s a hs hok.1
    constructor
    · rintro ⟨hp, hrest⟩
      exact ⟨hhead.mp hp, (ih (hkeep s a hs hok.1 hp) hok.2).mp hrest⟩
    · rintro ⟨hq, hrest⟩
      have hp := hhead.mpr hq
      exact ⟨hp, (ih (hkeep s a hs hok.1 hp) hok.2).mpr hrest⟩

/-- Two step conditions that agree wherever an invariant holds hold of the same runs, if the first keeps the
invariant. -/
theorem throughout_congr (Inv : σ → Prop) {p q : σ → α → Prop} (hkeep : ∀ s a, Inv s → p s a → Inv (step s a))
    (hiff : ∀ s a, Inv s → (p s a ↔ q s a)) {s : σ} {l : List α} (hs : Inv s) :
    Throughout step p s l ↔ Throughout step q s l :=
  have hok : Throughout step (fun _ _ => True) s l := .of_forall_mem fun _ _ _ => trivial
  throughout_congr_of Inv (fun s a hs _ => hkeep s a hs) (fun s a hs _ => hiff s a hs) hs hok

/-- A property that holds first and not at the end of a run has a last state in which it holds, and the step from
there breaks it. -/
theorem exists_last_of_not {Q : σ → Prop} {s : σ} {l : List α} (hs : Q s) (hend : ¬Q (l.foldl step s)) :
    ∃ before a after, l = before ++ a :: after ∧ Q (before.foldl step s) ∧
      ∀ r, r <+: after → ¬Q ((before ++ a :: r).foldl step s) := by
  induction l using List.reverseRecOn with
  | nil => exact absurd hs hend
  | append_singleton l b ih =>
    by_cases hl : Q (l.foldl step s)
    · refine ⟨l, b, [], rfl, hl, fun r hr => ?_⟩
      rw [List.prefix_nil.mp hr]
      exact hend
    · obtain ⟨before, a, after, rfl, hbefore, hafter⟩ := ih hl
      refine ⟨before, a, after ++ [b], by simp, hbefore, fun r hr => ?_⟩
      rcases List.prefix_concat_iff.mp hr with rfl | hr
      · simpa using hend
      · exact hafter r hr

end EveryStep

section Conditional
variable [AddGroup M] {step : σ → α → σ} {contribution : σ → α → M} {ok : σ → α → Prop}

def total (step : σ → α → σ) (contribution : σ → α → M) : σ → List α → M
  | _, [] => 0
  | s, a :: l => contribution s a + total step contribution (step s a) l

/-- When a step adds its contribution exactly if it is `ok`, the running total is right after every
prefix of a run exactly if every step of the run is `ok`. -/
theorem prefixes_exact_iff (measure : σ → M) {s : σ} {l : List α}
    (h : Throughout step (fun s a => measure (step s a) = measure s + contribution s a ↔ ok s a) s l) :
    (∀ p, p <+: l → measure (p.foldl step s) = measure s + total step contribution s p) ↔
      Throughout step ok s l := by
  induction l generalizing s with
  | nil => simp [Throughout, total]
  | cons a l ih =>
    obtain ⟨ha, hl⟩ := h
    constructor
    · intro hp
      have hone := hp [a] (by simp)
      have hstep : measure (step s a) = measure s + contribution s a := by
        simpa [total] using hone
      refine ⟨ha.mp hstep, (ih hl).mp fun p hpl => ?_⟩
      have hrun := hp (a :: p) (by simpa using hpl)
      rw [List.foldl_cons, total, ← add_assoc, ← hstep] at hrun
      exact hrun
    · rintro ⟨hok, hrest⟩ p hp
      cases p with
      | nil => simp [total]
      | cons b p =>
        obtain ⟨rfl, hpl⟩ := List.cons_prefix_cons.mp hp
        rw [List.foldl_cons, total, (ih hl).mpr hrest p hpl, ha.mpr hok, add_assoc]

end Conditional

section Balance
variable [AddCommMonoid M] {step : σ → α → σ} {measure : σ → M} {paid earned f g : σ → α → M}

def sumAlong (step : σ → α → σ) (f : σ → α → M) : σ → List α → M
  | _, [] => 0
  | s, a :: l => f s a + sumAlong step f (step s a) l

theorem sumAlong_add (s : σ) (l : List α) :
    sumAlong step (fun s a => f s a + g s a) s l = sumAlong step f s l + sumAlong step g s l := by
  induction l generalizing s with
  | nil => exact (add_zero 0).symm
  | cons a l ih => rw [sumAlong, sumAlong, sumAlong, ih, add_add_add_comm]

/-- If every step balances what it earns against what it pays, so does every run. -/
theorem balance_run (h : ∀ s a, measure (step s a) + paid s a = measure s + earned s a) (s : σ) (l : List α) :
    measure (l.foldl step s) + sumAlong step paid s l = measure s + sumAlong step earned s l := by
  induction l generalizing s with
  | nil => rfl
  | cons a l ih =>
    rw [List.foldl_cons, sumAlong, sumAlong, add_left_comm, ih, add_left_comm, ← add_assoc, ← add_assoc, h]

theorem sumAlong_eq_zero_iff [PartialOrder M] [CanonicallyOrderedAdd M] (s : σ) (l : List α) :
    sumAlong step f s l = 0 ↔ Throughout step (fun s a => f s a = 0) s l := by
  induction l generalizing s with
  | nil => exact iff_of_true rfl trivial
  | cons a l ih => rw [sumAlong, add_eq_zero, ih, Throughout]

end Balance

end PolyBot.General.AdditiveRuns
