import Mathlib.Logic.Basic
import Mathlib.Tactic.ByContra

/-! Computations that stop at a division by zero, and the exact conditions under which they get through. A computation
is an option of its result: there is none if it stopped. -/

namespace PolyBot.General.CheckedDivision

variable {α β γ δ : Type}

def divide [Div α] [Zero α] [DecidableEq α] (x y : α) : Option α := if y = 0 then none else some (x / y)

def remainder [Mod α] [Zero α] [DecidableEq α] (x y : α) : Option α := if y = 0 then none else some (x % y)

/-- Goes on with a value if there is one, and returns nothing otherwise. -/
def early (o : Option α) (f : α → Option (Option β)) : Option (Option β) :=
  match o with
  | none => some none
  | some a => f a

def require (t : Prop) [Decidable t] (c : Option (Option β)) : Option (Option β) := if t then c else some none

theorem early_eq {o : Option α} {f : α → Option (Option β)} {g : α → Option β}
    (h : ∀ x, o = some x → f x = some (g x)) : early o f = some (o >>= g) := by
  cases o with
  | none => rfl
  | some x => exact h x rfl

theorem require_eq {t : Prop} [Decidable t] {c : Option (Option β)} {g : Unit → Option β} (h : t → c = some (g ())) :
    require t c = some (guard t >>= g) := by
  by_cases ht : t
  · have hguard : (guard t : Option Unit) = some () := if_pos ht
    rw [require, if_pos ht, hguard]
    exact h ht
  · have hguard : (guard t : Option Unit) = none := if_neg ht
    rw [require, if_neg ht, hguard]
    rfl

/-- The computation gets through exactly if the condition holds, and then with the result that is expected. -/
structure Exactly (c : Option α) (a : α) (p : Prop) : Prop where
  through : p → c = some a
  stops : ¬p → c = none

namespace Exactly
variable {c : Option α} {a : α} {p q : Prop}

theorem eq_some_iff (h : Exactly c a p) : c = some a ↔ p := by
  refine ⟨fun hthrough => ?_, h.through⟩
  by_contra hp
  rw [h.stops hp] at hthrough
  cases hthrough

theorem congr (h : Exactly c a p) (hiff : p ↔ q) : Exactly c a q :=
  ⟨fun hq => h.through (hiff.mpr hq), fun hq => h.stops (mt hiff.mp hq)⟩

theorem of_eq (h : c = some a) (hp : p) : Exactly c a p := ⟨fun _ => h, fun hnot => absurd hp hnot⟩

theorem pure (a : α) : Exactly (some a) a True := of_eq rfl trivial

theorem divide [Div α] [Zero α] [DecidableEq α] (x y : α) :
    Exactly (CheckedDivision.divide x y) (x / y) (y ≠ 0) :=
  ⟨fun hy => if_neg hy, fun hy => if_pos (not_not.mp hy)⟩

theorem map (h : Exactly c a p) (f : α → β) : Exactly (c.map f) (f a) p where
  through hp := by rw [h.through hp, Option.map_some]
  stops hp := by rw [h.stops hp, Option.map_none]

/-- What comes after a computation is only reached if it gets through. -/
theorem bind {f : α → Option β} {b : β} (h : Exactly c a p) (hf : Exactly (f a) b q) :
    Exactly (c.bind f) b (p ∧ q) where
  through hpq := by rw [h.through hpq.1, Option.bind_some, hf.through hpq.2]
  stops hpq := by
    by_cases hp : p
    · rw [h.through hp, Option.bind_some, hf.stops fun hq => hpq ⟨hp, hq⟩]
    · rw [h.stops hp, Option.bind_none]

/-- What comes after a computation and does not divide adds no condition. -/
theorem andThen {f : α → Option β} {b : β} (h : Exactly c a p) (hf : f a = some b) : Exactly (c.bind f) b p :=
  (h.bind (of_eq hf trivial)).congr (iff_of_eq (and_true p))

theorem ite {t : Prop} [Decidable t] {c' : Option α} {a' : α} (h : t → Exactly c a p) (h' : ¬t → Exactly c' a' q) :
    Exactly (if t then c else c') (if t then a else a') ((t → p) ∧ (¬t → q)) := by
  by_cases ht : t
  · rw [if_pos ht, if_pos ht]
    exact (h ht).congr ⟨fun hp => ⟨fun _ => hp, fun hnot => absurd ht hnot⟩, fun hboth => hboth.1 ht⟩
  · rw [if_neg ht, if_neg ht]
    exact (h' ht).congr ⟨fun hq => ⟨fun hyes => absurd hyes ht, fun _ => hq⟩, fun hboth => hboth.2 ht⟩

/-- Where a computation without divisions leads nowhere there is no condition on it. -/
theorem nothing {P : δ → Prop} (h : c = some a) : Exactly c a (∀ y ∈ none, P y) :=
  of_eq h fun y hy => absurd hy (Option.not_mem_none y)

/-- The condition is one on what a computation without divisions leads to, here on the way that it takes too. -/
theorem early {o : Option γ} {f : γ → Option (Option β)} {g : γ → Option β} {k : γ → Option δ} {P : δ → Prop}
    (h : ∀ x, o = some x → Exactly (f x) (g x) (∀ y ∈ k x, P y)) :
    Exactly (CheckedDivision.early o f) (o >>= g) (∀ y ∈ o >>= k, P y) := by
  cases o with
  | none => exact nothing rfl
  | some x => exact h x rfl

theorem require {t : Prop} [Decidable t] {b : Option (Option β)} {g : Unit → Option β} {k : Unit → Option δ}
    {P : δ → Prop} (h : t → Exactly b (g ()) (∀ y ∈ k (), P y)) :
    Exactly (CheckedDivision.require t b) (guard t >>= g) (∀ y ∈ guard t >>= k, P y) := by
  by_cases ht : t
  · have hguard : (guard t : Option Unit) = some () := if_pos ht
    rw [CheckedDivision.require, if_pos ht, hguard]
    exact h ht
  · have hguard : (guard t : Option Unit) = none := if_neg ht
    rw [CheckedDivision.require, if_neg ht, hguard]
    exact nothing rfl

/-- The way has led to its end. -/
theorem reached {x : δ} {P : δ → Prop} (h : Exactly c a (P x)) : Exactly c a (∀ y ∈ some x, P y) :=
  h.congr ⟨fun hx _ heq => Option.some.inj heq ▸ hx, fun hall => hall x rfl⟩

/-- A computation that is only done if a test fails. -/
theorem otherwise {t : Prop} [Decidable t] {off : α} (h : ¬t → Exactly c a p) :
    Exactly (if t then some off else c) (if t then off else a) (¬t → p) := by
  by_cases ht : t
  · rw [if_pos ht, if_pos ht]
    exact of_eq rfl fun hnot => absurd ht hnot
  · rw [if_neg ht, if_neg ht]
    exact (h ht).congr ⟨fun hp _ => hp, fun himp => himp ht⟩

/-- A run gets through exactly if every step meets its condition in the state before it. -/
theorem run {σ ε : Type} {stepChecked : σ → ε → Option σ} {step : σ → ε → σ} {P : σ → ε → Prop}
    (h : ∀ s e, Exactly (stepChecked s e) (step s e) (P s e)) (s : σ) (events : List ε) :
    Exactly (events.foldlM stepChecked s) (events.foldl step s)
      (∀ earlier e later, events = earlier ++ e :: later → P (earlier.foldl step s) e) := by
  induction events generalizing s with
  | nil => exact of_eq rfl fun earlier e later hsplit => by simp at hsplit
  | cons head events ih =>
    refine Exactly.congr ((h s head).bind (ih (step s head))) ⟨?_, ?_⟩
    · rintro ⟨hhead, hrest⟩ earlier e later hsplit
      cases earlier with
      | nil =>
        obtain ⟨rfl, -⟩ := List.cons.inj hsplit
        exact hhead
      | cons _ earlier =>
        obtain ⟨rfl, hlater⟩ := List.cons.inj hsplit
        exact hrest earlier e later hlater
    · intro hall
      refine ⟨hall [] head events rfl, fun earlier e later hsplit => ?_⟩
      exact hall (head :: earlier) e later (congrArg (head :: ·) hsplit)

end Exactly

end PolyBot.General.CheckedDivision
