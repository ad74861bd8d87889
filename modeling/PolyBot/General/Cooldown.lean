import Mathlib.Data.Option.Basic
import Mathlib.Order.Basic
import Mathlib.Data.Nat.Basic

/-! Tables of the times at which keys were last claimed, and steps that claim a key only when a gap has passed. -/

namespace PolyBot.General.Cooldown

variable {σ α κ : Type*}

def Elapsed (gap : ℕ) (last : Option ℕ) (now : ℕ) : Prop := ∀ t, last = some t → gap ≤ now - t

/-- What a step at `now` does to a table: it writes nothing but its own time, and that only where the gap has passed,
as it does for every key that it claims. -/
structure Paced (gap now : ℕ) (before after : κ → Option ℕ) (claimed : κ → Prop) : Prop where
  moves : ∀ k, after k = before k ∨ after k = some now ∧ Elapsed gap (before k) now
  claims : ∀ k, claimed k → after k = some now ∧ Elapsed gap (before k) now

section Table
variable {gap now : ℕ} {before middle after : κ → Option ℕ} {claimed claimed' : κ → Prop}

theorem Paced.refl (gap now : ℕ) (table : κ → Option ℕ) (hnone : ∀ k, ¬claimed k) :
    Paced gap now table table claimed :=
  ⟨fun _ => .inl rfl, fun k hk => absurd hk (hnone k)⟩

theorem Paced.mono (h : Paced gap now before after claimed) (himp : ∀ k, claimed' k → claimed k) :
    Paced gap now before after claimed' :=
  ⟨h.moves, fun k hk => h.claims k (himp k hk)⟩

/-- Two steps at the same time are one. -/
theorem Paced.trans (h : Paced gap now before middle claimed) (h' : Paced gap now middle after claimed') :
    Paced gap now before after fun k => claimed k ∨ claimed' k := by
  have hlast : ∀ k, after k = middle k ∨ after k = some now := fun k => (h'.moves k).imp_right And.left
  refine ⟨fun k => ?_, fun k hk => ?_⟩
  · rcases h.moves k with hsame | ⟨hnow, hgap⟩
    · rw [← hsame]
      exact h'.moves k
    · exact .inr ⟨(hlast k).elim (fun heq => heq.trans hnow) id, hgap⟩
  · rcases hk with hk | hk
    · obtain ⟨hnow, hgap⟩ := h.claims k hk
      exact ⟨(hlast k).elim (fun heq => heq.trans hnow) id, hgap⟩
    · obtain ⟨hnow, hgap⟩ := h'.claims k hk
      rcases h.moves k with hsame | ⟨-, hbefore⟩
      · exact ⟨hnow, hsame ▸ hgap⟩
      · exact ⟨hnow, hbefore⟩

/-- A positive gap lets no key be claimed twice at the same time. -/
theorem Paced.not_claimed_again (hgap : 0 < gap) (h : Paced gap now before middle claimed)
    (h' : Paced gap now middle after claimed') {k : κ} (hk : claimed k) : ¬claimed' k := by
  intro hk'
  have hzero := (h'.claims k hk').2 now (h.claims k hk).1
  rw [Nat.sub_self] at hzero
  exact hgap.not_ge hzero

end Table

section Runs
variable {step : σ → α → σ} {table : σ → κ → Option ℕ} {now : α → ℕ} {claims : σ → α → κ → Prop} {gap : ℕ}

/-- A run of paced steps keeps the time of a claim, or one that is no earlier unless the gap is nothing. -/
theorem claim_lasts {Inv : σ → Prop} (hkeep : ∀ s a, Inv s → Inv (step s a))
    (hpaced : ∀ s a, Inv s → Paced gap (now a) (table s) (table (step s a)) (claims s a)) {s : σ} (hs : Inv s)
    {k : κ} {first : ℕ} (hclaim : ∃ t, table s k = some t ∧ (gap = 0 ∨ first ≤ t)) (l : List α) :
    Inv (l.foldl step s) ∧ ∃ t, table (l.foldl step s) k = some t ∧ (gap = 0 ∨ first ≤ t) := by
  induction l generalizing s with
  | nil => exact ⟨hs, hclaim⟩
  | cons a l ih =>
    refine ih (hkeep s a hs) ?_
    obtain ⟨t, ht, hfirst⟩ := hclaim
    rcases (hpaced s a hs).moves k with hsame | ⟨hnow, hgap⟩
    · exact ⟨t, hsame.trans ht, hfirst⟩
    · have hle := hgap t ht
      refine ⟨now a, hnow, ?_⟩
      rcases Nat.eq_zero_or_pos gap with hzero | hpos
      · exact .inl hzero
      · have hlater : first ≤ t := hfirst.resolve_left hpos.ne'
        exact .inr (by omega)

/-- Two claims of the same key in a run of paced steps are at least the gap apart. -/
theorem claims_spaced {Inv : σ → Prop} (hkeep : ∀ s a, Inv s → Inv (step s a))
    (hpaced : ∀ s a, Inv s → Paced gap (now a) (table s) (table (step s a)) (claims s a)) {s : σ} (hs : Inv s)
    {a b : α} {between : List α} {k : κ} (ha : claims s a k)
    (hb : claims (between.foldl step (step s a)) b k) : gap ≤ now b - now a := by
  have hfirst : ∃ t, table (step s a) k = some t ∧ (gap = 0 ∨ now a ≤ t) :=
    ⟨now a, ((hpaced s a hs).claims k ha).1, .inr (le_refl _)⟩
  obtain ⟨hinv, t, ht, hle⟩ := claim_lasts hkeep hpaced (hkeep s a hs) hfirst between
  have hgap := ((hpaced _ b hinv).claims k hb).2 t ht
  rcases hle with hzero | hle
  · rw [hzero]
    exact Nat.zero_le _
  · omega

end Runs

end PolyBot.General.Cooldown
