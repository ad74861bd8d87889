import Mathlib.Data.List.Basic
import Mathlib.Data.List.Infix

/-! Logs that keep only their latest entries: one that grows at its end and drops its oldest entries in one block when
it passes a cap, and windows with the newest entry first. -/

namespace PolyBot.General.CappedLog

variable {α : Type*} {cap block : ℕ} {full log : List α}

def push (cap block : ℕ) (log : List α) (x : α) : List α :=
  if cap < (log ++ [x]).length then (log ++ [x]).drop block else log ++ [x]

structure Retains (cap block : ℕ) (full log : List α) : Prop where
  suffix : log <:+ full
  length_le : log.length ≤ cap
  le_length : min full.length (cap + 1 - block) ≤ log.length

theorem Retains.nil : Retains cap block ([] : List α) [] :=
  ⟨List.suffix_rfl, Nat.zero_le _, by simp⟩

theorem Retains.push (hblock : 0 < block) (h : Retains cap block full log) (x : α) :
    Retains cap block (full ++ [x]) (push cap block log x) := by
  have hsuffix : log ++ [x] <:+ full ++ [x] := by
    obtain ⟨t, ht⟩ := h.suffix
    exact ⟨t, by rw [← List.append_assoc, ht]⟩
  have hle := h.length_le
  have hge := h.le_length
  unfold CappedLog.push
  split
  · rename_i hfull
    refine ⟨(List.drop_suffix _ _).trans hsuffix, ?_, ?_⟩
    · simp only [List.length_drop, List.length_append, List.length_singleton]
      omega
    · simp only [List.length_drop, List.length_append, List.length_singleton] at hfull ⊢
      omega
  · rename_i hroom
    refine ⟨hsuffix, by omega, ?_⟩
    simp only [List.length_append, List.length_singleton] at hroom ⊢
    omega

/-- A window shows the same of two logs, whatever it did not show of them, when both have grown by one entry. -/
theorem take_cons_congr {n : ℕ} {log log' : List α} (h : log.take n = log'.take n) (x : α) :
    (x :: log).take n = (x :: log').take n := by
  cases n with
  | zero => rfl
  | succ n =>
    have hshorter := congrArg (List.take n) h
    rw [List.take_take, List.take_take, Nat.min_eq_left (Nat.le_succ n)] at hshorter
    rw [List.take_succ_cons, List.take_succ_cons, hshorter]

end PolyBot.General.CappedLog
