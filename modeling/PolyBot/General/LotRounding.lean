import Mathlib.Data.Nat.GCD.Basic
import Mathlib.Order.MinMax

/-! Rounding down to whole lots, and when two lot sizes round a number alike. -/

namespace PolyBot.General.LotRounding

def floorTo (a s : ℕ) : ℕ := s / a * a

theorem floorTo_add_mod (a s : ℕ) : floorTo a s + s % a = s := Nat.div_add_mod' s a

theorem floorTo_le (a s : ℕ) : floorTo a s ≤ s := Nat.div_mul_le_self s a

theorem lt_floorTo_add {a : ℕ} (ha : 0 < a) (s : ℕ) : s < floorTo a s + a := by
  have hmod := Nat.mod_lt s ha
  have hsplit := floorTo_add_mod a s
  omega

private theorem lcm_pos {a b : ℕ} (ha : 0 < a) (hb : 0 < b) : 0 < Nat.lcm a b := Nat.lcm_pos ha hb

private theorem mod_eq_of_lcm_mod {a b s r : ℕ} (h : s % Nat.lcm a b = r) : s % a = r % a ∧ s % b = r % b := by
  rw [← h]
  exact ⟨(Nat.mod_mod_of_dvd s (Nat.dvd_lcm_left a b)).symm, (Nat.mod_mod_of_dvd s (Nat.dvd_lcm_right a b)).symm⟩

/-- Two lots round down alike exactly when what is left over their common multiple is less than both. -/
theorem floorTo_eq_iff {a b : ℕ} (ha : 0 < a) (hb : 0 < b) (s : ℕ) :
    floorTo a s = floorTo b s ↔ s % Nat.lcm a b < min a b := by
  have hsa := floorTo_add_mod a s
  have hsb := floorTo_add_mod b s
  constructor
  · intro heq
    have hr : s % a = s % b := by omega
    have hdvd : Nat.lcm a b ∣ floorTo a s :=
      Nat.lcm_dvd (Nat.dvd_mul_left a (s / a)) (heq ▸ Nat.dvd_mul_left b (s / b))
    have hlt : s % a < Nat.lcm a b := (Nat.mod_lt s ha).trans_le (Nat.le_of_dvd (lcm_pos ha hb) (Nat.dvd_lcm_left a b))
    have hmod : s % Nat.lcm a b = s % a := by
      conv_lhs => rw [← hsa]
      obtain ⟨k, hk⟩ := hdvd
      rw [hk, Nat.mul_add_mod, Nat.mod_eq_of_lt hlt]
    rw [hmod, lt_min_iff]
    exact ⟨Nat.mod_lt s ha, hr ▸ Nat.mod_lt s hb⟩
  · intro hlt
    obtain ⟨hra, hrb⟩ := lt_min_iff.mp hlt
    obtain ⟨hma, hmb⟩ := mod_eq_of_lcm_mod (s := s) (a := a) (b := b) rfl
    rw [Nat.mod_eq_of_lt hra] at hma
    rw [Nat.mod_eq_of_lt hrb] at hmb
    omega

/-- What is missing to the next whole lot, when the common multiple is missed by no more than a lot. -/
private theorem floorTo_add_eq {a s m t : ℕ} (hdvd : a ∣ m) (hm : s + t = m) (ht : 0 < t) (hta : t ≤ a) :
    floorTo a s + a = s + t := by
  obtain ⟨k, rfl⟩ := hdvd
  have hk : 0 < k := Nat.pos_of_ne_zero (by rintro rfl; omega)
  obtain ⟨j, rfl⟩ := Nat.exists_eq_add_of_lt hk
  rw [Nat.zero_add, Nat.mul_succ] at hm
  have hdiv : s / a = j := by
    apply Nat.div_eq_of_lt_le
    · rw [Nat.mul_comm]
      omega
    · rw [Nat.mul_comm, Nat.mul_succ]
      omega
  rw [floorTo, hdiv, Nat.mul_comm]
  omega

/-- Two lots round up past `s` alike exactly when their common multiple is missed by no more than either. -/
theorem floorTo_add_eq_iff {a b : ℕ} (ha : 0 < a) (hb : 0 < b) (s : ℕ) :
    floorTo a s + a = floorTo b s + b ↔ Nat.lcm a b - min a b ≤ s % Nat.lcm a b := by
  have hL := lcm_pos ha hb
  have hla : a ≤ Nat.lcm a b := Nat.le_of_dvd hL (Nat.dvd_lcm_left a b)
  have hmod := Nat.mod_lt s hL
  have hdiv := Nat.div_add_mod s (Nat.lcm a b)
  constructor
  · intro heq
    have hdvd : Nat.lcm a b ∣ floorTo a s + a := by
      apply Nat.lcm_dvd
      · exact Nat.dvd_add (Nat.dvd_mul_left a (s / a)) (dvd_refl a)
      · rw [heq]
        exact Nat.dvd_add (Nat.dvd_mul_left b (s / b)) (dvd_refl b)
    have hlt := lt_floorTo_add ha s
    have hup : floorTo a s + a ≤ s + min a b := by
      have hlea := floorTo_le a s
      have hleb := floorTo_le b s
      rcases min_choice a b with h | h <;> rw [h] <;> omega
    obtain ⟨k, hk⟩ := hdvd
    have hnext : s / Nat.lcm a b < k := by
      by_contra hge
      have hmul := Nat.mul_le_mul_left (Nat.lcm a b) (not_lt.mp hge)
      omega
    have hmul := Nat.mul_le_mul_left (Nat.lcm a b) (Nat.succ_le_of_lt hnext)
    rw [Nat.mul_succ] at hmul
    omega
  · intro hle
    have hmina : min a b ≤ a := min_le_left a b
    have hminb : min a b ≤ b := min_le_right a b
    have hnext : s + (Nat.lcm a b - s % Nat.lcm a b) = Nat.lcm a b * (s / Nat.lcm a b + 1) := by
      rw [Nat.mul_succ]
      omega
    have hta : floorTo a s + a = s + (Nat.lcm a b - s % Nat.lcm a b) :=
      floorTo_add_eq ((Nat.dvd_lcm_left a b).mul_right _) hnext (by omega) (by omega)
    have htb : floorTo b s + b = s + (Nat.lcm a b - s % Nat.lcm a b) :=
      floorTo_add_eq ((Nat.dvd_lcm_right a b).mul_right _) hnext (by omega) (by omega)
    omega

theorem floorTo_add_ne {a : ℕ} (ha : 0 < a) (b s : ℕ) : floorTo a s + a ≠ floorTo b s := by
  have hlt := lt_floorTo_add ha s
  have hle := floorTo_le b s
  omega

end PolyBot.General.LotRounding
