import Mathlib.Algebra.Field.Rat
import Mathlib.Algebra.Order.Ring.Int
import Mathlib.Data.List.TakeWhile
import Mathlib.Tactic.Ring

/-! Decimal numbers with a fixed number of fractional digits, how they are written and how they are read back. -/

namespace PolyBot.General.DecimalText

/-- The decimal `mantissa / 10 ^ scale`, written with `scale` fractional digits. The mantissa has 96 bits. -/
@[ext] structure ScaledDecimal where
  mantissa : ℤ
  scale : ℕ
  mantissa_lt : mantissa.natAbs < 2 ^ 96
  scale_le : scale ≤ 28
  deriving DecidableEq, Repr

def lowDigits : ℕ → ℕ → List Char
  | 0, _ => []
  | k + 1, n => (n / 10 ^ k % 10).digitChar :: lowDigits k n

def readNat (cs : List Char) : Option ℕ :=
  if cs ≠ [] ∧ cs.all Char.isDigit then some (Nat.ofDigitChars 10 cs 0) else none

def readSign : List Char → Bool × List Char
  | '-' :: cs => (true, cs)
  | '+' :: cs => (false, cs)
  | cs => (false, cs)

def signed (negative : Bool) (n : ℕ) : ℤ := if negative then -n else n

theorem natAbs_signed (negative : Bool) (n : ℕ) : (signed negative n).natAbs = n := by
  cases negative <;> simp [signed]

def parseI64 (s : String) : Option ℤ :=
  let (negative, cs) := readSign s.toList
  match readNat cs with
  | none => none
  | some n => if -2 ^ 63 ≤ signed negative n ∧ signed negative n < 2 ^ 63 then some (signed negative n) else none

namespace ScaledDecimal

def value (d : ScaledDecimal) : ℚ := d.mantissa / 10 ^ d.scale

def digits (d : ScaledDecimal) : List Char :=
  let whole := Nat.toDigits 10 (d.mantissa.natAbs / 10 ^ d.scale)
  if d.scale = 0 then whole else whole ++ '.' :: lowDigits d.scale d.mantissa.natAbs

def text (d : ScaledDecimal) : String := .ofList (if d.mantissa < 0 then '-' :: d.digits else d.digits)

/-- A decimal that is not negative; parts that are out of range wrap around. -/
def ofParts (mantissa scale : ℕ) : ScaledDecimal :=
  ⟨(mantissa % 2 ^ 96 : ℕ), scale % 29, Nat.mod_lt mantissa (by decide), Nat.le_of_lt_succ (Nat.mod_lt scale (by decide))⟩

/-- How far a text has been read: the number so far, its digits behind the point, and whether the point and any digit
have been read. -/
structure Reading where
  mantissa : ℕ
  scale : ℕ
  point : Bool
  digit : Bool
  mantissa_lt : mantissa < 2 ^ 96
  scale_le : scale ≤ 28

namespace Reading

def start : Reading := ⟨0, 0, false, false, by decide, by decide⟩

def signed (r : Reading) (negative : Bool) : ScaledDecimal :=
  ⟨DecimalText.signed negative r.mantissa, r.scale, by rw [natAbs_signed]; exact r.mantissa_lt, r.scale_le⟩

/-- Where no more digits fit the next character rounds the number, and what follows it is not read. A number that then
has 97 bits gives up its last digit. -/
def round (r : Reading) (negative : Bool) (c : Char) : Option ScaledDecimal :=
  if c.isDigit = false ∧ c ≠ '_' ∧ c ≠ '.' then none
  else if c.isDigit = false ∨ c.toNat - '0'.toNat < 5 then some (r.signed negative)
  else if h : r.mantissa + 1 < 2 ^ 96 then some ({ r with mantissa := r.mantissa + 1, mantissa_lt := h }.signed negative)
  else if r.scale = 0 then none
  else
    some ({ r with
      mantissa := (r.mantissa + 5) / 10
      scale := r.scale - 1
      mantissa_lt := by have := r.mantissa_lt; omega
      scale_le := (Nat.sub_le _ _).trans r.scale_le }.signed negative)

def push (r : Reading) (c : Char) (hroom : ¬(r.point = true ∧ r.scale = 28))
    (hlt : 10 * r.mantissa + (c.toNat - '0'.toNat) < 2 ^ 96) : Reading where
  mantissa := 10 * r.mantissa + (c.toNat - '0'.toNat)
  scale := if r.point then r.scale + 1 else r.scale
  point := r.point
  digit := true
  mantissa_lt := hlt
  scale_le := by
    split
    · rename_i hpoint
      exact Nat.succ_le_of_lt (lt_of_le_of_ne r.scale_le fun hfull => hroom ⟨hpoint, hfull⟩)
    · exact r.scale_le

def read (negative : Bool) : Reading → List Char → Option ScaledDecimal
  | r, [] => if r.digit then some (r.signed negative) else none
  | r, c :: cs =>
    if hfull : r.point = true ∧ r.scale = 28 then r.round negative c
    else if c.isDigit then
      if hlt : 10 * r.mantissa + (c.toNat - '0'.toNat) < 2 ^ 96 then read negative (r.push c hfull hlt) cs
      else if r.point then r.round negative c
      else none
    else if c = '.' ∧ r.point = false then read negative { r with point := true } cs
    else if c = '_' ∧ r.digit = true then read negative r cs
    else none

end Reading

def fromStr (s : String) : Option ScaledDecimal :=
  let (negative, cs) := readSign s.toList
  Reading.start.read negative cs

end ScaledDecimal

theorem length_lowDigits (k n : ℕ) : (lowDigits k n).length = k := by
  induction k with
  | zero => rfl
  | succ k ih => rw [lowDigits, List.length_cons, ih]

theorem isDigit_of_mem_lowDigits {k n : ℕ} {c : Char} (h : c ∈ lowDigits k n) : c.isDigit := by
  induction k with
  | zero => cases h
  | succ k ih =>
    rcases List.mem_cons.mp h with rfl | h
    · simp [Nat.mod_lt]
    · exact ih h

theorem ofDigitChars_lowDigits (k n init : ℕ) :
    Nat.ofDigitChars 10 (lowDigits k n) init = init * 10 ^ k + n % 10 ^ k := by
  induction k generalizing init with
  | zero => simp [lowDigits, Nat.mod_one]
  | succ k ih =>
    rw [lowDigits, Nat.ofDigitChars_cons_digitChar_of_lt_ten (Nat.mod_lt _ (by omega)), ih, Nat.mod_pow_succ]
    ring

theorem signed_natAbs (i : ℤ) : signed (decide (i < 0)) i.natAbs = i := by
  unfold signed
  split
  · rename_i hneg
    have hlt := of_decide_eq_true hneg
    omega
  · rename_i hpos
    have hle := of_decide_eq_false (Bool.eq_false_iff.mpr hpos)
    omega

theorem readSign_of_isDigit {c : Char} {cs : List Char} (h : c.isDigit) : readSign (c :: cs) = (false, c :: cs) := by
  unfold readSign
  split
  · rename_i heq
    obtain ⟨rfl, -⟩ := List.cons.inj heq
    exact absurd h (by decide)
  · rename_i heq
    obtain ⟨rfl, -⟩ := List.cons.inj heq
    exact absurd h (by decide)
  · rfl

namespace ScaledDecimal
variable (d : ScaledDecimal)

theorem isDigit_whole {n : ℕ} {c : Char} (h : c ∈ Nat.toDigits 10 n) : c.isDigit :=
  Nat.isDigit_of_mem_toDigits (by decide) (by decide) h

theorem readSign_text : readSign d.text.toList = (decide (d.mantissa < 0), d.digits) := by
  rw [text, String.toList_ofList]
  split
  · rename_i hneg
    simp [readSign, hneg]
  · rename_i hpos
    rw [decide_eq_false hpos]
    obtain ⟨c, cs, hcs⟩ :=
      List.exists_cons_of_ne_nil (Nat.toDigits_ne_nil (b := 10) (n := d.mantissa.natAbs / 10 ^ d.scale))
    have hc : c.isDigit := isDigit_whole (hcs ▸ List.mem_cons_self)
    unfold digits
    split
    · rw [hcs, readSign_of_isDigit hc]
    · rw [hcs, List.cons_append, readSign_of_isDigit hc]

theorem readNat_whole (n : ℕ) : readNat (Nat.toDigits 10 n) = some n := by
  rw [readNat, if_pos ⟨Nat.toDigits_ne_nil, List.all_eq_true.mpr fun c hc => isDigit_whole hc⟩,
    Nat.ofDigitChars_ten_toDigits]

/-- A number is read back from its text. -/
theorem toString_nat_inj {m n : ℕ} (h : toString m = toString n) : m = n := by
  have hread : ∀ k : ℕ, readNat (toString k).toList = some k := by
    intro k
    have htext : (toString k).toList = Nat.toDigits 10 k := Nat.toList_repr
    rw [htext, readNat_whole]
  have hsome := hread m
  rw [h, hread] at hsome
  exact (Option.some.inj hsome).symm

theorem le_ofDigitChars (cs : List Char) (n : ℕ) : n ≤ Nat.ofDigitChars 10 cs n := by
  induction cs generalizing n with
  | nil => exact le_rfl
  | cons c cs ih =>
    rw [Nat.ofDigitChars_cons]
    exact le_trans (by omega) (ih _)

/-- Digits that fit are read one after another. -/
theorem Reading.read_digits (negative : Bool) (rest : List Char) {cs : List Char} (hdigits : ∀ c ∈ cs, c.isDigit)
    (r : Reading) (hlt : Nat.ofDigitChars 10 cs r.mantissa < 2 ^ 96)
    (hscale : r.point = true → r.scale + cs.length ≤ 28) :
    ∃ r' : Reading, r.read negative (cs ++ rest) = r'.read negative rest ∧
      r'.mantissa = Nat.ofDigitChars 10 cs r.mantissa ∧
      r'.scale = (if r.point then r.scale + cs.length else r.scale) ∧ r'.point = r.point ∧
      (cs ≠ [] ∨ r.digit = true → r'.digit = true) := by
  induction cs generalizing r with
  | nil => exact ⟨r, rfl, rfl, by simp, rfl, by simp⟩
  | cons c cs ih =>
    obtain ⟨hc, hcs⟩ := List.forall_mem_cons.mp hdigits
    rw [Nat.ofDigitChars_cons] at hlt
    have hnext : 10 * r.mantissa + (c.toNat - '0'.toNat) < 2 ^ 96 := (le_ofDigitChars cs _).trans_lt hlt
    have hroom : ¬(r.point = true ∧ r.scale = 28) := by
      rintro ⟨hpoint, hfull⟩
      have := hscale hpoint
      rw [List.length_cons] at this
      omega
    obtain ⟨r', hread, hmantissa, hscale', hpoint, hdigit⟩ := ih hcs (r.push c hroom hnext) hlt fun hpoint => by
      have hpoint : r.point = true := hpoint
      have hfits := hscale hpoint
      rw [List.length_cons] at hfits
      simp only [push, hpoint, if_true]
      omega
    refine ⟨r', ?_, by rw [hmantissa, Nat.ofDigitChars_cons]; rfl, ?_, hpoint, fun _ => hdigit (.inr rfl)⟩
    · rw [List.cons_append, Reading.read, dif_neg hroom, if_pos hc, dif_pos hnext]
      exact hread
    · rw [hscale']
      by_cases hpoint : r.point = true
      · simp [push, hpoint, add_assoc, add_comm 1]
      · simp [push, hpoint]

/-- Digits and a point before further digits are read as the digits alone, and these as fractional ones. -/
theorem Reading.read_text (negative : Bool) {n scale : ℕ} (hn : n < 2 ^ 96) (hscale : scale ≤ 28) :
    ∃ r : Reading, Reading.start.read negative (if scale = 0 then Nat.toDigits 10 (n / 10 ^ scale)
        else Nat.toDigits 10 (n / 10 ^ scale) ++ '.' :: lowDigits scale n) = some (r.signed negative) ∧
      r.mantissa = n ∧ r.scale = scale := by
  have hwhole : ∀ c ∈ Nat.toDigits 10 (n / 10 ^ scale), c.isDigit := fun c hc => isDigit_whole hc
  have hlt : Nat.ofDigitChars 10 (Nat.toDigits 10 (n / 10 ^ scale)) 0 < 2 ^ 96 := by
    rw [Nat.ofDigitChars_ten_toDigits]
    exact (Nat.div_le_self _ _).trans_lt hn
  by_cases hzero : scale = 0
  · obtain ⟨r, hread, hr, hrscale, -, hdigit⟩ := Reading.read_digits negative [] hwhole Reading.start hlt nofun
    refine ⟨r, ?_, ?_, hrscale.trans hzero.symm⟩
    · rw [if_pos hzero, ← List.append_nil (Nat.toDigits 10 (n / 10 ^ scale)), hread, Reading.read,
        if_pos (hdigit (.inl Nat.toDigits_ne_nil))]
    · rw [hr, Reading.start, Nat.ofDigitChars_ten_toDigits, hzero, pow_zero, Nat.div_one]
  · obtain ⟨r, hread, hr, hrscale, hrpoint, hdigit⟩ :=
      Reading.read_digits negative ('.' :: lowDigits scale n) hwhole Reading.start hlt nofun
    have hpoint : r.point = false := hrpoint
    have hfraction : Nat.ofDigitChars 10 (lowDigits scale n) r.mantissa = n := by
      rw [ofDigitChars_lowDigits, hr, Reading.start, Nat.ofDigitChars_ten_toDigits, Nat.div_add_mod']
    have hpointRead : r.read negative ('.' :: lowDigits scale n) =
        { r with point := true }.read negative (lowDigits scale n) := by
      have hroom : ¬(r.point = true ∧ r.scale = 28) := by simp [hpoint]
      have hdigit : ¬ '.'.isDigit = true := by decide
      rw [Reading.read, dif_neg hroom, if_neg hdigit, if_pos ⟨rfl, hpoint⟩]
    obtain ⟨r', hread', hr', hrscale', -, hdigit'⟩ := Reading.read_digits negative []
      (fun c hc => isDigit_of_mem_lowDigits hc) { r with point := true } (hfraction ▸ hn) fun _ => by
        rw [length_lowDigits]
        exact (Nat.add_le_add_right hrscale.le scale).trans ((Nat.zero_add scale).le.trans hscale)
    refine ⟨r', ?_, hr'.trans hfraction, ?_⟩
    · rw [if_neg hzero, hread, hpointRead, ← List.append_nil (lowDigits scale n), hread', Reading.read,
        if_pos (hdigit' (.inr (hdigit (.inl Nat.toDigits_ne_nil))))]
    · rw [hrscale', if_pos rfl, length_lowDigits]
      exact (congrArg (· + scale) hrscale).trans (Nat.zero_add scale)

/-- What is written is read back, down to the trailing zeros. -/
theorem fromStr_text : fromStr d.text = some d := by
  obtain ⟨r, hread, hmantissa, hscale⟩ := Reading.read_text (decide (d.mantissa < 0)) d.mantissa_lt d.scale_le
  simp only [fromStr, readSign_text]
  refine hread.trans (congrArg some (ScaledDecimal.ext ?_ hscale))
  calc (r.signed (decide (d.mantissa < 0))).mantissa
      = signed (decide (d.mantissa < 0)) r.mantissa := rfl
    _ = d.mantissa := by rw [hmantissa, signed_natAbs]

/-- Only a number without fractional digits is read as an integer, whatever its value. -/
theorem parseI64_text : parseI64 d.text =
    if d.scale = 0 ∧ -2 ^ 63 ≤ d.mantissa ∧ d.mantissa < 2 ^ 63 then some d.mantissa else none := by
  simp only [parseI64, readSign_text]
  by_cases hscale : d.scale = 0
  · have hdigits : d.digits = Nat.toDigits 10 d.mantissa.natAbs := by
      rw [digits, if_pos hscale, hscale, pow_zero, Nat.div_one]
    simp only [hdigits, readNat_whole, signed_natAbs, hscale, true_and]
  · have hpoint : '.' ∈ d.digits := by
      rw [digits, if_neg hscale]
      exact List.mem_append_right _ List.mem_cons_self
    have hnone : readNat d.digits = none := by
      refine if_neg ?_
      rintro ⟨-, hdigits⟩
      exact absurd (List.all_eq_true.mp hdigits '.' hpoint) (by decide)
    rw [hnone, if_neg fun h => hscale h.1]

end ScaledDecimal

end PolyBot.General.DecimalText
