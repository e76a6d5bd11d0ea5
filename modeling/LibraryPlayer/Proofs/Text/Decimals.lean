import Mathlib.Algebra.Order.Field.Basic
import Mathlib.Data.Rat.Cast.Order
import Mathlib.Tactic.Positivity
import Mathlib.Tactic.Ring

/-!
# Decimal numbers in texts

What digits spell, with and without a point.  A numeral has no superfluous zeros in front, so it is
the shortest row of digits that spells its number (`IsNumeral.length_le`); `Nat.repr` writes
numerals (`isNumeral_repr`).  A plain decimal has digits before the point and, if there is a point,
after it.  One whose whole part is a numeral and whose fraction does not end in a zero is shorter
than any other that says the same (`decimal_shortest`).
-/

namespace LibraryPlayer.Text

/-! ## Digits -/

/-- The number that digits spell. -/
def digitsValue (cs : List Char) : Nat := Nat.ofDigitChars 10 cs 0

/-- All characters are digits. -/
def IsDigits (cs : List Char) : Prop := ∀ c ∈ cs, c.isDigit = true

/-- What one digit stands for. -/
def digitValue (c : Char) : Nat := c.toNat - '0'.toNat

/-- No digits spell zero. -/
@[simp] theorem digitsValue_nil : digitsValue [] = 0 := rfl

/-- No characters are digits, all of them. -/
@[simp] theorem isDigits_nil : IsDigits [] := fun _ h => nomatch h

/-- Digits are digits one by one. -/
theorem isDigits_cons {c : Char} {cs : List Char} :
    IsDigits (c :: cs) ↔ c.isDigit = true ∧ IsDigits cs := by
  simp [IsDigits]

/-- The first digit counts as many powers of ten as there are digits after it. -/
theorem digitsValue_cons (c : Char) (cs : List Char) :
    digitsValue (c :: cs) = 10 ^ cs.length * digitValue c + digitsValue cs := by
  rw [digitsValue, Nat.ofDigitChars_cons, Nat.ofDigitChars_eq_ofDigitChars_zero, Nat.mul_zero,
    Nat.zero_add]
  rfl

/-- A further digit at the end moves the others up by one place. -/
theorem digitsValue_append_singleton (cs : List Char) (c : Char) :
    digitsValue (cs ++ [c]) = 10 * digitsValue cs + digitValue c := by
  rw [digitsValue, Nat.ofDigitChars_append, Nat.ofDigitChars_cons, Nat.ofDigitChars_nil]
  rfl

/-- No digit stands for more than nine. -/
theorem digitValue_le {c : Char} (h : c.isDigit = true) : digitValue c ≤ 9 := by
  have := Char.isDigit_iff_toNat.1 h
  simp only [digitValue, Char.reduceToNat] at this ⊢
  omega

/-- Digits that stand for the same are the same. -/
theorem digitValue_inj {c d : Char} (hc : c.isDigit = true) (hd : d.isDigit = true)
    (h : digitValue c = digitValue d) : c = d := by
  have hc := Char.isDigit_iff_toNat.1 hc
  have hd := Char.isDigit_iff_toNat.1 hd
  simp only [digitValue, Char.reduceToNat] at hc hd h
  exact Char.toNat_inj.1 (by omega)

/-- Digits spell less than the power of ten that has one digit more. -/
theorem digitsValue_lt {cs : List Char} (h : IsDigits cs) : digitsValue cs < 10 ^ cs.length := by
  induction cs with
  | nil => decide
  | cons c cs ih =>
    obtain ⟨hc, hcs⟩ := isDigits_cons.1 h
    -- the first digit leaves room for less than one more unit of its place
    have hle := Nat.mul_le_mul_left (10 ^ cs.length) (digitValue_le hc)
    have hlt := ih hcs
    rw [digitsValue_cons, List.length_cons, Nat.pow_succ]
    omega

/-- Equally many digits that spell the same are the same. -/
theorem digitsValue_inj {xs ys : List Char} (hx : IsDigits xs) (hy : IsDigits ys)
    (hlength : xs.length = ys.length) (h : digitsValue xs = digitsValue ys) : xs = ys := by
  -- on the digits from the front
  induction xs generalizing ys with
  | nil => exact (List.length_eq_zero_iff.1 hlength.symm).symm
  | cons x xs ih =>
    cases ys with
    | nil => exact nomatch hlength
    | cons y ys =>
      obtain ⟨hx, hxs⟩ := isDigits_cons.1 hx
      obtain ⟨hy, hys⟩ := isDigits_cons.1 hy
      have hlength : xs.length = ys.length := Nat.succ.inj hlength
      have hxlt := digitsValue_lt hxs
      have hylt := digitsValue_lt hys
      rw [digitsValue_cons, digitsValue_cons, ← hlength] at h
      rw [← hlength] at hylt
      -- the first digit is the quotient by its power of ten, the others are the remainder
      have hpos : 0 < 10 ^ xs.length := Nat.pow_pos (by decide)
      have hfirst : digitValue x = digitValue y := by
        have := congrArg (· / 10 ^ xs.length) h
        simpa [Nat.mul_add_div hpos, Nat.div_eq_of_lt hxlt, Nat.div_eq_of_lt hylt] using this
      rw [hfirst] at h
      rw [digitValue_inj hx hy hfirst, ih hxs hys hlength (Nat.add_left_cancel h)]

/-! ## Numerals -/

/-- Digits that spell a number, without superfluous zeros in front. -/
structure IsNumeral (cs : List Char) (n : Nat) : Prop where
  ne_nil : cs ≠ []
  digits : IsDigits cs
  lead : cs.head? = some '0' → cs = ['0']
  value : digitsValue cs = n

/-- A number is written in digits. -/
theorem isDigits_toDigits (n : Nat) : IsDigits (Nat.toDigits 10 n) := fun _ h =>
  Nat.isDigit_of_mem_toDigits (by decide) (by decide) h

/-- They spell the number. -/
theorem digitsValue_toDigits (n : Nat) : digitsValue (Nat.toDigits 10 n) = n :=
  Nat.ofDigitChars_ten_toDigits

/-- Only zero is written with a zero in front. -/
theorem head?_toDigits_ne_zero {n : Nat} (h : n ≠ 0) : (Nat.toDigits 10 n).head? ≠ some '0' := by
  -- the first digit of a number with several digits is that of a tenth of it
  induction n using Nat.strong_induction_on with
  | _ n ih =>
    rw [Nat.toDigits_eq_if (by decide)]
    split
    · simpa using h
    · rw [List.head?_append_of_ne_nil _ Nat.toDigits_ne_nil]
      exact ih (n / 10) (by omega) (by omega)

/-- The text of a natural number is its numeral. -/
theorem isNumeral_repr (n : Nat) : IsNumeral n.repr.toList n := by
  rw [Nat.toList_repr]
  refine ⟨Nat.toDigits_ne_nil, isDigits_toDigits n, fun hlead => ?_, digitsValue_toDigits n⟩
  -- zero alone is written with a zero in front, and then with nothing else
  by_cases h : n = 0
  · rw [h, Nat.toDigits_zero]
  · exact absurd hlead (head?_toDigits_ne_zero h)

/-- A numeral is the shortest row of digits that spells its number. -/
theorem IsNumeral.length_le {cs ds : List Char} {n : Nat} (h : IsNumeral cs n) (hne : ds ≠ [])
    (hds : IsDigits ds) (hvalue : digitsValue ds = n) : cs.length ≤ ds.length := by
  have hpos : 0 < ds.length := List.length_pos_iff.2 hne
  obtain ⟨hne', hdigits, hlead, hcs⟩ := h
  cases cs with
  | nil => exact absurd rfl hne'
  | cons c cs =>
    by_cases hzero : c = '0'
    · have := hlead (by rw [hzero]; rfl)
      rw [this]
      exact hpos
    · -- the first digit is at least one, so there are no fewer digits in any other spelling
      obtain ⟨hc, -⟩ := isDigits_cons.1 hdigits
      have hone : 1 ≤ digitValue c := by
        by_contra hnot
        exact hzero (digitValue_inj hc (by decide) (show digitValue c = 0 by omega))
      have hle : 10 ^ cs.length ≤ n := by
        rw [← hcs, digitsValue_cons]
        exact Nat.le_trans (Nat.le_mul_of_pos_right _ hone) (Nat.le_add_right _ _)
      have hlt : n < 10 ^ ds.length := hvalue ▸ digitsValue_lt hds
      exact (Nat.pow_lt_pow_iff_right (by decide)).1 (Nat.lt_of_le_of_lt hle hlt)

/-! ## Plain decimals -/

/-- The text of a decimal number; there is no point where nothing follows it. -/
def decimalChars (whole fraction : List Char) : List Char :=
  if fraction = [] then whole else whole ++ '.' :: fraction

/-- A fraction adds its digits and the point. -/
theorem length_decimalChars (whole fraction : List Char) :
    (decimalChars whole fraction).length =
      whole.length + if fraction.length = 0 then 0 else fraction.length + 1 := by
  cases fraction <;> simp [decimalChars]

/-- The number that digits before and after a point stand for. -/
def decimalValue (whole fraction : List Char) : ℚ :=
  digitsValue whole + digitsValue fraction / 10 ^ fraction.length

/-- The characters are a plain decimal number of a value: digits, with a point among them or
without one. -/
def IsDecimal (cs : List Char) (v : ℚ) : Prop :=
  ∃ whole fraction, cs = decimalChars whole fraction ∧ whole ≠ [] ∧ IsDigits whole ∧
    IsDigits fraction ∧ decimalValue whole fraction = v

/-- A decimal of up to five characters is a number of thousandths. -/
theorem IsDecimal.exists_thousandths {cs : List Char} {v : ℚ} (h : IsDecimal cs v)
    (hlength : cs.length ≤ 5) : ∃ a : ℕ, a ≤ 10 ^ 8 ∧ v = a / 1000 := by
  obtain ⟨whole, fraction, rfl, hne, hw, hf, rfl⟩ := h
  have hpos : 0 < whole.length := List.length_pos_iff.2 hne
  rw [length_decimalChars] at hlength
  -- five characters leave room for five digits in front, or for three behind a point
  have hwhole : whole.length ≤ 5 := by omega
  have hfraction : fraction.length ≤ 3 := by
    split at hlength <;> omega
  have hscale : 10 ^ fraction.length * 10 ^ (3 - fraction.length) = 1000 := by
    rw [← Nat.pow_add, Nat.add_sub_cancel' hfraction]
  refine ⟨digitsValue whole * 1000 + digitsValue fraction * 10 ^ (3 - fraction.length), ?_, ?_⟩
  · have hwlt : digitsValue whole < 10 ^ 5 :=
      Nat.lt_of_lt_of_le (digitsValue_lt hw) (Nat.pow_le_pow_right (by decide) hwhole)
    have hflt : digitsValue fraction * 10 ^ (3 - fraction.length) < 1000 :=
      hscale ▸ Nat.mul_lt_mul_of_pos_right (digitsValue_lt hf) (Nat.pow_pos (by decide))
    omega
  · have hscale : (10 : ℚ) ^ fraction.length * 10 ^ (3 - fraction.length) = 1000 := by
      exact_mod_cast hscale
    -- the fraction is filled up with zeros to three digits
    have hshift : (digitsValue fraction : ℚ) / 10 ^ fraction.length * 1000 =
        digitsValue fraction * 10 ^ (3 - fraction.length) := by
      rw [← hscale, ← mul_assoc, div_mul_cancel₀ _ (by positivity)]
    rw [decimalValue, eq_div_iff (by norm_num), add_mul, hshift]
    push_cast
    rfl

/-- What stands after the point is less than one. -/
theorem decimalValue_lt (whole : List Char) {fraction : List Char} (h : IsDigits fraction) :
    decimalValue whole fraction < digitsValue whole + 1 := by
  have hlt : (digitsValue fraction : ℚ) < 10 ^ fraction.length := by
    exact_mod_cast digitsValue_lt h
  have hpos : (0 : ℚ) < 10 ^ fraction.length := by positivity
  exact add_lt_add_of_le_of_lt (le_refl _) ((div_lt_one hpos).2 hlt)

/-- A decimal is at least its whole part. -/
theorem le_decimalValue (whole fraction : List Char) :
    (digitsValue whole : ℚ) ≤ decimalValue whole fraction :=
  le_add_of_nonneg_right (by positivity)

/-- Decimals of the same value have the same whole part, and their fractions differ by a power of
ten. -/
theorem parts_of_decimalValue_eq {whole fraction whole' fraction' : List Char}
    (hf : IsDigits fraction) (hf' : IsDigits fraction')
    (h : decimalValue whole fraction = decimalValue whole' fraction') :
    digitsValue whole = digitsValue whole' ∧
      digitsValue fraction * 10 ^ fraction'.length =
        digitsValue fraction' * 10 ^ fraction.length := by
  -- each whole part is less than one below its decimal, so neither can be greater
  have hwhole : digitsValue whole = digitsValue whole' := by
    have hlt := (le_decimalValue whole fraction).trans_lt (h ▸ decimalValue_lt whole' hf')
    have hlt' := (le_decimalValue whole' fraction').trans_lt (h ▸ decimalValue_lt whole hf)
    have hlt : digitsValue whole < digitsValue whole' + 1 := by exact_mod_cast hlt
    have hlt' : digitsValue whole' < digitsValue whole + 1 := by exact_mod_cast hlt'
    omega
  refine ⟨hwhole, ?_⟩
  rw [decimalValue, decimalValue, hwhole, add_right_inj,
    div_eq_div_iff (by positivity) (by positivity)] at h
  exact_mod_cast h

/-- A fraction that does not end in a zero has the fewest digits. -/
theorem length_fraction_le {fraction fraction' : List Char} (hf : IsDigits fraction)
    (hlast : fraction.getLast? ≠ some '0')
    (h : digitsValue fraction * 10 ^ fraction'.length =
      digitsValue fraction' * 10 ^ fraction.length) : fraction.length ≤ fraction'.length := by
  by_contra hmore
  -- with more digits than the other one it would be a multiple of ten
  obtain ⟨k, hk⟩ := Nat.exists_eq_add_of_lt (Nat.not_le.1 hmore)
  have hmul : digitsValue fraction = digitsValue fraction' * 10 ^ k * 10 := by
    refine Nat.eq_of_mul_eq_mul_right (Nat.pow_pos (by decide : 0 < 10) (n := fraction'.length)) ?_
    rw [h, hk]
    ring
  cases fraction using List.reverseRecOn with
  | nil => exact absurd hmore (by simp)
  | append_singleton cs c =>
    have hc : c.isDigit = true := hf c (by simp)
    have hzero : digitValue c = 0 := by
      have := digitValue_le hc
      rw [digitsValue_append_singleton] at hmul
      omega
    have : c = '0' := digitValue_inj hc (by decide) hzero
    exact hlast (by simp [this])

/-- A decimal whose whole part is a numeral and whose fraction does not end in a zero is shorter
than any other of the same value. -/
theorem decimal_shortest {whole fraction : List Char} {n : Nat} (hwhole : IsNumeral whole n)
    (hf : IsDigits fraction) (hlast : fraction.getLast? ≠ some '0') {cs : List Char}
    (hcs : IsDecimal cs (decimalValue whole fraction)) (hne : cs ≠ decimalChars whole fraction) :
    (decimalChars whole fraction).length < cs.length := by
  obtain ⟨whole', fraction', rfl, hne', hw', hf', hvalue⟩ := hcs
  obtain ⟨hsame, hscaled⟩ := parts_of_decimalValue_eq hf hf' hvalue.symm
  -- neither part of the other decimal is shorter
  have hwle := hwhole.length_le hne' hw' (hsame.symm.trans hwhole.value)
  have hfle := length_fraction_le hf hlast hscaled
  rw [length_decimalChars, length_decimalChars]
  rcases Nat.lt_or_eq_of_le hfle with hlt | heq
  · rw [if_neg (by omega : fraction'.length ≠ 0)]
    split <;> omega
  · rcases Nat.lt_or_eq_of_le hwle with hlt | heqw
    · rw [heq]
      omega
    · -- as many digits on both sides of the point: it is the same text
      rw [heq] at hscaled
      have hfraction := Nat.eq_of_mul_eq_mul_right (Nat.pow_pos (by decide)) hscaled
      refine absurd ?_ hne
      rw [digitsValue_inj hwhole.digits hw' heqw hsame, digitsValue_inj hf hf' heq hfraction]

end LibraryPlayer.Text
