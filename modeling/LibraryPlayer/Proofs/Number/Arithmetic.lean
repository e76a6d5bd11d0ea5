import LibraryPlayer.Proofs.Number.Doubles

/-!
# Quotients and products of doubles

Division and multiplication are done on magnitudes and rounded once (`div_eq`, `mul_eq`), infinities
and zeros apart; of whole numbers the quotient is the double nearest to the rational one
(`div_ofNat`).  Comparing with zero is a matter of sign and magnitude.

Thousandths are far enough apart to be different doubles (`nearest_thousandths_lt`), so a decimal
number with few digits is never mistaken for another one.
-/

namespace LibraryPlayer.Binary64

variable {x y : Binary64}

/-! ## Finite and infinite numbers -/

/-- What is finite is not infinite. -/
theorem isInfinite_of_isFinite (h : x.isFinite = true) : x.isInfinite = false := by
  simp only [isFinite, bne_iff_ne] at h
  simp [isInfinite, h]

/-- A number is finite or infinite. -/
theorem isFinite_of_not_infinite (hx : x.isNaN = false) (h : x.isInfinite = false) :
    x.isFinite = true := by
  simp only [isFinite, bne_iff_ne]
  -- a full exponent field is that of an infinity or of no number
  intro hfield
  simp only [isNaN, isInfinite, hfield, beq_self_eq_true, Bool.true_and, bne_eq_false_iff_eq,
    beq_eq_false_iff_ne] at hx h
  exact h hx

/-- A number whose magnitude is below that of infinity is finite. -/
theorem isFinite_of_magnitude_lt (hx : x.isNaN = false) (h : x.magnitude < infiniteMagnitude) :
    x.isFinite = true := by
  refine isFinite_of_not_infinite hx (Bool.eq_false_iff.2 fun hinfinite => ?_)
  exact Nat.ne_of_lt h ((isInfinite_iff hx).1 hinfinite)

/-! ## Comparisons -/

/-- Zero is a number. -/
@[simp] theorem isNaN_zero : zero.isNaN = false := by decide

/-- Its value is zero. -/
@[simp] theorem value_zero : zero.value = 0 := by decide

/-- Positive numbers are those without a sign that are not zero. -/
theorem zero_lt_iff :
    zero.lt x = true ↔ x.isNaN = false ∧ x.negative = false ∧ 0 < x.magnitude := by
  simp [lt, value_pos_iff]

/-- A value that is not positive has a sign or no magnitude. -/
theorem value_nonpos_iff : x.value ≤ 0 ↔ x.negative = true ∨ x.magnitude = 0 := by
  rw [← not_lt, value_pos_iff, not_and_or, Bool.not_eq_false, Nat.not_lt, Nat.le_zero]

/-- Numbers that are at most zero are those with a sign or without a magnitude. -/
theorem le_zero_iff :
    x.le zero = true ↔ x.isNaN = false ∧ (x.negative = true ∨ x.magnitude = 0) := by
  simp [le, value_nonpos_iff]

/-- Numbers that are equal to zero are those without a magnitude, whatever their sign. -/
theorem eq_zero_iff : x.eq zero = true ↔ x.isNaN = false ∧ x.magnitude = 0 := by
  have hvalue : x.value = 0 ↔ x.magnitude = 0 := by
    rw [value]
    cases x.negative <;> simp
  simp [eq, hvalue]

/-- Numbers without a sign are compared by their magnitudes. -/
theorem magnitude_le_of_le (h : x.le y = true) (hx : x.negative = false)
    (hy : y.negative = false) : x.magnitude ≤ y.magnitude := by
  simp only [le, Bool.and_eq_true, decide_eq_true_eq] at h
  have hvalue := h.2
  rw [value_of_not_negative hx, value_of_not_negative hy] at hvalue
  exact_mod_cast hvalue

/-- Only numbers have an order. -/
theorem isNaN_of_le (h : x.le y = true) : x.isNaN = false ∧ y.isNaN = false := by
  simp only [le, Bool.and_eq_true, Bool.not_eq_true'] at h
  exact h.1

/-- A number that is not positive is at most zero. -/
theorem le_zero_of_not_zero_lt (hx : x.isNaN = false) (h : ¬ zero.lt x = true) :
    x.le zero = true := by
  -- the order of values is total, so a number is positive or at most zero
  rw [zero_lt_iff, not_and, ← value_pos_iff, not_lt] at h
  exact le_zero_iff.2 ⟨hx, value_nonpos_iff.1 (h hx)⟩

/-- What follows a positive number is positive. -/
theorem zero_lt_of_le (hx : zero.lt x = true) (h : x.le y = true) : zero.lt y = true := by
  simp only [lt, le, Bool.and_eq_true, Bool.not_eq_true', decide_eq_true_eq, value_zero] at hx h ⊢
  exact ⟨⟨isNaN_zero, h.1.2⟩, hx.2.trans_le h.2⟩

/-! ## Whole numbers -/

/-- A whole number of up to fifty-three bits is below infinity. -/
theorem mul_unitsPerOne_lt {n : Nat} (h : n ≤ 2 ^ 53) :
    n * unitsPerOne < infiniteMagnitude := by
  obtain ⟨e, he, hunits⟩ := exists_unitsPerOne_eq
  obtain ⟨i, hi, hinfinite⟩ := exists_infiniteMagnitude_eq
  rw [hunits, hinfinite]
  calc n * 2 ^ e ≤ 2 ^ 53 * 2 ^ e := Nat.mul_le_mul_right _ h
    _ = 2 ^ (53 + e) := (Nat.pow_add 2 53 e).symm
    _ < 2 ^ i := Nat.pow_lt_pow_right (by decide) (by omega)

/-- So is one. -/
theorem unitsPerOne_lt : unitsPerOne < infiniteMagnitude := by
  have h := mul_unitsPerOne_lt (n := 1) (by decide)
  rwa [Nat.one_mul] at h

/-- A double can hold one. -/
theorem representable_unitsPerOne : Representable unitsPerOne := by
  have h := representable_mul_unitsPerOne (n := 1) (by decide)
  rwa [Nat.one_mul] at h

/-- A double can hold zero. -/
theorem representable_zero : Representable 0 := by
  have h := representable_mul_unitsPerOne (n := 0) (by decide)
  rwa [Nat.zero_mul] at h

/-- Whole numbers that are not too large are doubles themselves. -/
theorem ofNat_eq {n : Nat} (h : n ≤ 2 ^ 53) : ofNat n = ofMagnitude false (n * unitsPerOne) := by
  have hnearest := nearest_mul_self (by decide : 0 < 1) (representable_mul_unitsPerOne h)
  rw [Nat.mul_one] at hnearest
  rw [ofNat, hnearest]

section WholeNumber

variable {n : Nat} (h : n ≤ 2 ^ 53)
include h

/-- A whole number is a number. -/
@[simp] theorem isNaN_ofNat : (ofNat n).isNaN = false := by
  rw [ofNat_eq h, isNaN_ofMagnitude false (representable_mul_unitsPerOne h)]

/-- It has no sign. -/
@[simp] theorem negative_ofNat : (ofNat n).negative = false := by
  rw [ofNat_eq h, negative_ofMagnitude false (representable_mul_unitsPerOne h)]

/-- Its magnitude is as many times that of one. -/
@[simp] theorem magnitude_ofNat : (ofNat n).magnitude = n * unitsPerOne := by
  rw [ofNat_eq h, magnitude_ofMagnitude false (representable_mul_unitsPerOne h)]

/-- It is finite. -/
@[simp] theorem isFinite_ofNat : (ofNat n).isFinite = true := by
  refine isFinite_of_magnitude_lt (isNaN_ofNat h) ?_
  rw [magnitude_ofNat h]
  exact mul_unitsPerOne_lt h

end WholeNumber

/-- One is a whole number. -/
theorem one_eq : one = ofNat 1 := by
  rw [ofNat_eq (by decide), Nat.one_mul, one]

/-- It is finite. -/
@[simp] theorem isFinite_one : one.isFinite = true := by
  rw [one_eq, isFinite_ofNat (by decide)]

/-- It has no sign. -/
@[simp] theorem negative_one : one.negative = false := by
  rw [one_eq, negative_ofNat (by decide)]

/-- Its magnitude is the scale itself. -/
@[simp] theorem magnitude_one : one.magnitude = unitsPerOne := by
  rw [one_eq, magnitude_ofNat (by decide), Nat.one_mul]

/-- Which numbers without a sign are greater than one. -/
theorem one_lt_iff (hx : x.isNaN = false) (hsign : x.negative = false) :
    one.lt x = true ↔ unitsPerOne < x.magnitude := by
  have hone : one.isNaN = false := isNaN_of_isFinite isFinite_one
  rw [lt, hx, hone, value_of_not_negative hsign, value_of_not_negative negative_one, magnitude_one,
    Bool.not_false, Bool.true_and, Bool.true_and, decide_eq_true_iff, Nat.cast_lt]

/-! ## Quotients and products -/

/-- The quotient by a finite number that is not zero. -/
theorem div_eq (hx : x.isNaN = false) (hy : y.isFinite = true) (h0 : y.magnitude ≠ 0) :
    x.div y = ofMagnitude (x.negative != y.negative)
      (if x.isInfinite then infiniteMagnitude
        else nearest (x.magnitude * unitsPerOne) y.magnitude) := by
  have hinfinite := isInfinite_of_isFinite hy
  simp only [div, hx, isNaN_of_isFinite hy, hinfinite, Bool.or_self, Bool.false_eq_true,
    if_false, if_neg h0, infinity]
  split <;> rfl

/-- The product of finite numbers. -/
theorem mul_eq (hx : x.isFinite = true) (hy : y.isFinite = true) :
    x.mul y = ofMagnitude (x.negative != y.negative)
      (nearest (x.magnitude * y.magnitude) unitsPerOne) := by
  simp only [mul, isNaN_of_isFinite hx, isNaN_of_isFinite hy, isInfinite_of_isFinite hx,
    isInfinite_of_isFinite hy, Bool.or_self, Bool.false_eq_true, if_false]

/-- The quotient by a positive number that is finite has the sign of what is divided. -/
theorem div_spec_of_pos (hx : x.isNaN = false) (hy : zero.lt y = true)
    (hfinite : y.isInfinite = false) :
    (x.div y).isNaN = false ∧ (x.div y).negative = x.negative ∧
      (x.div y).magnitude = if x.isInfinite then infiniteMagnitude
        else nearest (x.magnitude * unitsPerOne) y.magnitude := by
  obtain ⟨hnumber, hsign, hmagnitude⟩ := zero_lt_iff.1 hy
  -- either way the result is a magnitude that a double can hold
  have hrep : Representable (if x.isInfinite then infiniteMagnitude
      else nearest (x.magnitude * unitsPerOne) y.magnitude) := by
    split
    · exact representable_infiniteMagnitude
    · exact representable_nearest hmagnitude
  have hquotient := div_eq hx (isFinite_of_not_infinite hnumber hfinite) hmagnitude.ne'
  rw [hsign, Bool.bne_false] at hquotient
  rw [hquotient]
  exact ⟨isNaN_ofMagnitude _ hrep, negative_ofMagnitude _ hrep, magnitude_ofMagnitude _ hrep⟩

/-- Nothing positive is left of a number that is divided by an infinite one. -/
theorem not_zero_lt_div (hx : x.isNaN = false) (hy : y.isNaN = false)
    (h : y.isInfinite = true) : ¬ zero.lt (x.div y) = true := by
  -- infinity by infinity is no number, anything else by it is zero
  have hquotient :
      x.div y = if x.isInfinite then nan else ofMagnitude (x.negative != y.negative) 0 := by
    simp only [div, hx, hy, h, Bool.or_self, Bool.false_eq_true, if_false, if_true]
  rw [hquotient]
  split
  · decide
  · intro hpos
    have hmagnitude := (zero_lt_iff.1 hpos).2.2
    rw [magnitude_ofMagnitude _ representable_zero] at hmagnitude
    exact Nat.lt_irrefl 0 hmagnitude

/-! ## Rational numbers -/

/-- The double nearest to a rational number. -/
def ofRat (v : ℚ) : Binary64 :=
  ofMagnitude (decide (v < 0)) (nearest (v.num.natAbs * unitsPerOne) v.den)

/-- Equal quotients are rounded alike. -/
theorem nearest_congr {n d n' d' : Nat} (hd : 0 < d) (hd' : 0 < d') (h : n * d' = n' * d) :
    nearest n d = nearest n' d' :=
  Nat.le_antisymm (nearest_mono hd hd' h.le) (nearest_mono hd' hd h.ge)

/-- A quotient in lowest terms is the same quotient. -/
theorem natAbs_num_mul (n : Nat) {d : Nat} (hd : 0 < d) :
    (n / d : ℚ).num.natAbs * d = n * (n / d : ℚ).den := by
  have hd' : (d : ℚ) ≠ 0 := Nat.cast_ne_zero.2 hd.ne'
  have hnonneg : (0 : ℚ) ≤ n / d := by positivity
  have hnum : (((n / d : ℚ).num.natAbs : ℕ) : ℚ) = (n / d : ℚ).num := by
    exact_mod_cast Int.natAbs_of_nonneg (Rat.num_nonneg.2 hnonneg)
  have hquotient := Rat.num_div_den (n / d : ℚ)
  -- the two fractions are equal, so their cross products are
  rw [div_eq_div_iff (Nat.cast_ne_zero.2 (Rat.den_nz _)) hd', ← hnum] at hquotient
  exact_mod_cast hquotient

/-- The double nearest to a quotient does not depend on how the quotient is written. -/
theorem ofRat_div (n : Nat) {d : Nat} (hd : 0 < d) :
    ofRat (n / d) = ofMagnitude false (nearest (n * unitsPerOne) d) := by
  have hnonneg : (0 : ℚ) ≤ n / d := by positivity
  rw [ofRat, decide_eq_false (not_lt.2 hnonneg)]
  refine congrArg _ (nearest_congr (Rat.den_pos _) hd ?_)
  rw [Nat.mul_right_comm, natAbs_num_mul n hd, Nat.mul_right_comm]

/-- The quotient of whole numbers is the double nearest to it. -/
theorem div_ofNat {n d : Nat} (hn : n ≤ 2 ^ 53) (hd : d ≤ 2 ^ 53) (hpos : 0 < d) :
    (ofNat n).div (ofNat d) = ofRat (n / d) := by
  have hunits := unitsPerOne_pos
  have hne : (ofNat d).magnitude ≠ 0 := by
    rw [magnitude_ofNat hd]
    exact (Nat.mul_pos hpos hunits).ne'
  rw [div_eq (isNaN_ofNat hn) (isFinite_ofNat hd) hne, negative_ofNat hn, negative_ofNat hd,
    isInfinite_of_isFinite (isFinite_ofNat hn), if_neg Bool.false_ne_true, magnitude_ofNat hn,
    magnitude_ofNat hd, ofRat_div n hpos]
  -- the scale appears on both sides of the fraction and cancels out
  refine congrArg _ (nearest_congr (Nat.mul_pos hpos hunits) hpos ?_)
  ring

/-- Doubles are close enough together to tell thousandths apart. -/
theorem nearest_thousandths_lt {l u : Nat} (h : l < u) (hu : u ≤ 10 ^ 8) :
    nearest (l * unitsPerOne) 1000 < nearest (u * unitsPerOne) 1000 := by
  obtain ⟨e, he, hunits⟩ := exists_unitsPerOne_eq
  obtain ⟨i, hi, hinfinite⟩ := exists_infiniteMagnitude_eq
  have hsplit : unitsPerOne = 4096 * 2 ^ (e - 12) := by
    rw [hunits, show (4096 : Nat) = 2 ^ 12 by decide, ← Nat.pow_add,
      show 12 + (e - 12) = e by omega]
  -- two neighbouring multiples of 2⁻¹² lie between the two numbers
  generalize hj : (4096 * l + 999) / 1000 = j
  have hlower : 4096 * l ≤ 1000 * j := by omega
  have hupper : 1000 * (j + 1) ≤ 4096 * u := by omega
  have hrepresentable : ∀ a ≤ 2 ^ 53, Representable (a * 2 ^ (e - 12)) := fun a ha => by
    refine representable_mul_pow ha ?_
    calc a * 2 ^ (e - 12) ≤ 2 ^ 53 * 2 ^ (e - 12) := Nat.mul_le_mul_right _ ha
      _ = 2 ^ (53 + (e - 12)) := (Nat.pow_add 2 53 (e - 12)).symm
      _ ≤ 2 ^ i := Nat.pow_le_pow_right (by decide) (by omega)
      _ = infiniteMagnitude := hinfinite.symm
  have hpos : 0 < 2 ^ (e - 12) := Nat.two_pow_pos _
  rw [hsplit]
  generalize 2 ^ (e - 12) = w at hrepresentable hpos
  -- both neighbours are doubles, so rounding does not move either number past its own
  calc nearest (l * (4096 * w)) 1000 ≤ nearest (j * w * 1) 1 := by
        refine nearest_mono (by decide) (by decide) ?_
        have := Nat.mul_le_mul_right w hlower
        linarith
    _ = j * w := nearest_mul_self (by decide) (hrepresentable j (by omega))
    _ < (j + 1) * w := Nat.mul_lt_mul_of_pos_right (Nat.lt_succ_self j) hpos
    _ = nearest ((j + 1) * w * 1) 1 :=
        (nearest_mul_self (by decide) (hrepresentable (j + 1) (by omega))).symm
    _ ≤ nearest (u * (4096 * w)) 1000 := by
        refine nearest_mono (by decide) (by decide) ?_
        have := Nat.mul_le_mul_right w hupper
        linarith

/-- Different numbers of thousandths are different doubles, up to a hundred thousand. -/
theorem ofRat_thousandths_inj {a b : ℕ} (ha : a ≤ 10 ^ 8) (hb : b ≤ 10 ^ 8)
    (h : ofRat (a / 1000) = ofRat (b / 1000)) : a = b := by
  have hmagnitude (k : ℕ) : (ofRat (k / 1000)).magnitude = nearest (k * unitsPerOne) 1000 := by
    have hround := ofRat_div k (d := 1000) (by decide)
    rw [Nat.cast_ofNat] at hround
    rw [hround, magnitude_ofMagnitude _ (representable_nearest (by decide))]
  have hsame := congrArg magnitude h
  rw [hmagnitude, hmagnitude] at hsame
  -- of two different numbers the smaller is rounded to something smaller
  rcases Nat.lt_trichotomy a b with hlt | heq | hlt
  · exact absurd hsame (nearest_thousandths_lt hlt hb).ne
  · exact heq
  · exact absurd hsame (nearest_thousandths_lt hlt ha).ne'

end LibraryPlayer.Binary64
