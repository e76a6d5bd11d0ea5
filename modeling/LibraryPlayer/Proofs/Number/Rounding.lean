import LibraryPlayer.Number.Rounding
import Mathlib.Algebra.Order.Field.Basic
import Mathlib.Data.Nat.Log
import Mathlib.Data.Rat.Cast.Order
import Mathlib.Tactic.FieldSimp
import Mathlib.Tactic.Linarith
import Mathlib.Tactic.Positivity
import Mathlib.Tactic.Ring

/-!
# Laws of rounding

A quotient is rounded to a magnitude that no other one held by a double is closer to
(`nearest_closest`).  This never turns the order of two quotients round (`nearest_mono`), and it
leaves every magnitude alone that a double can hold (`nearest_mul_self`): between two quotients that
are told apart by doubles the order is known, however close they are.

The spacing of doubles jumps at the powers of two.  A quotient is rounded to at most the power above
it (`rounded_le_pow`) and to at least the one below it (`pow_le_rounded`), so nothing is lost there.
-/

namespace LibraryPlayer

/-! ## Whole numbers -/

/-- A quotient is rounded to its whole part or to one more, by what is left over. -/
theorem roundHalfEven_cases (n d : Nat) :
    (roundHalfEven n d = n / d ∧ 2 * (n % d) ≤ d) ∨
      (roundHalfEven n d = n / d + 1 ∧ d ≤ 2 * (n % d)) := by
  simp only [roundHalfEven]
  split
  · omega
  · split <;> omega

/-- What is at most a whole number is rounded to at most it. -/
theorem roundHalfEven_le {n d m : Nat} (hd : 0 < d) (h : n ≤ m * d) : roundHalfEven n d ≤ m := by
  have hdiv : n / d ≤ m := Nat.div_le_of_le_mul (by rwa [Nat.mul_comm])
  have hmod := Nat.div_add_mod n d
  rcases Nat.lt_or_eq_of_le hdiv with hlt | heq
  · rcases roundHalfEven_cases n d with ⟨hround, -⟩ | ⟨hround, -⟩ <;> omega
  · -- nothing is left over when the whole number is reached
    have hrem : n % d = 0 := by
      rw [heq, Nat.mul_comm] at hmod
      omega
    simp only [roundHalfEven, hrem, heq]
    rw [if_pos (by omega)]

/-- What is at least a whole number is rounded to at least it. -/
theorem le_roundHalfEven {n d m : Nat} (hd : 0 < d) (h : m * d ≤ n) : m ≤ roundHalfEven n d := by
  have hdiv : m ≤ n / d := (Nat.le_div_iff_mul_le hd).2 h
  -- rounding never goes below the whole part
  rcases roundHalfEven_cases n d with ⟨hround, -⟩ | ⟨hround, -⟩ <;> omega

/-- Whole numbers are left alone. -/
@[simp] theorem roundHalfEven_mul_self {d : Nat} (hd : 0 < d) (m : Nat) :
    roundHalfEven (m * d) d = m :=
  Nat.le_antisymm (roundHalfEven_le hd (Nat.le_refl _)) (le_roundHalfEven hd (Nat.le_refl _))

/-- The greater of two quotients is rounded to the greater whole number, if to another one. -/
theorem roundHalfEven_mono {n d n' d' : Nat} (hd : 0 < d) (hd' : 0 < d') (h : n * d' ≤ n' * d) :
    roundHalfEven n d ≤ roundHalfEven n' d' := by
  have hmod := Nat.div_add_mod n d
  have hmod' := Nat.div_add_mod n' d'
  have hlt := Nat.mod_lt n hd
  have hlt' := Nat.mod_lt n' hd'
  have hdiv : n / d ≤ n' / d' := by
    rw [Nat.le_div_iff_mul_le hd']
    refine Nat.le_of_mul_le_mul_right ?_ hd
    calc n / d * d' * d = n / d * d * d' := by ring
      _ ≤ n * d' := Nat.mul_le_mul_right d' (Nat.div_mul_le_self n d)
      _ ≤ n' * d := h
  rcases Nat.lt_or_eq_of_le hdiv with hless | heq
  · rcases roundHalfEven_cases n d with ⟨hround, -⟩ | ⟨hround, -⟩ <;>
      rcases roundHalfEven_cases n' d' with ⟨hround', -⟩ | ⟨hround', -⟩ <;> omega
  · -- with equal whole parts the fractions decide
    have hrem : n % d * d' ≤ n' % d' * d := by
      have hn : n * d' = n / d * (d * d') + n % d * d' := by
        calc n * d' = (d * (n / d) + n % d) * d' := by rw [hmod]
          _ = n / d * (d * d') + n % d * d' := by ring
      have hn' : n' * d = n / d * (d * d') + n' % d' * d := by
        calc n' * d = (d' * (n' / d') + n' % d') * d := by rw [hmod']
          _ = n / d * (d * d') + n' % d' * d := by rw [heq]; ring
      omega
    -- more than half on the left is more than half on the right
    have hhalf : d < 2 * (n % d) → d' < 2 * (n' % d') := by
      intro hover
      by_contra hnot
      have := Nat.mul_lt_mul_of_pos_right hover hd'
      have := Nat.mul_le_mul_right d (Nat.not_lt.1 hnot)
      linarith
    have htie : d ≤ 2 * (n % d) → d' ≤ 2 * (n' % d') := by
      intro hover
      by_contra hnot
      have := Nat.mul_le_mul_right d' hover
      have := Nat.mul_lt_mul_of_pos_right (Nat.not_le.1 hnot) hd
      linarith
    simp only [roundHalfEven, ← heq]
    split
    · split
      · omega
      · split <;> omega
    · split
      next hover =>
        have := hhalf hover
        rw [if_neg (by omega), if_pos this]
      next hnot hnot' =>
        have := htie (by omega)
        split
        · omega
        · split <;> omega

/-- The greater of two quotients is rounded to the greater whole number, if to another one. -/
theorem roundHalfUp_mono {n n' d : Nat} (h : n ≤ n') : roundHalfUp n d ≤ roundHalfUp n' d :=
  Nat.div_le_div_right (by omega)

/-- Whole numbers are left alone. -/
@[simp] theorem roundHalfUp_mul_self {d : Nat} (hd : 0 < d) (m : Nat) :
    roundHalfUp (m * d) d = m := by
  rw [roundHalfUp, show 2 * (m * d) + d = d + m * (2 * d) by ring,
    Nat.add_mul_div_right _ _ (by omega), Nat.div_eq_of_lt (by omega), Nat.zero_add]

/-- A whole number that a quotient is rounded to is at most half away from it. -/
theorem abs_sub_roundHalfEven_le {d : Nat} (hd : 0 < d) (n : Nat) :
    |(n / d : ℚ) - roundHalfEven n d| ≤ 1 / 2 := by
  have hpos : (0 : ℚ) < d := Nat.cast_pos.2 hd
  have hquotient : (n / d : ℚ) = (n / d : ℕ) + (n % d : ℕ) / d := by
    rw [eq_comm, add_div' _ _ _ hpos.ne', mul_comm]
    congr 1
    exact_mod_cast Nat.div_add_mod n d
  have hlt : ((n % d : ℕ) : ℚ) / d < 1 := by
    rw [div_lt_one hpos]
    exact_mod_cast Nat.mod_lt n hd
  have hnonneg : (0 : ℚ) ≤ (n % d : ℕ) / d := by positivity
  rw [hquotient, abs_le]
  -- what is left over is at most half if it is dropped, and at least half if it is filled up
  rcases roundHalfEven_cases n d with ⟨hround, hle⟩ | ⟨hround, hle⟩
  · have hhalf : ((n % d : ℕ) : ℚ) / d ≤ 1 / 2 := by
      rw [div_le_div_iff₀ hpos (by norm_num)]
      exact_mod_cast (by omega : n % d * 2 ≤ 1 * d)
    rw [hround]
    constructor <;> linarith
  · have hhalf : (1 : ℚ) / 2 ≤ ((n % d : ℕ) : ℚ) / d := by
      rw [div_le_div_iff₀ (by norm_num) hpos]
      exact_mod_cast (by omega : 1 * d ≤ n % d * 2)
    rw [hround]
    push_cast
    constructor <;> linarith

/-- Rounding with a half counting as a whole one goes at most half away, too. -/
theorem abs_sub_roundHalfUp_le {d : Nat} (hd : 0 < d) (n : Nat) :
    |(n / d : ℚ) - roundHalfUp n d| ≤ 1 / 2 := by
  have hpos : (0 : ℚ) < d := Nat.cast_pos.2 hd
  -- the double of the quotient and a half lies between two whole numbers
  have hle := Nat.div_mul_le_self (2 * n + d) (2 * d)
  have hlt := Nat.lt_div_mul_add (show 0 < 2 * d by omega) (a := 2 * n + d)
  rw [← roundHalfUp] at hle hlt
  generalize roundHalfUp n d = k at hle hlt
  have hle : (k : ℚ) * (2 * d) ≤ 2 * n + d := by exact_mod_cast hle
  have hlt : 2 * (n : ℚ) + d < k * (2 * d) + 2 * d := by exact_mod_cast hlt
  have hlower : (k : ℚ) - 1 / 2 ≤ n / d := by
    rw [le_div_iff₀ hpos]
    linarith
  have hupper : (n / d : ℚ) ≤ k + 1 / 2 := by
    rw [div_le_iff₀ hpos]
    linarith
  rw [abs_le]
  constructor <;> linarith

/-- No whole number is closer to a quotient than the one it is rounded to. -/
theorem roundHalfEven_closest {d : Nat} (hd : 0 < d) (n a : Nat) :
    |(n / d : ℚ) - roundHalfEven n d| ≤ |(n / d : ℚ) - a| := by
  have hhalf := abs_sub_roundHalfEven_le hd n
  rcases eq_or_ne (roundHalfEven n d) a with heq | hne
  · rw [heq]
  · -- any other whole number is at least one away from it
    have hone : (1 : ℚ) ≤ |(roundHalfEven n d : ℚ) - a| := by
      have : (1 : ℤ) ≤ |(roundHalfEven n d : ℤ) - a| := Int.one_le_abs (by omega)
      exact_mod_cast this
    have htriangle := abs_sub_le (roundHalfEven n d : ℚ) (n / d) a
    rw [abs_sub_comm (roundHalfEven n d : ℚ) (n / d)] at htriangle
    linarith

namespace Binary64

/-- The exponent is kept apart, so that no proof ever writes the number out. -/
theorem exists_unitsPerOne_eq : ∃ e, e = 1074 ∧ unitsPerOne = 2 ^ e :=
  ⟨1074, rfl, by decide +kernel⟩

/-- So is that of infinity. -/
theorem exists_infiniteMagnitude_eq : ∃ e, e = 2098 ∧ infiniteMagnitude = 2 ^ e :=
  ⟨2098, rfl, by decide +kernel⟩

/-- The scale is not empty. -/
theorem unitsPerOne_pos : 0 < unitsPerOne := by
  obtain ⟨e, -, he⟩ := exists_unitsPerOne_eq
  rw [he]
  exact Nat.two_pow_pos e

/-! ## Magnitudes that doubles can hold -/

/-- A double can hold a magnitude that is not beyond infinity and has no more than fifty-three bits
that are not zeros at the end. -/
structure Representable (m : Nat) : Prop where
  le : m ≤ infiniteMagnitude
  dvd : 2 ^ (m.log2 - 52) ∣ m

/-- A significand of up to fifty-three bits, doubled any number of times. -/
theorem representable_mul_pow {a e : Nat} (ha : a ≤ 2 ^ 53) (h : a * 2 ^ e ≤ infiniteMagnitude) :
    Representable (a * 2 ^ e) := by
  refine ⟨h, ?_⟩
  rcases Nat.eq_zero_or_pos a with rfl | hpos
  · simp
  · rcases Nat.lt_or_eq_of_le ha with hlt | rfl
    · -- the significand has at most fifty-three bits, so all other doublings are powers of two
      have hne : a * 2 ^ e ≠ 0 := Nat.mul_ne_zero hpos.ne' (Nat.two_pow_pos e).ne'
      have hlog : (a * 2 ^ e).log2 ≤ 52 + e := by
        refine Nat.le_of_lt_succ ((Nat.log2_lt hne).2 ?_)
        calc a * 2 ^ e < 2 ^ 53 * 2 ^ e := Nat.mul_lt_mul_of_pos_right hlt (Nat.two_pow_pos e)
          _ = 2 ^ (52 + e + 1) := by rw [← Nat.pow_add]; congr 1; omega
      exact Dvd.dvd.mul_left (Nat.pow_dvd_pow 2 (by omega)) a
    · rw [← Nat.pow_add, Nat.log2_two_pow]
      exact Nat.pow_dvd_pow 2 (by omega)

/-- A double can hold infinity. -/
theorem representable_infiniteMagnitude : Representable infiniteMagnitude := by
  obtain ⟨e, -, he⟩ := exists_infiniteMagnitude_eq
  have hle : 1 * 2 ^ e ≤ infiniteMagnitude := by
    rw [Nat.one_mul]
    exact he.ge
  have h := representable_mul_pow (by decide) hle
  rwa [Nat.one_mul, ← he] at h

/-- Whole numbers that are not too large are doubles. -/
theorem representable_mul_unitsPerOne {n : Nat} (h : n ≤ 2 ^ 53) :
    Representable (n * unitsPerOne) := by
  obtain ⟨e, he, hunits⟩ := exists_unitsPerOne_eq
  obtain ⟨i, hi, hinfinite⟩ := exists_infiniteMagnitude_eq
  rw [hunits]
  refine representable_mul_pow h ?_
  calc n * 2 ^ e ≤ 2 ^ 53 * 2 ^ e := Nat.mul_le_mul_right _ h
    _ = 2 ^ (53 + e) := (Nat.pow_add 2 53 e).symm
    _ ≤ 2 ^ i := Nat.pow_le_pow_right (by decide) (by omega)
    _ = infiniteMagnitude := hinfinite.symm

/-! ## Rounding -/

/-- The spacing of doubles around a quotient. -/
def spacing (n d : Nat) : Nat := 2 ^ ((n / d).log2 - 52)

/-- The spacing is never zero. -/
theorem spacing_pos (n d : Nat) : 0 < spacing n d := Nat.pow_pos (by decide)

/-- Rounding to a multiple of the spacing, but not beyond infinity. -/
theorem nearest_eq (n d : Nat) :
    nearest n d =
      min (roundHalfEven n (d * spacing n d) * spacing n d) infiniteMagnitude := rfl

variable {n d n' d' m : Nat}

/-- A power of two from the spacing on is a multiple of the spacing. -/
theorem pow_eq_mul_spacing (n d : Nat) {k : Nat} (hk : (n / d).log2 - 52 ≤ k) :
    2 ^ k = 2 ^ (k - ((n / d).log2 - 52)) * spacing n d := by
  rw [spacing, ← Nat.pow_add, Nat.sub_add_cancel hk]

/-- Rounding goes at most to the power of two above. -/
theorem rounded_le_pow (hd : 0 < d) :
    roundHalfEven n (d * spacing n d) * spacing n d ≤ 2 ^ ((n / d).log2 + 1) := by
  have hlt : n / d < 2 ^ ((n / d).log2 + 1) := Nat.lt_log2_self
  have hle : n ≤ 2 ^ ((n / d).log2 + 1) * d := by
    have := Nat.lt_mul_of_div_lt hlt hd
    omega
  rw [pow_eq_mul_spacing n d (k := (n / d).log2 + 1) (by omega)] at hle ⊢
  refine Nat.mul_le_mul_right _ (roundHalfEven_le (Nat.mul_pos hd (spacing_pos n d)) ?_)
  rwa [Nat.mul_assoc, Nat.mul_comm (spacing n d)] at hle

/-- Rounding goes at least to the power of two below. -/
theorem pow_le_rounded (hd : 0 < d) (h : n / d ≠ 0) :
    2 ^ (n / d).log2 ≤ roundHalfEven n (d * spacing n d) * spacing n d := by
  have hle : 2 ^ (n / d).log2 * d ≤ n := by
    have := Nat.mul_le_mul_right d (Nat.log2_self_le h)
    exact Nat.le_trans this (Nat.div_mul_le_self n d)
  -- both are multiples of the spacing, which cancels out
  rw [pow_eq_mul_spacing n d (k := (n / d).log2) (by omega)] at hle ⊢
  refine Nat.mul_le_mul_right _ (le_roundHalfEven (Nat.mul_pos hd (spacing_pos n d)) ?_)
  rwa [Nat.mul_assoc, Nat.mul_comm (spacing n d)] at hle

/-- Rounding to the nearest double keeps the order of quotients. -/
theorem nearest_mono (hd : 0 < d) (hd' : 0 < d') (h : n * d' ≤ n' * d) :
    nearest n d ≤ nearest n' d' := by
  rw [nearest_eq, nearest_eq]
  refine min_le_min_right _ ?_
  have hdiv : n / d ≤ n' / d' := by
    rw [Nat.le_div_iff_mul_le hd']
    refine Nat.le_of_mul_le_mul_right ?_ hd
    calc n / d * d' * d = n / d * d * d' := by ring
      _ ≤ n * d' := Nat.mul_le_mul_right d' (Nat.div_mul_le_self n d)
      _ ≤ n' * d := h
  have hlog : (n / d).log2 ≤ (n' / d').log2 := by
    rw [Nat.log2_eq_log_two, Nat.log2_eq_log_two]
    exact Nat.log_mono_right hdiv
  rcases Nat.lt_or_eq_of_le (Nat.sub_le_sub_right hlog 52) with hlt | heq
  · -- a power of two lies between the two
    have hzero : n' / d' ≠ 0 := by
      intro h0
      rw [h0] at hlt
      simp at hlt
    calc roundHalfEven n (d * spacing n d) * spacing n d ≤ 2 ^ ((n / d).log2 + 1) :=
          rounded_le_pow hd
      _ ≤ 2 ^ (n' / d').log2 := Nat.pow_le_pow_right (by decide) (by omega)
      _ ≤ roundHalfEven n' (d' * spacing n' d') * spacing n' d' := pow_le_rounded hd' hzero
  · have hspacing : spacing n d = spacing n' d' := by rw [spacing, spacing, heq]
    have hpos := spacing_pos n' d'
    rw [hspacing]
    refine Nat.mul_le_mul_right _ (roundHalfEven_mono (Nat.mul_pos hd hpos)
      (Nat.mul_pos hd' hpos) ?_)
    calc n * (d' * spacing n' d') = n * d' * spacing n' d' := by ring
      _ ≤ n' * d * spacing n' d' := Nat.mul_le_mul_right _ h
      _ = n' * (d * spacing n' d') := by ring

/-- A magnitude that a double can hold is its own nearest one. -/
theorem nearest_mul_self (hd : 0 < d) (h : Representable m) : nearest (m * d) d = m := by
  have hdiv : m * d / d = m := Nat.mul_div_cancel m hd
  have hspacing : spacing (m * d) d = 2 ^ (m.log2 - 52) := by rw [spacing, hdiv]
  obtain ⟨a, ha⟩ := h.dvd
  -- the magnitude is a multiple of the spacing, so nothing is left over
  have hround : roundHalfEven (m * d) (d * 2 ^ (m.log2 - 52)) = a := by
    have hpos : 0 < d * 2 ^ (m.log2 - 52) := Nat.mul_pos hd (by positivity)
    have hmul : m * d = a * (d * 2 ^ (m.log2 - 52)) := by
      conv_lhs => rw [ha]
      ring
    rw [hmul, roundHalfEven_mul_self hpos]
  rw [nearest_eq, hspacing, hround, Nat.mul_comm a, ← ha, min_eq_left h.le]

/-- What a quotient is rounded to can be held by a double. -/
theorem representable_nearest (hd : 0 < d) : Representable (nearest n d) := by
  rw [nearest_eq]
  rcases min_cases (roundHalfEven n (d * spacing n d) * spacing n d) infiniteMagnitude with
    ⟨hmin, hle⟩ | ⟨hmin, -⟩
  · rw [hmin]
    refine representable_mul_pow ?_ hle
    have hrounded := rounded_le_pow (n := n) hd
    rw [pow_eq_mul_spacing n d (k := (n / d).log2 + 1) (by omega)] at hrounded
    -- the multiplier has at most fifty-three bits
    have hsmall := Nat.le_of_mul_le_mul_right hrounded (spacing_pos n d)
    exact Nat.le_trans hsmall (Nat.pow_le_pow_right (by decide) (by omega))
  · rw [hmin]
    exact representable_infiniteMagnitude

/-- Nothing is rounded to nothing. -/
@[simp] theorem nearest_zero (d : Nat) : nearest 0 d = 0 := by
  simp [nearest, roundHalfEven]

/-! ## Distance -/

/-- No multiple of the spacing is closer to a quotient than the one it is rounded to. -/
theorem rounded_closest (hd : 0 < d) (a : Nat) :
    |(n / d : ℚ) - (roundHalfEven n (d * spacing n d) * spacing n d : ℕ)| ≤
      |(n / d : ℚ) - (a * spacing n d : ℕ)| := by
  have hpos : (d : ℚ) ≠ 0 := Nat.cast_ne_zero.2 hd.ne'
  have hspacing : (0 : ℚ) < spacing n d := Nat.cast_pos.2 (spacing_pos n d)
  -- distances in units of the spacing are distances of whole numbers
  have hscale (b : ℕ) : |(n / d : ℚ) - (b * spacing n d : ℕ)| =
      |(n : ℚ) / (d * spacing n d : ℕ) - b| * spacing n d := by
    have hfactor : (n / d : ℚ) - (b * spacing n d : ℕ) =
        ((n : ℚ) / (d * spacing n d : ℕ) - b) * spacing n d := by
      push_cast
      field_simp
    rw [hfactor, abs_mul, abs_of_pos hspacing]
  rw [hscale, hscale]
  exact mul_le_mul_of_nonneg_right
    (roundHalfEven_closest (Nat.mul_pos hd (spacing_pos n d)) n a) hspacing.le

/-- A magnitude that a double can hold is a multiple of the spacing around a quotient, or at most
the power of two below it. -/
theorem Representable.multiple_or_le (hm : Representable m) (n d : Nat) :
    (∃ a, m = a * spacing n d) ∨ (n / d ≠ 0 ∧ m ≤ 2 ^ (n / d).log2) := by
  -- by which of the two has more bits
  rcases Nat.lt_or_ge (m.log2 - 52) ((n / d).log2 - 52) with hlt | hge
  · right
    refine ⟨fun h0 => ?_, ?_⟩
    · rw [h0] at hlt
      simp at hlt
    · have hlog : m < 2 ^ (m.log2 + 1) := Nat.lt_log2_self
      exact hlog.le.trans (Nat.pow_le_pow_right (by decide) (by omega))
  · left
    obtain ⟨a, ha⟩ := (Nat.pow_dvd_pow 2 hge).trans hm.dvd
    exact ⟨a, ha.trans (Nat.mul_comm _ _)⟩

/-- No magnitude that a double can hold is closer to a quotient than the one it is rounded to. -/
theorem nearest_closest (hd : 0 < d) (hm : Representable m) :
    |(n / d : ℚ) - nearest n d| ≤ |(n / d : ℚ) - m| := by
  have hpos : (0 : ℚ) < d := Nat.cast_pos.2 hd
  have hbelow (h0 : n / d ≠ 0) : ((2 ^ (n / d).log2 : ℕ) : ℚ) ≤ n / d := by
    rw [le_div_iff₀ hpos]
    exact_mod_cast (Nat.mul_le_mul_right d (Nat.log2_self_le h0)).trans (Nat.div_mul_le_self n d)
  -- what is farther below the quotient is farther from it
  have hfarther {a b : ℕ} (hab : a ≤ b) (hb : (b : ℚ) ≤ n / d) :
      |(n / d : ℚ) - b| ≤ |(n / d : ℚ) - a| := by
    have hab : (a : ℚ) ≤ b := Nat.cast_le.2 hab
    rw [abs_of_nonneg (by linarith), abs_of_nonneg (by linarith)]
    linarith
  rw [nearest_eq]
  rcases Nat.lt_or_ge infiniteMagnitude (roundHalfEven n (d * spacing n d) * spacing n d) with
    hlt | hle
  · -- the power of two below the quotient is no less than infinity, and nothing held is greater
    obtain ⟨i, hi, hinfinite⟩ := exists_infiniteMagnitude_eq
    have hlog : i < (n / d).log2 + 1 := by
      refine (Nat.pow_lt_pow_iff_right (by decide : 1 < 2)).1 ?_
      exact (hinfinite ▸ hlt).trans_le (rounded_le_pow hd)
    have hpow : infiniteMagnitude ≤ 2 ^ (n / d).log2 := by
      rw [hinfinite]
      exact Nat.pow_le_pow_right (by decide) (by omega)
    have h0 : n / d ≠ 0 := fun h0 => by
      rw [h0] at hlog
      simp at hlog
      omega
    rw [min_eq_right hlt.le]
    exact hfarther hm.le ((Nat.cast_le.2 hpow).trans (hbelow h0))
  · rw [min_eq_left hle]
    rcases hm.multiple_or_le n d with ⟨a, rfl⟩ | ⟨h0, hsmall⟩
    · exact rounded_closest hd a
    · refine le_trans ?_ (hfarther hsmall (hbelow h0))
      rw [pow_eq_mul_spacing n d (k := (n / d).log2) (by omega)]
      exact rounded_closest hd _

/-- Rounding goes no farther than the spacing that fifty-three bits leave to greater magnitudes. -/
theorem abs_sub_nearest_le (hd : 0 < d) {e : Nat} (h : n ≤ 2 ^ 53 * 2 ^ e * d)
    (hfinite : 2 ^ 53 * 2 ^ e ≤ infiniteMagnitude) :
    |(n / d : ℚ) - nearest n d| ≤ 2 ^ e := by
  have hpos : (0 : ℚ) < d := Nat.cast_pos.2 hd
  have hstep : 0 < d * 2 ^ e := Nat.mul_pos hd (Nat.two_pow_pos e)
  generalize ha : n / (d * 2 ^ e) = a
  have ha53 : a ≤ 2 ^ 53 := by
    rw [← ha]
    refine Nat.div_le_of_le_mul ?_
    calc n ≤ 2 ^ 53 * 2 ^ e * d := h
      _ = d * 2 ^ e * 2 ^ 53 := by ring
  have hrep : Representable (a * 2 ^ e) :=
    representable_mul_pow ha53 ((Nat.mul_le_mul_right _ ha53).trans hfinite)
  refine (nearest_closest hd hrep).trans ?_
  -- the multiple of the spacing below the quotient is that close
  have hle := Nat.div_mul_le_self n (d * 2 ^ e)
  have hlt := Nat.lt_div_mul_add hstep (a := n)
  rw [ha] at hle hlt
  have hle : (a * 2 ^ e : ℚ) ≤ n / d := by
    rw [le_div_iff₀ hpos]
    exact_mod_cast (show a * 2 ^ e * d ≤ n by linarith)
  have hlt : (n / d : ℚ) ≤ a * 2 ^ e + 2 ^ e := by
    rw [div_le_iff₀ hpos]
    exact_mod_cast (show n ≤ (a * 2 ^ e + 2 ^ e) * d by linarith)
  push_cast
  rw [abs_of_nonneg (by linarith)]
  linarith

end Binary64

end LibraryPlayer
