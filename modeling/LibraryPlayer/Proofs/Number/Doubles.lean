import LibraryPlayer.Proofs.Number.Rounding

/-!
# What the bits of a double say

Packing a magnitude into bits and reading it back gives the same magnitude, for every magnitude that
a double can hold (`magnitude_ofMagnitude`), and every double holds such a one
(`representable_magnitude`).  Packing what has been read gives the double back
(`ofMagnitude_magnitude`), so a number without a sign is known by its value (`eq_of_value_eq`).
`exact` is the number that a double stands for by the rule of its format, a significand between one
and two times a power of two; `exact_eq` ties it to the scale of integers that comparing and
rounding go by.
-/

namespace LibraryPlayer.Binary64

/-! ## Packing -/

/-- A magnitude that a double can hold has a significand of at most fifty-three bits, all of them
used if it is doubled. -/
theorem Representable.exists_significand {m : Nat} (h : Representable m) :
    ∃ a e, m = a * 2 ^ e ∧ a < 2 ^ 53 ∧ (e = 0 ∨ 2 ^ 52 ≤ a) ∧
      e ≤ 2046 ∧ (e = 2046 → a ≤ 2 ^ 52) ∧ m.log2 - 52 = e := by
  obtain ⟨a, ha⟩ := h.dvd
  obtain ⟨i, hi, hinfinite⟩ := exists_infiniteMagnitude_eq
  generalize he : m.log2 - 52 = e at ha
  have hm : m = a * 2 ^ e := by rw [ha, Nat.mul_comm]
  have hle : a * 2 ^ e ≤ 2 ^ i := hm ▸ hinfinite ▸ h.le
  have hlt : a < 2 ^ 53 := by
    have hlog : m < 2 ^ (m.log2 + 1) := Nat.lt_log2_self
    have hpow : 2 ^ (m.log2 + 1) ≤ 2 ^ 53 * 2 ^ e := by
      rw [← Nat.pow_add]
      exact Nat.pow_le_pow_right (by decide) (by omega)
    exact Nat.lt_of_mul_lt_mul_right (hm ▸ Nat.lt_of_lt_of_le hlog hpow)
  -- a significand of fewer bits could be doubled less often
  have hnormal : e = 0 ∨ 2 ^ 52 ≤ a := by
    rcases Nat.eq_zero_or_pos e with h0 | hpos
    · exact .inl h0
    · right
      have hne : m ≠ 0 := by
        rintro rfl
        simp at he
        omega
      have hlog := Nat.log2_self_le hne
      rw [show m.log2 = 52 + e by omega, hm, Nat.pow_add] at hlog
      exact Nat.le_of_mul_le_mul_right hlog (Nat.two_pow_pos e)
  -- the exponent is bounded by that of infinity
  have hbound (k : Nat) (hk : 2 ^ k ≤ a) : k + e ≤ i := by
    refine (Nat.pow_le_pow_iff_right (by decide : 1 < 2)).1 ?_
    rw [Nat.pow_add]
    exact Nat.le_trans (Nat.mul_le_mul_right _ hk) hle
  refine ⟨a, e, hm, hlt, hnormal, ?_, fun htop => ?_, rfl⟩
  · rcases hnormal with h0 | h52
    · omega
    · have := hbound 52 h52
      omega
  · -- as large as infinity, and so equal to it
    refine Nat.le_of_mul_le_mul_right ?_ (Nat.two_pow_pos e)
    rwa [← Nat.pow_add, show 52 + e = i by omega]

/-- The bits of a packed magnitude: the leading bit of the significand carries into the exponent. -/
theorem toNat_ofMagnitude (negative : Bool) {m a e : Nat} (hm : m = a * 2 ^ e) (ha : a < 2 ^ 53)
    (he : e ≤ 2046) (hlog : m.log2 - 52 = e) :
    (ofMagnitude negative m).bits.toNat = (if negative then 2 ^ 63 else 0) + (e * 2 ^ 52 + a) := by
  have hdiv : m / 2 ^ e = a := by
    rw [hm, Nat.mul_div_cancel a (Nat.two_pow_pos e)]
  simp only [ofMagnitude, hlog, Nat.pow_eq, hdiv]
  rw [UInt64.toNat_ofNat']
  -- the three parts fit the sixty-four bits
  refine Nat.mod_eq_of_lt ?_
  split <;> omega

/-- A double that a magnitude is packed into has the sign and the magnitude that it was given. -/
theorem ofMagnitude_spec (negative : Bool) {m : Nat} (h : Representable m) :
    (ofMagnitude negative m).negative = negative ∧ (ofMagnitude negative m).magnitude = m ∧
      (ofMagnitude negative m).isNaN = false := by
  obtain ⟨a, e, hm, ha, hnormal, he, htop, hlog⟩ := h.exists_significand
  have hbits := toNat_ofMagnitude negative hm ha he hlog
  -- the leading bit is what the significand has beyond the fraction
  have hfield : (ofMagnitude negative m).field = e + a / 2 ^ 52 := by
    rw [field, hbits, Nat.pow_eq, Nat.pow_eq]
    split <;> omega
  have hfraction : (ofMagnitude negative m).fraction = a % 2 ^ 52 := by
    rw [fraction, hbits, Nat.pow_eq]
    split <;> omega
  refine ⟨?sign, ?magnitude, ?number⟩
  case sign =>
    rw [Binary64.negative, hbits, Nat.pow_eq]
    cases negative
    · exact decide_eq_false (by rw [if_neg Bool.false_ne_true]; omega)
    · exact decide_eq_true (by rw [if_pos rfl]; omega)
  case magnitude =>
    simp only [magnitude, hfield, hfraction, Nat.pow_eq]
    rcases Nat.lt_or_ge a (2 ^ 52) with hsmall | hlarge
    · -- without the leading bit nothing was doubled, and the exponent field stays empty
      have h0 : e = 0 := hnormal.resolve_right (by omega)
      rw [Nat.div_eq_of_lt hsmall, Nat.mod_eq_of_lt hsmall, hm, h0]
      simp
    · have hone : a / 2 ^ 52 = 1 := by omega
      have hrest : 2 ^ 52 + a % 2 ^ 52 = a := by omega
      rw [hone, hrest, if_neg (by omega), Nat.add_sub_cancel, hm]
  case number =>
    simp only [isNaN, hfield, hfraction]
    by_cases hfull : e + a / 2 ^ 52 = 2047
    · have h52 : a = 2 ^ 52 := by
        have := htop (by omega)
        omega
      simp [h52]
    · rw [beq_eq_false_iff_ne.2 hfull, Bool.false_and]

/-- Packing keeps the sign. -/
@[simp] theorem negative_ofMagnitude (b : Bool) {m : Nat} (h : Representable m) :
    (ofMagnitude b m).negative = b := (ofMagnitude_spec b h).1

/-- Packing keeps the magnitude. -/
@[simp] theorem magnitude_ofMagnitude (b : Bool) {m : Nat} (h : Representable m) :
    (ofMagnitude b m).magnitude = m := (ofMagnitude_spec b h).2.1

/-- Packing gives a number. -/
@[simp] theorem isNaN_ofMagnitude (b : Bool) {m : Nat} (h : Representable m) :
    (ofMagnitude b m).isNaN = false := (ofMagnitude_spec b h).2.2

/-! ## Magnitudes -/

/-- The exponent field has eleven bits. -/
theorem field_lt (x : Binary64) : x.field < 2048 := Nat.mod_lt _ (by decide)

/-- The fraction has fifty-two bits. -/
theorem fraction_lt (x : Binary64) : x.fraction < 2 ^ 52 := Nat.mod_lt _ (by decide)

/-- Of the numbers only the infinities have the greatest magnitude. -/
theorem isInfinite_iff {x : Binary64} (h : x.isNaN = false) :
    x.isInfinite = true ↔ x.magnitude = infiniteMagnitude := by
  obtain ⟨i, hi, hinfinite⟩ := exists_infiniteMagnitude_eq
  have hfraction := x.fraction_lt
  have hfield := x.field_lt
  rw [magnitude, hinfinite, Nat.pow_eq, Nat.pow_eq]
  -- a full field is that of infinity; any other leaves the magnitude below it
  by_cases hfull : x.field = 2047
  · have hzero : x.fraction = 0 := by simpa [isNaN, hfull] using h
    have hpow : (2 ^ 52 + 0) * 2 ^ (x.field - 1) = 2 ^ i := by
      rw [Nat.add_zero, ← Nat.pow_add, show 52 + (x.field - 1) = i by omega]
    rw [hzero, hpow, if_neg (by omega)]
    exact iff_of_true (by simp [isInfinite, hfull, hzero]) rfl
  · have hless : (if x.field = 0 then x.fraction else (2 ^ 52 + x.fraction) * 2 ^ (x.field - 1)) <
        2 ^ i := by
      split
      · exact Nat.lt_of_lt_of_le hfraction (Nat.pow_le_pow_right (by decide) (by omega))
      · calc (2 ^ 52 + x.fraction) * 2 ^ (x.field - 1) < 2 ^ 53 * 2 ^ (x.field - 1) :=
              Nat.mul_lt_mul_of_pos_right (by omega) (Nat.two_pow_pos _)
          _ ≤ 2 ^ i := by
              rw [← Nat.pow_add]
              exact Nat.pow_le_pow_right (by decide) (by omega)
    exact iff_of_false (by simp [isInfinite, hfull]) (Nat.ne_of_lt hless)

/-- Every number holds a magnitude that a double can hold. -/
theorem representable_magnitude {x : Binary64} (h : x.isNaN = false) :
    Representable x.magnitude := by
  by_cases hinfinite : x.isInfinite = true
  · rw [(isInfinite_iff h).1 hinfinite]
    exact representable_infiniteMagnitude
  · obtain ⟨i, hi, hpow⟩ := exists_infiniteMagnitude_eq
    have hfraction := x.fraction_lt
    have hfield := x.field_lt
    have hfull : x.field ≠ 2047 := by
      intro hfull
      have hzero : x.fraction = 0 := by simpa [isNaN, hfull] using h
      exact hinfinite (by simp [isInfinite, hfull, hzero])
    rw [magnitude, Nat.pow_eq, Nat.pow_eq]
    -- an empty field has no leading bit, any other one has
    split
    · have hle : x.fraction * 2 ^ 0 ≤ infiniteMagnitude := by
        rw [hpow, Nat.pow_zero, Nat.mul_one]
        exact Nat.le_trans hfraction.le (Nat.pow_le_pow_right (by decide) (by omega))
      simpa using representable_mul_pow (by omega) hle
    · refine representable_mul_pow (by omega) ?_
      calc (2 ^ 52 + x.fraction) * 2 ^ (x.field - 1) ≤ 2 ^ 53 * 2 ^ (x.field - 1) :=
            Nat.mul_le_mul_right _ (by omega)
        _ ≤ infiniteMagnitude := by
            rw [hpow, ← Nat.pow_add]
            exact Nat.pow_le_pow_right (by decide) (by omega)

/-- What is finite is a number. -/
theorem isNaN_of_isFinite {x : Binary64} (h : x.isFinite = true) : x.isNaN = false := by
  simp only [isFinite, bne_iff_ne] at h
  simp [isNaN, h]

/-! ## Unpacking -/

/-- The bits of a double, put together from its fields. -/
theorem toNat_bits (x : Binary64) :
    x.bits.toNat = (if x.negative then 2 ^ 63 else 0) + (x.field * 2 ^ 52 + x.fraction) := by
  have hbound := x.bits.toNat_lt
  simp only [negative, field, fraction, Nat.pow_eq, decide_eq_true_eq]
  split <;> omega

/-- Packing the magnitude of a double under its sign gives the double back. -/
theorem ofMagnitude_magnitude (x : Binary64) : ofMagnitude x.negative x.magnitude = x := by
  have hfield := x.field_lt
  have hfraction := x.fraction_lt
  suffices h : (ofMagnitude x.negative x.magnitude).bits.toNat = x.bits.toNat from
    congrArg mk (UInt64.toNat_inj.1 h)
  rw [x.toNat_bits]
  by_cases h0 : x.field = 0
  · -- without a leading bit the fraction is the whole significand
    have hm : x.magnitude = x.fraction * 2 ^ 0 := by simp [magnitude, h0]
    have hlog : x.magnitude.log2 ≤ 52 := by
      by_cases hzero : x.magnitude = 0
      · rw [hzero]
        decide
      · exact ((Nat.log2_lt hzero).2 (by omega)).le
    rw [toNat_ofMagnitude _ hm (by omega) (by omega) (by omega), h0]
  · have hm : x.magnitude = (2 ^ 52 + x.fraction) * 2 ^ (x.field - 1) := by
      simp [magnitude, h0]
    have hpos : x.magnitude ≠ 0 := by
      rw [hm]
      exact (Nat.mul_pos (by omega) (Nat.two_pow_pos _)).ne'
    -- the leading bit tells how often the significand was doubled
    have hlog : x.magnitude.log2 = 52 + (x.field - 1) := by
      rw [Nat.log2_eq_iff hpos, hm]
      constructor
      · rw [Nat.pow_add]
        exact Nat.mul_le_mul_right _ (by omega)
      · calc (2 ^ 52 + x.fraction) * 2 ^ (x.field - 1) < 2 ^ 53 * 2 ^ (x.field - 1) :=
              Nat.mul_lt_mul_of_pos_right (by omega) (Nat.two_pow_pos _)
          _ = 2 ^ (52 + (x.field - 1) + 1) := by
              rw [← Nat.pow_add, show 53 + (x.field - 1) = 52 + (x.field - 1) + 1 by omega]
    rw [toNat_ofMagnitude _ hm (by omega) (by omega) (by omega)]
    omega

/-! ## Values -/

/-- Without a sign the value is the magnitude. -/
theorem value_of_not_negative {x : Binary64} (h : x.negative = false) :
    x.value = x.magnitude := by
  rw [value, h]
  rfl

/-- Numbers without a sign that have the same value are the same double. -/
theorem eq_of_value_eq {x y : Binary64} (hx : x.negative = false) (hy : y.negative = false)
    (h : x.value = y.value) : x = y := by
  rw [value_of_not_negative hx, value_of_not_negative hy, Nat.cast_inj] at h
  rw [← ofMagnitude_magnitude x, ← ofMagnitude_magnitude y, hx, hy, h]

/-- A positive value is a magnitude without a sign. -/
theorem value_pos_iff {x : Binary64} :
    0 < x.value ↔ x.negative = false ∧ 0 < x.magnitude := by
  rw [value]
  cases x.negative <;> simp

/-- The absolute value that a double stands for: a significand between one and two, or between zero
and one where the exponent field is empty, times a power of two. -/
def exactMagnitude (x : Binary64) : ℚ :=
  if x.field = 0 then (x.fraction : ℚ) / 2 ^ 52 * 2 ^ (-1022 : ℤ)
  else (1 + (x.fraction : ℚ) / 2 ^ 52) * 2 ^ ((x.field : ℤ) - 1023)

/-- The number that a double stands for. -/
def exact (x : Binary64) : ℚ := if x.negative then -x.exactMagnitude else x.exactMagnitude

/-- The scale of integers is that of the absolute values. -/
theorem exactMagnitude_eq (x : Binary64) : x.exactMagnitude = x.magnitude / unitsPerOne := by
  obtain ⟨u, hu, hunits⟩ := exists_unitsPerOne_eq
  have htwo : (2 : ℚ) ≠ 0 := two_ne_zero
  rw [exactMagnitude, magnitude, hunits, Nat.pow_eq, Nat.pow_eq]
  split
  -- with an empty field the power of two is that of the smallest one
  · have hscale : (2 : ℚ) ^ (-1022 : ℤ) = 2 ^ 52 / 2 ^ u := by
      rw [← zpow_natCast, ← zpow_natCast, ← zpow_sub₀ htwo,
        show ((52 : ℕ) : ℤ) - (u : ℤ) = -1022 by omega]
    rw [hscale, Nat.cast_pow, Nat.cast_ofNat]
    field_simp
  next hfield =>
    have hpower : (2 : ℚ) ^ ((x.field : ℤ) - 1023) = 2 ^ 52 * 2 ^ (x.field - 1) / 2 ^ u := by
      rw [← zpow_natCast, ← zpow_natCast, ← zpow_natCast, ← zpow_add₀ htwo, ← zpow_sub₀ htwo,
        show ((52 : ℕ) : ℤ) + ((x.field - 1 : ℕ) : ℤ) - (u : ℤ) = (x.field : ℤ) - 1023 by omega]
    rw [hpower]
    push_cast
    field_simp
    norm_num

/-- The scale of integers is that of the exact numbers. -/
theorem exact_eq (x : Binary64) : x.exact = x.value / unitsPerOne := by
  rw [exact, value, exactMagnitude_eq]
  split
  · rw [Int.cast_neg, Int.cast_natCast, neg_div]
  · rw [Int.cast_natCast]

/-- The sign of a number is that of its value. -/
theorem exact_pos_iff {x : Binary64} : 0 < x.exact ↔ 0 < x.value := by
  have hunits : (0 : ℚ) < unitsPerOne := Nat.cast_pos.2 unitsPerOne_pos
  rw [exact_eq, div_pos_iff_of_pos_right hunits, Int.cast_pos]

/-- The order of numbers is that of their values. -/
theorem exact_le_exact_iff {x y : Binary64} : x.exact ≤ y.exact ↔ x.value ≤ y.value := by
  have hunits : (0 : ℚ) < unitsPerOne := Nat.cast_pos.2 unitsPerOne_pos
  rw [exact_eq, exact_eq, div_le_div_iff_of_pos_right hunits, Int.cast_le]

end LibraryPlayer.Binary64
