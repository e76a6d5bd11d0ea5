import LibraryPlayer.Playback.Bar
import LibraryPlayer.Proofs.Number.Arithmetic

/-!
# Shares in hundredths of a percent

A share is a quotient of doubles, cut off at one and counted in hundredths of a percent, with a
rounding after each step.  No step turns an order round, so the share grows with what is counted and
falls with the whole (`shareHundredths_mono`, `shareHundredths_antitone`), down to subnormal wholes
and up to infinite positions.  Nor does any step lose more than its rounding, so the share is the
exact one in whole hundredths, as good as (`abs_shareHundredths_sub_le`).
-/

namespace LibraryPlayer

open Binary64 (unitsPerOne infiniteMagnitude nearest)

variable {c c' t t' : Binary64}

/-! ## From a quotient to hundredths of a percent -/

/-- The hundredths of a percent in a quotient of the given magnitude: ten thousand times as much,
rounded to a double and then to a whole number. -/
def hundredths (m : Nat) : Nat :=
  roundHalfUp (nearest (m * (10000 * unitsPerOne)) unitsPerOne) unitsPerOne

/-- A greater quotient has no fewer hundredths. -/
theorem hundredths_mono {m m' : Nat} (h : m ≤ m') : hundredths m ≤ hundredths m' := by
  have hpos := Binary64.unitsPerOne_pos
  refine roundHalfUp_mono (Binary64.nearest_mono hpos hpos ?_)
  exact Nat.mul_le_mul_right _ (Nat.mul_le_mul_right _ h)

/-- There are no hundredths in nothing. -/
@[simp] theorem hundredths_zero : hundredths 0 = 0 := by
  have h := roundHalfUp_mul_self Binary64.unitsPerOne_pos 0
  rw [Nat.zero_mul] at h
  rw [hundredths, Nat.zero_mul, Binary64.nearest_zero, h]

/-- One is all ten thousand hundredths. -/
@[simp] theorem hundredths_unitsPerOne : hundredths unitsPerOne = 10000 := by
  have hpos := Binary64.unitsPerOne_pos
  rw [hundredths, Nat.mul_comm unitsPerOne,
    Binary64.nearest_mul_self hpos (Binary64.representable_mul_unitsPerOne (by decide)),
    roundHalfUp_mul_self hpos]

/-- Counting in hundredths loses no more than rounding to whole ones does, and rounding of the
product before. -/
theorem abs_hundredths_sub_le {m : Nat} (h : m ≤ unitsPerOne) :
    |(hundredths m : ℚ) - 10000 * (m / unitsPerOne)| ≤ 1 / 2 + 1 / 2 ^ 39 := by
  obtain ⟨e, he, hunits⟩ := Binary64.exists_unitsPerOne_eq
  obtain ⟨i, hi, hinfinite⟩ := Binary64.exists_infiniteMagnitude_eq
  have hpos := Binary64.unitsPerOne_pos
  have hunitsPos : (0 : ℚ) < unitsPerOne := Nat.cast_pos.2 hpos
  -- up to ten thousand, doubles lie a 39th power of a half apart at most
  have hsplit : unitsPerOne = 2 ^ 39 * 2 ^ (e - 39) := by
    rw [hunits, ← Nat.pow_add, show 39 + (e - 39) = e by omega]
  have hfinite : 2 ^ 53 * 2 ^ (e - 39) ≤ infiniteMagnitude := by
    rw [hinfinite, ← Nat.pow_add]
    exact Nat.pow_le_pow_right (by decide) (by omega)
  have hbound : m * (10000 * unitsPerOne) ≤ 2 ^ 53 * 2 ^ (e - 39) * unitsPerOne := by
    have hm : m * 10000 ≤ 2 ^ 53 * 2 ^ (e - 39) := by omega
    calc m * (10000 * unitsPerOne) = m * 10000 * unitsPerOne := by ring
      _ ≤ _ := Nat.mul_le_mul_right _ hm
  have hproduct := Binary64.abs_sub_nearest_le hpos hbound hfinite
  have hwhole := abs_sub_roundHalfUp_le hpos (nearest (m * (10000 * unitsPerOne)) unitsPerOne)
  rw [← hundredths] at hwhole
  -- from here on the rounded product is just a number that is close enough
  generalize nearest (m * (10000 * unitsPerOne)) unitsPerOne = p at hproduct hwhole
  have hscale : (unitsPerOne : ℚ) = 2 ^ 39 * 2 ^ (e - 39) := by exact_mod_cast hsplit
  have hproduct : |10000 * ((m : ℚ) / unitsPerOne) - p / unitsPerOne| ≤ 1 / 2 ^ 39 := by
    have hexact : ((m * (10000 * unitsPerOne) : ℕ) : ℚ) / unitsPerOne = 10000 * m := by
      rw [Nat.cast_mul, Nat.cast_mul, ← mul_assoc, mul_div_cancel_right₀ _ hunitsPos.ne', mul_comm]
      rfl
    rw [hexact] at hproduct
    rw [← mul_div_assoc, ← sub_div, abs_div, abs_of_pos hunitsPos, div_le_div_iff₀ hunitsPos
      (by positivity), one_mul, hscale, mul_comm ((2 : ℚ) ^ 39)]
    exact mul_le_mul_of_nonneg_right hproduct (by positivity)
  rw [abs_sub_comm]
  calc |10000 * ((m : ℚ) / unitsPerOne) - hundredths m|
      ≤ |10000 * ((m : ℚ) / unitsPerOne) - p / unitsPerOne| +
          |(p : ℚ) / unitsPerOne - hundredths m| := abs_sub_le _ _ _
    _ ≤ 1 / 2 ^ 39 + 1 / 2 := add_le_add hproduct hwhole
    _ = 1 / 2 + 1 / 2 ^ 39 := add_comm _ _

/-- A positive number, cut off at one. -/
theorem cut_off_at_one {x : Binary64} (h : Binary64.zero.lt x = true) :
    let cut := if Binary64.one.lt x then .one else x
    cut.isFinite = true ∧ cut.negative = false ∧ cut.magnitude = min x.magnitude unitsPerOne := by
  obtain ⟨hnumber, hsign, -⟩ := Binary64.zero_lt_iff.1 h
  have hone := Binary64.one_lt_iff hnumber hsign
  intro cut
  by_cases hlarge : Binary64.one.lt x = true
  · have hcut : cut = .one := if_pos hlarge
    rw [hcut, Binary64.magnitude_one, min_eq_right (hone.1 hlarge).le]
    exact ⟨Binary64.isFinite_one, Binary64.negative_one, rfl⟩
  · have hcut : cut = x := if_neg hlarge
    have hle : x.magnitude ≤ unitsPerOne := not_lt.1 (mt hone.2 hlarge)
    have hlt := hle.trans_lt Binary64.unitsPerOne_lt
    rw [hcut, min_eq_left hle]
    exact ⟨Binary64.isFinite_of_magnitude_lt hnumber hlt, hsign, rfl⟩

/-- The share is that of the quotient, if there is one and it is positive. -/
theorem shareHundredths_eq (hc : c.isNaN = false) (ht : t.isNaN = false) (h0 : t.magnitude ≠ 0) :
    shareHundredths (some c) (some t) =
      if Binary64.zero.lt (c.div t) then hundredths (min (c.div t).magnitude unitsPerOne)
      else 0 := by
  have hzero : t.eq .zero = false :=
    Bool.eq_false_iff.2 fun h => h0 (Binary64.eq_zero_iff.1 h).2
  simp only [shareHundredths, hc, ht, hzero, Bool.or_self, Bool.false_eq_true, if_false]
  -- the branches of the program test for what is not positive, this one the other way round
  by_cases hpos : Binary64.zero.lt (c.div t) = true
  · obtain ⟨hnumber, hsign, hmagnitude⟩ := Binary64.zero_lt_iff.1 hpos
    have hnot : ¬ (c.div t).le .zero = true := by
      rw [Binary64.le_zero_iff, hsign]
      simp [hmagnitude.ne']
    obtain ⟨hfinite, hsign', hcut⟩ := cut_off_at_one hpos
    rw [hnumber, Bool.false_or, if_neg hnot, if_pos hpos,
      Binary64.mul_eq hfinite (Binary64.isFinite_ofNat (by decide)),
      Binary64.magnitude_ofMagnitude _
        (Binary64.representable_nearest Binary64.unitsPerOne_pos),
      hcut, Binary64.magnitude_ofNat (by decide), hundredths]
  · have hnot : ((c.div t).isNaN || (c.div t).le .zero) = true := by
      cases hnumber : (c.div t).isNaN
      · exact Binary64.le_zero_of_not_zero_lt hnumber hpos
      · rfl
    rw [if_pos hnot, if_neg hpos]

/-! ## Shares -/

/-- One of the two is unknown or not a number, or there is nothing to have a share of. -/
def Undefined (current total : Option Binary64) : Prop :=
  current = none ∨ total = none ∨ (∃ c, current = some c ∧ c.isNaN = true) ∨
    ∃ t, total = some t ∧ (t.isNaN = true ∨ t.eq .zero = true)

/-- Where there is no share nothing is counted. -/
theorem shareHundredths_of_undefined {current total : Option Binary64}
    (h : Undefined current total) : shareHundredths current total = 0 := by
  rcases h with rfl | rfl | ⟨c, rfl, hc⟩ | ⟨t, rfl, ht⟩
  · rfl
  · cases current <;> rfl
  · cases total with
    | none => rfl
    | some t => simp [shareHundredths, hc]
  · cases current with
    | none => rfl
    | some c => rcases ht with ht | ht <;> simp [shareHundredths, ht]

/-- What is left are two numbers, and the second is not zero. -/
theorem undefined_or (current total : Option Binary64) :
    Undefined current total ∨ ∃ c t, current = some c ∧ total = some t ∧
      c.isNaN = false ∧ t.isNaN = false ∧ t.magnitude ≠ 0 := by
  cases current with
  | none => exact .inl (.inl rfl)
  | some c =>
    cases total with
    | none => exact .inl (.inr (.inl rfl))
    | some t =>
      cases hc : c.isNaN
      · cases ht : t.isNaN
        · by_cases h0 : t.magnitude = 0
          · have hzero := Binary64.eq_zero_iff.2 ⟨ht, h0⟩
            exact .inl (.inr (.inr (.inr ⟨t, rfl, .inr hzero⟩)))
          · exact .inr ⟨c, t, rfl, rfl, hc, ht, h0⟩
        · exact .inl (.inr (.inr (.inr ⟨t, rfl, .inl ht⟩)))
      · exact .inl (.inr (.inr (.inl ⟨c, rfl, hc⟩)))

/-- A quotient is at least one where the whole is no more than what is counted. -/
theorem unitsPerOne_le_nearest {m d : Nat} (hd : 0 < d) (h : d ≤ m) :
    unitsPerOne ≤ nearest (m * unitsPerOne) d :=
  calc unitsPerOne = nearest (unitsPerOne * d) d :=
        (Binary64.nearest_mul_self hd Binary64.representable_unitsPerOne).symm
    _ ≤ nearest (m * unitsPerOne) d := by
        refine Binary64.nearest_mono hd hd (Nat.mul_le_mul_right d ?_)
        rw [Nat.mul_comm]
        exact Nat.mul_le_mul_right unitsPerOne h

/-- A quotient is at most one where the whole is no less than what is counted. -/
theorem nearest_le_unitsPerOne {m d : Nat} (hd : 0 < d) (h : m ≤ d) :
    nearest (m * unitsPerOne) d ≤ unitsPerOne :=
  calc nearest (m * unitsPerOne) d ≤ nearest (unitsPerOne * d) d := by
        refine Binary64.nearest_mono hd hd (Nat.mul_le_mul_right d ?_)
        rw [Nat.mul_comm]
        exact Nat.mul_le_mul_left unitsPerOne h
    _ = unitsPerOne := Binary64.nearest_mul_self hd Binary64.representable_unitsPerOne

/-- A quotient that is cut off at one is as close to the exact one as doubles below one are to each
other. -/
theorem abs_cut_sub_le {m d : Nat} (hd : 0 < d) :
    |((min (nearest (m * unitsPerOne) d) unitsPerOne : ℕ) : ℚ) / unitsPerOne -
      min ((m : ℚ) / d) 1| ≤ 1 / 2 ^ 53 := by
  obtain ⟨e, he, hunits⟩ := Binary64.exists_unitsPerOne_eq
  have hdpos : (0 : ℚ) < d := Nat.cast_pos.2 hd
  have hunitsPos : (0 : ℚ) < unitsPerOne := Nat.cast_pos.2 Binary64.unitsPerOne_pos
  rcases Nat.lt_or_ge m d with hlt | hge
  -- below one, doubles lie a 53rd power of a half apart at most
  · have hsplit : unitsPerOne = 2 ^ 53 * 2 ^ (e - 53) := by
      rw [hunits, ← Nat.pow_add, show 53 + (e - 53) = e by omega]
    have hscale : (unitsPerOne : ℚ) = 2 ^ 53 * 2 ^ (e - 53) := by exact_mod_cast hsplit
    have hbound : m * unitsPerOne ≤ 2 ^ 53 * 2 ^ (e - 53) * d := by
      rw [← hsplit, Nat.mul_comm]
      exact Nat.mul_le_mul_left _ hlt.le
    have hclose := Binary64.abs_sub_nearest_le hd hbound (hsplit ▸ Binary64.unitsPerOne_lt.le)
    have hone := nearest_le_unitsPerOne hd hlt.le
    have hbelow : (m : ℚ) / d ≤ 1 := (div_le_one hdpos).2 (Nat.cast_le.2 hlt.le)
    have hexact : ((m * unitsPerOne : ℕ) : ℚ) / d / unitsPerOne = m / d := by
      rw [Nat.cast_mul, mul_div_right_comm, mul_div_cancel_right₀ _ hunitsPos.ne']
    rw [min_eq_left hone, min_eq_left hbelow, ← hexact, ← sub_div, abs_div, abs_of_pos hunitsPos,
      abs_sub_comm, div_le_div_iff₀ hunitsPos (by positivity), one_mul, hscale,
      mul_comm ((2 : ℚ) ^ 53)]
    exact mul_le_mul_of_nonneg_right hclose (by positivity)
  -- from one on both are cut off to the same
  · have habove : 1 ≤ (m : ℚ) / d := (one_le_div hdpos).2 (Nat.cast_le.2 hge)
    rw [min_eq_right (unitsPerOne_le_nearest hd hge), min_eq_right habove, div_self hunitsPos.ne',
      sub_self, abs_zero]
    positivity

/-- What is positive has a share of a positive whole, unless the whole is infinite. -/
theorem shareHundredths_of_pos (hc : Binary64.zero.lt c = true) (ht : Binary64.zero.lt t = true) :
    shareHundredths (some c) (some t) =
      if t.isInfinite then 0
      else hundredths (min (nearest (c.magnitude * unitsPerOne) t.magnitude) unitsPerOne) := by
  obtain ⟨hcn, hcs, hcm⟩ := Binary64.zero_lt_iff.1 hc
  obtain ⟨htn, -, htm⟩ := Binary64.zero_lt_iff.1 ht
  rw [shareHundredths_eq hcn htn htm.ne']
  by_cases hinfinite : t.isInfinite = true
  · rw [if_pos hinfinite, if_neg (Binary64.not_zero_lt_div hcn htn hinfinite)]
  · rw [if_neg hinfinite]
    rw [Bool.not_eq_true] at hinfinite
    obtain ⟨hnumber, hsign, hmagnitude⟩ := Binary64.div_spec_of_pos hcn ht hinfinite
    -- an infinite quotient is cut off just as the rounded one would be
    have hcut : min (c.div t).magnitude unitsPerOne =
        min (nearest (c.magnitude * unitsPerOne) t.magnitude) unitsPerOne := by
      rw [hmagnitude]
      split
      next hcinf =>
        have hle : t.magnitude ≤ c.magnitude :=
          (Binary64.isInfinite_iff hcn).1 hcinf ▸ (Binary64.representable_magnitude htn).le
        rw [min_eq_right Binary64.unitsPerOne_lt.le, min_eq_right (unitsPerOne_le_nearest htm hle)]
      · rfl
    rw [hcut]
    split
    · rfl
    next hnot =>
      -- a quotient that is not positive has been rounded to zero
      have hzero : (c.div t).magnitude = 0 := by
        by_contra hne
        exact hnot (Binary64.zero_lt_iff.2 ⟨hnumber, hsign.trans hcs, Nat.pos_of_ne_zero hne⟩)
      rw [← hcut, hzero, Nat.zero_min, hundredths_zero]

/-- What is not positive has no share of a positive whole. -/
theorem shareHundredths_of_nonpos (hc : c.le .zero = true) (ht : Binary64.zero.lt t = true) :
    shareHundredths (some c) (some t) = 0 := by
  obtain ⟨hcn, hnonpos⟩ := Binary64.le_zero_iff.1 hc
  obtain ⟨htn, -, htm⟩ := Binary64.zero_lt_iff.1 ht
  rw [shareHundredths_eq hcn htn htm.ne']
  by_cases hinfinite : t.isInfinite = true
  · rw [if_neg (Binary64.not_zero_lt_div hcn htn hinfinite)]
  · rw [Bool.not_eq_true] at hinfinite
    obtain ⟨-, hsign, hmagnitude⟩ := Binary64.div_spec_of_pos hcn ht hinfinite
    rw [if_neg]
    intro hpos
    obtain ⟨-, hsign', hmagnitude'⟩ := Binary64.zero_lt_iff.1 hpos
    -- the quotient has the sign of what is counted, or is zero with it
    rcases hnonpos with hnegative | hzero
    · rw [hsign, hnegative] at hsign'
      exact absurd hsign' (by decide)
    · have hfinite : c.isInfinite = false := by
        refine Bool.eq_false_iff.2 fun h => ?_
        have hlt := Binary64.unitsPerOne_lt
        rw [← (Binary64.isInfinite_iff hcn).1 h, hzero] at hlt
        exact Nat.not_lt_zero _ hlt
      rw [hmagnitude, hfinite, hzero, Nat.zero_mul, Binary64.nearest_zero] at hmagnitude'
      exact absurd hmagnitude' (by decide)

/-- There is never more than all. -/
theorem shareHundredths_le (current total : Option Binary64) :
    shareHundredths current total ≤ 10000 := by
  rcases undefined_or current total with h | ⟨c, t, rfl, rfl, hc, ht, h0⟩
  · rw [shareHundredths_of_undefined h]
    exact Nat.zero_le _
  · rw [shareHundredths_eq hc ht h0]
    split
    · rw [← hundredths_unitsPerOne]
      exact hundredths_mono (min_le_right _ _)
    · exact Nat.zero_le _

/-- Of a positive whole a later position has no smaller share. -/
theorem shareHundredths_mono (ht : Binary64.zero.lt t = true) (h : c.le c' = true) :
    shareHundredths (some c) (some t) ≤ shareHundredths (some c') (some t) := by
  obtain ⟨hcn, -⟩ : c.isNaN = false ∧ c'.isNaN = false := Binary64.isNaN_of_le h
  by_cases hpos : Binary64.zero.lt c = true
  · have hpos' := Binary64.zero_lt_of_le hpos h
    obtain ⟨-, -, htm⟩ := Binary64.zero_lt_iff.1 ht
    have hmagnitude := Binary64.magnitude_le_of_le h (Binary64.zero_lt_iff.1 hpos).2.1
      (Binary64.zero_lt_iff.1 hpos').2.1
    rw [shareHundredths_of_pos hpos ht, shareHundredths_of_pos hpos' ht]
    split
    · exact Nat.le_refl 0
    · refine hundredths_mono (min_le_min_right _ (Binary64.nearest_mono htm htm ?_))
      exact Nat.mul_le_mul_right _ (Nat.mul_le_mul_right _ hmagnitude)
  -- a position that has not begun has the least share there is
  · rw [shareHundredths_of_nonpos (Binary64.le_zero_of_not_zero_lt hcn hpos) ht]
    exact Nat.zero_le _

/-- What is positive has no greater share of a greater whole. -/
theorem shareHundredths_antitone (hc : Binary64.zero.lt c = true)
    (ht : Binary64.zero.lt t = true) (h : t.le t' = true) :
    shareHundredths (some c) (some t') ≤ shareHundredths (some c) (some t) := by
  have ht' := Binary64.zero_lt_of_le ht h
  obtain ⟨htn, hts, htm⟩ := Binary64.zero_lt_iff.1 ht
  obtain ⟨htn', hts', htm'⟩ := Binary64.zero_lt_iff.1 ht'
  have hmagnitude := Binary64.magnitude_le_of_le h hts hts'
  rw [shareHundredths_of_pos hc ht, shareHundredths_of_pos hc ht']
  by_cases hinfinite' : t'.isInfinite = true
  · rw [if_pos hinfinite']
    exact Nat.zero_le _
  · have hinfinite : ¬ t.isInfinite = true := fun hinfinite => by
      -- nothing is greater than an infinite whole
      refine hinfinite' ((Binary64.isInfinite_iff htn').2 (Nat.le_antisymm ?_ ?_))
      · exact (Binary64.representable_magnitude htn').le
      · rwa [← (Binary64.isInfinite_iff htn).1 hinfinite]
    rw [if_neg hinfinite', if_neg hinfinite]
    exact hundredths_mono (min_le_min_right _
      (Binary64.nearest_mono htm' htm (Nat.mul_le_mul_left _ hmagnitude)))

/-- A whole that has been reached is shown as all of it. -/
theorem shareHundredths_full (ht : Binary64.zero.lt t = true) (hfinite : t.isFinite = true)
    (h : t.le c = true) : shareHundredths (some c) (some t) = 10000 := by
  have hc := Binary64.zero_lt_of_le ht h
  obtain ⟨-, hts, htm⟩ := Binary64.zero_lt_iff.1 ht
  have hmagnitude := Binary64.magnitude_le_of_le h hts (Binary64.zero_lt_iff.1 hc).2.1
  rw [shareHundredths_of_pos hc ht, Binary64.isInfinite_of_isFinite hfinite,
    if_neg Bool.false_ne_true, min_eq_right (unitsPerOne_le_nearest htm hmagnitude),
    hundredths_unitsPerOne]

/-- Of a finite whole a share is shown as closely as hundredths of a percent allow. -/
theorem abs_shareHundredths_sub_le (hc : Binary64.zero.lt c = true)
    (ht : Binary64.zero.lt t = true) (hfinite : t.isFinite = true) :
    |(shareHundredths (some c) (some t) : ℚ) - 10000 * min (c.exact / t.exact) 1| ≤
      1 / 2 + 1 / 2 ^ 38 := by
  obtain ⟨-, hcs, -⟩ := Binary64.zero_lt_iff.1 hc
  obtain ⟨-, hts, htm⟩ := Binary64.zero_lt_iff.1 ht
  have hunits : (unitsPerOne : ℚ) ≠ 0 := Nat.cast_ne_zero.2 Binary64.unitsPerOne_pos.ne'
  have hquotient : c.exact / t.exact = (c.magnitude : ℚ) / t.magnitude := by
    rw [Binary64.exact_eq, Binary64.exact_eq, Binary64.value_of_not_negative hcs,
      Binary64.value_of_not_negative hts, Int.cast_natCast, Int.cast_natCast,
      div_div_div_cancel_right₀ hunits]
  rw [shareHundredths_of_pos hc ht, Binary64.isInfinite_of_isFinite hfinite,
    if_neg Bool.false_ne_true, hquotient]
  have hcut := abs_cut_sub_le (m := c.magnitude) htm
  have hcount := abs_hundredths_sub_le
    (min_le_right (nearest (c.magnitude * unitsPerOne) t.magnitude) unitsPerOne)
  -- the two errors are added, the one of the quotient ten thousand times
  generalize min (nearest (c.magnitude * unitsPerOne) t.magnitude) unitsPerOne = m at hcut hcount
  generalize min ((c.magnitude : ℚ) / t.magnitude) 1 = q at hcut
  generalize (m : ℚ) / unitsPerOne = r at hcut hcount
  calc |(hundredths m : ℚ) - 10000 * q|
      ≤ |(hundredths m : ℚ) - 10000 * r| + |10000 * r - 10000 * q| := abs_sub_le _ _ _
    _ = |(hundredths m : ℚ) - 10000 * r| + 10000 * |r - q| := by
        rw [← mul_sub, abs_mul, abs_of_pos (by norm_num : (0 : ℚ) < 10000)]
    _ ≤ 1 / 2 + 1 / 2 ^ 39 + 10000 * (1 / 2 ^ 53) := by linarith
    _ ≤ 1 / 2 + 1 / 2 ^ 38 := by norm_num

end LibraryPlayer
