import LibraryPlayer.Proofs.Playback.Shares
import LibraryPlayer.Proofs.Text.Decimals
import LibraryPlayer.Proofs.Text.Runs

/-!
# How wide progress bars are

The width is written as the decimal number it is, with nothing superfluous
(`isHundredths_hundredthsText`).  It is also what the double nearest to that number is written as:
of all decimal numbers that are read as this double no other one is as short
(`isShortest_hundredthsText`).

* `barWidth_exact`: the widths of all bars.
-/

namespace LibraryPlayer

variable {c t : Binary64}

/-! ## Hundredths as text -/

/-- The characters are a decimal number, one of `n` hundredths with nothing superfluous: no zeros in
front of it, none at the end of its fraction, and no decimal number of the same value is as short.
-/
structure IsHundredths (cs : List Char) (n : Nat) : Prop where
  parts : ∃ whole fraction, cs = Text.decimalChars whole fraction ∧
    Text.IsNumeral whole (n / 100) ∧ Text.IsDigits fraction ∧ fraction.length ≤ 2 ∧
    fraction.getLast? ≠ some '0' ∧ Text.decimalValue whole fraction = n / 100
  shortest : ∀ ds, Text.IsDecimal ds (n / 100) → ds ≠ cs → cs.length < ds.length

/-- The digits after the point in a number of hundredths. -/
def fractionChars (n : Nat) : List Char :=
  if n % 100 = 0 then []
  else if n % 10 = 0 then [Nat.digitChar (n / 10 % 10)]
  else [Nat.digitChar (n / 10 % 10), Nat.digitChar (n % 10)]

/-- Hundredths are written as a whole number and a fraction. -/
theorem toList_hundredthsText (n : Nat) :
    (hundredthsText n).toList = Text.decimalChars (n / 100).repr.toList (fractionChars n) := by
  have hdigit (k : Nat) : (k % 10).repr.toList = [Nat.digitChar (k % 10)] := by
    rw [Nat.toList_repr, Nat.toDigits_of_lt_base (Nat.mod_lt k (by decide))]
  rw [hundredthsText, fractionChars]
  -- the three cases of the fraction are those of the text: none, one digit, two digits
  split
  · rfl
  · split
    · simp [hdigit, Text.decimalChars]
    · simp [hdigit, Text.decimalChars]

section Digits

/-- A digit and what it stands for. -/
theorem digitChar_spec : ∀ d < 10, (Nat.digitChar d).isDigit = true ∧
    Text.digitValue (Nat.digitChar d) = d ∧ (Nat.digitChar d = '0' → d = 0) := by
  decide

variable (n : Nat)

/-- The fraction is made of digits. -/
theorem isDigits_fractionChars : Text.IsDigits (fractionChars n) := by
  have hten := (digitChar_spec (n / 10 % 10) (Nat.mod_lt _ (by decide))).1
  have hone := (digitChar_spec (n % 10) (Nat.mod_lt _ (by decide))).1
  rw [fractionChars]
  split
  · exact Text.isDigits_nil
  · split
    · simp [Text.isDigits_cons, hten]
    · simp [Text.isDigits_cons, hten, hone]

/-- The fraction has two digits at most. -/
theorem length_fractionChars_le : (fractionChars n).length ≤ 2 := by
  rw [fractionChars]
  split
  · decide
  · split <;> simp

/-- The fraction stops before the zeros at the end. -/
theorem getLast?_fractionChars : (fractionChars n).getLast? ≠ some '0' := by
  have hten := (digitChar_spec (n / 10 % 10) (Nat.mod_lt _ (by decide))).2.2
  have hone := (digitChar_spec (n % 10) (Nat.mod_lt _ (by decide))).2.2
  rw [fractionChars]
  split
  · decide
  · split
    · intro h
      -- a last digit that is zero would have been left away
      have := hten (by simpa using h)
      omega
    · intro h
      have := hone (by simpa using h)
      omega

/-- The fraction says what is left of the hundredths. -/
theorem digitsValue_fractionChars :
    100 * Text.digitsValue (fractionChars n) = n % 100 * 10 ^ (fractionChars n).length := by
  have hten := (digitChar_spec (n / 10 % 10) (Nat.mod_lt _ (by decide))).2.1
  have hone := (digitChar_spec (n % 10) (Nat.mod_lt _ (by decide))).2.1
  rw [fractionChars]
  split
  · simp [*]
  · split
    · simp only [Text.digitsValue_cons, hten, List.length_cons, List.length_nil,
        Text.digitsValue_nil]
      omega
    · simp only [Text.digitsValue_cons, hten, hone, List.length_cons, List.length_nil,
        Text.digitsValue_nil]
      omega

/-- What is written is the number of hundredths. -/
theorem decimalValue_hundredths :
    Text.decimalValue (n / 100).repr.toList (fractionChars n) = (n : ℚ) / 100 := by
  have hpos : (0 : ℚ) < 10 ^ (fractionChars n).length := by positivity
  have hfraction : (Text.digitsValue (fractionChars n) : ℚ) / 10 ^ (fractionChars n).length =
      (n % 100 : ℕ) / 100 := by
    rw [div_eq_div_iff hpos.ne' (by norm_num), mul_comm]
    exact_mod_cast digitsValue_fractionChars n
  -- the number is put together from its whole part and its fraction
  have hsplit : (n : ℚ) = 100 * (n / 100 : ℕ) + (n % 100 : ℕ) := by
    exact_mod_cast (Nat.div_add_mod n 100).symm
  rw [Text.decimalValue, hfraction, (Text.isNumeral_repr _).value, hsplit]
  ring

/-- Hundredths are written with nothing superfluous. -/
theorem isHundredths_hundredthsText : IsHundredths (hundredthsText n).toList n := by
  refine ⟨⟨(n / 100).repr.toList, fractionChars n, toList_hundredthsText n, Text.isNumeral_repr _,
    isDigits_fractionChars n, length_fractionChars_le n, getLast?_fractionChars n,
    decimalValue_hundredths n⟩, fun ds hds hne => ?_⟩
  rw [toList_hundredthsText] at hne ⊢
  -- without zeros at either end no other decimal number of the value is as short
  exact Text.decimal_shortest (Text.isNumeral_repr _) (isDigits_fractionChars n)
    (getLast?_fractionChars n) (decimalValue_hundredths n ▸ hds) hne

end Digits

/-- A number of hundredths is a decimal number. -/
theorem IsHundredths.isDecimal {cs : List Char} {n : Nat} (h : IsHundredths cs n) :
    Text.IsDecimal cs (n / 100) := by
  obtain ⟨whole, fraction, hcs, hwhole, hfraction, -, -, hvalue⟩ := h.parts
  exact ⟨whole, fraction, hcs, hwhole.ne_nil, hwhole.digits, hfraction, hvalue⟩

/-- Up to a hundred takes five characters at most. -/
theorem length_hundredthsText_le {n : Nat} (h : n ≤ 10000) :
    (hundredthsText n).toList.length ≤ 5 := by
  have hfraction := length_fractionChars_le n
  -- below a hundred there are two digits in front of the point, and all of it has no fraction
  rcases Nat.lt_or_eq_of_le h with hlt | rfl
  · have hwhole : (n / 100).repr.toList.length ≤ 2 := by
      rw [Nat.toList_repr]
      exact (Nat.length_toDigits_le_iff (by decide) (by decide)).2 (by omega)
    rw [toList_hundredthsText, Text.length_decimalChars]
    split <;> omega
  · decide

/-! ## The double that is written -/

/-- The characters are a decimal number, and the double is the one nearest to it. -/
def ReadsAs (cs : List Char) (x : Binary64) : Prop :=
  ∃ v, Text.IsDecimal cs v ∧ Binary64.ofRat v = x

/-- Of the decimal numbers that are read as a double this one has the fewest characters. -/
structure IsShortest (cs : List Char) (x : Binary64) : Prop where
  readsAs : ReadsAs cs x
  shortest : ∀ ds, ReadsAs ds x → ds ≠ cs → cs.length < ds.length

/-- The quotient of a number by a hundred is the double nearest to that many hundredths, and it is
written as such: no digits appear that come from the quotient being rounded. -/
theorem isShortest_hundredthsText {n : Nat} (h : n ≤ 10000) :
    IsShortest (hundredthsText n).toList ((Binary64.ofNat n).div (.ofNat 100)) := by
  have hn : n ≤ 2 ^ 53 := h.trans (by decide)
  have hhundredths := isHundredths_hundredthsText n
  rw [Binary64.div_ofNat hn (by decide) (by decide), Nat.cast_ofNat]
  refine ⟨⟨n / 100, hhundredths.isDecimal, rfl⟩, fun ds ⟨v, hds, hv⟩ hne => ?_⟩
  by_contra hnot
  -- so short a number is one of thousandths, and these are all different doubles
  have hlength := length_hundredthsText_le h
  obtain ⟨a, ha, rfl⟩ := hds.exists_thousandths (by omega)
  have hthousandths : (n : ℚ) / 100 = ((10 * n : ℕ) : ℚ) / 1000 := by
    push_cast
    ring
  rw [hthousandths] at hv
  obtain rfl := Binary64.ofRat_thousandths_inj ha (by omega) hv
  rw [← hthousandths] at hds
  exact hnot (hhundredths.shortest ds hds hne)

/-! ## Widths -/

/-- The number that a percentage says. -/
def percentage (width : String) : ℚ :=
  Text.decimalValue (width.toList.takeWhile Char.isDigit)
    (((width.toList.dropWhile Char.isDigit).drop 1).takeWhile Char.isDigit)

/-- A width is a share in hundredths, and the sign for percent. -/
theorem toList_barWidth (current total : Option Binary64) :
    (barWidth current total).toList =
      (hundredthsText (shareHundredths current total)).toList ++ ['%'] := by
  rw [barWidth, String.toList_append]
  rfl

/-- A percentage says what stands before the sign. -/
theorem percentage_of_isHundredths {width : String} {cs : List Char} {n : Nat}
    (hwidth : width.toList = cs ++ ['%']) (h : IsHundredths cs n) :
    percentage width = n / 100 := by
  obtain ⟨whole, fraction, hcs, hwhole, hfraction, -, -, hvalue⟩ := h.parts
  have hsign : ∀ c, ['%'].head? = some c → c.isDigit = false := by
    rintro c ⟨⟩
    decide
  rw [percentage, hwidth, hcs, Text.decimalChars]
  -- without a fraction the sign stands where the point would
  split
  next hempty =>
    rw [Text.takeWhile_run hwhole.digits hsign,
      Text.dropWhile_run hwhole.digits hsign, ← hvalue, hempty]
    rfl
  next =>
    have hpoint : ∀ c, ('.' :: (fraction ++ ['%'])).head? = some c → c.isDigit = false := by
      rintro c ⟨⟩
      decide
    rw [List.append_assoc, List.cons_append, Text.takeWhile_run hwhole.digits hpoint,
      Text.dropWhile_run hwhole.digits hpoint, List.drop_succ_cons, List.drop_zero,
      Text.takeWhile_run hfraction hsign, hvalue]

/-- A width says the share that it is made of. -/
@[simp] theorem percentage_barWidth (current total : Option Binary64) :
    percentage (barWidth current total) = (shareHundredths current total : ℚ) / 100 :=
  percentage_of_isHundredths (toList_barWidth current total) (isHundredths_hundredthsText _)

/-- A greater share says a greater percentage. -/
theorem percentage_le {current total current' total' : Option Binary64}
    (h : shareHundredths current total ≤ shareHundredths current' total') :
    percentage (barWidth current total) ≤ percentage (barWidth current' total') := by
  rw [percentage_barWidth, percentage_barWidth]
  exact div_le_div_of_nonneg_right (Nat.cast_le.2 h) (by norm_num)

/-- Of a finite whole the percentage is at most half a hundredth from the exact one, but for a
trillionth that the roundings before may add. -/
theorem abs_percentage_sub_le (hc : Binary64.zero.lt c = true)
    (ht : Binary64.zero.lt t = true) (hfinite : t.isFinite = true) :
    |percentage (barWidth (some c) (some t)) - 100 * min (c.exact / t.exact) 1| ≤
      1 / 200 + 1 / 10 ^ 12 := by
  have hshare := abs_shareHundredths_sub_le hc ht hfinite
  rw [percentage_barWidth]
  -- only that the share is close matters here, not how it comes about
  generalize (shareHundredths (some c) (some t) : ℚ) = k at hshare
  generalize min (c.exact / t.exact) 1 = q at hshare
  have hfactor : k / 100 - 100 * q = (k - 10000 * q) / 100 := by ring
  calc |k / 100 - 100 * q| = |k - 10000 * q| / 100 := by
        rw [hfactor, abs_div, abs_of_pos (by norm_num : (0 : ℚ) < 100)]
    _ ≤ (1 / 2 + 1 / 2 ^ 38) / 100 := div_le_div_of_nonneg_right hshare (by norm_num)
    _ ≤ 1 / 200 + 1 / 10 ^ 12 := by norm_num

/-- Of no share nothing is filled. -/
theorem barWidth_of_zero {current total : Option Binary64} (h : shareHundredths current total = 0) :
    barWidth current total = "0%" := by
  rw [barWidth, h]
  decide

/-- The widths of all bars.  Each is a number of hundredths of a percent from none to all, with
nothing superfluous, and it is what the double that the number is computed as is written as.  It
does not fall as a position advances in a positive whole, nor grow with the whole for a positive
position; it is all of a finite whole that has been reached, nothing where there is no share, and in
between the exact percentage, rounded to hundredths. -/
theorem barWidth_exact (current total : Option Binary64) (c c' t t' : Binary64) :
    (∃ k cs, k ≤ 10000 ∧ (barWidth current total).toList = cs ++ ['%'] ∧ IsHundredths cs k ∧
      IsShortest cs ((Binary64.ofNat k).div (.ofNat 100))) ∧
    (Binary64.zero.lt t = true → c.le c' = true →
      percentage (barWidth (some c) (some t)) ≤ percentage (barWidth (some c') (some t))) ∧
    (Binary64.zero.lt c = true → Binary64.zero.lt t = true → t.le t' = true →
      percentage (barWidth (some c) (some t')) ≤ percentage (barWidth (some c) (some t))) ∧
    (Binary64.zero.lt t = true → t.isFinite = true → t.le c = true →
      barWidth (some c) (some t) = "100%") ∧
    ((c.le .zero = true → Binary64.zero.lt t = true → barWidth (some c) (some t) = "0%") ∧
      (Undefined current total → barWidth current total = "0%")) ∧
    (Binary64.zero.lt c = true → Binary64.zero.lt t = true → t.isFinite = true →
      |percentage (barWidth (some c) (some t)) - 100 * min (c.exact / t.exact) 1| ≤
        1 / 200 + 1 / 10 ^ 12) := by
  refine ⟨?shape, fun ht h => ?advance, fun hc ht h => ?grow, fun ht hfinite h => ?all,
    ⟨fun hc ht => ?nonpos, fun h => ?undefined⟩, fun hc ht hfinite => ?exact⟩
  case shape =>
    have hle := shareHundredths_le current total
    exact ⟨_, _, hle, toList_barWidth current total, isHundredths_hundredthsText _,
      isShortest_hundredthsText hle⟩
  case advance => exact percentage_le (shareHundredths_mono ht h)
  case grow => exact percentage_le (shareHundredths_antitone hc ht h)
  case all =>
    rw [barWidth, shareHundredths_full ht hfinite h]
    decide
  case nonpos => exact barWidth_of_zero (shareHundredths_of_nonpos hc ht)
  case undefined => exact barWidth_of_zero (shareHundredths_of_undefined h)
  case exact => exact abs_percentage_sub_le hc ht hfinite

/-- A third; the least double as a whole, which any positive position fills; an infinite position,
forwards and backwards; and an unknown whole. -/
theorem barWidth_exact_of_extremes :
    let one := Binary64.ofNat 1
    let three := Binary64.ofNat 3
    let third := barWidth (some one) (some three)
    let least : Binary64 := ⟨1⟩
    let infinite := Binary64.infinity false
    third = "33.33%" ∧
    |percentage third - 100 * min (one.exact / three.exact) 1| ≤ 1 / 200 + 1 / 10 ^ 12 ∧
    percentage third ≤ percentage (barWidth (some (.ofNat 2)) (some three)) ∧
    percentage third ≤ percentage (barWidth (some one) (some least)) ∧
    barWidth (some infinite) (some least) = "100%" ∧
    barWidth (some infinite.neg) (some least) = "0%" ∧
    barWidth (some infinite) none = "0%" := by
  intro one three third least infinite
  have hthird : third = "33.33%" := by decide +kernel
  obtain ⟨-, hadvance, -, -, -, hexact⟩ := barWidth_exact none none one (.ofNat 2) three three
  obtain ⟨-, -, hgrow, -⟩ := barWidth_exact none none one one least three
  obtain ⟨-, -, -, hall, -⟩ := barWidth_exact none none infinite infinite least least
  obtain ⟨-, -, -, -, ⟨hnonpos, -⟩, -⟩ :=
    barWidth_exact none none infinite.neg infinite least least
  obtain ⟨-, -, -, -, ⟨-, hundefined⟩, -⟩ :=
    barWidth_exact (some infinite) none infinite infinite least least
  exact ⟨hthird, hexact (by decide +kernel) (by decide +kernel) (by decide +kernel),
    hadvance (by decide +kernel) (by decide +kernel),
    hgrow (by decide +kernel) (by decide +kernel) (by decide +kernel),
    hall (by decide +kernel) (by decide +kernel) (by decide +kernel),
    hnonpos (by decide +kernel) (by decide +kernel), hundefined (.inr (.inl rfl))⟩

end LibraryPlayer
