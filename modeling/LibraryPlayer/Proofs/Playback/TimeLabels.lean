import LibraryPlayer.Playback.TimeLabel
import LibraryPlayer.Proofs.Number.Doubles
import LibraryPlayer.Proofs.Text.Decimals
import LibraryPlayer.Proofs.Text.Runs
import Mathlib.Algebra.Order.Floor.Semifield
import Mathlib.Data.Rat.Floor

/-!
# What time labels say

A time label is minutes and seconds, the minutes a numeral and the seconds two digits below sixty
(`IsClock`), so it says how many seconds it stands for (`clockSeconds`) and different seconds have
different labels.  The seconds of a position are its exact value, rounded with a half counting as a
whole one, as far as they are counted (`wholeSeconds_of_pos`).

* `timeLabel_exact`: the labels of all positions.
-/

namespace LibraryPlayer

/-! ## Minutes and seconds -/

/-- A text of minutes and two digits of seconds below sixty, for a number of seconds in all. -/
def IsClock (label : String) (total : Nat) : Prop :=
  ∃ (minutes seconds : List Char) (m s : Nat), label.toList = minutes ++ ':' :: seconds ∧
    Text.IsNumeral minutes m ∧ Text.IsDigits seconds ∧ seconds.length = 2 ∧
    Text.digitsValue seconds = s ∧ s < 60 ∧ 60 * m + s = total

/-- The seconds that a text of minutes and seconds stands for. -/
def clockSeconds (label : String) : Nat :=
  60 * Text.digitsValue (label.toList.takeWhile Char.isDigit) +
    Text.digitsValue ((label.toList.dropWhile Char.isDigit).drop 1)

/-- A label of minutes and seconds says the seconds it stands for. -/
theorem IsClock.clockSeconds_eq {label : String} {total : Nat} (h : IsClock label total) :
    clockSeconds label = total := by
  obtain ⟨minutes, seconds, m, s, hlabel, hminutes, -, -, hseconds, -, htotal⟩ := h
  -- the minutes end at the colon, which is no digit
  have hcolon : ∀ c, (':' :: seconds).head? = some c → c.isDigit = false := by
    rintro c ⟨⟩
    decide
  have hfirst : label.toList.takeWhile Char.isDigit = minutes := by
    rw [hlabel, Text.takeWhile_run hminutes.digits hcolon]
  have hrest : label.toList.dropWhile Char.isDigit = ':' :: seconds := by
    rw [hlabel, Text.dropWhile_run hminutes.digits hcolon]
  rw [clockSeconds, hfirst, hrest, hminutes.value, List.drop_succ_cons, List.drop_zero, hseconds,
    htotal]

/-- Padded or not, a number is written in digits. -/
theorem isDigits_twoDigits (n : Nat) : Text.IsDigits (twoDigits n).toList := by
  rw [twoDigits]
  split
  · rw [String.toList_append, Nat.toList_repr]
    exact Text.isDigits_cons.2 ⟨by decide, Text.isDigits_toDigits n⟩
  · rw [Nat.toList_repr]
    exact Text.isDigits_toDigits n

/-- The zero in front does not change what the digits say. -/
theorem digitsValue_twoDigits (n : Nat) : Text.digitsValue (twoDigits n).toList = n := by
  rw [twoDigits]
  split
  · rw [String.toList_append, Nat.toList_repr]
    show Text.digitsValue ('0' :: Nat.toDigits 10 n) = n
    rw [Text.digitsValue_cons, Text.digitsValue_toDigits]
    simp [Text.digitValue]
  · rw [Nat.toList_repr, Text.digitsValue_toDigits]

/-- Below a hundred the digits are two. -/
theorem length_twoDigits {n : Nat} (h : n < 100) : (twoDigits n).toList.length = 2 := by
  rw [twoDigits]
  split
  next hsmall =>
    rw [String.toList_append, Nat.toList_repr, Nat.toDigits_of_lt_base hsmall]
    rfl
  -- a number from ten on has more than one digit, and one below a hundred at most two
  next hlarge =>
    have hle : (Nat.toDigits 10 n).length ≤ 2 :=
      (Nat.length_toDigits_le_iff (by decide) (by decide)).2 h
    have hge : ¬ (Nat.toDigits 10 n).length ≤ 1 := fun hone =>
      hlarge (by simpa using (Nat.length_toDigits_le_iff (by decide) (by decide)).1 hone)
    rw [Nat.toList_repr]
    omega

/-- Minutes and seconds are written as such. -/
theorem isClock_timeText (n : Nat) : IsClock (timeText n) n := by
  refine ⟨(n / 60).repr.toList, (twoDigits (n % 60)).toList, n / 60, n % 60, ?_,
    Text.isNumeral_repr _, isDigits_twoDigits _, length_twoDigits (by omega),
    digitsValue_twoDigits _, Nat.mod_lt _ (by decide), Nat.div_add_mod n 60⟩
  rw [timeText, String.toList_append, String.toList_append, List.append_assoc]
  rfl

/-- The seconds of a text are found in it again. -/
@[simp] theorem clockSeconds_timeText (n : Nat) : clockSeconds (timeText n) = n :=
  (isClock_timeText n).clockSeconds_eq

/-- Different seconds are written differently. -/
theorem timeText_inj {m n : Nat} : timeText m = timeText n ↔ m = n := by
  refine ⟨fun h => ?_, fun h => h ▸ rfl⟩
  rw [← clockSeconds_timeText m, h, clockSeconds_timeText]

/-! ## Positions -/

/-- Rounding with a half counting as a whole one. -/
theorem roundHalfUp_eq_floor (n : Nat) {d : Nat} (hd : 0 < d) :
    roundHalfUp n d = ⌊(n / d : ℚ) + 1 / 2⌋₊ := by
  have hd' : (d : ℚ) ≠ 0 := Nat.cast_ne_zero.2 hd.ne'
  -- both sides divide the same whole numbers, once a half is brought over the denominator
  have hquotient : (n / d : ℚ) + 1 / 2 = ((2 * n + d : ℕ) : ℚ) / ((2 * d : ℕ) : ℚ) := by
    push_cast
    field_simp
  rw [hquotient, Nat.floor_div_eq_div, roundHalfUp]

/-- The seconds of a position that has begun. -/
theorem wholeSeconds_of_pos {x : Binary64} (hfinite : x.isFinite = true) (hpos : 0 < x.exact) :
    wholeSeconds (some x) = min (2 ^ 64 - 1) ⌊x.exact + 1 / 2⌋₊ := by
  have hvalue := Binary64.exact_pos_iff.1 hpos
  have hsign := (Binary64.value_pos_iff.1 hvalue).1
  have hexact : x.exact = (x.magnitude : ℚ) / Binary64.unitsPerOne := by
    rw [Binary64.exact_eq, Binary64.value_of_not_negative hsign, Int.cast_natCast]
  rw [wholeSeconds, hfinite, Bool.true_and, decide_eq_true hvalue, if_pos rfl, hexact,
    ← roundHalfUp_eq_floor _ Binary64.unitsPerOne_pos, min_comm]
  rfl

/-- There are no seconds in what is infinite, no number, zero or negative. -/
theorem wholeSeconds_of_not_pos {x : Binary64} (h : x.isFinite = false ∨ x.exact ≤ 0) :
    wholeSeconds (some x) = 0 := by
  have hcond : (x.isFinite && decide (0 < x.value)) = false := by
    rcases h with hfinite | hle
    · rw [hfinite, Bool.false_and]
    · have : ¬ 0 < x.value := fun hpos => absurd (Binary64.exact_pos_iff.2 hpos) (not_lt.2 hle)
      rw [decide_eq_false this, Bool.and_false]
  rw [wholeSeconds, hcond]
  rfl

/-- A later position does not have fewer seconds. -/
theorem wholeSeconds_mono {x y : Binary64} (hx : x.isFinite = true) (hy : y.isFinite = true)
    (h : x.exact ≤ y.exact) : wholeSeconds (some x) ≤ wholeSeconds (some y) := by
  by_cases hpos : 0 < x.exact
  · rw [wholeSeconds_of_pos hx hpos, wholeSeconds_of_pos hy (hpos.trans_le h)]
    exact min_le_min_left _ (Nat.floor_le_floor (by linarith))
  -- before the beginning there are no seconds to compare
  · rw [wholeSeconds_of_not_pos (.inr (not_lt.1 hpos))]
    exact Nat.zero_le _

/-- The seconds that are counted of a position: none where it is unknown, infinite, no number, zero
or negative, and else its exact value, rounded with a half counting as a whole one, as long as it
fits 64 bits. -/
def countedSeconds : Option Binary64 → Nat
  | some x =>
    if x.isFinite = true ∧ 0 < x.exact then min (2 ^ 64 - 1) ⌊x.exact + 1 / 2⌋₊ else 0
  | none => 0

/-- The program counts the seconds that are to be counted. -/
theorem wholeSeconds_eq (position : Option Binary64) :
    wholeSeconds position = countedSeconds position := by
  cases position with
  | none => rfl
  | some x =>
    rw [countedSeconds]
    split
    next h => exact wholeSeconds_of_pos h.1 h.2
    next h =>
      refine wholeSeconds_of_not_pos ?_
      rwa [not_and_or, Bool.not_eq_true, not_lt] at h

/-- The labels of all positions.  One that has begun is labelled with its exact value, rounded with
a half counting as a whole one, as long as that fits 64 bits; what is unknown, infinite, no number,
zero or negative is labelled `0:00`.  Of two finite positions the later one does not have the
earlier label, and two positions have the same label exactly if as many seconds are counted of both.
-/
theorem timeLabel_exact (p q : Option Binary64) (x y : Binary64) :
    (x.isFinite = true → 0 < x.exact →
      IsClock (timeLabel (some x)) (min (2 ^ 64 - 1) ⌊x.exact + 1 / 2⌋₊)) ∧
    (timeLabel none = "0:00" ∧
      (x.isFinite = false ∨ x.exact ≤ 0 → timeLabel (some x) = "0:00")) ∧
    (x.isFinite = true → y.isFinite = true → x.exact ≤ y.exact →
      clockSeconds (timeLabel (some x)) ≤ clockSeconds (timeLabel (some y))) ∧
    (timeLabel p = timeLabel q ↔ countedSeconds p = countedSeconds q) := by
  have hzero : timeText 0 = "0:00" := by decide
  refine ⟨fun hfinite hpos => ?begun, ⟨hzero, fun h => ?none⟩, fun hx hy h => ?later, ?same⟩
  case begun =>
    rw [← wholeSeconds_of_pos hfinite hpos]
    exact isClock_timeText _
  case none =>
    rw [timeLabel, wholeSeconds_of_not_pos h, hzero]
  case later =>
    rw [timeLabel, timeLabel, clockSeconds_timeText, clockSeconds_timeText]
    exact wholeSeconds_mono hx hy h
  case same =>
    rw [timeLabel, timeLabel, timeText_inj, wholeSeconds_eq, wholeSeconds_eq]

/-- The greatest double below a half and the half, which is the first to count as a second; and the
first double with more seconds than are counted. -/
theorem timeLabel_exact_of_half :
    let below : Binary64 := ⟨0x3fdfffffffffffff⟩
    let half : Binary64 := ⟨0x3fe0000000000000⟩
    let huge : Binary64 := ⟨0x43f0000000000000⟩
    timeLabel (some below) = "0:00" ∧ timeLabel (some half) = "0:01" ∧
    IsClock "0:01" (min (2 ^ 64 - 1) ⌊half.exact + 1 / 2⌋₊) ∧
    clockSeconds (timeLabel (some below)) ≤ clockSeconds (timeLabel (some half)) ∧
    IsClock "307445734561825860:15" (min (2 ^ 64 - 1) ⌊huge.exact + 1 / 2⌋₊) ∧
    timeLabel (some (.infinity false)) = "0:00" := by
  intro below half huge
  have hbelow : timeLabel (some below) = "0:00" := by decide +kernel
  have hhalf : timeLabel (some half) = "0:01" := by decide +kernel
  have hhuge : timeLabel (some huge) = "307445734561825860:15" := by decide +kernel
  have hpos : 0 < half.exact := Binary64.exact_pos_iff.2 (by decide +kernel)
  have hpos' : 0 < huge.exact := Binary64.exact_pos_iff.2 (by decide +kernel)
  have hle : below.exact ≤ half.exact := Binary64.exact_le_exact_iff.2 (by decide +kernel)
  obtain ⟨hclock, -⟩ := timeLabel_exact none none half half
  obtain ⟨-, -, hlater, -⟩ := timeLabel_exact none none below half
  obtain ⟨hclock', -⟩ := timeLabel_exact none none huge huge
  obtain ⟨-, ⟨-, hnone⟩, -⟩ := timeLabel_exact none none (.infinity false) half
  -- the two labels are read as the clocks that the theorem finds in them
  exact ⟨hbelow, hhalf, hhalf ▸ hclock (by decide +kernel) hpos,
    hlater (by decide +kernel) (by decide +kernel) hle,
    hhuge ▸ hclock' (by decide +kernel) hpos', hnone (.inl (by decide +kernel))⟩

end LibraryPlayer
