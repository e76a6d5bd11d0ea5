import LibraryPlayer.Number.Rounding

/-! # Time labels

A position is shown as minutes and seconds, rounded to the nearest second.  What is unknown,
infinite or negative is shown as the beginning, so that nothing odd appears while media loads.
-/

namespace LibraryPlayer

/-- The most seconds that are counted. -/
def maxSeconds : Nat := UInt64.size - 1

/-- A position in whole seconds, a half counting as a whole one. -/
def wholeSeconds (seconds : Option Binary64) : Nat :=
  match seconds with
  | some x =>
    if x.isFinite && decide (0 < x.value) then
      min (roundHalfUp x.magnitude Binary64.unitsPerOne) maxSeconds
    else 0
  | none => 0

/-- A number below a hundred in two digits. -/
def twoDigits (n : Nat) : String := if n < 10 then "0" ++ n.repr else n.repr

/-- Minutes and seconds. -/
def timeText (seconds : Nat) : String := (seconds / 60).repr ++ ":" ++ twoDigits (seconds % 60)

/-- How a position is shown. -/
def timeLabel (seconds : Option Binary64) : String := timeText (wholeSeconds seconds)

example : timeLabel none = "0:00" := by decide +kernel
example : timeLabel (some (.ofNat 7322)) = "122:02" := by decide +kernel
example : timeLabel (some (Binary64.div (.ofNat 119) (.ofNat 2))) = "1:00" := by decide +kernel
example : timeLabel (some (.infinity false)) = "0:00" := by decide +kernel

end LibraryPlayer
