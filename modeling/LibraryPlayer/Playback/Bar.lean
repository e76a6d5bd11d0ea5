import LibraryPlayer.Number.Rounding
import LibraryPlayer.Playback.Media

/-! # Progress bars

The width of a bar is a share of the whole in hundredths of a percent, between none and all of it,
and is written without superfluous digits.  How far media has been received is where the furthest
span ends.
-/

namespace LibraryPlayer

/-- The share of `total` that `current` makes up, in hundredths of a percent; nothing where either
is unknown, or where they have no sensible ratio. -/
def shareHundredths (current total : Option Binary64) : Nat :=
  match current, total with
  | some c, some t =>
    if c.isNaN || t.isNaN || t.eq .zero then 0
    else
      let ratio := c.div t
      if ratio.isNaN || ratio.le .zero then 0
      else
        let clamped := if Binary64.one.lt ratio then .one else ratio
        roundHalfUp (clamped.mul (.ofNat 10000)).magnitude Binary64.unitsPerOne
  | _, _ => 0

/-- A number of hundredths as a decimal number, without zeros at the end of its fraction. -/
def hundredthsText (n : Nat) : String :=
  let whole := (n / 100).repr
  if n % 100 = 0 then whole
  else if n % 10 = 0 then whole ++ "." ++ (n / 10 % 10).repr
  else whole ++ "." ++ (n / 10 % 10).repr ++ (n % 10).repr

/-- The width of a bar. -/
def barWidth (current total : Option Binary64) : String :=
  hundredthsText (shareHundredths current total) ++ "%"

/-- Where the furthest span ends, or zero when none ends later; an end that is no number does not
count. -/
def bufferedEnd (spans : List Span) : Binary64 :=
  ((spans.map Span.stop).filter fun x => !x.isNaN).foldl (fun m x => if m.lt x then x else m) .zero

example : barWidth (some (.ofNat 1)) (some (.ofNat 3)) = "33.33%" := by decide +kernel
example : barWidth (some (.ofNat 45)) (some (.ofNat 360)) = "12.5%" := by decide +kernel
example : barWidth (some (.infinity false)) (some (.ofNat 180)) = "100%" := by decide +kernel
example : barWidth (some (.ofNat 5)) (some (Binary64.ofNat 180).neg) = "0%" := by decide +kernel

end LibraryPlayer
