/-! # Double-precision numbers

A double is held as its 64 bits, so that nothing about it is left to the machine: sign,
exponent field and fraction are read off the bits, and a number that is not a NaN has a
`value`, an integer in units of `2 ^ -1074`, the least positive double.  Infinity takes its
natural place on that scale, one step above the greatest finite double, so that the order of
doubles is the order of integers and the two zeros are equal in it.

* `ofMagnitude` packs a magnitude that a double can hold into bits.
* `lt`, `le` and `eq` compare as numbers: every comparison with a NaN is false.
-/

namespace LibraryPlayer

/-- A double-precision number, given by its bits: the sign on top, eleven bits of exponent,
fifty-two of fraction. -/
structure Binary64 where
  bits : UInt64
  deriving DecidableEq, Repr

namespace Binary64

/-- Whether the sign bit is set, also on a zero or a NaN. -/
def negative (x : Binary64) : Bool := decide (Nat.pow 2 63 ≤ x.bits.toNat)

/-- The exponent field. -/
def field (x : Binary64) : Nat := x.bits.toNat / Nat.pow 2 52 % Nat.pow 2 11

/-- The fraction field. -/
def fraction (x : Binary64) : Nat := x.bits.toNat % Nat.pow 2 52

/-- Not a number: the exponent field is full and the fraction is not empty. -/
def isNaN (x : Binary64) : Bool := x.field == 2047 && x.fraction != 0

/-- One of the two infinities. -/
def isInfinite (x : Binary64) : Bool := x.field == 2047 && x.fraction == 0

/-- Neither an infinity nor a NaN. -/
def isFinite (x : Binary64) : Bool := x.field != 2047

/-- The absolute value in units of `2 ^ -1074`; infinity is `2 ^ 2098` of them. -/
def magnitude (x : Binary64) : Nat :=
  if x.field = 0 then x.fraction else (Nat.pow 2 52 + x.fraction) * Nat.pow 2 (x.field - 1)

/-- How many units of `2 ^ -1074` make one. -/
def unitsPerOne : Nat := Nat.pow 2 1074

/-- The magnitude of the infinities. -/
def infiniteMagnitude : Nat := Nat.pow 2 2098

/-- The signed value in units of `2 ^ -1074`. -/
def value (x : Binary64) : Int :=
  if x.negative then -(x.magnitude : Int) else x.magnitude

/-- The double with the given sign and magnitude, for a magnitude that a double can hold.
A magnitude below `2 ^ 53` is its own bit pattern; above, the leading bit is dropped and the
number of doublings that remain becomes the exponent. -/
def ofMagnitude (negative : Bool) (m : Nat) : Binary64 :=
  let doublings := m.log2 - 52
  let sign := if negative then Nat.pow 2 63 else 0
  ⟨.ofNat (sign + (doublings * Nat.pow 2 52 + m / Nat.pow 2 doublings))⟩

/-- Positive zero. -/
def zero : Binary64 := ⟨0⟩

/-- One. -/
def one : Binary64 := ofMagnitude false unitsPerOne

/-- The quiet NaN without payload. -/
def nan : Binary64 := ⟨0x7ff8000000000000⟩

/-- The infinity of the given sign. -/
def infinity (negative : Bool) : Binary64 := ofMagnitude negative infiniteMagnitude

/-- The same number with the other sign. -/
def neg (x : Binary64) : Binary64 := ⟨x.bits ^^^ 0x8000000000000000⟩

/-- Less than, as numbers. -/
def lt (x y : Binary64) : Bool := !x.isNaN && !y.isNaN && decide (x.value < y.value)

/-- Less than or equal, as numbers. -/
def le (x y : Binary64) : Bool := !x.isNaN && !y.isNaN && decide (x.value ≤ y.value)

/-- Equal as numbers: the two zeros are, and a NaN is not even equal to itself. -/
def eq (x y : Binary64) : Bool := !x.isNaN && !y.isNaN && decide (x.value = y.value)

example : one.bits = 0x3ff0000000000000 := by decide +kernel
example : (infinity true).bits = 0xfff0000000000000 := by decide +kernel
example : (infinity false).magnitude = infiniteMagnitude := by decide +kernel
example : eq zero (neg zero) = true ∧ zero ≠ neg zero := by decide +kernel
example : eq nan nan = false := by decide +kernel

end Binary64

end LibraryPlayer
