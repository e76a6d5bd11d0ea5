import LibraryPlayer.Number.Rounding
import LibraryPlayer.Json.Basic

/-! # Numerals

A numeral is taken apart into its sign, its digits before and after the point and its exponent.
Its value is a double: as many leading digits as fit 64 bits make a significand, which is scaled by
a power of ten in one rounding.  A numeral without fraction, exponent and sign whose digits all fit
is also a natural number.
-/

namespace LibraryPlayer.Json

/-- A numeral as it is spelled. -/
structure Numeral where
  /-- Whether a minus sign stands in front. -/
  negative : Bool
  /-- The digits before the point. -/
  whole : Bytes
  /-- The digits after the point, if there is one. -/
  fraction : Option Bytes
  /-- The exponent, if there is one: whether it is negative, and its digits. -/
  exponent : Option (Bool × Bytes)

namespace Numeral

/-- The digits in front and what is left after them. -/
def digits (s : Bytes) : Bytes × Bytes := (s.takeWhile isDigit, s.dropWhile isDigit)

/-- Reads at least one digit.  `short` is the fault when the octets end instead. -/
def someDigits (short : Fault) (s : Bytes) : Except Fault (Bytes × Bytes) :=
  match s with
  | [] => .error short
  | b :: _ => if isDigit b then .ok (digits s) else .error .malformed

/-- Reads the digits before the point: a leading zero stands alone. -/
def readWhole (short : Fault) (s : Bytes) : Except Fault (Bytes × Bytes) := do
  let (ds, t) ← someDigits short s
  match ds with
  | d :: _ :: _ => if d = 0x30 then throw .malformed else return (ds, t)
  | _ => return (ds, t)

/-- Reads the point and the digits after it, if there is a point. -/
def readFraction (short : Fault) (s : Bytes) : Except Fault (Option Bytes × Bytes) := do
  match s with
  | [] => return (none, [])
  | b :: t =>
    if b = point then
      let (ds, u) ← someDigits short t
      return (some ds, u)
    else return (none, b :: t)

/-- Reads the exponent, if there is one. -/
def readExponent (short : Fault) (s : Bytes) : Except Fault (Option (Bool × Bytes) × Bytes) := do
  match s with
  | [] => return (none, [])
  | b :: t =>
    if b = 0x65 ∨ b = 0x45 then
      match t with
      | [] => throw short
      | c :: u =>
        let (ds, v) ← someDigits short (if c = plus ∨ c = minus then u else c :: u)
        return (some (c == minus, ds), v)
    else return (none, b :: t)

/-- Reads a numeral.  `short` is the fault when the octets end where a digit must stand. -/
def read (short : Fault) (s : Bytes) : Except Fault (Numeral × Bytes) := do
  let negative := s.head? == some minus
  let (whole, t) ← readWhole short (if negative then s.tail else s)
  let (fraction, t) ← readFraction short t
  let (exponent, t) ← readExponent short t
  return (⟨negative, whole, fraction, exponent⟩, t)

/-! ## Value -/

/-- The number that a digit stands for. -/
def digitValue (b : UInt8) : Nat := b.toNat - 0x30

/-- The natural number that digits spell. -/
def natural (ds : Bytes) : Nat := ds.foldl (fun n d => 10 * n + digitValue d) 0

/-- Appends digits to a significand for as long as it stays below `2 ^ 64`; the digits from the
first that does not fit are left over. -/
def absorb : Nat → Bytes → Nat × Bytes
  | n, [] => (n, [])
  | n, d :: ds =>
    if 10 * n + digitValue d < UInt64.size then absorb (10 * n + digitValue d) ds else (n, d :: ds)

/-- The significand and its power of ten, before the exponent is added: a digit that is left over
before the point counts ten, one that is absorbed after the point a tenth. -/
def significand (x : Numeral) : Nat × Int :=
  let (n, left) := absorb 0 x.whole
  let ds := x.fraction.getD []
  let (m, dropped) := absorb n ds
  (m, (left.length : Int) - (ds.length - dropped.length : Nat))

/-- The exponent as a number. -/
def exponentValue (x : Numeral) : Int :=
  match x.exponent with
  | none => 0
  | some (negative, ds) => if negative then -(natural ds : Int) else natural ds

/-- The largest power of ten that scales in one step. -/
def maxPower : Nat := 308

/-- The double for `10 ^ k`. -/
def power (k : Nat) : Binary64 := .ofNat (Nat.pow 10 k)

/-- A significand below `2 ^ 64` times a power of ten; none beyond the greatest double.  The
product or quotient with the power is rounded once.  A negative power beyond `maxPower` divides in
two steps, and one beyond both steps leaves nothing. -/
def scale (m : Nat) (e : Int) : Option Binary64 :=
  let x := Binary64.ofNat m
  let k := e.natAbs
  if 0 ≤ e then
    if k ≤ maxPower then
      let y := x.mul (power k)
      if y.isInfinite then none else some y
    else if m = 0 then some .zero else none
  else if k ≤ maxPower then some (x.div (power k))
  else if k ≤ 2 * maxPower then some ((x.div (power maxPower)).div (power (k - maxPower)))
  else some .zero

/-- The double that a numeral stands for; none if it is too large. -/
def value? (x : Numeral) : Option Binary64 :=
  let (m, e) := x.significand
  (scale m (e + x.exponentValue)).map fun y => if x.negative then y.neg else y

/-- The natural number that a numeral spells, if it has no sign, point and exponent and is below
`2 ^ 64`. -/
def natural? (x : Numeral) : Option UInt64 :=
  if x.negative ∨ x.fraction.isSome ∨ x.exponent.isSome then none
  else if natural x.whole < UInt64.size then some (.ofNat (natural x.whole)) else none

end Numeral

/-- A numeral read for its value. -/
structure Number where
  /-- The number as a double. -/
  value : Binary64
  /-- The number as a natural one, if it is spelled as such and fits 64 bits. -/
  natural? : Option UInt64

/-- Reads a number for its value; one too large for a double is malformed. -/
def readNumber (s : Bytes) : Except Fault (Number × Bytes) := do
  let (x, t) ← Numeral.read .ended s
  match x.value? with
  | some v => return (⟨v, x.natural?⟩, t)
  | none => throw .malformed

/-- Whether a number starts with this octet. -/
def startsNumber (b : UInt8) : Bool := b == minus || isDigit b

end LibraryPlayer.Json
