import LibraryPlayer.Number.Binary64

/-! # Rounding to the nearest double

`nearest n d` is the magnitude of a double that lies nearest to the quotient `n / d`, both in
units of `2 ^ -1074`; of two equally near ones it is the one with the even significand.  Product
and quotient of two doubles are the exact product and quotient, rounded once by it.
-/

namespace LibraryPlayer

/-- The natural number nearest to `n / d`, the even one when two are equally near. -/
def roundHalfEven (n d : Nat) : Nat :=
  let q := n / d
  let r := n % d
  if 2 * r < d then q
  else if d < 2 * r then q + 1
  else q + q % 2

/-- The natural number nearest to `n / d`, the greater one when two are equally near. -/
def roundHalfUp (n d : Nat) : Nat := (2 * n + d) / (2 * d)

namespace Binary64

/-- The representable magnitude nearest to `n / d`, for `d` not zero.  The spacing of doubles
around the quotient is the power of two that leaves it fifty-three bits, and never less than
one unit; what rounds beyond the greatest finite double is infinite. -/
def nearest (n d : Nat) : Nat :=
  let spacing := Nat.pow 2 ((n / d).log2 - 52)
  min (roundHalfEven n (d * spacing) * spacing) infiniteMagnitude

/-- The double nearest to a natural number. -/
def ofNat (n : Nat) : Binary64 := ofMagnitude false (nearest (n * unitsPerOne) 1)

/-- The product, rounded to the nearest double. -/
def mul (x y : Binary64) : Binary64 :=
  let negative := x.negative != y.negative
  if x.isNaN || y.isNaN then nan
  else if x.isInfinite || y.isInfinite then
    if x.magnitude = 0 || y.magnitude = 0 then nan else infinity negative
  else ofMagnitude negative (nearest (x.magnitude * y.magnitude) unitsPerOne)

/-- The quotient, rounded to the nearest double. -/
def div (x y : Binary64) : Binary64 :=
  let negative := x.negative != y.negative
  if x.isNaN || y.isNaN then nan
  else if x.isInfinite then
    if y.isInfinite then nan else infinity negative
  else if y.isInfinite then ofMagnitude negative 0
  else if y.magnitude = 0 then
    if x.magnitude = 0 then nan else infinity negative
  else ofMagnitude negative (nearest (x.magnitude * unitsPerOne) y.magnitude)

example : (ofNat 1).bits = 0x3ff0000000000000 := by decide +kernel
example : (div (ofNat 1) (ofNat 3)).bits = 0x3fd5555555555555 := by decide +kernel
example : (div (ofNat 1) (ofNat 10)).bits = 0x3fb999999999999a := by decide +kernel
example : (ofNat (2 ^ 53 + 1)).bits = 0x4340000000000000 := by decide +kernel
example : ofNat (10 ^ 309) = infinity false := by decide +kernel
example : (mul (ofNat 3) (neg (ofNat 2))).bits = 0xc018000000000000 := by decide +kernel

end Binary64

end LibraryPlayer
