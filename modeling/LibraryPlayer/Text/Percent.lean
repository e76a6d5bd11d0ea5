import LibraryPlayer.Text.Octets

/-! # Percent-encoding

A text is encoded octet by octet of its UTF-8 form: letters, digits and `-._~` of ASCII stand
for themselves and every other octet is a percent sign with two upper-case hexadecimal digits.
Decoding undoes every well-formed escape, of either case, leaves a percent sign that starts none
where it is, and fails when the octets are not UTF-8.

* `decodeOctets_encodeOctets`: decoding undoes encoding.
-/

namespace LibraryPlayer.Text.Percent

/-- The hexadecimal digit for a number below sixteen. -/
def hexDigit (n : Nat) : UInt8 :=
  if n < 10 then .ofNat (0x30 + n) else .ofNat (0x41 + (n - 10))

/-- The number that a hexadecimal digit of either case stands for. -/
def hexValue? (b : UInt8) : Option Nat :=
  let n := b.toNat
  if 0x30 ≤ n ∧ n ≤ 0x39 then some (n - 0x30)
  else if 0x41 ≤ n ∧ n ≤ 0x46 then some (n - 0x41 + 10)
  else if 0x61 ≤ n ∧ n ≤ 0x66 then some (n - 0x61 + 10)
  else none

/-- Whether an octet stands for itself: an ASCII letter or digit, or one of `-._~`. -/
def isUnreserved (b : UInt8) : Bool :=
  let n := b.toNat
  (0x41 ≤ n && n ≤ 0x5a) || (0x61 ≤ n && n ≤ 0x7a) || (0x30 ≤ n && n ≤ 0x39)
    || n == 0x2d || n == 0x2e || n == 0x5f || n == 0x7e

/-- The percent sign. -/
def sign : UInt8 := 0x25

/-- How one octet is written. -/
def encodeOctet (b : UInt8) : List UInt8 :=
  if isUnreserved b then [b] else [sign, hexDigit (b.toNat / 16), hexDigit (b.toNat % 16)]

/-- How octets are written, one after the other. -/
def encodeOctets (bs : List UInt8) : List UInt8 := bs.flatMap encodeOctet

/-- Undoes the escapes in written octets. -/
def decodeOctets : List UInt8 → List UInt8
  | [] => []
  | b :: bs =>
    match b == sign, bs with
    | true, h :: l :: rest =>
      match hexValue? h, hexValue? l with
      | some x, some y => .ofNat (16 * x + y) :: decodeOctets rest
      | _, _ => b :: decodeOctets (h :: l :: rest)
    | _, bs => b :: decodeOctets bs

/-- The percent-encoding of a text; its octets are all ASCII. -/
def encode (s : String) : String :=
  .ofList ((encodeOctets (octets s)).map fun b => Char.ofNat b.toNat)

/-- The text that an encoding stands for, unless its octets are not UTF-8. -/
def decode? (s : String) : Option String := ofOctets? (decodeOctets (octets s))

example : encode "AC/DC é~" = "AC%2FDC%20%C3%A9~" := by decide
example : decode? "%41%zz%4" = some "A%zz%4" := by cbv
example : decode? "%ff" = none := by cbv
example : decode? "%e2%82%AC%" = some "€%" := by cbv

/-! ## Round trip -/

/-- A digit that has been written is read as its value. -/
theorem hexValue?_hexDigit : ∀ n : Fin 16, hexValue? (hexDigit n) = some n.val := by decide

/-- An octet other than the percent sign is left as it is. -/
theorem decodeOctets_cons_of_ne {b : UInt8} (h : b ≠ sign) (bs : List UInt8) :
    decodeOctets (b :: bs) = b :: decodeOctets bs := by
  rw [decodeOctets]
  simp [h]

/-- Decoding undoes the way in which one octet is written. -/
theorem decodeOctets_encodeOctet (b : UInt8) (bs : List UInt8) :
    decodeOctets (encodeOctet b ++ bs) = b :: decodeOctets bs := by
  unfold encodeOctet
  split
  · next h =>
    -- an octet that stands for itself is not the sign of an escape
    have hb : b ≠ sign := by
      rintro rfl
      exact absurd h (by decide)
    exact decodeOctets_cons_of_ne hb bs
  -- any other octet is the sign and two digits, which are read as its two halves
  · have hb := b.toNat_lt
    have hi := hexValue?_hexDigit ⟨b.toNat / 16, by omega⟩
    have lo := hexValue?_hexDigit ⟨b.toNat % 16, by omega⟩
    simp only at hi lo
    simp [decodeOctets, hi, lo, Nat.div_add_mod]

/-- Decoding undoes encoding. -/
theorem decodeOctets_encodeOctets (bs : List UInt8) : decodeOctets (encodeOctets bs) = bs := by
  induction bs with
  | nil => rfl
  | cons b bs ih =>
    rw [encodeOctets, List.flatMap_cons, decodeOctets_encodeOctet]
    exact congrArg _ ih

end LibraryPlayer.Text.Percent
