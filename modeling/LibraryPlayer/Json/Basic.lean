/-! # Reading JSON from octets

A reader takes the octets that are left and gives a value with the octets after it, or the first
fault that it meets from the left.  There are three faults: the octets end inside a value, they
are no JSON, or they are JSON of another kind than the one that is wanted.

This module holds the faults, the insignificant blanks, and the punctuation of lists and objects.
-/

namespace LibraryPlayer.Json

/-- The octets that are left to read. -/
abbrev Bytes := List UInt8

/-- Why octets are not the value that is wanted. -/
inductive Fault where
  /-- The octets end inside a value. -/
  | ended
  /-- No JSON text goes on like this. -/
  | malformed
  /-- A JSON value, but of another kind or out of range, or an object with the wrong members. -/
  | mismatched
  deriving DecidableEq, Repr

/-! ## Marks -/

/-- The mark around texts. -/
def quote : UInt8 := 0x22
/-- The mark in front of an escape. -/
def backslash : UInt8 := 0x5c
/-- The mark between items and between members. -/
def comma : UInt8 := 0x2c
/-- The mark between a key and its value. -/
def colonMark : UInt8 := 0x3a
/-- The bracket that opens a list. -/
def openList : UInt8 := 0x5b
/-- The bracket that closes a list. -/
def closeList : UInt8 := 0x5d
/-- The bracket that opens an object. -/
def openObject : UInt8 := 0x7b
/-- The bracket that closes an object. -/
def closeObject : UInt8 := 0x7d
/-- The sign of a negative numeral or exponent. -/
def minus : UInt8 := 0x2d
/-- The sign that an exponent may have. -/
def plus : UInt8 := 0x2b
/-- The mark in front of a fraction. -/
def point : UInt8 := 0x2e

/-- A decimal digit. -/
def isDigit (b : UInt8) : Bool := 0x30 ≤ b && b ≤ 0x39

/-- The insignificant blanks: space, tab, line feed and carriage return. -/
def isSpace (b : UInt8) : Bool := b == 0x20 || b == 0x09 || b == 0x0a || b == 0x0d

/-- What is left after the blanks in front. -/
def skipSpace (s : Bytes) : Bytes := s.dropWhile isSpace

/-- Reads exactly the wanted octets. -/
def expect : Bytes → Bytes → Except Fault Bytes
  | [], s => .ok s
  | _ :: _, [] => .error .ended
  | w :: ws, b :: s => if b = w then expect ws s else .error .malformed

/-- The rest of `null`, `true` or `false` after its first letter; none for other octets. -/
def literalRest? (b : UInt8) : Option Bytes :=
  if b = 0x6e then some [0x75, 0x6c, 0x6c]
  else if b = 0x74 then some [0x72, 0x75, 0x65]
  else if b = 0x66 then some [0x61, 0x6c, 0x73, 0x65]
  else none

/-! ## Lists and objects -/

/-- What stands next in a list or an object. -/
inductive Next where
  /-- An item, which starts the given octets. -/
  | item (rest : Bytes)
  /-- The closing bracket, and what is left after it. -/
  | close (rest : Bytes)

/-- Looks for the next item of a list or object that closes with `closing`; `first` says that none
has been read yet.  A comma stands between two items and nowhere else. -/
def next (closing : UInt8) (first : Bool) (s : Bytes) : Except Fault Next :=
  match skipSpace s with
  | [] => .error .ended
  | b :: t =>
    if b = closing then .ok (.close t)
    else if first then .ok (.item (b :: t))
    else if b = comma then
      match skipSpace t with
      | [] => .error .ended
      | c :: u => if c = closing then .error .malformed else .ok (.item (c :: u))
    else .error .malformed

/-- Looks for the next member of an object: its key must start with a quotation mark, after which
the octets that are left go on. -/
def nextMember (first : Bool) (s : Bytes) : Except Fault Next := do
  match ← next closeObject first s with
  | .close t => return .close t
  | .item [] => throw .ended
  | .item (b :: t) => if b = quote then return .item t else throw .malformed

/-- Closes a list after its last possible item: anything but the bracket is a fault. -/
def endList (s : Bytes) : Except Fault Bytes :=
  match skipSpace s with
  | [] => .error .ended
  | b :: t => if b = closeList then .ok t else .error .malformed

/-- Reads the colon between a key and its value. -/
def colon (s : Bytes) : Except Fault Bytes :=
  match skipSpace s with
  | [] => .error .ended
  | b :: t => if b = colonMark then .ok t else .error .malformed

/-- Reads the items of a list up to its closing bracket.  `fuel` bounds their number. -/
def items {α : Type} (item : Bytes → Except Fault (α × Bytes)) :
    Nat → Bool → Bytes → Except Fault (List α × Bytes)
  | 0, _, _ => .error .ended
  | fuel + 1, first, s => do
    match ← next closeList first s with
    | .close t => return ([], t)
    | .item t =>
      let (a, t) ← item t
      let (as, t) ← items item fuel false t
      return (a :: as, t)

/-- Reads what follows the last value of a text: blanks, and then nothing. -/
def finish (s : Bytes) : Except Fault Unit :=
  if (skipSpace s).isEmpty then .ok () else .error .malformed

end LibraryPlayer.Json
