import LibraryPlayer.Json.Reader

/-!
# The grammar of JSON

What octets say is a `Tree`: it has the decoded texts and the members of objects in their order, but
neither blanks nor the way in which a text is spelled.  `Spells` is the grammar: which octets say
which tree.  It names no reader, so that what the readers accept can be told by it.

Octets between quotation marks are looked at in two ways.  `Content` gives the octets of the text
that they spell.  `Passable` asks only for well-formed escapes; it is all that a value that nobody
wants has to meet.
-/

namespace LibraryPlayer.Json

/-- What octets of JSON say. -/
inductive Tree where
  | null
  | bool (b : Bool)
  | number (x : Numeral)
  /-- A text; none for octets between quotation marks that are the spelling of no text. -/
  | text (t : Option String)
  | list (items : List Tree)
  /-- The members in order, each with its key. -/
  | object (members : List (Option String × Tree))

/-- Insignificant blanks and nothing else. -/
def IsBlank (s : Bytes) : Prop := ∀ b ∈ s, isSpace b = true

/-! ## Numerals -/

/-- At least one digit. -/
structure IsDigits (ds : Bytes) : Prop where
  ne_nil : ds ≠ []
  digits : ∀ d ∈ ds, isDigit d = true

/-- The spelling of a fraction, with its point. -/
inductive Fraction : Bytes → Option Bytes → Prop where
  | none : Fraction [] none
  | some {ds : Bytes} (hds : IsDigits ds) : Fraction (point :: ds) (some ds)

/-- The letter in front of an exponent. -/
def isExponentMark (b : UInt8) : Bool := b == 0x65 || b == 0x45

/-- The spelling of an exponent, with its letter. -/
inductive Exponent : Bytes → Option (Bool × Bytes) → Prop where
  | none : Exponent [] none
  | unsigned {e : UInt8} {ds : Bytes} (he : isExponentMark e = true) (hds : IsDigits ds) :
    Exponent (e :: ds) (some (false, ds))
  | plus {e : UInt8} {ds : Bytes} (he : isExponentMark e = true) (hds : IsDigits ds) :
    Exponent (e :: plus :: ds) (some (false, ds))
  | minus {e : UInt8} {ds : Bytes} (he : isExponentMark e = true) (hds : IsDigits ds) :
    Exponent (e :: minus :: ds) (some (true, ds))

/-- The sign of a numeral. -/
def signOf (negative : Bool) : Bytes := if negative then [minus] else []

/-- The spelling of a numeral.  A zero in front of other digits is none. -/
inductive Numeral.Spelled : Bytes → Numeral → Prop where
  | mk {negative : Bool} {whole f e : Bytes} {fraction : Option Bytes}
    {exponent : Option (Bool × Bytes)} (hwhole : IsDigits whole)
    (hzero : whole.head? = some 0x30 → whole = [0x30]) (hf : Fraction f fraction)
    (he : Exponent e exponent) :
    Spelled (signOf negative ++ (whole ++ (f ++ e))) ⟨negative, whole, fraction, exponent⟩

/-! ## Texts -/

/-- Four hexadecimal digits and their number. -/
inductive Hex : Bytes → Nat → Prop where
  | mk {a b c d : UInt8} {w x y z : Nat} (ha : Text.Percent.hexValue? a = some w)
    (hb : Text.Percent.hexValue? b = some x) (hc : Text.Percent.hexValue? c = some y)
    (hd : Text.Percent.hexValue? d = some z) : Hex [a, b, c, d] (((w * 16 + x) * 16 + y) * 16 + z)

/-- An escape, without its backslash, and the octets of the character that it stands for.  A
character beyond the first plane is written as two surrogates. -/
inductive Escape : Bytes → Bytes → Prop where
  | short {b c : UInt8} (h : escaped? b = some c) : Escape [b] [c]
  | unit {u : Bytes} {n : Nat} (hu : Hex u n) (hlow : isLowSurrogate n = false)
    (hhigh : isHighSurrogate n = false) : Escape (0x75 :: u) (codePoint n)
  | pair {u v : Bytes} {n m : Nat} (hu : Hex u n) (hv : Hex v m) (hhigh : isHighSurrogate n = true)
    (hlow : isLowSurrogate m = true) :
    Escape (0x75 :: (u ++ backslash :: 0x75 :: v))
      (codePoint (0x10000 + (n - 0xd800) * 0x400 + (m - 0xdc00)))

/-- An octet that stands for itself between quotation marks. -/
structure IsPlain (b : UInt8) : Prop where
  ne_quote : b ≠ quote
  ne_backslash : b ≠ backslash
  printable : ¬b < 0x20

/-- What stands between quotation marks, and the octets of the text that it spells. -/
inductive Content : Bytes → Bytes → Prop where
  | nil : Content [] []
  | plain {b : UInt8} {s o : Bytes} (hb : IsPlain b) (hs : Content s o) : Content (b :: s) (b :: o)
  | escape {e u s o : Bytes} (he : Escape e u) (hs : Content s o) :
    Content (backslash :: (e ++ s)) (u ++ o)

/-- What may stand between the quotation marks of a text that nobody wants. -/
inductive Passable : Bytes → Prop where
  | nil : Passable []
  | plain {b : UInt8} {s : Bytes} (hb : IsPlain b) (hs : Passable s) : Passable (b :: s)
  | short {b : UInt8} {s : Bytes} (h : (escaped? b).isSome) (hs : Passable s) :
    Passable (backslash :: b :: s)
  | unit {u s : Bytes} {n : Nat} (hu : Hex u n) (hs : Passable s) :
    Passable (backslash :: 0x75 :: (u ++ s))

/-- What stands between quotation marks, and the text that it spells, if it spells one. -/
inductive Quoted : Bytes → Option String → Prop where
  | text {s : Bytes} {t : String} (hs : Content s (Text.octets t)) : Quoted s (some t)
  | other {s : Bytes} (hs : Passable s) (hnone : ∀ t : String, ¬Content s (Text.octets t)) :
    Quoted s none

/-! ## Values -/

/-- What stands in front of an item of a list or a member of an object: blanks, and a comma among
them unless it is the first. -/
inductive Lead : Bool → Bytes → Prop where
  | first {g : Bytes} (hg : IsBlank g) : Lead true g
  | later {g g' : Bytes} (hg : IsBlank g) (hg' : IsBlank g') : Lead false (g ++ comma :: g')

/-- What a part of a text says: a value, or what is left of a list or an object after its opening
bracket or after an item of it. -/
inductive Phrase where
  | value (t : Tree)
  | items (first : Bool) (ts : List Tree)
  | members (first : Bool) (ms : List (Option String × Tree))

/-- The grammar: which octets say what.  A value has no blanks around it, and the rest of a list or
an object ends with its closing bracket. -/
inductive Spells : Bytes → Phrase → Prop where
  | nullLiteral : Spells [0x6e, 0x75, 0x6c, 0x6c] (.value .null)
  | trueLiteral : Spells [0x74, 0x72, 0x75, 0x65] (.value (.bool true))
  | falseLiteral : Spells [0x66, 0x61, 0x6c, 0x73, 0x65] (.value (.bool false))
  | number {s : Bytes} {x : Numeral} (h : x.Spelled s) : Spells s (.value (.number x))
  | text {s : Bytes} {t : Option String} (h : Quoted s t) :
    Spells (quote :: (s ++ [quote])) (.value (.text t))
  | list {s : Bytes} {ts : List Tree} (h : Spells s (.items true ts)) :
    Spells (openList :: s) (.value (.list ts))
  | object {s : Bytes} {ms : List (Option String × Tree)} (h : Spells s (.members true ms)) :
    Spells (openObject :: s) (.value (.object ms))
  | endItems {g : Bytes} {first : Bool} (hg : IsBlank g) :
    Spells (g ++ [closeList]) (.items first [])
  | item {lead s s' : Bytes} {first : Bool} {t : Tree} {ts : List Tree} (hlead : Lead first lead)
    (h : Spells s (.value t)) (h' : Spells s' (.items false ts)) :
    Spells (lead ++ (s ++ s')) (.items first (t :: ts))
  | endMembers {g : Bytes} {first : Bool} (hg : IsBlank g) :
    Spells (g ++ [closeObject]) (.members first [])
  | member {lead k g g' s s' : Bytes} {first : Bool} {key : Option String} {t : Tree}
    {ms : List (Option String × Tree)} (hlead : Lead first lead) (hk : Quoted k key)
    (hg : IsBlank g) (hg' : IsBlank g') (h : Spells s (.value t))
    (h' : Spells s' (.members false ms)) :
    Spells (lead ++ quote :: (k ++ quote :: (g ++ colonMark :: (g' ++ (s ++ s')))))
      (.members first ((key, t) :: ms))

/-- A whole text says a tree if there are only blanks around the spelling of it. -/
def Says (s : Bytes) (t : Tree) : Prop :=
  ∃ g x g', IsBlank g ∧ IsBlank g' ∧ s = g ++ (x ++ g') ∧ Spells x (.value t)

end LibraryPlayer.Json
