import LibraryPlayer.Json.Numeral
import LibraryPlayer.Json.Quoted

/-! # Values that nobody wants

`skip` passes over one value of any kind and any depth.  It checks the grammar and nothing more:
a number may be of any size, a text need not be UTF-8.
-/

namespace LibraryPlayer.Json

mutual

/-- Passes over a value.  `fuel` bounds the number of values and brackets. -/
def skipValue : Nat → Bytes → Except Fault Bytes
  | 0, _ => .error .ended
  | fuel + 1, s =>
    match skipSpace s with
    | [] => .error .ended
    | b :: t =>
      if b = quote then skipText t
      else if b = openList then skipItems fuel true t
      else if b = openObject then skipMembers fuel true t
      else if startsNumber b then (Numeral.read .malformed (b :: t)).map Prod.snd
      else match literalRest? b with
        | some rest => expect rest t
        | none => .error .malformed

/-- Passes over the items of a list and its closing bracket. -/
def skipItems : Nat → Bool → Bytes → Except Fault Bytes
  | 0, _, _ => .error .ended
  | fuel + 1, first, s => do
    match ← next closeList first s with
    | .close t => return t
    | .item t => skipItems fuel false (← skipValue fuel t)

/-- Passes over the members of an object and its closing brace. -/
def skipMembers : Nat → Bool → Bytes → Except Fault Bytes
  | 0, _, _ => .error .ended
  | fuel + 1, first, s => do
    match ← nextMember first s with
    | .close t => return t
    | .item t => skipMembers fuel false (← skipValue fuel (← colon (← skipText t)))

end

/-- Passes over one value. -/
def skip (s : Bytes) : Except Fault Bytes := skipValue (2 * s.length + 1) s

end LibraryPlayer.Json
