import LibraryPlayer.Json.Skip

/-! # Reading values of a wanted kind

The readers for the kinds of value that a record is made of.  Where the value has another kind,
`unwanted` gives the fault: a scalar is read to its end first, so that a fault inside it comes
before the mismatch, while a list or an object mismatches at its bracket.
-/

namespace LibraryPlayer.Json

/-- The fault of a reading that was not wanted: its own, or else a mismatch. -/
def orMismatch {α : Type} : Except Fault α → Fault
  | .error f => f
  | .ok _ => .mismatched

/-- The fault of a value that starts here and is not of the wanted kind. -/
def unwanted (s : Bytes) : Fault :=
  match s with
  | [] => .ended
  | b :: t =>
    if b = quote then orMismatch (readText t)
    else if b = openList ∨ b = openObject then .mismatched
    else if startsNumber b then orMismatch (readNumber s)
    else match literalRest? b with
      | some rest => orMismatch (expect rest t)
      | none => .malformed

/-- Reads a text. -/
def text (s : Bytes) : Except Fault (String × Bytes) :=
  match skipSpace s with
  | [] => .error .ended
  | b :: t => if b = quote then readText t else .error (unwanted (b :: t))

/-- Reads a number of any kind. -/
def number (s : Bytes) : Except Fault (Number × Bytes) :=
  match skipSpace s with
  | [] => .error .ended
  | b :: t => if startsNumber b then readNumber (b :: t) else .error (unwanted (b :: t))

/-- Reads a number as a double. -/
def double (s : Bytes) : Except Fault (Binary64 × Bytes) := do
  let (x, s) ← number s
  return (x.value, s)

/-- Reads a natural number below `2 ^ 64`. -/
def natural64 (s : Bytes) : Except Fault (UInt64 × Bytes) := do
  let (x, s) ← number s
  match x.natural? with
  | some n => return (n, s)
  | none => throw .mismatched

/-- Reads a natural number below `2 ^ 32`. -/
def natural32 (s : Bytes) : Except Fault (UInt32 × Bytes) := do
  let (n, s) ← natural64 s
  if n.toNat < UInt32.size then return (n.toUInt32, s) else throw .mismatched

/-- Reads a value that may be `null` instead. -/
def optional {α : Type} (reader : Bytes → Except Fault (α × Bytes)) (s : Bytes) :
    Except Fault (Option α × Bytes) := do
  match skipSpace s with
  | [] => throw .ended
  | b :: t =>
    if b = 0x6e then
      let t ← expect [0x75, 0x6c, 0x6c] t
      return (none, t)
    else
      let (a, t) ← reader (b :: t)
      return (some a, t)

/-- Reads a list. -/
def list {α : Type} (item : Bytes → Except Fault (α × Bytes)) (s : Bytes) :
    Except Fault (List α × Bytes) :=
  match skipSpace s with
  | [] => .error .ended
  | b :: t => if b = openList then items item (t.length + 1) true t else .error (unwanted (b :: t))

/-- Reads the members of an object up to its closing brace, folding each into a state.  `member`
gets the decoded key and what is left from the colon on.  `fuel` bounds their number. -/
def members {σ : Type} (member : σ → String → Bytes → Except Fault (σ × Bytes)) :
    Nat → Bool → σ → Bytes → Except Fault (σ × Bytes)
  | 0, _, _, _ => .error .ended
  | fuel + 1, first, state, s => do
    match ← nextMember first s with
    | .close t => return (state, t)
    | .item t =>
      let (key, t) ← readText t
      let (state, t) ← member state key t
      members member fuel false state t

/-- Reads a record, which is spelled as a list of its fields or as an object. -/
def record {α : Type} (fromList fromObject : Bytes → Except Fault (α × Bytes)) (s : Bytes) :
    Except Fault (α × Bytes) :=
  match skipSpace s with
  | [] => .error .ended
  | b :: t =>
    if b = openList then fromList t
    else if b = openObject then fromObject t
    else .error (unwanted (b :: t))

/-- Reads a whole text as one value. -/
def whole {α : Type} (reader : Bytes → Except Fault (α × Bytes)) (s : Bytes) : Except Fault α := do
  let (a, s) ← reader s
  finish s
  return a

end LibraryPlayer.Json
