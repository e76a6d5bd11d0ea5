import LibraryPlayer.Text.Octets
import LibraryPlayer.Text.Percent
import LibraryPlayer.Json.Basic

/-! # Quoted texts

Two readers for what stands between quotation marks, both started after the opening one:
`readText` gives the text, so its escapes must name characters and its octets must be UTF-8;
`skipText` passes over a text that nobody wants and checks only that the escapes are spelled
correctly.
-/

namespace LibraryPlayer.Json

/-- Reads four hexadecimal digits.  With fewer than four octets left the text has ended. -/
def readHex : Bytes → Except Fault (Nat × Bytes)
  | a :: b :: c :: d :: s =>
    match Text.Percent.hexValue? a, Text.Percent.hexValue? b,
      Text.Percent.hexValue? c, Text.Percent.hexValue? d with
    | some w, some x, some y, some z => .ok (((w * 16 + x) * 16 + y) * 16 + z, s)
    | _, _, _, _ => .error .malformed
  | _ => .error .ended

/-- The octet that a one-letter escape stands for. -/
def escaped? (b : UInt8) : Option UInt8 :=
  if b = quote ∨ b = backslash ∨ b = 0x2f then some b
  else if b = 0x62 then some 0x08
  else if b = 0x66 then some 0x0c
  else if b = 0x6e then some 0x0a
  else if b = 0x72 then some 0x0d
  else if b = 0x74 then some 0x09
  else none

/-- The first half of a surrogate pair. -/
def isHighSurrogate (n : Nat) : Bool := 0xd800 ≤ n && n ≤ 0xdbff

/-- The second half of a surrogate pair. -/
def isLowSurrogate (n : Nat) : Bool := 0xdc00 ≤ n && n ≤ 0xdfff

/-- The UTF-8 octets of a code point. -/
def codePoint (n : Nat) : Bytes := String.utf8EncodeChar (Char.ofNat n)

/-- Reads a code point after `\u`: one unit, or a pair of surrogates written as two escapes. -/
def readUnit (s : Bytes) : Except Fault (Bytes × Bytes) := do
  let (n, s) ← readHex s
  if isLowSurrogate n then throw .malformed
  else if isHighSurrogate n then
    let s ← expect [backslash, 0x75] s
    let (m, s) ← readHex s
    if isLowSurrogate m then
      return (codePoint (0x10000 + (n - 0xd800) * 0x400 + (m - 0xdc00)), s)
    else throw .malformed
  else return (codePoint n, s)

/-- Reads an escape after its backslash. -/
def readEscape (s : Bytes) : Except Fault (Bytes × Bytes) :=
  match s with
  | [] => .error .ended
  | b :: t =>
    if b = 0x75 then readUnit t
    else match escaped? b with
      | some c => .ok ([c], t)
      | none => .error .malformed

/-- Reads the octets up to the closing quotation mark, with escapes undone.  `fuel` bounds the
number of octets. -/
def readContent : Nat → Bytes → Except Fault (Bytes × Bytes)
  | 0, _ => .error .ended
  | _ + 1, [] => .error .ended
  | fuel + 1, b :: s =>
    if b = quote then .ok ([], s)
    else if b = backslash then do
      let (u, s) ← readEscape s
      let (v, s) ← readContent fuel s
      return (u ++ v, s)
    else if b < 0x20 then .error .malformed
    else do
      let (v, s) ← readContent fuel s
      return (b :: v, s)

/-- Reads a text up to its closing quotation mark. -/
def readText (s : Bytes) : Except Fault (String × Bytes) := do
  let (content, s) ← readContent s.length s
  match Text.ofOctets? content with
  | some text => return (text, s)
  | none => throw .malformed

/-- Passes over an escape after its backslash. -/
def skipEscape (s : Bytes) : Except Fault Bytes :=
  match s with
  | [] => .error .ended
  | b :: t =>
    if b = 0x75 then (readHex t).map Prod.snd
    else if (escaped? b).isSome then .ok t
    else .error .malformed

/-- Passes over the octets up to the closing quotation mark. -/
def skipContent : Nat → Bytes → Except Fault Bytes
  | 0, _ => .error .ended
  | _ + 1, [] => .error .ended
  | fuel + 1, b :: s =>
    if b = quote then .ok s
    else if b = backslash then do skipContent fuel (← skipEscape s)
    else if b < 0x20 then .error .malformed
    else skipContent fuel s

/-- Passes over a text up to its closing quotation mark. -/
def skipText (s : Bytes) : Except Fault Bytes := skipContent s.length s

end LibraryPlayer.Json
