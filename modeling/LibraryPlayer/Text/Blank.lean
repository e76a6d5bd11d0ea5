/-! # Blank characters

The characters with Unicode's `White_Space` property, and the two ways in which a query is
freed of them: `trim` cuts them off both ends, `words` cuts the text at every run of them.
Both go by the one table, so a text has words exactly when something is left of it after
trimming.
-/

namespace LibraryPlayer.Text

/-- The twenty-five characters with the `White_Space` property. -/
def blanks : List Char :=
  ['\t', '\n', '\x0b', '\x0c', '\r', ' ', '\u0085', '\u00a0', '\u1680',
   '\u2000', '\u2001', '\u2002', '\u2003', '\u2004', '\u2005', '\u2006', '\u2007', '\u2008',
   '\u2009', '\u200a', '\u2028', '\u2029', '\u202f', '\u205f', '\u3000']

/-- Whether a character is white space. -/
def isBlank (c : Char) : Bool := blanks.contains c

/-- The characters of a text without the blank ones at its end. -/
def trimEndChars (cs : List Char) : List Char := (cs.reverse.dropWhile isBlank).reverse

/-- The characters of a text without the blank ones at its two ends. -/
def trimChars (cs : List Char) : List Char := trimEndChars (cs.dropWhile isBlank)

/-- The text without blank characters at its two ends. -/
def trim (s : String) : String := .ofList (trimChars s.toList)

/-- The words of a text: its longest runs of characters that are not blank, in order. -/
def words (s : String) : List String :=
  ((s.toList.splitOnP isBlank).filter (· ≠ [])).map String.ofList

example : blanks.length = 25 := rfl
example : blanks.Nodup := by decide
example (c : Char) (h : c.isWhitespace = true) : isBlank c = true := by
  simp [Char.isWhitespace] at h
  rcases h with ((rfl | rfl) | rfl) | rfl <;> decide
example : trim "\u00a0 a b\u3000" = "a b" := by decide
example : words "  a \u2003 b " = ["a", "b"] := by decide

end LibraryPlayer.Text
