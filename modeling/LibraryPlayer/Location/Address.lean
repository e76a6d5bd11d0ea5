/-! # The page's address

What the page reads off its own address: the base of the catalog, which is the directory that the
page lies in, and whether debug messages were asked for.
-/

namespace LibraryPlayer

/-- Where the catalog is looked for when nothing else is known. -/
def defaultBase : String := "http://127.0.0.1:8337/"

namespace Address

/-- The characters of a path up to its last slash, that slash included; none without a slash. -/
def directory? : List Char → Option (List Char)
  | [] => none
  | c :: cs =>
    match directory? cs with
    | some d => some (c :: d)
    | none => if c = '/' then some ['/'] else none

/-- The base of the catalog for a page at a path of an origin: the page's directory, with one slash
between the two. -/
def base (origin path : String) : String :=
  let origin := (origin.toList.reverse.dropWhile (· = '/')).reverse
  let directory := (directory? path.toList).getD ['/']
  .ofList (origin ++ if directory.head? = some '/' then directory else '/' :: directory)

/-- A character with ASCII capitals made small. -/
def lower (c : Char) : Char :=
  if 'A' ≤ c ∧ c ≤ 'Z' then Char.ofNat (c.toNat + 32) else c

/-- Whether one setting of a search part switches debugging on: its key is `debug` and its value is
missing, empty, `1`, or `true` in any case. -/
def isDebug (setting : List Char) : Bool :=
  let key := setting.takeWhile (· ≠ '=')
  let value := (setting.dropWhile (· ≠ '=')).drop 1
  key == "debug".toList &&
    (value == [] || value == ['1'] || value.map lower == "true".toList)

/-- Whether the search part of an address asks for debug messages. -/
def debugRequested (search : String) : Bool :=
  ((search.toList.dropWhile (· = '?')).splitOn '&').any isDebug

example : base "http://music.lan/" "/library/index.html" = "http://music.lan/library/" := by
  decide
example : base "http://music.lan" "" = "http://music.lan/" := by decide
example : debugRequested "?x=2&debug=TRUE" = true := by decide
example : debugRequested "?debug=0" = false := by decide

end Address

/-- How much is logged. -/
inductive LogLevel where
  | debug | info
  deriving DecidableEq

/-- The settings of a page. -/
structure Settings where
  /-- The address that every path of the catalog is resolved against. -/
  base : String := defaultBase
  /-- Whether to log every media event and every change of what plays. -/
  debug : Bool := false

/-- Debug messages are logged only where they were asked for. -/
def Settings.logLevel (s : Settings) : LogLevel := if s.debug then .debug else .info

end LibraryPlayer
