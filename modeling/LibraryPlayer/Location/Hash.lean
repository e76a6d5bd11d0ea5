import LibraryPlayer.Catalog.Query

/-! # The location hash

A search is kept in the location's hash, so that it survives a reload and can be bookmarked: the
query without blanks around it, percent-encoded as one piece, under the route of queries.

`Hash.query?` reads back what `Hash.ofQuery` writes, and also what users write by hand.  Outside a
browser there is no location, and nothing is remembered (`Location`).
-/

namespace LibraryPlayer

namespace Hash

/-- The hash of a query. -/
def ofQuery (query : String) : String :=
  "#" ++ Query.route ++ Text.Percent.encode (Text.trim query)

/-- What is left of a text after the wanted characters in front; none if they are not there. -/
def after? : List Char → List Char → Option (List Char)
  | [], s => some s
  | _ :: _, [] => none
  | w :: ws, c :: s => if c = w then after? ws s else none

/-- The route in a hash: one number sign in front does not belong to it. -/
def routeOf (hash : String) : List Char := (after? ['#'] hash.toList).getD hash.toList

/-- The query in a hash, if it is under the route of queries, can be decoded and is not blank. -/
def query? (hash : String) : Option String := do
  let encoded ← after? Query.route.toList (routeOf hash)
  let decoded ← Text.Percent.decode? (.ofList encoded)
  let query := Text.trim decoded
  if query = "" then none else some query

/-- The query to run after the hash has changed, unless it is the one already showing. -/
def queryToRestore? (hash showing : String) : Option String :=
  (query? hash).filter (· ≠ Text.trim showing)

example : ofQuery " beatles abbey road " = "#item/query/beatles%20abbey%20road" := by decide
example : query? "item/query/year%3A1969" = some "year:1969" := by cbv
example : query? "#item/query/%20" = none := by cbv

end Hash

/-- Where the page keeps its hash. -/
inductive Location where
  /-- There is no location. -/
  | absent
  | present (hash : String)
  deriving DecidableEq

namespace Location

/-- The hash that is read off a location. -/
def hash : Location → String
  | absent => ""
  | present hash => hash

/-- A location remembers a query in its hash. -/
def remember (l : Location) (query : String) : Location :=
  match l with
  | absent => absent
  | present _ => present (Hash.ofQuery query)

end Location

end LibraryPlayer
