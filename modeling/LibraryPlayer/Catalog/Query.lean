import LibraryPlayer.Text.Blank
import LibraryPlayer.Text.Percent

/-! # Queries

A query is free text.  In a request every word of it is a path segment of its own,
percent-encoded, under the route of queries.
-/

namespace LibraryPlayer.Query

/-- The route under which the catalog answers queries. -/
def route : String := "item/query/"

/-- The path segments of a query: its encoded words. -/
def segments (query : String) : List String := (Text.words query).map Text.Percent.encode

/-- The path of a query; none when it has no words. -/
def path? (query : String) : Option String :=
  match segments query with
  | [] => none
  | s :: ss => some (route ++ "/".intercalate (s :: ss))

example : path? "beatles abbey road" = some "item/query/beatles/abbey/road" := by decide
example : path? " artist:AC/DC \t x " = some "item/query/artist%3AAC%2FDC/x" := by decide
example : path? " \u3000" = none := by decide

end LibraryPlayer.Query
