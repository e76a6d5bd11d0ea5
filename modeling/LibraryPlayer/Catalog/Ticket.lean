/-! # Tickets

Searches are numbered as they begin, so that only the answer to the newest one counts.
-/

namespace LibraryPlayer

/-- The counter of searches; `latest` is the number of the newest one.  It wraps around. -/
structure Tickets where
  latest : UInt64 := 0
  deriving DecidableEq

namespace Tickets

/-- Begins a search, with the next number. -/
def begin (t : Tickets) : Tickets := ⟨t.latest + 1⟩

/-- Whether a number belongs to the newest search. -/
def isCurrent (t : Tickets) (ticket : UInt64) : Bool := t.latest == ticket

end Tickets

end LibraryPlayer
