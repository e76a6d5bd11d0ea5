/-! # Media events -/

namespace LibraryPlayer

/-- What a media element tells its observers. -/
inductive MediaEvent where
  | playing | pause | ended | durationChange | timeUpdate | progress
  deriving DecidableEq, Repr

namespace MediaEvent

/-- All events, in the order in which observers are bound to them. -/
def all : List MediaEvent := [playing, pause, ended, durationChange, timeUpdate, progress]

/-- The name that an element fires the event under. -/
def name : MediaEvent → String
  | playing => "playing"
  | pause => "pause"
  | ended => "ended"
  | durationChange => "durationchange"
  | timeUpdate => "timeupdate"
  | progress => "progress"

/-- The event with a name. -/
def ofName? (name : String) : Option MediaEvent := all.find? (·.name = name)

/-- Whether the event reports that playing has begun or stopped; the others report where the
element is and how much it has. -/
def isTransport : MediaEvent → Bool
  | playing | pause | ended => true
  | durationChange | timeUpdate | progress => false

/-- No two events are fired under one name. -/
theorem ofName?_name (e : MediaEvent) : ofName? e.name = some e := by
  cases e <;> decide

end MediaEvent

end LibraryPlayer
