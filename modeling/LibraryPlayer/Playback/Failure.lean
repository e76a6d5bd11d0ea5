/-! # Playback failures -/

namespace LibraryPlayer

/-- Why the page's media element or its media session did not do what was asked. -/
inductive PlaybackFailure where
  /-- The element refused to start, for the given reason. -/
  | rejected (reason : String)
  /-- There is no element, or no session. -/
  | unavailable
  /-- The session refused an update, for the given reason. -/
  | session (reason : String)
  deriving DecidableEq

/-- The text of a failure. -/
def PlaybackFailure.message : PlaybackFailure → String
  | rejected reason => "playback start was rejected: " ++ reason
  | unavailable => "no media element is attached"
  | session reason => "media session update failed: " ++ reason

/-- How a request to play, or to publish, came out. -/
abbrev Outcome := Except PlaybackFailure Unit

end LibraryPlayer
