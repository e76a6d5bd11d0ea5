import LibraryPlayer.Proofs.Playback.Calls

/-!
# What a controller asks of its media

`Recorded` is media that keeps a record of what it is asked for, in order.  A controller that works
recorded media does what it would have done without the record (`run_recorded`), and the record
shows all that it asked for itself, and nothing that others did.

A controller asks for something only when it starts an entry (`started?`): for the entry's audio
and then, at once, for it to play.
-/

namespace LibraryPlayer

/-- Something that media can be asked for. -/
inductive MediaRequest where
  | load (location : String)
  | play
  | pause
  deriving DecidableEq

/-- Media with a record of what it was asked for, oldest first. -/
structure Recorded (μ : Type) where
  media : μ
  asked : List MediaRequest := []

/-- Each request goes to the media and into the record. -/
instance {μ : Type} [Media μ] : Media (Recorded μ) where
  reading r := Media.reading r.media
  load location r := ⟨Media.load location r.media, r.asked ++ [.load location]⟩
  play r := ((Media.play r.media).1, ⟨(Media.play r.media).2, r.asked ++ [.play]⟩)
  pause r := ⟨Media.pause r.media, r.asked ++ [.pause]⟩

/-- What a start of an entry asks for. -/
def Entry.startRequests (e : Entry) : List MediaRequest := [.load e.track.audioPath, .play]

namespace Controller

variable {μ : Type}

/-- The same call to a controller of recorded media; what others do is not recorded. -/
def Call.recorded : Call μ → Call (Recorded μ)
  | .setResults results => .setResults results
  | .play e => .play e
  | .takePending => .takePending
  | .startRejected e => .startRejected e
  | .event ev => .event ev
  | .outside change => .outside fun r => { r with media := change r.media }

/-- The entry that a call starts. -/
def started? (c : Controller) : Call μ → Option Entry
  | .play e => some e
  | .event .ended => c.pointer.bind c.results.following?
  | _ => none

variable [Media μ]

/-- The entries that calls start, in order. -/
def starts (c : Controller) (media : μ) : List (Call μ) → List Entry
  | [] => []
  | x :: calls =>
    (c.started? x).toList ++ (c.call media x).1.starts (c.call media x).2 calls

/-- The starts of calls in two parts are those of each part. -/
theorem starts_append (c : Controller) (media : μ) (xs ys : List (Call μ)) :
    c.starts media (xs ++ ys) =
      c.starts media xs ++ (c.run media xs).1.starts (c.run media xs).2 ys := by
  induction xs generalizing c media with
  | nil => rfl
  | cons x xs ih =>
    rw [List.cons_append, starts, ih, starts, List.append_assoc]
    rfl

/-- A start does the same to recorded media, and the record shows its two requests. -/
theorem play_recorded (c : Controller) (e : Entry) (r : Recorded μ) :
    c.play e r =
      ((c.play e r.media).1, ⟨(c.play e r.media).2, r.asked ++ e.startRequests⟩) := by
  have h : r.asked ++ [MediaRequest.load e.track.audioPath] ++ [.play] =
      r.asked ++ e.startRequests := by
    rw [List.append_assoc]
    rfl
  rw [← h]
  rfl

/-- So does an end, with the requests of the entry that follows. -/
theorem advance_recorded (c : Controller) (r : Recorded μ) :
    c.advance r = ((c.advance r.media).1, ⟨(c.advance r.media).2,
      r.asked ++ (c.pointer.bind c.results.following?).toList.flatMap Entry.startRequests⟩) := by
  rw [advance, advance]
  -- an end asks for something only if there is an entry that follows
  cases c.pointer.bind c.results.following? with
  | none => simp
  | some e => simp [play_recorded]

/-- One call does the same to a controller of recorded media, and the record shows the start that
it makes, if it makes one. -/
theorem call_recorded (c : Controller) (r : Recorded μ) (x : Call μ) :
    c.call r x.recorded = ((c.call r.media x).1, ⟨(c.call r.media x).2,
      r.asked ++ (c.started? x).toList.flatMap Entry.startRequests⟩) := by
  cases x with
  | play e => simpa [started?, call, Call.recorded] using play_recorded c e r
  | event event =>
    -- of the events only an end asks for anything
    cases event with
    | ended => exact advance_recorded c r
    | _ => simp [started?, call, Call.recorded, handle]
  | _ => simp [started?, call, Call.recorded]

/-- Recording changes nothing of a run, and the record shows its starts, in order. -/
theorem run_recorded (c : Controller) (r : Recorded μ) (calls : List (Call μ)) :
    c.run r (calls.map .recorded) = ((c.run r.media calls).1, ⟨(c.run r.media calls).2,
      r.asked ++ (c.starts r.media calls).flatMap Entry.startRequests⟩) := by
  induction calls generalizing c r with
  | nil => simp [starts]
  | cons x calls ih =>
    -- the record of the first call is part of the media that the others work on
    rw [List.map_cons, run_cons, call_recorded, ih, run_cons, starts, List.flatMap_append,
      List.append_assoc]

end Controller

end LibraryPlayer
