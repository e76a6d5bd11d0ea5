import LibraryPlayer.Proofs.Playback.Recording

/-!
# An element under a controller

An element counts what it was asked for, whoever asked.  Under a controller the counts grow by one
load and one request to play with every start, and by nothing else (`run_counts`).
-/

namespace LibraryPlayer

namespace Element

/-- The counts of an element grow by the loads of some locations, by some requests to play and by
some to pause. -/
structure Grows (before after : Element) (locations : List String) (plays pauses : Nat) : Prop where
  loads : after.loads = before.loads ++ locations
  plays : after.plays = before.plays + plays
  pauses : after.pauses = before.pauses + pauses

/-- Nothing asked is no growth. -/
theorem Grows.refl (e : Element) : Grows e e [] 0 0 := ⟨by simp, rfl, rfl⟩

/-- Growth adds up. -/
theorem Grows.trans {e e' e'' : Element} {ls ls' : List String} {n n' m m' : Nat}
    (h : Grows e e' ls n m) (h' : Grows e' e'' ls' n' m') :
    Grows e e'' (ls ++ ls') (n + n') (m + m') where
  loads := by rw [h'.loads, h.loads, List.append_assoc]
  plays := by rw [h'.plays, h.plays, Nat.add_assoc]
  pauses := by rw [h'.pauses, h.pauses, Nat.add_assoc]

/-- A load grows the list of loads by its location. -/
theorem load_grows (location : String) (e : Element) : Grows e (e.load location) [location] 0 0 :=
  ⟨rfl, rfl, rfl⟩

/-- A request to play is counted, whatever becomes of it. -/
theorem play_grows (e : Element) : Grows e e.play.2 [] 1 0 := by
  rw [play]
  split <;> exact ⟨by simp [begun], rfl, rfl⟩

/-- So is a request to pause. -/
theorem pause_grows (e : Element) : Grows e e.pause [] 0 1 := ⟨by simp [pause], rfl, rfl⟩

/-- Changes from outside are no requests. -/
theorem change_grows (c : ElementChange) (e : Element) : Grows e (e.change c) [] 0 0 :=
  ⟨by simp [change], rfl, rfl⟩

end Element

namespace Controller

/-- The locations of entries' audio, in order. -/
def locations (started : List Entry) : List String := started.map fun e => e.track.audioPath

/-- A start asks for one load and for one start of playing. -/
theorem play_counts (c : Controller) (e : Entry) (media : Element) :
    media.Grows (c.play e media).2 (locations [e]) 1 0 :=
  (Element.load_grows e.track.audioPath media).trans (Element.play_grows _)

/-- An end asks for those of the entry that follows, if there is one. -/
theorem advance_counts (c : Controller) (media : Element) :
    media.Grows (c.advance media).2 (locations (c.pointer.bind c.results.following?).toList)
      (c.pointer.bind c.results.following?).toList.length 0 := by
  rw [advance]
  cases c.pointer.bind c.results.following? with
  | none => exact .refl media
  | some e => exact play_counts _ e media

/-- A call that is the controller's own loads and plays the entry that it starts, if it starts
one. -/
theorem call_counts (c : Controller) (media : Element) (x : Call Element)
    (h : ∀ change, x = .outside change → media.Grows (change media) [] 0 0) :
    media.Grows (c.call media x).2 (locations (c.started? x).toList)
      (c.started? x).toList.length 0 := by
  cases x with
  | play e => exact play_counts c e media
  | event event =>
    -- of the events only an end asks for anything
    cases event with
    | ended => exact advance_counts c media
    | _ => exact .refl media
  | outside change => exact h change rfl
  | _ => exact .refl media

/-- Calls that are the controller's own load and play the entries that they start. -/
theorem run_counts (c : Controller) (media : Element) (calls : List (Call Element))
    (h : ∀ change, Call.outside change ∈ calls → ∀ m : Element, m.Grows (change m) [] 0 0) :
    media.Grows (c.run media calls).2 (locations (c.starts media calls))
      (c.starts media calls).length 0 := by
  induction calls generalizing c media with
  | nil => exact .refl media
  | cons x calls ih =>
    -- what others do must be harmless to any element, for the induction moves on to another one
    have hx := call_counts c media x fun change hc => h change (hc ▸ List.mem_cons_self) media
    have hxs := ih (c.call media x).1 (c.call media x).2 fun change hc =>
      h change (List.mem_cons_of_mem _ hc)
    have := hx.trans hxs
    rwa [locations, locations, ← List.map_append, ← List.length_append] at this

end Controller

end LibraryPlayer
