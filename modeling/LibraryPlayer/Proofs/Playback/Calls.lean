import LibraryPlayer.Playback.Controller

/-!
# Calls to a controller

A controller is worked by calls, in any order, and shares its media with others: with the
transport, with the platform, and with time.  `Call` lists everything that can happen to the two,
where `outside` stands for whatever the others do to the media, and `run` carries out any sequence
of it.  The lemmas here say what each operation does to the list, the pointer and the marker, so
that the proofs about runs need not open the operations again.

The marker never leaves the pointer (`run_marksPointer`): whatever is marked is what was started
last.
-/

namespace LibraryPlayer

/-- Entries are the same if their identities are. -/
theorem Entry.same_iff {a b : Entry} : a.same b = true ↔ a.id = b.id := by
  simp [Entry.same]

/-- It does not matter which of two is asked about. -/
theorem Entry.same_comm (a b : Entry) : a.same b = b.same a := by
  rw [Entry.same, Entry.same, Bool.beq_comm]

/-- An entry is the same as itself. -/
@[simp] theorem Entry.same_self (e : Entry) : e.same e = true := by
  simp [Entry.same]

namespace Controller

/-- What can happen to a controller and its media. -/
inductive Call (μ : Type) where
  | setResults (results : ResultSet)
  | play (e : Entry)
  | takePending
  | startRejected (e : Entry)
  | event (event : MediaEvent)
  /-- Somebody else does something to the media. -/
  | outside (change : μ → μ)

section

variable {μ : Type} [Media μ]

/-- Carries out one call. -/
def call (c : Controller) (media : μ) : Call μ → Controller × μ
  | .setResults results => (c.setResults results, media)
  | .play e => c.play e media
  | .takePending => (c.takePending.2, media)
  | .startRejected e => (c.startRejected e, media)
  | .event event => c.handle event media
  | .outside change => (c, change media)

/-- Carries out calls, one after the other. -/
def run (c : Controller) (media : μ) (calls : List (Call μ)) : Controller × μ :=
  calls.foldl (fun s x => s.1.call s.2 x) (c, media)

/-- No calls do nothing. -/
@[simp] theorem run_nil (c : Controller) (media : μ) : c.run media [] = (c, media) := rfl

/-- The first call comes first. -/
@[simp] theorem run_cons (c : Controller) (media : μ) (x : Call μ) (calls : List (Call μ)) :
    c.run media (x :: calls) = (c.call media x).1.run (c.call media x).2 calls := rfl

/-- Calls can be carried out in two parts. -/
theorem run_append (c : Controller) (media : μ) (xs ys : List (Call μ)) :
    c.run media (xs ++ ys) = (c.run media xs).1.run (c.run media xs).2 ys := by
  rw [run, List.foldl_append]
  rfl

/-! ## What the operations do -/

/-- Collecting a parked start that is not there changes nothing. -/
theorem takePending_of_none {c : Controller} (h : c.pending = none) :
    c.takePending = (none, c) := by
  cases c
  cases h
  rfl

/-- Collecting a parked start gives it. -/
theorem takePending_of_some {c : Controller} {pending : PendingStart}
    (h : c.pending = some pending) : c.takePending = (some pending, c.takePending.2) := by
  rw [takePending, h]

/-- A rejection leaves the list alone. -/
@[simp] theorem startRejected_results (c : Controller) (e : Entry) :
    (c.startRejected e).results = c.results := by
  rw [startRejected]
  split <;> rfl

/-- It leaves the pointer alone. -/
@[simp] theorem startRejected_pointer (c : Controller) (e : Entry) :
    (c.startRejected e).pointer = c.pointer := by
  rw [startRejected]
  split <;> rfl

/-- A rejection for anything but the pointer changes nothing at all. -/
theorem startRejected_of_not_pointer {c : Controller} {e : Entry}
    (h : c.pointer.any (·.same e) = false) : c.startRejected e = c := by
  simp [startRejected, h]

/-- It clears the marker if it is for the entry that the pointer is at. -/
theorem startRejected_marked (c : Controller) (e : Entry) :
    (c.startRejected e).marked = if c.pointer.any (·.same e) then none else c.marked := by
  rw [startRejected]
  split <;> rfl

/-- An end leaves the list alone. -/
@[simp] theorem advance_results (c : Controller) (media : μ) :
    (c.advance media).1.results = c.results := by
  rw [advance]
  split <;> rfl

/-- After an end the pointer is at the entry that follows, if there is one. -/
@[simp] theorem advance_pointer (c : Controller) (media : μ) :
    (c.advance media).1.pointer = c.pointer.bind c.results.following? := by
  rw [advance]
  split
  next h => exact h.symm
  next h => exact h.symm

/-- After an end the entry that follows is marked, if there is one. -/
@[simp] theorem advance_marked (c : Controller) (media : μ) :
    (c.advance media).1.marked = c.pointer.bind c.results.following? := by
  rw [advance]
  split
  next h => exact h.symm
  next h => exact h.symm

/-- No event changes the list. -/
@[simp] theorem handle_results (c : Controller) (event : MediaEvent) (media : μ) :
    (c.handle event media).1.results = c.results := by
  cases event with
  | ended => exact advance_results c media
  | _ => rfl

/-! ## The marker stays with the pointer -/

/-- Whatever is marked is what the pointer is at. -/
def MarksPointer (c : Controller) : Prop := ∀ e, c.marked = some e → c.pointer = some e

/-- At first nothing is marked. -/
theorem marksPointer_initial : MarksPointer {} := fun _ h => nomatch h

/-- A new list takes the marker away. -/
theorem MarksPointer.setResults (c : Controller) (results : ResultSet) :
    (c.setResults results).MarksPointer := fun _ h => nomatch h

/-- A start marks what it points at. -/
theorem MarksPointer.play (c : Controller) (e : Entry) (media : μ) :
    (c.play e media).1.MarksPointer := fun _ h => h

/-- Collecting a parked start touches neither. -/
theorem MarksPointer.takePending {c : Controller} (h : c.MarksPointer) :
    c.takePending.2.MarksPointer := h

/-- A rejection can only take the marker away. -/
theorem MarksPointer.startRejected {c : Controller} (h : c.MarksPointer) (e : Entry) :
    (c.startRejected e).MarksPointer := by
  intro x hx
  rw [startRejected_marked] at hx
  -- either the marker is gone, or nothing has changed
  split at hx
  · exact nomatch hx
  · rw [startRejected_pointer]
    exact h x hx

/-- An event marks the pointer, takes the marker away or moves both. -/
theorem MarksPointer.handle {c : Controller} (h : c.MarksPointer) (event : MediaEvent)
    (media : μ) : (c.handle event media).1.MarksPointer := by
  cases event with
  | playing =>
    intro x hx
    -- without a pointer there was no marker either, so none is left over
    cases hp : c.pointer with
    | none => simpa [Controller.handle, hp] using h x (by simpa [Controller.handle, hp] using hx)
    | some p => simpa [Controller.handle, hp] using hx
  | pause =>
    intro x hx
    cases hp : c.pointer with
    | none => simpa [Controller.handle, hp] using h x (by simpa [Controller.handle, hp] using hx)
    | some p => simp [Controller.handle, hp] at hx
  | ended =>
    intro x hx
    simpa [Controller.handle] using hx
  | durationChange => exact h
  | timeUpdate => exact h
  | progress => exact h

/-- So one call keeps the marker with the pointer. -/
theorem call_marksPointer {c : Controller} (h : c.MarksPointer) (media : μ) (x : Call μ) :
    (c.call media x).1.MarksPointer := by
  cases x with
  | setResults results => exact .setResults c results
  | play e => exact .play c e media
  | takePending => exact h.takePending
  | startRejected e => exact h.startRejected e
  | event event => exact h.handle event media
  | outside change => exact h

/-- So does a run of calls. -/
theorem run_marksPointer {c : Controller} (h : c.MarksPointer) (media : μ)
    (calls : List (Call μ)) : (c.run media calls).1.MarksPointer := by
  -- call by call, from the state that the calls before have left
  induction calls generalizing c media with
  | nil => exact h
  | cons x calls ih => exact ih (call_marksPointer h media x) _

end

end Controller

end LibraryPlayer
