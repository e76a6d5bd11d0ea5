import LibraryPlayer.Playback.Deck
import LibraryPlayer.Proofs.Playback.Element

/-!
# The calls of a deck

A deck works its controller by calls: `Deck.calls` lists those that an action makes, and
`run_controller` says that the controller of a deck, with its element, is what these calls make of
it.  What holds after all calls to a controller therefore holds on every deck.
-/

namespace LibraryPlayer.Deck

/-- The calls to the controller that an action makes. -/
def calls (d : Deck) : Action → List (Controller.Call Element)
  | .install tracks => [.setResults ⟨d.sets.length, tracks⟩]
  | .reinstall number => d.sets[number]?.toList.map .setResults
  | .play id => (d.find? id).toList.map .play
  | .reject id => (d.find? id).toList.map .startRejected
  | .settle _ => [.takePending]
  | .hold => [.takePending]
  | .settleHeld _ _ => []
  | .change c => [.outside fun media => media.change c]
  | .event _ .transport => []
  | .event event .controller => [.event event]
  | .event event .both => [.event event]
  | .pressPlay => [.outside fun media => media.play.2]
  | .pressPause => [.outside Element.pause]

/-- The calls to the controller that actions make. -/
def callsOf (d : Deck) : List Action → List (Controller.Call Element)
  | [] => []
  | a :: actions => d.calls a ++ (d.step a).2.callsOf actions

/-- The first action comes first. -/
@[simp] theorem run_cons (d : Deck) (a : Action) (actions : List Action) :
    d.run (a :: actions) = (d.step a).2.run actions := rfl

/-- What comes of a start is no business of the controller. -/
@[simp] theorem settle_controller (d : Deck) (pending : PendingStart) (session : Session) :
    (d.settle pending session).2.controller = d.controller := by
  rw [settle]
  split <;> rfl

/-- Nor is it any of the element. -/
@[simp] theorem settle_media (d : Deck) (pending : PendingStart) (session : Session) :
    (d.settle pending session).2.media = d.media := by
  rw [settle]
  split <;> rfl

/-- An action does to controller and element what its calls do. -/
theorem step_controller (d : Deck) (a : Action) :
    ((d.step a).2.controller, (d.step a).2.media) = d.controller.run d.media (d.calls a) := by
  cases a with
  | install tracks => rfl
  -- a set or an entry that is not there makes no call
  | reinstall number =>
    simp only [step, calls]
    cases d.sets[number]? <;> rfl
  | play id =>
    simp only [step, calls]
    cases d.find? id <;> rfl
  | reject id =>
    simp only [step, calls]
    cases d.find? id <;> rfl
  -- of a parked start only the collecting is a call; its outcome goes to the session
  | settle session =>
    show _ = (d.controller.takePending.2, d.media)
    rw [step]
    cases h : d.controller.pending with
    | none => rw [Controller.takePending_of_none h]
    | some pending => rw [Controller.takePending_of_some h, settle_controller, settle_media]
  | hold =>
    show _ = (d.controller.takePending.2, d.media)
    rw [step]
    cases h : d.controller.pending with
    | none => rw [Controller.takePending_of_none h]
    | some pending => rw [Controller.takePending_of_some h]
  | settleHeld slot session =>
    simp only [step, calls]
    split <;> simp
  | change c => rfl
  | event event audience => cases audience <;> rfl
  -- whatever the answer, the element has been asked behind the controller's back
  | pressPlay =>
    simp only [step, calls]
    split
    next h => simp [Controller.call, h]
    next h => simp [Controller.call, h]
  | pressPause => rfl

/-- A run does to controller and element what its calls do. -/
theorem run_controller (d : Deck) (actions : List Action) :
    ((d.run actions).controller, (d.run actions).media) =
      d.controller.run d.media (d.callsOf actions) := by
  induction actions generalizing d with
  | nil => rfl
  | cons a actions ih => rw [run_cons, ih, callsOf, Controller.run_append, ← step_controller]

end LibraryPlayer.Deck
