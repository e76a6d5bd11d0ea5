import LibraryPlayer.Catalog.Client
import LibraryPlayer.Catalog.Ticket
import LibraryPlayer.Location.Address
import LibraryPlayer.Location.Hash
import LibraryPlayer.Playback.Controller
import LibraryPlayer.Playback.Display
import LibraryPlayer.Playback.NowPlaying

/-! # The page

The state of the page together with what it talks to: the media element, the media session, the
location hash, and the requests and starts whose outcome is still to come.  `Page.launch` starts a
page and `Page.step` does one thing to it, to the end of all that follows from it.

* A search takes a new ticket and sends one request.  When the request is answered, its tracks are
  shown only if no other search has begun since (`Page.receive`).
* A start of an entry is followed until its outcome is known (`Page.follow`): a success is told to
  the media session, a refusal takes the playing marker away.
* An event of the element reaches the transport first and then, if it is about playing, the
  controller (`Page.handle`).
* A change of the hash starts a search for its query unless the search box shows it already
  (`Page.followHash`).
-/

namespace LibraryPlayer

/-- A request to the catalog. -/
structure Request where
  url : String
  /-- The number of the search that it belongs to. -/
  ticket : UInt64
  answered : Bool := false
  deriving DecidableEq

/-- A start whose outcome the element has left open. -/
structure OpenStart where
  /-- The entry that was started, or none if the transport asked to go on playing. -/
  entry : Option Entry
  finished : Bool := false
  deriving DecidableEq

/-- What the page finds around it. -/
structure Surroundings where
  element : Element := {}
  session : Session := .working
  hash : String := ""

/-- Changes to what is around the page; what is `none` stays. -/
structure SurroundingsChange where
  element : ElementChange := {}
  session : Option Session := none
  hash : Option String := none

/-- The surroundings after a change. -/
def Surroundings.change (c : SurroundingsChange) (s : Surroundings) : Surroundings where
  element := s.element.change c.element
  session := c.session.getD s.session
  hash := c.hash.getD s.hash

/-- The state of the page. -/
structure Page where
  client : Client
  surroundings : Surroundings
  /-- The text in the search box. -/
  box : String := ""
  controller : Controller := {}
  selected : Option Entry := none
  display : Display := .initial
  tickets : Tickets := {}
  /-- How many result sets have been installed; the next one gets this number. -/
  installed : Nat := 0
  /-- The requests sent, oldest first. -/
  requests : List Request := []
  /-- The starts left open by the element, oldest first. -/
  starts : List OpenStart := []
  /-- What the media session has been told, oldest first. -/
  published : List NowPlaying := []
  /-- The containers that the element was moved into, oldest first. -/
  adopted : List String := []

namespace Page

/-- The container of the transport, which the media element is moved into. -/
def playerContainer : String := "player"

/-- The media element. -/
def element (p : Page) : Element := p.surroundings.element

/-- The page with another state of its media element. -/
def withElement (p : Page) (element : Element) : Page :=
  { p with surroundings := { p.surroundings with element } }

/-- The page with another location hash. -/
def withHash (p : Page) (hash : String) : Page :=
  { p with surroundings := { p.surroundings with hash } }

/-! ## Searching -/

/-- Begins a search for a query that is not blank: the hash remembers the query and a request with
a new ticket is sent. -/
def search (p : Page) (query : String) : Page :=
  let query := Text.trim query
  if query = "" then p
  else
    let tickets := p.tickets.begin
    let request := (p.client.queryUrl? query).map fun url =>
      (⟨url, tickets.latest, false⟩ : Request)
    { p.withHash (Hash.ofQuery query) with
      tickets
      requests := p.requests ++ request.toList }

/-- Shows new tracks: nothing of them is selected or marked. -/
def install (p : Page) (tracks : List Track) : Page :=
  { p with
    controller := p.controller.setResults ⟨p.installed, tracks⟩
    installed := p.installed + 1
    selected := none }

/-- Takes in the answer to a request: its tracks are shown if there are any to be read and no other
search has begun since. -/
def receive (p : Page) (request : Request) (answer : Answer) : Page :=
  match answer.tracks with
  | .ok tracks => if p.tickets.isCurrent request.ticket then p.install tracks else p
  | .error _ => p

/-! ## Playing -/

/-- Takes in the outcome of a start: when an entry plays, the session is told of it, and when it
was refused, it is no longer marked.  Nothing follows from the outcome of going on playing. -/
def conclude (p : Page) (entry : Option Entry) (outcome : Outcome) : Page :=
  match entry, outcome with
  | none, _ => p
  | some e, .ok () =>
    { p with
      published := p.published ++ (p.surroundings.session.confirm e.track (.ok ())).toList }
  | some e, .error _ => { p with controller := p.controller.startRejected e }

/-- Follows a start to its outcome, which may be known or left open. -/
def follow (p : Page) (entry : Option Entry) : Start → Page
  | .settled outcome => p.conclude entry outcome
  | .deferred _ => { p with starts := p.starts ++ [⟨entry, false⟩] }

/-- Collects the start that the controller has parked, if any, and follows it. -/
def drivePending (p : Page) : Page :=
  match p.controller.takePending with
  | (some pending, controller) => { p with controller }.follow pending.entry pending.start
  | (none, _) => p

/-- Starts an entry. -/
def play (p : Page) (e : Entry) : Page :=
  let (controller, element) := p.controller.play e p.element
  ({ p with controller }.withElement element).drivePending

/-- The transport asks the element to go on playing. -/
def pressPlay (p : Page) : Page :=
  let (start, element) := p.element.play
  (p.withElement element).follow none start

/-- The transport asks the element to pause. -/
def pressPause (p : Page) : Page := p.withElement p.element.pause

/-- Takes in an event of the element: the transport is shown anew, and then the controller acts on
an event about playing. -/
def handle (p : Page) (event : MediaEvent) : Page :=
  let p := { p with display := (event.renders p.element.reading).foldl Display.draw p.display }
  if event.isTransport then
    let (controller, element) := p.controller.handle event p.element
    ({ p with controller }.withElement element).drivePending
  else p

/-! ## The hash -/

/-- Takes in a change of the hash: a query in it goes into the search box and is searched for,
unless the box shows it already. -/
def followHash (p : Page) : Page :=
  match Hash.queryToRestore? p.surroundings.hash p.box with
  | some query => { p with box := query }.search query
  | none => p

/-! ## The life of a page -/

/-- Opens a page: the search box shows the query of the hash, the transport what the element
reports, and that query is searched for. -/
def launch (base : String) (surroundings : Surroundings) : Page :=
  let p : Page := {
    client := .ofBase base
    surroundings
    box := (Hash.query? surroundings.hash).getD ""
    display := (firstRenders surroundings.element.reading).foldl Display.draw .initial
    adopted := [playerContainer] }
  p.search p.box

/-- What can happen to a page. -/
inductive Action where
  /-- The user puts a text into the search box. -/
  | type (text : String)
  /-- The user sends off the search box. -/
  | submit
  /-- A request is answered. -/
  | respond (index : Nat) (answer : Answer)
  /-- The user clicks on a row. -/
  | click (index : Nat)
  /-- The user double-clicks on a row. -/
  | doubleClick (index : Nat)
  /-- The user clicks on the Play button of the details. -/
  | playSelected
  | pressPlay
  | pressPause
  /-- What is around the page changes. -/
  | change (change : SurroundingsChange)
  /-- The element fires an event. -/
  | event (event : MediaEvent)
  /-- The element decides on a start that it had left open: it starts, or refuses for a reason. -/
  | resolve (index : Nat) (refusal : Option String)
  /-- What is around the page changes and the location reports a change of its hash. -/
  | hashChange (change : SurroundingsChange)

/-- Does one thing to a page, with all that follows from it.  The answer is false, and nothing has
happened, when the thing cannot be done. -/
def step (p : Page) : Action → Bool × Page
  | .type text => (true, { p with box := text })
  | .submit => (true, p.search p.box)
  | .respond index answer =>
    match p.requests[index]? with
    | some request =>
      if request.answered then (false, p)
      else
        let requests := p.requests.set index { request with answered := true }
        (true, { p with requests }.receive request answer)
    | none => (false, p)
  | .click index =>
    match p.controller.results.get? index with
    | some e => (true, { p with selected := some e })
    | none => (false, p)
  | .doubleClick index =>
    match p.controller.results.get? index with
    | some e => (true, p.play e)
    | none => (false, p)
  | .playSelected =>
    match p.selected with
    | some e => (true, p.play e)
    | none => (false, p)
  | .pressPlay => (true, p.pressPlay)
  | .pressPause => (true, p.pressPause)
  | .change c => (true, { p with surroundings := p.surroundings.change c })
  | .event event => (true, p.handle event)
  | .resolve index refusal =>
    match p.starts[index]? with
    | some start =>
      if start.finished then (false, p)
      else
        let p := { p with starts := p.starts.set index { start with finished := true } }
        match refusal with
        | none => (true, (p.withElement p.element.begun).conclude start.entry (.ok ()))
        | some reason => (true, p.conclude start.entry (.error (.rejected reason)))
    | none => (false, p)
  | .hashChange c => (true, { p with surroundings := p.surroundings.change c }.followHash)

/-- Does several things to a page, one after the other. -/
def run (p : Page) (actions : List Action) : Page := actions.foldl (fun p a => (p.step a).2) p

end Page

end LibraryPlayer
