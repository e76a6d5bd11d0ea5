import LibraryPlayer.Browser.Visit
import LibraryPlayer.Proofs.Browser.Audio
import LibraryPlayer.Proofs.Browser.Publishing

/-!
# What holds throughout a visit

The page and the browser act in any order.  `Moved` lists what one action can change of the
document, the promises and the publications, and everything else here is derived from it.

* `attach_after_run`: a page that has its audio element gets the same one again, at any time.
* `length_elements_run_le`: the page never adds a second audio element to the document.
* `published_run`: what the session shows is what the accepted attempts have told it, in order.
* `promise_run`: a start that has been decided stays decided.
* `count_taken_le`: the page takes the outcome of each open start at most once.

The browser can also change by itself.  Each theorem asks only that such changes leave alone what
it is about.
-/

namespace LibraryPlayer.Browser

variable {b : Browser}

/-- The second browser has the document, the promises and the publications of the first. -/
structure Alike (b b' : Browser) : Prop where
  elements : b'.elements = b.elements
  promises : b'.promises = b.promises
  published : b'.published = b.published

/-- A browser is like itself. -/
theorem Alike.refl (b : Browser) : b.Alike b := ⟨rfl, rfl, rfl⟩

/-- Moving the element within the document shows only in the log. -/
theorem alike_adopt (id : String) : b.Alike (b.adopt id) := by
  rw [adopt]
  split <;> exact ⟨rfl, rfl, rfl⟩

/-- A new source changes what the element reports. -/
theorem alike_load (location : String) : b.Alike (b.load location) := ⟨rfl, rfl, rfl⟩

/-- So does a pause. -/
theorem alike_pause : b.Alike b.pause := by
  simp only [pause]
  split <;> exact ⟨rfl, rfl, rfl⟩

/-- Binding a handler changes the handlers. -/
theorem alike_bind (nested : Option String) : b.Alike (b.bind nested) := ⟨rfl, rfl, rfl⟩

/-- A request to play leaves the document and the publications alone. -/
theorem play_keeps {s : Start} {b' : Browser} (h : b.play = (s, b')) :
    b'.elements = b.elements ∧ b'.published = b.published := by
  obtain rfl : b.play.2 = b' := congrArg Prod.snd h
  simp only [play]
  split <;> exact ⟨rfl, rfl⟩

/-- So does a decision on a promise. -/
theorem resolve_keeps (b : Browser) (i : Nat) (reason : Option String) :
    (b.resolve i reason).2.elements = b.elements ∧
      (b.resolve i reason).2.published = b.published := by
  simp only [resolve]
  split
  case h_1 => cases reason <;> exact ⟨rfl, rfl⟩
  case h_2 => exact ⟨rfl, rfl⟩

/-- So does attaching, but for the document. -/
theorem attach_keeps {found : Option Nat} {b' : Browser} (h : b.attach = (found, b')) :
    b'.promises = b.promises ∧ b'.published = b.published := by
  cases attached_of_eq h <;> exact ⟨rfl, rfl⟩

/-- A start that is settled at once leaves no promise behind. -/
theorem alike_of_play_settled {o : Outcome} {b' : Browser} (h : b.play = (.settled o, b')) :
    b.Alike b' := by
  obtain rfl : b.play.2 = b' := congrArg Prod.snd h
  rw [play] at h ⊢
  cases hreply : (b.note .play).playReply with
  | defer => simp [hreply] at h
  | reject name => cases name <;> exact ⟨rfl, rfl, rfl⟩
  | accept => exact ⟨rfl, rfl, rfl⟩
  | throwing => exact ⟨rfl, rfl, rfl⟩

end LibraryPlayer.Browser

namespace LibraryPlayer.Visit

variable {v : Visit} {a : Action} {actions : List Action}

/-! ## Runs -/

/-- The visit after a list of actions. -/
def run (v : Visit) (actions : List Action) : Visit :=
  actions.foldl (fun v a => (v.step a).2.2) v

/-- The actions of a run, each with its answer. -/
def answers (v : Visit) : List Action → List (Action × Answer)
  | [] => []
  | a :: actions => (a, (v.step a).1) :: answers (v.step a).2.2 actions

/-- If the action is a change of the browser by itself, then what `view` shows stays. -/
def Action.Keeps {α : Type} (view : Browser → α) (a : Action) : Prop :=
  ∀ f, a = .change f → ∀ b, view (f b) = view b

/-- What the session has been told, if the action is an accepted attempt to publish. -/
def accepted? : Action × Answer → Option NowPlaying
  | (.publish track, .outcome (.ok ())) => some (.ofTrack track)
  | _ => none

/-- Whether the page takes the outcome of an open start. -/
def takes (index : Nat) : Action × Answer → Bool
  | (.poll i, .outcome _) => i = index
  | _ => false

/-! ## What one action can do -/

/-- What an action can change of the document, the promises and the publications, and of what the
page remembers. -/
inductive Moved (v : Visit) : Action → Answer → Visit → Prop where
  | quiet {a : Action} {answer : Answer} {b : Browser} (alike : v.browser.Alike b)
    (told : accepted? (a, answer) = none) (took : ∀ i, takes i (a, answer) = false) :
    Moved v a answer { v with browser := b }
  | changed (f : Browser → Browser) : Moved v (.change f) .done { v with browser := f v.browser }
  | attached {i : Nat} {b : Browser} (found : v.browser.attach = (some i, b)) :
    Moved v .attach (.attached true (v.audio = some i)) { v with browser := b, audio := some i }
  | deferred {i : Nat} {b : Browser} (left : v.browser.play = (.deferred i, b)) :
    Moved v .play .pending { v with browser := b }
  | resolved (i : Nat) (reason : Option String) :
    Moved v (.resolve i reason) (.truth (v.browser.resolve i reason).1)
      { v with browser := (v.browser.resolve i reason).2 }
  | took {i : Nat} {p : Promise} {o : Outcome} (fresh : i ∉ v.taken)
    (promise : v.browser.promises[i]? = some p) (decided : v.browser.outcome? p = some o) :
    Moved v (.poll i) (.outcome o) { v with taken := i :: v.taken }
  | published (track : Track) (allows : v.browser.Allows (.ofTrack track)) :
    Moved v (.publish track) (.outcome (.ok ())) { v with browser := { v.browser with
      published := v.browser.published ++ [.ofTrack track] } }

/-- An action without an effect is a quiet one. -/
theorem Moved.same {answer : Answer} (told : accepted? (a, answer) = none)
    (took : ∀ i, takes i (a, answer) = false) : v.Moved a answer v :=
  .quiet (.refl _) told took

/-- Asking for the outcome of a start takes it, or changes nothing. -/
theorem moved_poll (v : Visit) (i : Nat) : v.Moved (.poll i) (v.poll i).1 (v.poll i).2 := by
  rw [poll]
  cases hpromise : v.browser.promises[i]? with
  | none => exact .same rfl fun _ => rfl
  | some p =>
    dsimp only
    split
    case isTrue => exact .same rfl fun _ => rfl
    case isFalse hfresh =>
      cases hdecided : v.browser.outcome? p with
      | none => exact .same rfl fun _ => rfl
      | some o => exact .took (by simpa using hfresh) hpromise hdecided

/-- Every action does one of these. -/
theorem moved_step (v : Visit) (a : Action) : v.Moved a (v.step a).1 (v.step a).2.2 := by
  unfold step
  split
  -- an action that needs the element does nothing before there is one
  case isTrue => exact .same (by cases a <;> rfl) fun _ => by cases a <;> rfl
  case isFalse =>
    cases a with
    | change f => exact .changed f
    | attach =>
      cases hattach : v.browser.attach with
      | mk found b =>
        cases found with
        | some i => exact .attached hattach
        | none =>
          -- of the three outcomes of `Attached` only the refusal has no element
          cases Browser.attached_of_eq hattach
          exact .quiet ⟨rfl, rfl, rfl⟩ rfl fun _ => rfl
    | adopt id => exact .quiet (Browser.alike_adopt id) rfl fun _ => rfl
    | load location => exact .quiet (Browser.alike_load location) rfl fun _ => rfl
    | pause => exact .quiet Browser.alike_pause rfl fun _ => rfl
    | read => exact .same rfl fun _ => rfl
    | play =>
      cases hplay : v.browser.play with
      | mk start b =>
        cases start with
        | settled o => exact .quiet (Browser.alike_of_play_settled hplay) rfl fun _ => rfl
        | deferred i => exact .deferred hplay
    | resolve i reason => exact .resolved i reason
    | poll i => exact moved_poll v i
    | bind nested => exact .quiet (Browser.alike_bind nested) rfl fun _ => rfl
    | fire event => exact .same rfl fun _ => rfl
    | available => exact .same rfl fun _ => rfl
    | publish track =>
      dsimp only
      cases houtcome : (v.browser.publish (.ofTrack track)).1 with
      | ok u =>
        rw [Browser.publish_accepted houtcome]
        exact .published track (Browser.publish_eq_ok_iff.1 houtcome)
      | error f =>
        rw [Browser.publish_refused houtcome]
        exact .same rfl fun _ => rfl

/-! ## One audio element -/

variable {answer : Answer} {v' : Visit}

/-- The document stays, or gets its first audio element. -/
theorem Moved.elements (h : v.Moved a answer v') (hkeeps : a.Keeps Browser.elements) :
    v'.browser.elements = v.browser.elements ∨
      v.browser.elements = [] ∧ v'.browser.elements = [Browser.audioTag] := by
  cases h with
  | quiet alike _ _ => exact .inl alike.elements
  | changed f => exact .inl (hkeeps f rfl _)
  | attached found =>
    cases Browser.attached_of_eq found with
    | found _ _ => exact .inl rfl
    | created _ none _ => exact .inr ⟨none, rfl⟩
  | deferred left => exact .inl (Browser.play_keeps left).1
  | resolved i reason => exact .inl (v.browser.resolve_keeps i reason).1
  | took _ _ _ => exact .inl rfl
  | published _ _ => exact .inl rfl

/-- A document with at most one element of the identifier never gets a second one. -/
theorem length_elements_run_le (h : v.browser.elements.length ≤ 1)
    (hkeeps : ∀ a ∈ actions, a.Keeps Browser.elements) :
    (v.run actions).browser.elements.length ≤ 1 := by
  induction actions generalizing v with
  | nil => exact h
  | cons a actions ih =>
    have ⟨ha, hactions⟩ := List.forall_mem_cons.1 hkeeps
    refine ih ?_ hactions
    rcases (v.moved_step a).elements ha with hsame | ⟨-, hnew⟩
    · rwa [hsame]
    · simp [hnew]

/-- If the page holds an element, that is the first with the identifier, and it is an audio
element. -/
def Holds (v : Visit) : Prop :=
  ∀ i, v.audio = some i → i = 0 ∧ v.browser.elements.head? = some Browser.audioTag

/-- A page that has attached nothing yet holds nothing. -/
theorem holds_of_audio_eq_none (h : v.audio = none) : v.Holds := by
  simp [Holds, h]

/-- What the page holds stays where it is. -/
theorem Moved.holds (h : v.Moved a answer v') (hkeeps : a.Keeps Browser.elements)
    (hv : v.Holds) : v'.Holds := by
  -- an element that is held is in the document, so no action puts another one first
  have hfirst : ∀ i, v.audio = some i →
      i = 0 ∧ v'.browser.elements.head? = some Browser.audioTag := by
    intro i hi
    obtain ⟨rfl, helement⟩ := hv i hi
    rcases h.elements hkeeps with hsame | ⟨hnil, -⟩
    · exact ⟨rfl, hsame ▸ helement⟩
    · simp [hnil] at helement
  cases h with
  | attached found =>
    cases Browser.attached_of_eq found with
    | found _ first => exact fun i hi => ⟨(Option.some.inj hi).symm, first⟩
    | created _ _ _ => exact fun i hi => ⟨(Option.some.inj hi).symm, rfl⟩
  | quiet _ _ _ => exact hfirst
  | changed _ => exact hfirst
  | deferred _ => exact hfirst
  | resolved _ _ => exact hfirst
  | took _ _ _ => exact hfirst
  | published _ _ => exact hfirst

/-- So it does over a whole run. -/
theorem Holds.run (h : v.Holds) (hkeeps : ∀ a ∈ actions, a.Keeps Browser.elements) :
    (v.run actions).Holds := by
  induction actions generalizing v with
  | nil => exact h
  | cons a actions ih =>
    have ⟨ha, hactions⟩ := List.forall_mem_cons.1 hkeeps
    exact ih ((v.moved_step a).holds ha h) hactions

/-- A page that has its audio element is given the same one whenever it attaches again, and that
changes nothing. -/
theorem attach_after_run (h : v.Holds) (hkeeps : ∀ a ∈ actions, a.Keeps Browser.elements)
    (haudio : (v.run actions).audio.isSome) (hpage : (v.run actions).browser.hasPage = true) :
    (v.run actions).step .attach = (.attached true true, [], v.run actions) := by
  -- how the visit has come about matters no more once it is known what the page holds
  generalize hafter : v.run actions = after at haudio hpage ⊢
  obtain ⟨i, hi⟩ := Option.isSome_iff_exists.1 haudio
  obtain ⟨rfl, hfirst⟩ := (hafter ▸ h.run hkeeps : after.Holds) i hi
  have hattach : after.browser.attach = (some 0, after.browser) := by
    simp [Browser.attach, hpage, Browser.find?_of_head? hfirst]
  have hsame : { after with audio := some 0 } = after := by rw [← hi]
  simp [step, Action.needsAudio, hattach, hi, hsame]

/-! ## Publications -/

/-- An action adds to the publications what it has been accepted for. -/
theorem Moved.publications (h : v.Moved a answer v') (hkeeps : a.Keeps Browser.published) :
    v'.browser.published = v.browser.published ++ (accepted? (a, answer)).toList := by
  cases h with
  | quiet alike told _ => simp [told, alike.published]
  | changed f => simpa [accepted?] using hkeeps f rfl v.browser
  | attached found => simpa [accepted?] using (Browser.attach_keeps found).2
  | deferred left => simpa [accepted?] using (Browser.play_keeps left).2
  | resolved i reason => simp [accepted?, (v.browser.resolve_keeps i reason).2]
  | took _ _ _ => simp [accepted?]
  | published _ _ => simp [accepted?]

/-- What the session shows in the end is what it showed before and what the accepted attempts have
told it since, in order. -/
theorem published_run (hkeeps : ∀ a ∈ actions, a.Keeps Browser.published) :
    (v.run actions).browser.published =
      v.browser.published ++ (v.answers actions).filterMap accepted? := by
  induction actions generalizing v with
  | nil => simp [run, answers]
  | cons a actions ih =>
    have ⟨ha, hactions⟩ := List.forall_mem_cons.1 hkeeps
    have hstep := (v.moved_step a).publications ha
    have hrun : v.run (a :: actions) = (v.step a).2.2.run actions := rfl
    rw [hrun, ih hactions, hstep, answers, List.append_assoc]
    cases haccepted : accepted? (a, (v.step a).1) <;> simp [haccepted]

/-! ## Open starts -/

/-- A start that has been decided stays decided. -/
theorem Moved.promise (h : v.Moved a answer v') (hkeeps : a.Keeps Browser.promises) {i : Nat}
    {p : Promise} (hpromise : v.browser.promises[i]? = some p) (hp : p ≠ .pending) :
    v'.browser.promises[i]? = some p := by
  cases h with
  | quiet alike _ _ => rwa [alike.promises]
  | changed f => exact (hkeeps f rfl v.browser).symm ▸ hpromise
  | attached found => rwa [(Browser.attach_keeps found).1]
  | deferred left => exact Browser.play_getElem? left hpromise
  | resolved j reason => exact Browser.resolve_getElem? hpromise hp
  | took _ _ _ => exact hpromise
  | published _ _ => exact hpromise

/-- So it does over a whole run. -/
theorem promise_run (hkeeps : ∀ a ∈ actions, a.Keeps Browser.promises) {i : Nat} {p : Promise}
    (hpromise : v.browser.promises[i]? = some p) (hp : p ≠ .pending) :
    (v.run actions).browser.promises[i]? = some p := by
  induction actions generalizing v with
  | nil => exact hpromise
  | cons a actions ih =>
    have ⟨ha, hactions⟩ := List.forall_mem_cons.1 hkeeps
    exact ih hactions ((v.moved_step a).promise ha hpromise hp)

/-- The page remembers what it has taken, and takes only what it does not remember. -/
theorem Moved.taken (h : v.Moved a answer v') (i : Nat) :
    if takes i (a, answer) then i ∉ v.taken ∧ i ∈ v'.taken else i ∈ v.taken → i ∈ v'.taken := by
  cases h with
  | quiet _ _ took => simp [took i]
  | @took j _ _ fresh _ _ =>
    -- to take the outcome of one start leaves what was taken of the others
    by_cases hij : j = i
    · subst hij
      simp [takes, fresh]
    · simpa [takes, hij] using Or.inr
  | changed _ => exact id
  | attached _ => exact id
  | deferred _ => exact id
  | resolved _ _ => exact id
  | published _ _ => exact id

/-- The page takes the outcome of each open start at most once, and never again if it has taken it
before. -/
theorem count_taken_le (i : Nat) :
    (v.answers actions).countP (takes i) ≤ if i ∈ v.taken then 0 else 1 := by
  induction actions generalizing v with
  | nil => simp [answers]
  | cons a actions ih =>
    have hrest := ih (v := (v.step a).2.2)
    have htaken := (v.moved_step a).taken i
    rw [answers, List.countP_cons]
    -- once it has been taken there is nothing left for the rest of the run
    by_cases htakes : takes i (a, (v.step a).1) = true
    · rw [if_pos htakes] at htaken
      rw [if_pos htaken.2, Nat.le_zero] at hrest
      simp [hrest, htakes, htaken.1]
    · rw [if_neg htakes] at htaken
      rw [if_neg htakes, Nat.add_zero]
      refine Nat.le_trans hrest ?_
      by_cases hold : i ∈ v.taken
      · simp [hold, htaken hold]
      · rw [if_neg hold]
        split <;> simp

end LibraryPlayer.Visit
