import LibraryPlayer.Browser.Audio

/-!
# One audio element, and starts that are decided once

* `attach_fst_eq_some_iff`: when a page gets its audio element.
* `Attached` and `attached_attach`: an element is found or created, never both, and what was
  refused leaves nothing but traces in the log.
* `attach_again`: a page that has attached finds the same element from then on.
* `resolve_getElem?` and `resolve_again`: a promise that has been decided stays as it is.
-/

namespace LibraryPlayer.Browser

variable {b : Browser}

/-! ## Attaching -/

/-- Nothing stands in the way of creating an audio element. -/
structure CanCreate (b : Browser) : Prop where
  creation : b.creation = .obliging ∨ b.creation = .other audioTag
  attributes : b.refusals.attributes = false
  body : b.hasBody = true
  append : b.refusals.append = false

/-- What comes of an attempt to attach: the number of the element, and the browser afterwards. -/
inductive Attached (b : Browser) : Option Nat × Browser → Prop where
  /-- The document has the element already. -/
  | found (page : b.hasPage = true) (first : b.elements.head? = some audioTag) :
    Attached b (some 0, b)
  /-- The document has none, and gets one. -/
  | created (page : b.hasPage = true) (none : b.elements = []) (deeds : List Deed) :
    Attached b (some 0, { b with elements := [audioTag], log := b.log ++ deeds })
  /-- Something stands in the way, or is refused. -/
  | refused (deeds : List Deed) : Attached b (none, { b with log := b.log ++ deeds })

/-- What is done to a new element before it is put in its place. -/
def preparation : List Deed :=
  [.create audioTag, .identify audioId, .setAttribute "preload" "metadata"]

/-- An element that is made is prepared, and then appended unless that is refused. -/
theorem createAudio_of_made (h : b.creation = .obliging ∨ b.creation = .other audioTag) :
    b.createAudio =
      if b.refusals.attributes || !b.hasBody || b.refusals.append then
        (none, { b with log := b.log ++ preparation })
      else
        (some b.elements.length, { b with
          elements := b.elements ++ [audioTag]
          log := b.log ++ (preparation ++ [.appendToBody]) }) := by
  rcases h with h | h <;> simp [createAudio, note, addElement, preparation, h]

/-- If something else is made, or nothing, then that is all. -/
theorem createAudio_of_not_made (h : ¬ (b.creation = .obliging ∨ b.creation = .other audioTag)) :
    b.createAudio = (none, { b with log := b.log ++ [.create audioTag] }) := by
  cases hcreation : b.creation with
  | obliging => simp [hcreation] at h
  | other tag =>
    have htag : tag ≠ audioTag := by simpa [hcreation] using h
    simp [createAudio, note, hcreation, htag]
  | throwing => simp [createAudio, note, hcreation]

/-- An attempt to create the element appends it to the document, or leaves the document alone. -/
theorem createAudio_cases (b : Browser) : ∃ deeds,
    b.CanCreate ∧ b.createAudio = (some b.elements.length,
      { b with elements := b.elements ++ [audioTag], log := b.log ++ deeds }) ∨
    ¬ b.CanCreate ∧ b.createAudio = (none, { b with log := b.log ++ deeds }) := by
  -- the browser makes the element or not, and then refuses a step after it or not
  by_cases hmade : b.creation = .obliging ∨ b.creation = .other audioTag
  case neg =>
    exact ⟨_, .inr ⟨fun can => hmade can.creation, createAudio_of_not_made hmade⟩⟩
  case pos =>
    by_cases hrefused : (b.refusals.attributes || !b.hasBody || b.refusals.append) = true
    · refine ⟨_, .inr ⟨fun can => ?_, (createAudio_of_made hmade).trans (if_pos hrefused)⟩⟩
      simp [can.attributes, can.body, can.append] at hrefused
    · refine ⟨_, .inl ⟨?_, (createAudio_of_made hmade).trans (if_neg hrefused)⟩⟩
      have hallowed : (b.refusals.attributes = false ∧ b.hasBody = true) ∧
          b.refusals.append = false := by simpa using hrefused
      exact ⟨hmade, hallowed.1.1, hallowed.1.2, hallowed.2⟩

/-- The first element with the identifier is the one that is found. -/
theorem find?_of_head? {tag : String} (h : b.elements.head? = some tag) :
    b.find? audioId = some (.element 0 tag) := by
  simp [find?, h]

/-- Without such an element a container can be found in its place. -/
theorem find?_of_elements_eq_nil (h : b.elements = []) :
    b.find? audioId = if audioId ∈ b.containers then some .container else none := by
  simp [find?, h]

/-- An element is found or created, or nothing comes of it. -/
theorem attached_attach (b : Browser) : b.Attached b.attach := by
  have hkept : b.Attached (none, b) := by simpa using Attached.refused (b := b) []
  rw [attach]
  split
  case isTrue => exact hkept
  case isFalse hpage =>
    replace hpage : b.hasPage = true := by simpa using hpage
    -- an element with the identifier is taken if it is audio, and keeps a new one out if it is not
    cases hfirst : b.elements.head? with
    | some tag =>
      rw [find?_of_head? hfirst]
      by_cases htag : tag = audioTag
      · subst htag
        exact .found hpage hfirst
      · simpa [htag] using hkept
    | none =>
      have helements : b.elements = [] := List.head?_eq_none_iff.1 hfirst
      rw [find?_of_elements_eq_nil helements]
      by_cases hcontainer : audioId ∈ b.containers
      · simpa [hcontainer] using hkept
      · obtain ⟨deeds, ⟨-, hcreated⟩ | ⟨-, hrefused⟩⟩ := b.createAudio_cases
        · simpa [hcontainer, hcreated, helements] using Attached.created hpage helements deeds
        · simpa [hcontainer, hrefused] using Attached.refused (b := b) deeds

/-- What has come of an attempt is one of these. -/
theorem attached_of_eq {found : Option Nat × Browser} (h : b.attach = found) : b.Attached found :=
  h ▸ b.attached_attach

/-- A page gets its audio element, which is the first that has the identifier, if it finds one, or
if nothing has the identifier and one can be created. -/
theorem attach_fst_eq_some_iff {i : Nat} : b.attach.1 = some i ↔ i = 0 ∧ b.hasPage = true ∧
    (b.elements.head? = some audioTag ∨
      b.elements = [] ∧ audioId ∉ b.containers ∧ b.CanCreate) := by
  rw [attach]
  split
  case isTrue hpage => simp_all
  case isFalse hpage =>
    replace hpage : b.hasPage = true := by simpa using hpage
    -- the same way through the attempt as before, but for when it succeeds
    cases hfirst : b.elements.head? with
    | some tag =>
      have helements : b.elements ≠ [] := by
        rintro h
        simp [h] at hfirst
      rw [find?_of_head? hfirst]
      by_cases htag : tag = audioTag
      · simp [htag, hpage, eq_comm]
      · simp [htag, helements]
    | none =>
      have helements : b.elements = [] := List.head?_eq_none_iff.1 hfirst
      rw [find?_of_elements_eq_nil helements]
      by_cases hcontainer : audioId ∈ b.containers
      · simp [hcontainer]
      · obtain ⟨deeds, ⟨can, h⟩ | ⟨can, h⟩⟩ := b.createAudio_cases
        · simp [h, can, hpage, helements, hcontainer, eq_comm]
        · simp [h, can, hcontainer]

/-- A page that has attached once finds the same element again, and then nothing changes. -/
theorem attach_again {i : Nat} {b' : Browser} (h : b.attach = (some i, b')) :
    b'.attach = (some i, b') := by
  -- found or created, the element is the first of the document afterwards
  have hfound : ∀ c : Browser, c.hasPage = true → c.elements.head? = some audioTag →
      c.attach = (some 0, c) := by
    intro c hpage hfirst
    simp [attach, hpage, find?_of_head? hfirst]
  cases attached_of_eq h with
  | found hpage hfirst => exact hfound _ hpage hfirst
  | created hpage _ deeds => exact hfound _ hpage rfl

/-! ## Promises -/

/-- A promise that has been decided stays as it is, whatever is decided on next. -/
theorem resolve_getElem? {i j : Nat} {reason : Option String} {p : Promise}
    (h : b.promises[i]? = some p) (hp : p ≠ .pending) :
    (b.resolve j reason).2.promises[i]? = some p := by
  -- what is decided on now was pending, so it is another promise
  have hset : b.promises[j]? = some .pending → ∀ p', (b.promises.set j p')[i]? = some p := by
    intro hpending p'
    have hne : j ≠ i := by
      rintro rfl
      exact hp (Option.some.inj (h.symm.trans hpending))
    rw [List.getElem?_set_ne hne, h]
  simp only [resolve]
  split
  case h_1 hpending => cases reason <;> exact hset hpending _
  case h_2 => exact h

/-- A promise is decided on at most once. -/
theorem resolve_again {i : Nat} {reason reason' : Option String}
    (h : (b.resolve i reason).1 = true) :
    ((b.resolve i reason).2.resolve i reason').1 = false := by
  simp only [resolve] at h ⊢
  split at h
  case h_1 hpending =>
    have hlt : i < b.promises.length := (List.getElem?_eq_some_iff.1 hpending).1
    cases reason <;> simp [hlt]
  case h_2 => simp at h

/-- A request to play adds at most one promise, and leaves the others alone. -/
theorem play_getElem? {s : Start} {b' : Browser} (hplay : b.play = (s, b')) {i : Nat}
    {p : Promise} (h : b.promises[i]? = some p) : b'.promises[i]? = some p := by
  obtain rfl : b.play.2 = b' := congrArg Prod.snd hplay
  rw [play]
  cases hreply : (b.note .play).playReply with
  | defer =>
    -- a new promise comes after all others
    have hlt : i < b.promises.length := (List.getElem?_eq_some_iff.1 h).1
    simpa [note, List.getElem?_append_left hlt] using h
  | reject name => cases name <;> exact h
  | accept => exact h
  | throwing => exact h

end LibraryPlayer.Browser
