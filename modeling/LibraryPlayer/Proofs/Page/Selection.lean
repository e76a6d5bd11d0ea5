import LibraryPlayer.Proofs.Page.Descriptions
import LibraryPlayer.Proofs.Page.Independence
import LibraryPlayer.Proofs.Page.Ledger
import LibraryPlayer.Proofs.Playback.Replacement
import Mathlib.Data.List.Nodup

/-!
# The list, the selection and the details

Which row is highlighted and which one shows the playing marker is decided by identity, so that of
two rows of the same track only one does.  The invariant `Linked` ties the selection and the pointer
to the list: what is selected is listed, and what the pointer is at is listed too unless it is from
an older list, for every list has a number that no entry before it has had.

* `rows_install`: what the rows say of tracks that have just come in.
* `list_and_details_agree`: what the rows and the panels show after any run, and what is played from
  them.
-/

namespace LibraryPlayer

/-! ## Identity within a list -/

namespace ResultSet

variable {s : ResultSet}

/-- No two entries of a list have the same identity. -/
theorem nodup_ids (s : ResultSet) : (s.entries.map Entry.id).Nodup := by
  have hids : s.entries.map Entry.id = (List.range s.tracks.length).map (EntryId.mk s.number) :=
    List.ext_getElem (by simp) (by simp [entries])
  rw [hids]
  exact List.nodup_range.map fun i j h => congrArg EntryId.index h

/-- Within a list, two entries that are the same do not differ at all. -/
theorem eq_of_same {e e' : Entry} (h : e ∈ s.entries) (h' : e' ∈ s.entries)
    (hsame : e.same e' = true) : e = e' :=
  List.inj_on_of_nodup_map s.nodup_ids h h' (Entry.same_iff.1 hsame)

/-- At most one entry of a list is the given one. -/
theorem countP_same_le_one (s : ResultSet) (chosen : Option Entry) :
    s.entries.countP (fun e => chosen.any (·.same e)) ≤ 1 := by
  cases chosen with
  | none => simp
  | some c =>
    -- an entry is the same if it has the same identity, and no identity is there twice
    have hcount : s.entries.countP (c.same ·) = (s.entries.map Entry.id).count c.id := by
      rw [List.count_eq_countP, List.countP_map]
      exact List.countP_congr fun x _ => by
        rw [Entry.same_comm]
        rfl
    exact hcount ▸ List.nodup_iff_count_le_one.1 s.nodup_ids c.id

/-- If the given one is of the list, exactly one entry is. -/
theorem countP_same (s : ResultSet) {chosen : Option Entry}
    (h : ∀ c, chosen = some c → c ∈ s.entries) :
    s.entries.countP (fun e => chosen.any (·.same e)) = chosen.toList.length := by
  cases chosen with
  | none => simp
  | some c =>
    exact Nat.le_antisymm (s.countP_same_le_one (some c))
      (List.countP_pos_iff.2 ⟨c, h c rfl, c.same_self⟩)

end ResultSet

namespace Page

/-! ## The invariant -/

/-- The pointer moves only to an entry that is started. -/
theorem pointer_step (p : Page) (a : Action) {e : Entry}
    (h : (p.step a).2.controller.pointer = some e) :
    p.controller.pointer = some e ∨ p.started? a = some e := by
  cases hstarted : p.started? a with
  | none => exact .inl ((goesOn_step hstarted).pointer e h)
  | some e' =>
    obtain ⟨q, hstep, -, hstarting⟩ := step_of_started hstarted
    rw [hstep] at h
    have hq : q.controller.pointer = some e := (goesOn_drivePending q).pointer e h
    exact .inr (hstarting.pointer.symm.trans hq)

/-- The selection and the pointer fit the list: what is selected is listed, every entry in use is of
a list with a lower number than the next one will have, and the pointer is at an entry of the list
unless it is at one of another list. -/
structure Linked (p : Page) : Prop where
  selected : ∀ e, p.selected = some e → e ∈ p.controller.results.entries
  known : p.controller.Knows (· < p.installed)
  pointer : ∀ e, p.controller.pointer = some e → e.id.set = p.controller.results.number →
    e ∈ p.controller.results.entries

/-- What can be started is listed. -/
theorem Linked.mem_of_started {p : Page} (h : p.Linked) {a : Action} {e : Entry}
    (hstarted : p.started? a = some e) : e ∈ p.controller.results.entries := by
  cases a with
  | doubleClick index => exact ResultSet.mem_of_get? hstarted
  | playSelected => exact h.selected e hstarted
  -- only an end starts an entry, and that follows another one in the list
  | event event =>
    cases event with
    | ended =>
      obtain ⟨finished, -, hfollowing⟩ := Option.bind_eq_some_iff.1 hstarted
      exact ResultSet.mem_of_following? hfollowing
    | _ => exact nomatch hstarted
  | _ => exact nomatch hstarted

/-- As long as the list stays, the pointer moves inside it. -/
theorem Linked.of_same_list {p : Page} (h : p.Linked) (a : Action)
    (hresults : (p.step a).2.controller.results = p.controller.results)
    (hinstalled : (p.step a).2.installed = p.installed)
    (hselected : ∀ e, (p.step a).2.selected = some e → e ∈ p.controller.results.entries) :
    (p.step a).2.Linked := by
  refine ⟨?_, ⟨?_, fun e he => ?_⟩, fun e he hset => ?_⟩
  · rw [hresults]
    exact hselected
  · rw [hresults, hinstalled]
    exact h.known.results
  · rw [hinstalled]
    obtain hpointer | hstarted := pointer_step p a he
    · exact h.known.pointer e hpointer
    · exact h.known.results e (h.mem_of_started hstarted)
  -- a pointer that has moved is at an entry that was started from this list
  · rw [hresults] at hset ⊢
    obtain hpointer | hstarted := pointer_step p a he
    · exact h.pointer e hpointer hset
    · exact h.mem_of_started hstarted

/-- An action keeps selection and pointer linked to the list. -/
theorem Linked.step {p : Page} (h : p.Linked) (a : Action) : (p.step a).2.Linked := by
  cases ha : a.isPlayback with
  | true =>
    have hside := p.searchSide_step ha
    have hselected : (p.step a).2.selected = p.selected := congrArg SearchSide.selected hside
    exact h.of_same_list a (congrArg SearchSide.results hside)
      (congrArg SearchSide.installed hside) (hselected ▸ h.selected)
  | false =>
    -- what searches keeps the list, selects a row of it, or brings in a new list
    cases p.searched_step ha with
    | kept _ hcontroller hinstalled hselected =>
      exact h.of_same_list a (congrArg Controller.results hcontroller) hinstalled
        (hselected ▸ h.selected)
    | selected index e hrow hpage =>
      refine h.of_same_list _ ?_ ?_ fun e' he' => ?_
      · rw [hpage]
      · rw [hpage]
      · rw [hpage] at he'
        obtain rfl : e = e' := Option.some.inj he'
        exact ResultSet.mem_of_get? hrow
    | installed index answer tracks _ hcontroller hinstalled hselected =>
      -- the new list has a number that the pointer cannot have
      have hold (e : Entry) (he : (p.step (.respond index answer)).2.controller.pointer = some e) :
          e.id.set < p.installed := by
        rw [hcontroller] at he
        exact h.known.pointer e he
      refine ⟨fun e he => ?_, ⟨fun e he => ?_, fun e he => ?_⟩, fun e he hset => ?_⟩
      · rw [hselected] at he
        exact nomatch he
      · rw [hcontroller] at he
        rw [hinstalled, ResultSet.set_of_mem he]
        exact Nat.lt_succ_self p.installed
      · rw [hinstalled]
        exact Nat.lt_succ_of_lt (hold e he)
      · rw [hcontroller] at hset
        exact absurd hset (Nat.ne_of_lt (hold e he))

/-- A run keeps selection and pointer linked to the list. -/
theorem Linked.run {p : Page} (h : p.Linked) (actions : List Action) : (p.run actions).Linked := by
  induction actions generalizing p with
  | nil => exact h
  | cons a actions ih => exact ih (h.step a)

/-- A page is launched with nothing selected and nothing started. -/
theorem linked_launch (base : String) (s : Surroundings) : (launch base s).Linked := by
  have hempty : ∀ p : Page, p.controller = {} → p.selected = none → p.Linked := by
    intro p hcontroller hselected
    refine ⟨fun e he => ?_, hcontroller ▸ Controller.knows_initial _, fun e he => ?_⟩
    · rw [hselected] at he
      exact nomatch he
    · rw [hcontroller] at he
      exact nomatch he
  unfold launch
  exact hempty _ (search_keeps _ _).1 (search_keeps _ _).2.2

/-! ## Playing from the list and from the details -/

section

variable (p : Page) (chosen : Option Entry)

/-- What is selected makes no difference to an outcome. -/
theorem conclude_selected (entry : Option Entry) (outcome : Outcome) :
    { p with selected := chosen }.conclude entry outcome =
      { p.conclude entry outcome with selected := chosen } := by
  cases entry with
  | none => rfl
  | some e => cases outcome <;> rfl

/-- What is selected makes no difference to an answer of the element. -/
theorem follow_selected (entry : Option Entry) (start : Start) :
    { p with selected := chosen }.follow entry start =
      { p.follow entry start with selected := chosen } := by
  cases start with
  | settled outcome => exact conclude_selected p chosen entry outcome
  | deferred number => rfl

/-- An entry that is played is the one that the pointer is at. -/
theorem pointer_play (e : Entry) : (p.play e).controller.pointer = some e := by
  obtain ⟨marked, starts, published, h⟩ :=
    (p.handed e).follow_changes (some e) (p.element.load e.track.audioPath).play.1
  rw [play_eq_follow, h]
  rfl

/-- What is selected makes no difference to a start. -/
theorem play_selected (e : Entry) :
    { p with selected := chosen }.play e = { p.play e with selected := chosen } := by
  rw [play_eq_follow, play_eq_follow, ← follow_selected]
  rfl

end

/-- A double click on a row does what a click on it and then the Play button of the details do,
except that it selects nothing. -/
theorem step_click_playSelected (p : Page) {index : Nat} {e : Entry}
    (h : p.controller.results.get? index = some e) :
    ((p.step (.click index)).2.step .playSelected).2 =
      { (p.step (.doubleClick index)).2 with selected := some e } := by
  simp only [step, h]
  -- the click has only selected the entry, which the start does not look at
  exact play_selected p (some e) e

/-- A start puts the pointer at the entry and asks the element for it, once. -/
theorem step_started {p : Page} {a : Action} {e : Entry} (h : p.started? a = some e) :
    (p.step a).2.controller.pointer = some e ∧
      p.element.Grows (p.step a).2.element [e.track.audioPath] 1 0 := by
  obtain ⟨q, hstep, hsurroundings, -⟩ := step_eq_play h
  have helement : q.element = p.element := congrArg Surroundings.element hsurroundings
  rw [hstep, ← helement]
  exact ⟨q.pointer_play e, q.element_play e⟩

/-- A double click on a row, or the Play button of the details, starts an entry. -/
theorem started?_of_step {p : Page} {a : Action}
    (ha : a = .playSelected ∨ ∃ index, a = .doubleClick index) (h : (p.step a).1 = true) :
    ∃ e, p.started? a = some e := by
  rw [← Option.isSome_iff_exists]
  -- without a selection or a row at the index nothing is done
  obtain rfl | ⟨index, rfl⟩ := ha
  · cases hselected : p.selected with
    | none => simp [step, hselected] at h
    | some e => simp [started?, hselected]
  · cases hget : p.controller.results.get? index with
    | none => simp [step, hget] at h
    | some e => simp [started?, hget]

/-! ## Rows -/

section

variable {p : Page}

/-- The row of an entry stands at its index. -/
theorem getElem?_rows {index : Nat} {e : Entry} (h : p.controller.results.get? index = some e) :
    p.rows[index]? =
      some (View.row e.track (p.controller.isMarked e) (p.selected.any (·.same e))) := by
  rw [rows_eq, List.getElem?_map, ResultSet.getElem?_entries, h, Option.map_some]

/-- Newly installed tracks have a row each, in order, which gives the names of its track and is
neither marked nor highlighted. -/
theorem rows_install (p : Page) (tracks : List Track) :
    List.Forall₂ (fun row t => View.Names row t ∧ row.showsMarker = false ∧ row.isSelected = false)
      (p.install tracks).rows tracks := by
  have hrows : (p.install tracks).rows = tracks.map fun t => View.row t false false := by
    rw [rows_eq]
    exact ResultSet.map_entries ⟨p.installed, tracks⟩ fun t => View.row t false false
  rw [hrows, List.forall₂_map_left_iff, List.forall₂_same]
  intro t _
  exact ⟨View.names_row t false false, View.showsMarker_row t false false,
    View.isSelected_row t false false⟩

/-- The row that is highlighted is that of the selected entry. -/
theorem Linked.any_selected_iff (h : p.Linked) {e : Entry}
    (he : e ∈ p.controller.results.entries) :
    p.selected.any (·.same e) = true ↔ p.selected = some e := by
  cases hselected : p.selected with
  | none => simp
  | some chosen =>
    constructor
    · intro hsame
      exact congrArg some (ResultSet.eq_of_same (h.selected chosen hselected) he hsame)
    · intro heq
      obtain rfl : chosen = e := Option.some.inj heq
      exact chosen.same_self

/-- A row that shows the marker is that of the entry that plays. -/
theorem Linked.pointer_of_isMarked (h : p.Linked) (hmarks : p.controller.MarksPointer) {e : Entry}
    (he : e ∈ p.controller.results.entries) (hmarked : p.controller.isMarked e = true) :
    p.controller.pointer = some e := by
  cases hm : p.controller.marked with
  | none => exact absurd hmarked (by simp [Controller.isMarked_of_marked_none e hm])
  | some m =>
    have hpointer : p.controller.pointer = some m := hmarks m hm
    have hsame : m.same e = true := by simpa [Controller.isMarked, hm] using hmarked
    -- an entry of this list has its number, so the pointer is listed
    have hset : m.id.set = p.controller.results.number := by
      rw [Entry.same_iff.1 hsame]
      exact ResultSet.set_of_mem he
    exact ResultSet.eq_of_same (h.pointer m hpointer hset) he hsame ▸ hpointer

/-- As many rows are highlighted as entries are the selected one. -/
theorem countP_isSelected_rows (p : Page) : p.rows.countP Markup.isSelected =
    p.controller.results.entries.countP fun e => p.selected.any (·.same e) := by
  rw [rows_eq, List.countP_map]
  exact List.countP_congr fun e _ => by simp

/-- As many rows show the marker as entries are marked. -/
theorem countP_showsMarker_rows (p : Page) : p.rows.countP Markup.showsMarker =
    p.controller.results.entries.countP p.controller.isMarked := by
  rw [rows_eq, List.countP_map]
  exact List.countP_congr fun e _ => by simp

/-- The details show the names of the selected entry in one panel, and describe it in the other. -/
theorem panels_describe_of_selected {e : Entry} (h : p.selected = some e) :
    ∃ main extra, p.panels "main-detail" = [main] ∧ p.panels "extra-detail" = [extra] ∧
      View.Names main e.track ∧ View.Describes extra e.track := by
  refine ⟨_, _, ?main, ?extra, View.names_mainDetail e.track, View.describes_extraDetail e.track⟩
  case main =>
    rw [panels_main, h, Option.toList_some, List.flatMap_singleton]
  case extra =>
    rw [panels_extra, h, Option.toList_some, List.map_singleton]

end

/-- The list, the selection and the details agree after any run.  What is selected is an entry of
the list; there is a row for each entry, which gives the names of its track, and it is highlighted
exactly if the entry is the selected one and shows the marker only if the entry is the one that
plays; exactly one row is highlighted if anything is selected, and none otherwise, and at most one
shows the marker.  The details are those of the selected entry, with one Play button: one panel
gives the names of its track and the other one describes it.  They are empty if nothing is selected.
That button, after a click on a row, does what a double click on the row does, and what either of
them plays is an entry of the list. -/
theorem list_and_details_agree (base : String) (s : Surroundings) (actions : List Action) :
    let p := (launch base s).run actions
    let listed := p.controller.results.entries
    (∀ e, p.selected = some e → e ∈ listed) ∧
    p.rows.length = listed.length ∧
    (∀ index e, p.controller.results.get? index = some e → ∃ row,
      p.rows[index]? = some row ∧
      View.Names row e.track ∧
      row = View.row e.track row.showsMarker row.isSelected ∧
      (row.isSelected = true ↔ p.selected = some e) ∧
      (row.showsMarker = true → p.controller.pointer = some e)) ∧
    p.rows.countP Markup.isSelected = p.selected.toList.length ∧
    p.rows.countP Markup.showsMarker ≤ 1 ∧
    p.panels "main-detail" = [View.element "div" [("id", "main-detail")]
      (p.selected.toList.flatMap fun e => View.mainDetail e.track)] ∧
    p.panels "extra-detail" = (p.selected.toList.map fun e =>
      View.element "div" [("id", "extra-detail")] (View.extraDetail e.track)) ∧
    (∀ e, p.selected = some e → ∃ main extra,
      p.panels "main-detail" = [main] ∧ p.panels "extra-detail" = [extra] ∧
      View.Names main e.track ∧ View.Describes extra e.track) ∧
    p.detailPlays.length = p.selected.toList.length ∧
    (∀ index e, p.controller.results.get? index = some e →
      ((p.step (.click index)).2.step .playSelected).2 =
        { (p.step (.doubleClick index)).2 with selected := some e }) ∧
    (∀ a, a = .playSelected ∨ (∃ index, a = .doubleClick index) → (p.step a).1 = true →
      ∃ e ∈ listed, (p.step a).2.controller.pointer = some e ∧
        p.element.Grows (p.step a).2.element [e.track.audioPath] 1 0) := by
  intro p listed
  -- selection, pointer and marker are tied to the list by what every step preserves
  have h : p.Linked := (linked_launch base s).run actions
  have hmarks : p.controller.MarksPointer := ((played_launch base s).run actions).marks
  refine ⟨h.selected, ?_, ?_, ?_, ?_, p.panels_main, p.panels_extra,
    fun e => panels_describe_of_selected, ?_, ?_, ?_⟩
  · rw [rows_eq, List.length_map]
  · intro index e he
    have hmem : e ∈ listed := ResultSet.mem_of_get? he
    refine ⟨_, getElem?_rows he, View.names_row _ _ _, ?_, ?_, ?_⟩
    · rw [View.showsMarker_row, View.isSelected_row]
    · rw [View.isSelected_row]
      exact h.any_selected_iff hmem
    · rw [View.showsMarker_row]
      exact h.pointer_of_isMarked hmarks hmem
  · rw [countP_isSelected_rows]
    exact ResultSet.countP_same _ h.selected
  · rw [countP_showsMarker_rows]
    exact ResultSet.countP_same_le_one _ p.controller.marked
  · rw [detailPlays_eq, List.length_map]
  · intro index e he
    exact p.step_click_playSelected he
  · intro a ha hdone
    obtain ⟨e, hstarted⟩ := started?_of_step ha hdone
    exact ⟨e, h.mem_of_started hstarted, step_started hstarted⟩

/-- A track of which all is known that the details can show. -/
def knownTrack : Track where
  id := 7
  title := "Love"
  artist := "Ann"
  album := "One"
  position := some 3
  total := some 12
  year := some 1999
  genre := some "Jazz"
  format := some "MP3"
  bitrate := some 320000
  length := some (.ofNat 61)
  recordingId := some "ab-1"
  lyrics := some "La"
  comments := some "ok"

/-- A page that lists this track twice, as the reply spells it by a list of its fields.  The second
row is selected, and the first plays. -/
def knownTwice : Page :=
  let track := "[7,\"Love\",\"Ann\",\"One\",null,3,12,null,1999,\"Jazz\",\"MP3\",320000,61," ++
    "\"ab-1\",\"La\",\"ok\"]"
  let body := "\x7b\"results\":[" ++ track ++ "," ++ track ++ "]\x7d"
  (launch "http://h" {}).run
    [.type "a", .submit, .respond 0 (.reply 200 body.toUTF8.toList), .click 1, .doubleClick 0]

/-- Of two rows of one track the second is selected and the first plays: one of them is highlighted,
the other one shows the marker, the details say all that is known, and their Play button starts the
second. -/
theorem list_and_details_agree_of_equal_tracks :
    let second : Entry := ⟨⟨0, 1⟩, knownTrack⟩
    (knownTwice.controller.results.get? 1 = some second ∧ knownTwice.selected = some second ∧
      knownTwice.rows.map Markup.isSelected = [false, true] ∧
      knownTwice.rows.map Markup.showsMarker = [true, false]) ∧
    (∃ main extra,
      knownTwice.panels "main-detail" = [main] ∧ knownTwice.panels "extra-detail" = [extra] ∧
      main.textsOf "title" = ["Love"] ∧ main.textsOf "artist" = ["Ann"] ∧
      main.textsOf "album" = ["One"] ∧
      ("Track", "3/12") ∈ extra.captioned ∧ ("Length", "1:01") ∈ extra.captioned ∧
      ("Format", "MP3, 320kbps") ∈ extra.captioned ∧
      ("Released", "1999 · Jazz") ∈ extra.captioned ∧
      "https://musicbrainz.org/recording/ab-1" ∈ extra.links ∧
      ("Lyrics", "La") ∈ extra.captioned ∧ ("Comments", "ok") ∈ extra.captioned) ∧
    ((knownTwice.step (.click 1)).2.step .playSelected).2 =
      { (knownTwice.step (.doubleClick 1)).2 with selected := some second } := by
  intro second
  have hrun : knownTwice.controller.results.get? 1 = some ⟨⟨0, 1⟩, knownTrack⟩ ∧
      knownTwice.selected = some ⟨⟨0, 1⟩, knownTrack⟩ ∧
      knownTwice.rows.map Markup.isSelected = [false, true] ∧
      knownTwice.rows.map Markup.showsMarker = [true, false] := by decide +kernel
  obtain ⟨-, -, -, -, -, -, -, hpanels, -, hclick, -⟩ := list_and_details_agree "http://h" {} _
  obtain ⟨main, extra, hmain, hextra, hnames, hdescribes⟩ := hpanels second hrun.2.1
  -- what the fields of the track are written as, by the rule for each of them
  have hposition : knownTrack.PositionText "3/12" :=
    .ofTotal rfl (show (0 : UInt32) < 3 by decide) rfl (show (0 : UInt32) < 12 by decide)
  have hformat : knownTrack.FormatText "MP3, 320kbps" :=
    .withBitrate rfl (show "MP3" ≠ "" by decide) rfl (show (0 : UInt32) < 320000 by decide)
  have hrelease : knownTrack.ReleaseText "1999 · Jazz" :=
    .both rfl (show (0 : UInt32) < 1999 by decide) rfl (show "Jazz" ≠ "" by decide)
  refine ⟨hrun, ⟨main, extra, hmain, hextra, hnames.title, hnames.artist, hnames.album, ?_, ?_, ?_,
    ?_, ?_, ?_, ?_⟩, hclick 1 second hrun.1⟩
  · exact (hdescribes.position _).2 hposition
  · exact (hdescribes.length _).2 ⟨.ofNat 61, rfl, by decide +kernel⟩
  · exact (hdescribes.format _).2 hformat
  · exact (hdescribes.release _).2 hrelease
  · exact (hdescribes.link.2 _).2 ⟨"ab-1", rfl, by decide, rfl⟩
  · exact (hdescribes.lyrics _).2 ⟨rfl, by decide⟩
  · exact (hdescribes.comments _).2 ⟨rfl, by decide⟩

end Page

end LibraryPlayer
