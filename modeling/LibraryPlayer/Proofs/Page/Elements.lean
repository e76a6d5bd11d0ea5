import LibraryPlayer.Page.View

/-!
# The elements of the page

What can be found on a page: `Markup.select` picks the elements of a piece of markup that pass a
test, and with it the rows of the list, the panels of the details and the Play buttons in them are
told from the markup alone.  The lemmas say which elements a row and a panel hold, whatever track
they are of.
-/

namespace LibraryPlayer

namespace Markup

mutual

/-- The elements of a piece of markup that pass a test, in document order. -/
def select (test : String → List Attribute → Bool) : Markup → List Markup
  | text _ => []
  | element tag attributes children =>
    (if test tag attributes then [element tag attributes children] else [])
      ++ selectAll test children

/-- The elements of pieces of markup that pass a test, one piece after the other. -/
def selectAll (test : String → List Attribute → Bool) : List Markup → List Markup
  | [] => []
  | m :: ms => select test m ++ selectAll test ms

end

variable (test : String → List Attribute → Bool)

/-- A text is no element. -/
@[simp] theorem select_text (content : String) : select test (text content) = [] := by
  simp [select]

/-- Pieces of markup are looked through one by one. -/
@[simp] theorem selectAll_eq_flatMap (ms : List Markup) :
    selectAll test ms = ms.flatMap (select test) := by
  induction ms with
  | nil => simp [selectAll]
  | cons m ms ih => simp [selectAll, ih]

/-- An element is found before what is found in it. -/
theorem select_element (tag : String) (attributes : List Attribute) (children : List Markup) :
    select test (element tag attributes children) =
      (if test tag attributes then [element tag attributes children] else [])
        ++ children.flatMap (select test) := by
  rw [select, selectAll_eq_flatMap]

/-- Whether a row is highlighted as the selected one. -/
def isSelected : Markup → Bool
  | text _ => false
  | element _ attributes _ => .text "class" "selected" ∈ attributes

/-- Whether a row shows the playing marker: one that is not hidden. -/
def showsMarker (m : Markup) : Bool :=
  !(m.select fun _ attributes =>
    .text "class" "playing" ∈ attributes && .flag "hidden" true ∉ attributes).isEmpty

end Markup

namespace Page

/-- The rows of the list, from top to bottom. -/
def rows (p : Page) : List Markup := (p.markup .entities).select fun tag _ => tag == "li"

/-- The panels of the details that are of the given name. -/
def panels (p : Page) (id : String) : List Markup :=
  (p.markup .detail).select fun _ attributes => .text "id" id ∈ attributes

/-- The Play buttons of the details. -/
def detailPlays (p : Page) : List Markup :=
  (p.markup .detail).select fun tag attributes =>
    tag == "button" && .text "class" "play" ∈ attributes

end Page

namespace View

open Markup

/-- A row is highlighted if it is drawn as the selected one. -/
@[simp] theorem isSelected_row (t : Track) (playing selected : Bool) :
    (row t playing selected).isSelected = selected := by
  cases selected <;> simp [row, element, Markup.isSelected]

/-- A row shows the marker if it is drawn as the one that plays. -/
@[simp] theorem showsMarker_row (t : Track) (playing selected : Bool) :
    (row t playing selected).showsMarker = playing := by
  cases playing <;> cases selected <;> rfl

/-! ## The panels -/

section

variable {test : String → List Attribute → Bool}
  (h : ∀ tag attributes, test tag attributes = true →
    tag = "button" ∨ ∃ id, Attribute.text "id" id ∈ attributes)

include h

/-- A test for buttons and identifiers fails on all else. -/
theorem test_eq_false {tag : String} {attributes : List Attribute} (htag : tag ≠ "button")
    (hid : ∀ id, Attribute.text "id" id ∉ attributes) : test tag attributes = false := by
  refine Bool.eq_false_iff.2 fun htest => ?_
  obtain rfl | ⟨id, hmem⟩ := h tag attributes htest
  · exact htag rfl
  · exact hid id hmem

/-- What an item says is a text or a link. -/
theorem select_item (t : Track) {i : String × Markup} (hi : i ∈ items t) :
    i.2.select test = [] := by
  -- whatever the address is, it is no identifier
  have ha (url : String) : test "a" [.text "href" url, .text "target" "_blank",
      .text "rel" "noopener"] = false := test_eq_false h (by decide) (by simp)
  simp only [items, List.mem_append, List.mem_map, Option.mem_toList] at hi
  obtain ((((⟨c, -, rfl⟩ | ⟨c, -, rfl⟩) | ⟨c, -, rfl⟩) | ⟨c, -, rfl⟩) | ⟨url, -, rfl⟩) := hi
  · exact Markup.select_text test c
  · exact Markup.select_text test c
  · exact Markup.select_text test c
  · exact Markup.select_text test c
  · simp [element, select_element, ha]

/-- The further details hold no button and no element with an identifier. -/
theorem select_extraDetail (t : Track) : (extraDetail t).flatMap (select test) = [] := by
  have hplain (tag : String) (htag : tag ≠ "button") : test tag [] = false :=
    test_eq_false h htag (by simp)
  have hclass (tag className : String) (htag : tag ≠ "button") :
      test tag [.text "class" className] = false := test_eq_false h htag (by simp)
  -- terms and items have no attributes, so neither passes the test
  have hitems : ((items t).flatMap fun i =>
      [element "dt" [] [.text i.1], element "dd" [] [i.2]]).flatMap (select test) = [] := by
    rw [List.flatMap_assoc, List.flatMap_eq_nil_iff]
    intro i hi
    simp [element, select_element, hplain, select_item h t hi]
  have htext (heading tag className : String) (content : Option String) (htag : tag ≠ "button") :
      (content.toList.flatMap fun c => [element "h3" [] [.text heading],
        labelled tag className c]).flatMap (select test) = [] := by
    cases content <;> simp [labelled, element, select_element, hplain, hclass, htag]
  have hlist : (element "dl" [] ((items t).flatMap fun i =>
      [element "dt" [] [.text i.1], element "dd" [] [i.2]])).select test = [] := by
    rw [element, select_element, hitems, List.map_nil, hplain "dl" (by decide)]
    rfl
  rw [extraDetail, List.flatMap_append, List.flatMap_cons, hlist,
    htext "Lyrics" "pre" "lyrics" _ (by decide), htext "Comments" "p" "comments" _ (by decide)]
  rfl

/-- What there is to be found in the details of a track. -/
theorem select_detail (hdetail : test "div" [.text "id" "detail"] = false) (t : Track) :
    (detail (some t)).select test =
      (element "div" [("id", "main-detail")] (mainDetail t)).select test ++
        if test "div" [.text "id" "extra-detail"] then
          [element "div" [("id", "extra-detail")] (extraDetail t)]
        else [] := by
  -- the panel itself is found if it passes the test, and nothing in it does
  have hextra : (element "div" [("id", "extra-detail")] (extraDetail t)).select test =
      if test "div" [.text "id" "extra-detail"] then
        [element "div" [("id", "extra-detail")] (extraDetail t)]
      else [] := by
    rw [element, select_element, select_extraDetail h, List.append_nil]
    rfl
  rw [detail, element, select_element]
  simp [hdetail, hextra]

end

end View

namespace Page

variable (p : Page)

/-- There is one row for each entry, in order. -/
theorem rows_eq : p.rows = p.controller.results.entries.map fun e =>
    View.row e.track (p.controller.isMarked e) (p.selected.any (·.same e)) := by
  -- the two elements around the rows are no rows
  have hlist (rows : List Markup) : (View.element "div" [("id", "entities")]
      [View.element "ul" [("id", "results"), ("class", "no-select")] rows]).select
        (fun tag _ => tag == "li") = rows.flatMap (Markup.select fun tag _ => tag == "li") := by
    simp [View.element, Markup.select_element]
  rw [rows, markup, View.entities, hlist, List.flatMap_map, List.map_eq_flatMap]
  rfl

/-- A panel of the selected entry is known by its identifier. -/
theorem panels_of_selected {e : Entry} (h : p.selected = some e) {id : String}
    (hid : id ≠ "detail") :
    p.panels id =
      (View.element "div" [("id", "main-detail")] (View.mainDetail e.track)).select
        (fun _ attributes => .text "id" id ∈ attributes) ++
      if id = "extra-detail" then
        [View.element "div" [("id", "extra-detail")] (View.extraDetail e.track)]
      else [] := by
  -- what is looked for has an identifier, so the further details hold none of it
  have htest (tag : String) (attributes : List Attribute)
      (h : decide (.text "id" id ∈ attributes) = true) :
      tag = "button" ∨ ∃ id, Attribute.text "id" id ∈ attributes :=
    .inr ⟨id, of_decide_eq_true h⟩
  rw [panels, markup, h, Option.map_some, View.select_detail htest]
  · simp
  · simpa using hid

/-- The panel with the names and the Play button is always there, and empty if nothing is
selected. -/
theorem panels_main : p.panels "main-detail" =
    [View.element "div" [("id", "main-detail")]
      (p.selected.toList.flatMap fun e => View.mainDetail e.track)] := by
  cases hselected : p.selected with
  | none =>
    rw [panels, markup, hselected]
    rfl
  | some e =>
    rw [p.panels_of_selected hselected (by decide)]
    rfl

/-- The panel with the further details is that of the selected entry. -/
theorem panels_extra : p.panels "extra-detail" =
    p.selected.toList.map fun e =>
      View.element "div" [("id", "extra-detail")] (View.extraDetail e.track) := by
  cases hselected : p.selected with
  | none =>
    rw [panels, markup, hselected]
    rfl
  | some e =>
    rw [p.panels_of_selected hselected (by decide)]
    rfl

/-- There is one Play button for the selected entry. -/
theorem detailPlays_eq : p.detailPlays =
    p.selected.toList.map fun _ =>
      View.element "button" [("class", "play"), ("type", "button")]
        [View.icon .play, .text "Play"] := by
  cases hselected : p.selected with
  | none =>
    rw [detailPlays, markup, hselected]
    rfl
  | some e =>
    -- what is looked for is a button, so the further details hold none of it
    have htest (tag : String) (attributes : List Attribute)
        (h : (tag == "button" && decide (.text "class" "play" ∈ attributes)) = true) :
        tag = "button" ∨ ∃ id, Attribute.text "id" id ∈ attributes :=
      .inl (eq_of_beq (Bool.and_eq_true_iff.1 h).1)
    rw [detailPlays, markup, hselected, Option.map_some, View.select_detail htest rfl]
    rfl

end Page

end LibraryPlayer
