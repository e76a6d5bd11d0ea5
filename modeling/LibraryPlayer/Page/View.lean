import LibraryPlayer.Page.Icon
import LibraryPlayer.Page.State

/-! # The view

What the page shows, as markup, in four sections: the header with the search box, the list of
entries, the details of the selected one, and the transport.
-/

namespace LibraryPlayer

/-- The sections of the page. -/
inductive Section where
  | header | entities | detail | player
  deriving DecidableEq, Repr

namespace Section

/-- All sections, from top to bottom. -/
def all : List Section := [header, entities, detail, player]

/-- The identifier of a section's element. -/
def id : Section → String
  | header => "header"
  | entities => "entities"
  | detail => "detail"
  | player => Page.playerContainer

end Section

namespace View

/-- An element with text attributes. -/
def element (tag : String) (attributes : List (String × String)) (children : List Markup) :
    Markup :=
  .element tag (attributes.map fun a => .text a.1 a.2) children

/-- An element with text attributes that may be hidden. -/
def hideable (tag : String) (attributes : List (String × String)) (hidden : Bool)
    (children : List Markup) : Markup :=
  .element tag ((attributes.map fun a => .text a.1 a.2) ++ [.flag "hidden" hidden]) children

/-- An icon of the page. -/
def icon (i : Icon) : Markup := i.markup "icon"

/-- An element of a class that holds a text. -/
def labelled (tag className content : String) : Markup :=
  element tag [("class", className)] [.text content]

/-! ## Header -/

/-- The heading and the search box. -/
def header (box : String) : Markup :=
  element "div" [("id", "header"), ("class", "no-select")] [
    element "h1" [] [.text "beets"],
    element "form" [("id", "queryForm")] [
      icon .search,
      element "input" [("id", "query"), ("type", "search"),
        ("placeholder", "Search the library"), ("autocomplete", "off"), ("value", box)] []]]

/-! ## Entries -/

/-- The row of an entry. -/
def row (t : Track) (playing selected : Bool) : Markup :=
  element "li" [("class", if selected then "selected" else "")] [
    hideable "span" [("class", "playing")] (!playing) [icon .speaker],
    labelled "span" "title" t.title,
    labelled "span" "artist" t.artist,
    labelled "span" "album" t.album]

/-- The list of entries. -/
def entities (c : Controller) (selected : Option Entry) : Markup :=
  element "div" [("id", "entities")] [
    element "ul" [("id", "results"), ("class", "no-select")]
      (c.results.entries.map fun e => row e.track (c.isMarked e) (selected.any (·.same e)))]

/-! ## Details -/

/-- The audio format of a track, with its bitrate in thousands. -/
def formatLabel? (t : Track) : Option String :=
  (t.format.filter (· ≠ "")).map fun format =>
    match t.bitrate with
    | some b => if 0 < b then format ++ ", " ++ (b.toNat / 1000).repr ++ "kbps" else format
    | none => format

/-- When a track came out, and its genre. -/
def releaseLabel? (t : Track) : Option String :=
  match t.year.filter (0 < ·), t.genre.filter (· ≠ "") with
  | some year, some genre => some (year.toNat.repr ++ " · " ++ genre)
  | some year, none => some year.toNat.repr
  | none, genre => genre

/-- The labelled items of the details, as far as they are known. -/
def items (t : Track) : List (String × Markup) :=
  let label (name : String) (content : Option String) : List (String × Markup) :=
    content.toList.map fun c => (name, .text c)
  label "Track" t.positionLabel?
    ++ label "Length" (t.length.map fun x => timeLabel (some x))
    ++ label "Format" (formatLabel? t)
    ++ label "Released" (releaseLabel? t)
    ++ t.recordingUrl?.toList.map fun url =>
      ("MusicBrainz",
        element "a" [("href", url), ("target", "_blank"), ("rel", "noopener")]
          [.text "View recording"])

/-- A text of a track that is not blank. -/
def notBlank? (s : Option String) : Option String := s.filter fun s => Text.trim s ≠ ""

/-- The names of the selected track, and its Play button. -/
def mainDetail (t : Track) : List Markup := [
  labelled "h2" "title" t.title,
  labelled "p" "artist" t.artist,
  labelled "p" "album" t.album,
  element "button" [("class", "play"), ("type", "button")] [icon .play, .text "Play"]]

/-- The items of the selected track, its lyrics and its comments. -/
def extraDetail (t : Track) : List Markup :=
  element "dl" []
      ((items t).flatMap fun i => [element "dt" [] [.text i.1], element "dd" [] [i.2]])
    :: ((notBlank? t.lyrics).toList.flatMap fun lyrics =>
        [element "h3" [] [.text "Lyrics"], labelled "pre" "lyrics" lyrics])
    ++ (notBlank? t.comments).toList.flatMap fun comments =>
        [element "h3" [] [.text "Comments"], labelled "p" "comments" comments]

/-- The details of the selected track, or an empty panel. -/
def detail (selected : Option Track) : Markup :=
  element "div" [("id", "detail")] <|
    match selected with
    | none => [element "div" [("id", "main-detail")] []]
    | some t =>
      [element "div" [("id", "main-detail")] (mainDetail t),
       element "div" [("id", "extra-detail")] (extraDetail t)]

/-! ## Transport -/

/-- A bar of the transport. -/
def bar (className width : String) : Markup :=
  element "div" [("class", className), ("style", "width: " ++ width)] []

/-- The transport. -/
def player (d : Display) : Markup :=
  let controls := d.mode.controls
  element "div" [("id", Page.playerContainer)] [
    hideable "button" [("class", "play"), ("type", "button")] (!controls.play) [icon .play],
    hideable "button" [("class", "pause"), ("type", "button")] (!controls.pause) [icon .pause],
    hideable "span" [("class", "disabled")] (!controls.disabled) [icon .disabled],
    hideable "span" [("class", "times")] (!controls.times) [
      labelled "span" "currentTime" d.times.current,
      .text " / ",
      labelled "span" "totalTime" d.times.total],
    element "div" [("class", "slider")] [
      bar "loaded" d.times.loaded,
      bar "played" d.times.played]]

end View

/-- The markup of a section. -/
def Page.markup (p : Page) : Section → Markup
  | .header => View.header p.box
  | .entities => View.entities p.controller p.selected
  | .detail => View.detail (p.selected.map Entry.track)
  | .player => View.player p.display

/-- The HTML of a section. -/
def Page.html (p : Page) (s : Section) : String := (p.markup s).render

end LibraryPlayer
