import LibraryPlayer.Proofs.Page.Elements
import Mathlib.Data.List.Nodup

/-!
# What the page says of a track

Rows and details are read here the way a reader of the page reads them: by the texts of elements of
a class (`Markup.textsOf`), by captions and what stands right behind them (`Markup.captioned`), and
by the addresses of links (`Markup.links`).  What is to be found there is stated over the fields of
the track, with one rule for each way in which a field can be written.

* `View.names_row` and `View.names_mainDetail`: a row and the upper panel of the details give the
  names of their track.
* `View.describes_extraDetail`: the lower panel gives everything else that is known of it.
-/

namespace LibraryPlayer

namespace Markup

/-! ## Reading markup -/

mutual

/-- The text of a piece of markup, without its tags. -/
def content : Markup → String
  | text s => s
  | element _ _ children => contentAll children

/-- The text of pieces of markup, one after the other. -/
def contentAll : List Markup → String
  | [] => ""
  | m :: ms => content m ++ contentAll ms

end

/-- The texts of the elements of a class, in document order. -/
def textsOf (className : String) (m : Markup) : List String :=
  (m.select fun _ attributes => .text "class" className ∈ attributes).map content

/-- Whether a piece of markup is a caption: the term of an item, or a heading. -/
def isCaption : Markup → Bool
  | text _ => false
  | element tag _ _ => tag == "dt" || tag == "h3"

mutual

/-- The captions in a piece of markup, in document order, each with the text of what stands right
behind it. -/
def captioned : Markup → List (String × String)
  | text _ => []
  | element _ _ children => captionedAll children

/-- The captions among pieces of markup and in them. -/
def captionedAll : List Markup → List (String × String)
  | [] => []
  | m :: ms =>
    (if m.isCaption then ms.head?.toList.map fun next => (m.content, next.content) else [])
      ++ (captioned m ++ captionedAll ms)

end

/-- The address that an attribute gives. -/
def addressOf? : Attribute → Option String
  | .text name value => if name = "href" then some value else none
  | .flag _ _ => none

/-- The address that a piece of markup links to. -/
def address? : Markup → Option String
  | text _ => none
  | element _ attributes _ => attributes.findSome? addressOf?

/-- The addresses of the links in a piece of markup, in document order. -/
def links (m : Markup) : List String := (m.select fun tag _ => tag == "a").filterMap address?

/-- Items, each behind its term, are read one after the other. -/
theorem captionedAll_items (items : List (String × Markup))
    (h : ∀ i ∈ items, i.2.captioned = []) :
    captionedAll (items.flatMap fun i =>
        [element "dt" [] [text i.1], element "dd" [] [i.2]]) =
      items.map fun i => (i.1, i.2.content) := by
  induction items with
  | nil => simp [captionedAll]
  | cons i items ih =>
    -- an item with captions of its own would bring these in between
    have hinside : i.2.captioned = [] := h i List.mem_cons_self
    rw [List.flatMap_cons, List.map_cons, ← ih fun j hj => h j (List.mem_cons_of_mem i hj)]
    simp [captionedAll, captioned, isCaption, content, contentAll, hinside]

end Markup

/-! ## What can be said of a track -/

namespace Track

/-- How the place of a track on its disc is written: the total follows a slash, if it is known. -/
inductive PositionText (t : Track) : String → Prop
  | alone {n : UInt32} (hn : t.position = some n) (hpos : 0 < n)
      (htotal : t.total = none ∨ t.total = some 0) : PositionText t n.toNat.repr
  | ofTotal {n m : UInt32} (hn : t.position = some n) (hpos : 0 < n) (hm : t.total = some m)
      (htotal : 0 < m) : PositionText t (n.toNat.repr ++ "/" ++ m.toNat.repr)

/-- How the format of a track is written: the bitrate follows a comma, in thousands, if it is
known. -/
inductive FormatText (t : Track) : String → Prop
  | alone {format : String} (hformat : t.format = some format) (hne : format ≠ "")
      (hbitrate : t.bitrate = none ∨ t.bitrate = some 0) : FormatText t format
  | withBitrate {format : String} {b : UInt32} (hformat : t.format = some format)
      (hne : format ≠ "") (hb : t.bitrate = some b) (hbitrate : 0 < b) :
      FormatText t (format ++ ", " ++ (b.toNat / 1000).repr ++ "kbps")

/-- How the release of a track is written: its year, its genre, or both with a dot between them. -/
inductive ReleaseText (t : Track) : String → Prop
  | year {y : UInt32} (hy : t.year = some y) (hyear : 0 < y)
      (hgenre : t.genre = none ∨ t.genre = some "") : ReleaseText t y.toNat.repr
  | genre {genre : String} (hyear : t.year = none ∨ t.year = some 0)
      (hgenre : t.genre = some genre) (hne : genre ≠ "") : ReleaseText t genre
  | both {y : UInt32} {genre : String} (hy : t.year = some y) (hyear : 0 < y)
      (hgenre : t.genre = some genre) (hne : genre ≠ "") :
      ReleaseText t (y.toNat.repr ++ " · " ++ genre)

/-- The label of the place on the disc is written by these rules, and by no others. -/
theorem positionLabel?_eq_some_iff {t : Track} {s : String} :
    t.positionLabel? = some s ↔ t.PositionText s := by
  constructor
  · intro h
    cases hn : t.position with
    | none => simp [positionLabel?, hn] at h
    | some n =>
      -- a position of zero counts as none, and so does a total of zero
      by_cases hzero : n = 0
      · simp [positionLabel?, hn, hzero] at h
      have hpos : 0 < n := UInt32.pos_iff_ne_zero.2 hzero
      cases hm : t.total with
      | none =>
        obtain rfl : n.toNat.repr = s := by simpa [positionLabel?, hn, hm, hzero] using h
        exact .alone hn hpos (.inl hm)
      | some m =>
        by_cases htotal : 0 < m
        · obtain rfl : n.toNat.repr ++ "/" ++ m.toNat.repr = s := by
            simpa [positionLabel?, hn, hm, hzero, htotal] using h
          exact .ofTotal hn hpos hm htotal
        · obtain rfl : n.toNat.repr = s := by
            simpa [positionLabel?, hn, hm, hzero, htotal] using h
          exact .alone hn hpos (.inr (by simpa [UInt32.pos_iff_ne_zero, hm] using htotal))
  · intro h
    cases h with
    | alone hn hpos htotal =>
      rcases htotal with htotal | htotal <;>
        simp [positionLabel?, hn, htotal, UInt32.pos_iff_ne_zero.1 hpos]
    | ofTotal hn hpos hm htotal =>
      simp [positionLabel?, hn, hm, htotal, UInt32.pos_iff_ne_zero.1 hpos]

/-- The page of the recording is linked to exactly for an identifier that is not blank. -/
theorem recordingUrl?_eq_some_iff {t : Track} {url : String} :
    t.recordingUrl? = some url ↔ ∃ r, t.recordingId = some r ∧ Text.trim r ≠ "" ∧
      url = "https://musicbrainz.org/recording/" ++ r := by
  constructor
  · intro h
    obtain ⟨r, hr, rfl⟩ := Option.map_eq_some_iff.1 h
    obtain ⟨hr, hne⟩ := Option.filter_eq_some_iff.1 hr
    exact ⟨r, hr, of_decide_eq_true hne, rfl⟩
  · rintro ⟨r, hr, hne, rfl⟩
    simp [recordingUrl?, hr, hne]

end Track

namespace View

/-- The label of the format is written by these rules, and by no others. -/
theorem formatLabel?_eq_some_iff {t : Track} {s : String} :
    formatLabel? t = some s ↔ t.FormatText s := by
  constructor
  · intro h
    obtain ⟨format, hformat, h⟩ := Option.map_eq_some_iff.1 h
    obtain ⟨hformat, hne⟩ := Option.filter_eq_some_iff.1 hformat
    have hne : format ≠ "" := of_decide_eq_true hne
    -- a bitrate of zero counts as none
    cases hb : t.bitrate with
    | none =>
      obtain rfl : format = s := by simpa [hb] using h
      exact .alone hformat hne (.inl hb)
    | some b =>
      by_cases hbitrate : 0 < b
      · obtain rfl : format ++ ", " ++ (b.toNat / 1000).repr ++ "kbps" = s := by
          simpa [hb, hbitrate] using h
        exact .withBitrate hformat hne hb hbitrate
      · obtain rfl : format = s := by simpa [hb, hbitrate] using h
        exact .alone hformat hne (.inr (by simpa [UInt32.pos_iff_ne_zero, hb] using hbitrate))
  · intro h
    cases h with
    | alone hformat hne hbitrate =>
      rcases hbitrate with hbitrate | hbitrate <;> simp [formatLabel?, hformat, hne, hbitrate]
    | withBitrate hformat hne hb hbitrate => simp [formatLabel?, hformat, hne, hb, hbitrate]

/-- The label of the release is written by these rules, and by no others. -/
theorem releaseLabel?_eq_some_iff {t : Track} {s : String} :
    releaseLabel? t = some s ↔ t.ReleaseText s := by
  -- a year or a genre that is there but says nothing counts as none
  have hnoYear : t.year.filter (0 < ·) = none ↔ t.year = none ∨ t.year = some 0 := by
    cases t.year <;> simp [UInt32.pos_iff_ne_zero]
  have hnoGenre : t.genre.filter (· ≠ "") = none ↔ t.genre = none ∨ t.genre = some "" := by
    cases t.genre <;> simp
  have hsomeYear (y : UInt32) : t.year.filter (0 < ·) = some y ↔ t.year = some y ∧ 0 < y := by
    simp [Option.filter_eq_some_iff]
  have hsomeGenre (genre : String) :
      t.genre.filter (· ≠ "") = some genre ↔ t.genre = some genre ∧ genre ≠ "" := by
    simp [Option.filter_eq_some_iff]
  rw [releaseLabel?]
  -- the year and the genre are there or not, which makes four cases on the way there and three back
  constructor
  · intro h
    cases hy : t.year.filter (0 < ·) with
    | none =>
      rw [hy] at h
      obtain ⟨hgenre, hne⟩ := (hsomeGenre s).1 h
      exact .genre (hnoYear.1 hy) hgenre hne
    | some y =>
      obtain ⟨hyear, hpos⟩ := (hsomeYear y).1 hy
      cases hg : t.genre.filter (· ≠ "") with
      | none =>
        rw [hy, hg] at h
        exact Option.some.inj h ▸ .year hyear hpos (hnoGenre.1 hg)
      | some genre =>
        obtain ⟨hgenre, hne⟩ := (hsomeGenre genre).1 hg
        rw [hy, hg] at h
        exact Option.some.inj h ▸ .both hyear hpos hgenre hne
  · intro h
    cases h with
    | year hy hpos hgenre => rw [(hsomeYear _).2 ⟨hy, hpos⟩, hnoGenre.2 hgenre]
    | genre hyear hgenre hne => rw [hnoYear.2 hyear, (hsomeGenre _).2 ⟨hgenre, hne⟩]
    | both hy hpos hgenre hne =>
      rw [(hsomeYear _).2 ⟨hy, hpos⟩, (hsomeGenre _).2 ⟨hgenre, hne⟩]

/-- A text is shown exactly if it is there and not blank. -/
theorem notBlank?_eq_some_iff {content : Option String} {s : String} :
    notBlank? content = some s ↔ content = some s ∧ Text.trim s ≠ "" := by
  simp [notBlank?, Option.filter_eq_some_iff]

/-! ## What is said of a track -/

/-- A row or a panel gives the names of a track, each in an element of its own. -/
structure Names (m : Markup) (t : Track) : Prop where
  title : m.textsOf "title" = [t.title]
  artist : m.textsOf "artist" = [t.artist]
  album : m.textsOf "album" = [t.album]

/-- A panel gives what is known of a track besides its names, and nothing else. -/
structure Describes (m : Markup) (t : Track) : Prop where
  /-- The captions stand in this order, and none of them twice. -/
  order : (m.captioned.map Prod.fst).Sublist
    ["Track", "Length", "Format", "Released", "MusicBrainz", "Lyrics", "Comments"]
  position : ∀ s, ("Track", s) ∈ m.captioned ↔ t.PositionText s
  length : ∀ s, ("Length", s) ∈ m.captioned ↔ ∃ x, t.length = some x ∧ s = timeLabel (some x)
  format : ∀ s, ("Format", s) ∈ m.captioned ↔ t.FormatText s
  release : ∀ s, ("Released", s) ∈ m.captioned ↔ t.ReleaseText s
  recording : ∀ s, ("MusicBrainz", s) ∈ m.captioned ↔ s = "View recording" ∧ m.links ≠ []
  /-- There is one link at most, to the page of the recording. -/
  link : m.links.length ≤ 1 ∧ ∀ url, url ∈ m.links ↔ ∃ r, t.recordingId = some r ∧
    Text.trim r ≠ "" ∧ url = "https://musicbrainz.org/recording/" ++ r
  lyrics : ∀ s, ("Lyrics", s) ∈ m.captioned ↔ t.lyrics = some s ∧ Text.trim s ≠ ""
  comments : ∀ s, ("Comments", s) ∈ m.captioned ↔ t.comments = some s ∧ Text.trim s ≠ ""

/-- A class of which there is one element, which holds a text, has that text. -/
theorem textsOf_eq_singleton {m : Markup} {tag className s : String}
    (h : (m.select fun _ attributes => .text "class" className ∈ attributes) =
      [labelled tag className s]) : m.textsOf className = [s] := by
  simp [Markup.textsOf, h, labelled, element, Markup.content, Markup.contentAll]

/-- A row gives the names of its track, whether it is marked or highlighted or not. -/
theorem names_row (t : Track) (playing selected : Bool) : Names (row t playing selected) t := by
  -- whether a row is highlighted decides on an attribute of it, but on no element in it
  constructor <;> apply textsOf_eq_singleton <;> cases selected <;> rfl

/-- The upper panel of the details gives the names of its track. -/
theorem names_mainDetail (t : Track) :
    Names (element "div" [("id", "main-detail")] (mainDetail t)) t := by
  constructor <;> apply textsOf_eq_singleton <;> rfl

/-- What the lower panel can say of a track: the captions, and what stands behind each of them if it
is known. -/
def facts (t : Track) : List (String × Option String) := [
  ("Track", t.positionLabel?),
  ("Length", t.length.map fun x => timeLabel (some x)),
  ("Format", formatLabel? t),
  ("Released", releaseLabel? t),
  ("MusicBrainz", t.recordingUrl?.map fun _ => "View recording"),
  ("Lyrics", notBlank? t.lyrics),
  ("Comments", notBlank? t.comments)]

/-- The facts that are known, in their order. -/
def known (facts : List (String × Option String)) : List (String × String) :=
  facts.flatMap fun fact => fact.2.toList.map fun s => (fact.1, s)

/-- A caption that comes once among the facts is followed by what is known of its fact. -/
theorem mem_known_iff {facts : List (String × Option String)}
    (hnodup : (facts.map Prod.fst).Nodup) {caption : String} {content : Option String}
    (hfact : (caption, content) ∈ facts) (s : String) :
    (caption, s) ∈ known facts ↔ content = some s := by
  simp only [known, List.mem_flatMap, List.mem_map, Option.mem_toList]
  -- that the captions differ tells which fact it is that a caption stands for
  constructor
  · rintro ⟨⟨_, _⟩, hfact', _, rfl, ⟨⟩⟩
    exact congrArg Prod.snd (List.inj_on_of_nodup_map hnodup hfact hfact' rfl)
  · rintro rfl
    exact ⟨_, hfact, s, rfl, rfl⟩

/-- What is known stands in the order of the facts, each at most once. -/
theorem known_sublist (facts : List (String × Option String)) :
    ((known facts).map Prod.fst).Sublist (facts.map Prod.fst) := by
  induction facts with
  | nil => exact .refl _
  | cons fact facts ih =>
    obtain ⟨caption, content⟩ := fact
    cases content with
    | none => exact ih.cons caption
    | some s => exact ih.cons_cons caption

/-- The items are the first of the facts, down to the link. -/
theorem content_items (t : Track) :
    (items t).map (fun i => (i.1, i.2.content)) = known ((facts t).take 5) := by
  simp [items, facts, known, Option.toList_map, Function.comp_def, element, Markup.content,
    Markup.contentAll]

/-- What an item says has no captions in it. -/
theorem captioned_item {t : Track} {i : String × Markup} (hi : i ∈ items t) :
    i.2.captioned = [] := by
  simp only [items, List.mem_append, List.mem_map, Option.mem_toList] at hi
  obtain ((((⟨c, -, rfl⟩ | ⟨c, -, rfl⟩) | ⟨c, -, rfl⟩) | ⟨c, -, rfl⟩) | ⟨url, -, rfl⟩) := hi
  · rfl
  · rfl
  · rfl
  · rfl
  · simp [element, Markup.captioned, Markup.captionedAll, Markup.isCaption]

/-- The lower panel says what is known, fact by fact. -/
theorem captioned_extraDetail (t : Track) :
    (element "div" [("id", "extra-detail")] (extraDetail t)).captioned = known (facts t) := by
  have hitems := Markup.captionedAll_items (items t) fun i hi => captioned_item hi
  -- the items are captions in a list, the two texts have headings behind it
  have hlist : (element "dl" [] ((items t).flatMap fun i =>
      [element "dt" [] [.text i.1], element "dd" [] [i.2]])).captioned =
        known ((facts t).take 5) := by
    rw [← content_items, ← hitems]
    simp [element, Markup.captioned]
  have hrest (lyrics comments : Option String) : Markup.captionedAll
      ((lyrics.toList.flatMap fun s =>
        [element "h3" [] [.text "Lyrics"], labelled "pre" "lyrics" s]) ++
      comments.toList.flatMap fun s =>
        [element "h3" [] [.text "Comments"], labelled "p" "comments" s]) =
      known [("Lyrics", lyrics), ("Comments", comments)] := by
    cases lyrics <;> cases comments <;>
      simp [known, labelled, element, Markup.captioned, Markup.captionedAll, Markup.isCaption,
        Markup.content, Markup.contentAll]
  -- the list is no caption itself, so the captions of its items come first and unchanged
  rw [extraDetail, element, Markup.captioned, List.cons_append, Markup.captionedAll, hlist, hrest]
  simp [element, Markup.isCaption, facts, known]

/-- The only link in the lower panel is the one to the page of the recording. -/
theorem links_extraDetail (t : Track) :
    (element "div" [("id", "extra-detail")] (extraDetail t)).links = t.recordingUrl?.toList := by
  have htext (heading tag className : String) (content : Option String) (htag : tag ≠ "a") :
      (content.toList.flatMap fun s => [element "h3" [] [.text heading],
        labelled tag className s]).flatMap (Markup.select fun tag _ => tag == "a") = [] := by
    cases content <;> simp [labelled, element, Markup.select_element, htag]
  have hitems : ((items t).flatMap fun i => [element "dt" [] [.text i.1],
      element "dd" [] [i.2]]).flatMap (Markup.select fun tag _ => tag == "a") =
      (items t).flatMap fun i => i.2.select fun tag _ => tag == "a" := by
    simp [List.flatMap_assoc, element, Markup.select_element]
  rw [Markup.links, extraDetail, element, Markup.select_element, List.flatMap_append,
    List.flatMap_cons, htext "Lyrics" "pre" "lyrics" _ (by decide),
    htext "Comments" "p" "comments" _ (by decide), element, Markup.select_element, hitems]
  -- of the items only the last one is more than a text
  have hnone (texts : List String) : texts.flatMap (fun _ => ([] : List Markup)) = [] :=
    List.flatMap_eq_nil_iff.2 fun _ _ => rfl
  simp only [items, List.flatMap_append, List.flatMap_map, Markup.select_text, hnone]
  cases t.recordingUrl? <;>
    simp [element, Markup.select_element, Markup.address?, Markup.addressOf?]

/-- The lower panel of the details describes its track. -/
theorem describes_extraDetail (t : Track) :
    Describes (element "div" [("id", "extra-detail")] (extraDetail t)) t := by
  have hlinks := links_extraDetail t
  have hstands (caption : String) (content : Option String) (hfact : (caption, content) ∈ facts t)
      (s : String) :
      (caption, s) ∈ (element "div" [("id", "extra-detail")] (extraDetail t)).captioned ↔
        content = some s := by
    rw [captioned_extraDetail]
    exact mem_known_iff (by simp [facts]) hfact s
  -- each field asks which fact its caption stands for, and by which rule that is written
  constructor
  case order =>
    rw [captioned_extraDetail]
    exact known_sublist (facts t)
  case position =>
    intro s
    rw [hstands "Track" t.positionLabel? (by simp [facts]), Track.positionLabel?_eq_some_iff]
  case length =>
    intro s
    rw [hstands "Length" (t.length.map fun x => timeLabel (some x)) (by simp [facts]),
      Option.map_eq_some_iff]
    simp only [eq_comm]
  case format =>
    intro s
    rw [hstands "Format" (formatLabel? t) (by simp [facts]), formatLabel?_eq_some_iff]
  case release =>
    intro s
    rw [hstands "Released" (releaseLabel? t) (by simp [facts]), releaseLabel?_eq_some_iff]
  case recording =>
    intro s
    rw [hstands "MusicBrainz" (t.recordingUrl?.map fun _ => "View recording") (by simp [facts]),
      hlinks]
    cases t.recordingUrl? <;> simp [eq_comm]
  case link =>
    rw [hlinks]
    refine ⟨?_, fun url => ?_⟩
    · cases t.recordingUrl? <;> simp
    · rw [Option.mem_toList, Track.recordingUrl?_eq_some_iff]
  case lyrics =>
    intro s
    rw [hstands "Lyrics" (notBlank? t.lyrics) (by simp [facts]), notBlank?_eq_some_iff]
  case comments =>
    intro s
    rw [hstands "Comments" (notBlank? t.comments) (by simp [facts]), notBlank?_eq_some_iff]

end View

end LibraryPlayer
