import LibraryPlayer.Location.Address
import LibraryPlayer.Proofs.Location.Reference
import LibraryPlayer.Proofs.Text.Decimals

/-!
# The directory of the page

The catalog is asked at addresses that its client puts together from a base, while audio is loaded
from relative references, which are resolved against the address of the page.  The base is the
page's directory (`Address.base_eq`), and a path of names is looked for there in both ways
(`url_eq_resolve`): nothing in such a path is taken for another part of an address, and nothing in
it is a step.

* `requests_resolve_like_loads`: the two ways agree on tracks and on queries.
-/

namespace LibraryPlayer

namespace Address

/-- An origin as a page reports it: a scheme and an authority with a colon and two slashes between
them.  Neither is empty, and nothing that could end one of them is part of it.  Without an
authority, as in `file://`, the two slashes would be slashes at the end of the origin, which are
dropped. -/
structure IsOrigin (origin : String) : Prop where
  trimmed : Text.trim origin = origin
  parts : ∃ scheme authority : String, origin = scheme ++ "://" ++ authority ∧
    scheme ≠ "" ∧ authority ≠ "" ∧ (∀ c ∈ scheme.toList, c ∉ [':', '/', '?', '#']) ∧
    ∀ c ∈ authority.toList, c ∉ ['/', '?', '#']

/-- A page without an authority asks the catalog at another address than it loads audio from. -/
example : (Client.ofBase (base "file://" "/me/index.html")).url "item/7/file" =
      "file:/me/item/7/file" ∧
    Reference.resolve "file:///me/index.html" "item/7/file" = "file:///me/item/7/file" := by decide

/-- The path of a page: it starts with a slash, has no query or fragment behind it, and none of its
pieces is a step. -/
structure IsPathname (path : String) : Prop where
  rooted : path.toList.head? = some '/'
  clean : ∀ c ∈ path.toList, c ∉ ['?', '#']
  no_steps : ∀ piece ∈ Query.pieces path, piece ≠ "." ∧ piece ≠ ".."

end Address

/-! ## Paths without steps -/

namespace Path

/-- The two steps as texts. -/
theorem isDots_toList_iff {s : String} : IsDots s.toList ↔ s = "." ∨ s = ".." := by
  rw [← String.toList_inj, ← String.toList_inj]
  rfl

/-- What stands between slashes has none in it. -/
theorem slash_not_mem_splitOn (s : List Char) : ∀ piece ∈ s.splitOn '/', '/' ∉ piece := by
  -- a slash starts a new piece, any other character joins the first
  induction s with
  | nil => simp
  | cons c s ih =>
    rw [List.splitOn_cons_eq_if_modifyHead]
    split
    · simpa using ih
    next hc =>
      obtain ⟨piece, pieces, hs⟩ := List.exists_cons_of_ne_nil (List.splitOn_ne_nil '/' s)
      have hne : '/' ≠ c := by
        rintro rfl
        exact hc rfl
      rw [hs, List.forall_mem_cons] at ih
      rw [hs, List.modifyHead_cons, List.forall_mem_cons]
      exact ⟨by simp [hne, ih.1], ih.2⟩

/-- A path from the root keeps its form when none of its pieces is a step. -/
theorem removeDotsChars_eq_self {s : List Char} (hhead : s.head? = some '/')
    (h : ∀ piece ∈ s.splitOn '/', ¬IsDots piece) : removeDotsChars s = s := by
  rw [removeDotsChars_of_slash hhead]
  obtain ⟨rest, rfl⟩ : ∃ rest, s = '/' :: rest := List.head?_eq_some_iff.1 hhead
  obtain ⟨piece, pieces, hrest⟩ := List.exists_cons_of_ne_nil (List.splitOn_ne_nil '/' rest)
  -- in front of each piece of what follows the first slash stands a slash
  have hslashed : slashed (rest.splitOn '/') = '/' :: rest := by
    rw [hrest, slashed_cons, ← Query.intercalate_eq_slashed, ← hrest, List.intercalate_splitOn]
  have hpieces : ∀ piece ∈ rest.splitOn '/', ¬IsDots piece := by
    intro piece hpiece
    apply h
    rw [List.splitOn_cons_eq_if_modifyHead]
    simp [hpiece]
  rw [← hslashed]
  exact (follow_slashed_iff (slash_not_mem_splitOn rest) []).2 hpieces

/-- A name in a path: it is neither empty nor a step, and no mark of an address is part of it. -/
structure IsName (s : String) : Prop where
  ne_empty : s ≠ ""
  clean : ∀ c ∈ s.toList, c ∉ [':', '/', '?', '#']
  no_step : s ≠ "." ∧ s ≠ ".."

/-- Names with slashes between them. -/
def IsNames (path : String) : Prop :=
  ∃ names : List String, names ≠ [] ∧ (∀ name ∈ names, IsName name) ∧
    path = "/".intercalate names

section Names

variable {path : String} (h : IsNames path)
include h

/-- The characters of a path of names: those of its first name, then the others behind slashes. -/
theorem IsNames.exists_slashed : ∃ (name : String) (names : List String),
    (∀ n ∈ name :: names, IsName n) ∧
      path.toList = name.toList ++ slashed (names.map String.toList) := by
  obtain ⟨names, hne, hnames, rfl⟩ := h
  obtain ⟨name, names, rfl⟩ := List.exists_cons_of_ne_nil hne
  refine ⟨name, names, hnames, ?_⟩
  rw [String.toList_intercalate]
  exact Query.intercalate_eq_slashed _ _

/-- There is no mark in a path of names but the slashes. -/
theorem IsNames.clean : ∀ c ∈ path.toList, c ∉ [':', '?', '#'] := by
  obtain ⟨name, names, hnames, hpath⟩ := h.exists_slashed
  have hmark {n : String} (hn : n ∈ name :: names) : ∀ c ∈ n.toList, c ∉ [':', '?', '#'] := by
    intro c hc hmark
    have hclean := (hnames n hn).clean c hc
    simp only [List.mem_cons] at hmark hclean
    tauto
  intro c hc
  rw [hpath, List.mem_append, slashed, List.flatMap_map, List.mem_flatMap] at hc
  -- a character of the first name, a slash, or a character of another name
  rcases hc with hc | ⟨n, hn, hc⟩
  · exact hmark List.mem_cons_self c hc
  · rcases List.mem_cons.1 hc with rfl | hc
    · decide
    · exact hmark (List.mem_cons_of_mem _ hn) c hc

/-- A path of names is not empty. -/
theorem IsNames.ne_nil : path.toList ≠ [] := by
  obtain ⟨name, names, hnames, hpath⟩ := h.exists_slashed
  have hname := hnames name List.mem_cons_self
  have hne : name.toList ≠ [] := mt String.toList_eq_nil_iff.1 hname.ne_empty
  simp [hpath, hne]

/-- It does not start with a slash. -/
theorem IsNames.head_ne_slash : path.toList.head? ≠ some '/' := by
  obtain ⟨name, names, hnames, hpath⟩ := h.exists_slashed
  have hname := hnames name List.mem_cons_self
  obtain ⟨c, cs, hcs⟩ := List.exists_cons_of_ne_nil (mt String.toList_eq_nil_iff.1 hname.ne_empty)
  have hclean := hname.clean c (by simp [hcs])
  rw [hpath, hcs, List.cons_append, List.head?_cons]
  rintro ⟨⟩
  simp at hclean

/-- The pieces of a path of names are the names, and these are no steps. -/
theorem IsNames.no_steps : ∀ piece ∈ path.toList.splitOn '/', ¬IsDots piece := by
  obtain ⟨names, hne, hnames, rfl⟩ := h
  have hslash : ∀ n ∈ names, '/' ∉ n.toList := by
    intro n hn hmem
    exact (hnames n hn).clean '/' hmem (by simp)
  -- names have no slashes, so they are what stands between them
  have hpieces : ("/".intercalate names).toList.splitOn '/' = names.map String.toList := by
    rw [String.toList_intercalate]
    exact List.splitOn_intercalate '/' (by simpa using hslash) (by simpa using hne)
  rw [hpieces, List.forall_mem_map]
  intro n hn hdots
  exact (isDots_toList_iff.1 hdots).elim (hnames n hn).no_step.1 (hnames n hn).no_step.2

end Names

/-- A text of characters that are written as themselves and of percent signs is a name, if it is
neither empty nor a step. -/
theorem isName_of_isPlain {s : String} (hne : s ≠ "")
    (h : ∀ c ∈ s.toList, Text.Percent.isPlain c = true ∨ c = '%')
    (hstep : s ≠ "." ∧ s ≠ "..") : IsName s := by
  refine ⟨hne, fun c hc hmark => ?_, hstep⟩
  simp only [List.mem_cons, List.not_mem_nil, or_false] at hmark
  have hplain := h c hc
  -- none of the four marks is written as itself
  obtain rfl | rfl | rfl | rfl := hmark <;> simp at hplain <;> exact absurd hplain (by decide)

end Path

/-- The path of a track's audio is made of names. -/
theorem Track.isNames_audioPath (t : Track) : Path.IsNames t.audioPath := by
  have hnumeral := Text.isNumeral_repr t.id.toNat
  have hdigit : ∀ c ∈ t.id.toNat.repr.toList, c.isDigit = true := hnumeral.digits
  -- a numeral is made of digits, which are plain and no full stops
  have hid : Path.IsName t.id.toNat.repr := by
    apply Path.isName_of_isPlain
    · exact mt String.toList_eq_nil_iff.2 hnumeral.ne_nil
    · intro c hc
      simp [Text.Percent.isPlain, Char.isAlphanum, hdigit c hc]
    · have hstop : '.' ∉ t.id.toNat.repr.toList := fun hmem =>
        absurd (hdigit '.' hmem) (by decide)
      constructor <;> intro hstep <;> simp [hstep] at hstop
  refine ⟨["item", t.id.toNat.repr, "file"], by simp, ?_, ?_⟩
  · simp only [List.forall_mem_cons, List.not_mem_nil, false_implies, implies_true, and_true]
    exact ⟨⟨by decide, by simp, by decide⟩, hid, ⟨by decide, by simp, by decide⟩⟩
  · rw [Track.audioPath, ← String.toList_inj, String.toList_intercalate]
    simp [List.intercalate]

/-- The path of a query is made of names, unless a word of it is a step. -/
theorem Query.isNames_path? {query path : String} (h : path? query = some path)
    (hwords : ∀ word ∈ Text.words query, word ≠ "." ∧ word ≠ "..") : Path.IsNames path := by
  have hsteps := (forall_not_isDots_iff query).2 hwords
  refine ⟨pathSegments query, List.cons_ne_nil _ _, fun s hs => ?_, path?_eq_intercalate h⟩
  have hstep : s ≠ "." ∧ s ≠ ".." := by
    rw [← not_or, ← Path.isDots_toList_iff]
    exact hsteps _ (List.mem_map_of_mem hs)
  simp only [pathSegments, List.mem_cons] at hs
  -- the two segments of the route, and those of the words
  rcases hs with rfl | rfl | hs
  · exact ⟨by decide, by simp, hstep⟩
  · exact ⟨by decide, by simp, hstep⟩
  · obtain ⟨hne, hwritten⟩ := mem_segments hs
    exact Path.isName_of_isPlain hne hwritten.isPlain_or hstep

/-! ## The base of a page -/

namespace Address

/-- A path without a slash is in no directory. -/
theorem directory?_eq_none {s : List Char} (h : '/' ∉ s) : directory? s = none := by
  induction s with
  | nil => rfl
  | cons c s ih =>
    have hc : c ≠ '/' := fun hc => h (by simp [hc])
    simp [directory?, ih (mt (List.mem_cons_of_mem c) h), hc]

/-- The directory of a path ends with the last slash of the path. -/
theorem directory?_append {file : List Char} (hfile : '/' ∉ file) (front : List Char) :
    directory? (front ++ '/' :: file) = some (front ++ ['/']) := by
  induction front with
  | nil => simp [directory?, directory?_eq_none hfile]
  | cons c front ih => simp [directory?, ih]

variable {origin pathname : String}

/-- The path of a page is that of a file in a directory, which goes up to the last slash.  The name
of the file may be empty, and other paths in the directory start with a slash as well. -/
theorem IsPathname.exists_file (h : IsPathname pathname) : ∃ front file,
    pathname.toList = front ++ '/' :: file ∧ '/' ∉ file ∧
      ∀ rest, (front ++ '/' :: rest).head? = some '/' := by
  have hmem : '/' ∈ pathname.toList.reverse := by
    rw [List.mem_reverse]
    exact List.mem_of_head? h.rooted
  -- the last slash is the first one of the reversed path
  obtain ⟨file, front, hpath, hfile⟩ := List.eq_append_cons_of_mem hmem
  have hsplit : pathname.toList = front.reverse ++ '/' :: file.reverse := by
    rw [← List.reverse_reverse pathname.toList, hpath]
    simp
  refine ⟨front.reverse, file.reverse, hsplit, by simpa using hfile, fun rest => ?_⟩
  rw [← h.rooted, hsplit, List.head?_append, List.head?_append, List.head?_cons, List.head?_cons]

/-- An origin does not end in a slash, as its authority is not empty and has none. -/
theorem IsOrigin.last_ne_slash (h : IsOrigin origin) :
    ∀ c, origin.toList.reverse.head? = some c → decide (c = '/') = false := by
  obtain ⟨scheme, authority, rfl, -, hne, -, hauthority⟩ := h.parts
  intro c hc
  have hmem : c ∈ authority.toList := by
    have hlast : authority.toList.reverse ≠ [] := by simpa using hne
    rw [String.toList_append, List.reverse_append, List.head?_append_of_ne_nil _ hlast] at hc
    exact List.mem_reverse.1 (List.mem_of_head? hc)
  have hclean := hauthority c hmem
  simp only [List.mem_cons, not_or] at hclean
  exact decide_eq_false hclean.1

/-- The base is the directory of the page, under the origin. -/
theorem base_eq (h : IsOrigin origin) {front file : List Char}
    (hpath : pathname.toList = front ++ '/' :: file) (hfile : '/' ∉ file)
    (hrooted : (front ++ ['/']).head? = some '/') :
    (base origin pathname).toList = origin.toList ++ (front ++ ['/']) := by
  have horigin := Text.dropWhile_of_stop h.last_ne_slash
  simp only [base, horigin, hpath, directory?_append hfile, Option.getD_some, hrooted, if_pos,
    List.reverse_reverse, String.toList_ofList]

/-- There is nothing to trim in a base: it starts with a scheme and ends with a slash. -/
theorem trim_base (h : IsOrigin origin) (hp : IsPathname pathname) :
    Text.trim (base origin pathname) = base origin pathname := by
  obtain ⟨front, file, hpath, hfile, hrooted⟩ := hp.exists_file
  have hbase := base_eq h hpath hfile (hrooted [])
  have htrimmed : Text.IsTrimmed origin.toList := by
    have horigin := congrArg String.toList h.trimmed
    rw [Text.toList_trim] at horigin
    rw [← horigin]
    exact Text.trimChars_isTrimmed _
  have hne : origin.toList ≠ [] := by
    obtain ⟨scheme, authority, rfl, -⟩ := h.parts
    simp
  have hkept : Text.IsTrimmed (base origin pathname).toList := by
    rw [hbase]
    -- the first character is that of the origin, the last one is the slash of the directory
    constructor
    · intro c hc
      rw [List.head?_append_of_ne_nil _ hne] at hc
      exact htrimmed.head c hc
    · intro c hc
      rw [← List.append_assoc, List.getLast?_concat] at hc
      obtain rfl : '/' = c := Option.some.inj hc
      decide
  rw [← String.toList_inj, Text.toList_trim]
  exact hkept.trimChars_eq

/-- A client takes such a base as it is. -/
theorem base_ofBase_base (h : IsOrigin origin) (hp : IsPathname pathname) :
    (Client.ofBase (base origin pathname)).base = base origin pathname := by
  obtain ⟨front, file, hpath, hfile, hrooted⟩ := hp.exists_file
  have hlast : (base origin pathname).toList.getLast? = some '/' := by
    rw [base_eq h hpath hfile (hrooted []), ← List.append_assoc, List.getLast?_concat]
  rw [Client.base_ofBase, trim_base h hp, if_pos hlast]

end Address

/-! ## Requests and loads -/

section Page

variable {origin pathname path : String} (horigin : Address.IsOrigin origin)
  (hpathname : Address.IsPathname pathname) (hpath : Path.IsNames path)
include horigin hpathname hpath

/-- On a page, a path of names stands for itself in the page's directory. -/
theorem resolve_names {front file : List Char} (hfront : pathname.toList = front ++ '/' :: file)
    (hfile : '/' ∉ file) (hrooted : (front ++ '/' :: path.toList).head? = some '/') :
    (Reference.resolve (origin ++ pathname) path).toList =
      origin.toList ++ (front ++ '/' :: path.toList) := by
  obtain ⟨scheme, authority, hparts, hscheme, -, hschemeMarks, hauthorityMarks⟩ := horigin.parts
  have hpage : (origin ++ pathname).toList =
      scheme.toList ++ ':' :: '/' :: '/' :: (authority.toList ++ pathname.toList) := by
    rw [hparts]
    simp
  -- the pieces of the new path are those of the page's directory and then the names
  have hsteps : ∀ piece ∈ (front ++ '/' :: path.toList).splitOn '/', ¬Path.IsDots piece := by
    intro piece hpiece
    rw [List.splitOn_append_cons_self, List.mem_append] at hpiece
    rcases hpiece with hpiece | hpiece
    · have hmem : String.ofList piece ∈ Query.pieces pathname := by
        rw [Query.pieces, hfront, List.splitOn_append_cons_self]
        exact List.mem_map_of_mem (List.mem_append_left _ hpiece)
      rw [← String.toList_ofList (l := piece), Path.isDots_toList_iff, not_or]
      exact hpathname.no_steps _ hmem
    · exact hpath.no_steps piece hpiece
  -- both texts are taken apart, merged, and there is no step to remove
  rw [Reference.resolve, hpage, String.toList_ofList,
    Reference.ofChars_address (by simpa using hscheme) hschemeMarks hauthorityMarks hpathname.clean
      hpathname.rooted,
    Reference.ofChars_relative hpath.clean hpath.head_ne_slash, hfront,
    Reference.against_relative hfile hpath.ne_nil hpath.head_ne_slash,
    Path.removeDotsChars_eq_self hrooted hsteps, hparts]
  simp [Reference.toChars]

/-- The address that the client has for a path of names is the one that the path stands for on the
page. -/
theorem url_eq_resolve :
    (Client.ofBase (Address.base origin pathname)).url path =
      Reference.resolve (origin ++ pathname) path := by
  obtain ⟨front, file, hfront, hfile, hrooted⟩ := hpathname.exists_file
  rw [← String.toList_inj, resolve_names horigin hpathname hpath hfront hfile (hrooted _),
    Client.url_eq _ hpath.head_ne_slash, Address.base_ofBase_base horigin hpathname,
    String.toList_append, Address.base_eq horigin hfront hfile (hrooted [])]
  simp

end Page

/-- Where a page asks the catalog and where it loads audio from.  The path of a track's audio, and
that of a query without a step among its words, has the same address in two ways: under the base
that is the page's directory, and as a reference on the page.  The base is the origin with the part
of the page's path up to its last slash, so all pages of a directory have the same addresses, and
the client takes it as it is. -/
theorem requests_resolve_like_loads {origin pathname : String} (horigin : Address.IsOrigin origin)
    (hpathname : Address.IsPathname pathname) :
    let base := Address.base origin pathname
    let client := Client.ofBase base
    (∀ track : Track,
      client.url track.audioPath = Reference.resolve (origin ++ pathname) track.audioPath) ∧
    (∀ query path, Query.path? query = some path →
      (∀ word ∈ Text.words query, word ≠ "." ∧ word ≠ "..") →
      client.url path = Reference.resolve (origin ++ pathname) path) ∧
    (∃ dir file : String, pathname = dir ++ file ∧ dir.toList.getLast? = some '/' ∧
      '/' ∉ file.toList ∧ base = origin ++ dir ∧
      ∀ file' : String, '/' ∉ file'.toList → ∀ path,
        (Client.ofBase (Address.base origin (dir ++ file'))).url path = client.url path) ∧
    client.base = base := by
  intro base client
  obtain ⟨front, file, hfront, hfile, hrooted⟩ := hpathname.exists_file
  have hbase := Address.base_eq horigin hfront hfile (hrooted [])
  refine ⟨fun track => ?loads, fun query path hpath hwords => ?requests,
    ⟨.ofList (front ++ ['/']), .ofList file, ?path, ?last, by simpa using hfile, ?base,
      fun file' hfile' path => ?same⟩, Address.base_ofBase_base horigin hpathname⟩
  case loads => exact url_eq_resolve horigin hpathname track.isNames_audioPath
  case requests => exact url_eq_resolve horigin hpathname (Query.isNames_path? hpath hwords)
  case path =>
    rw [← String.toList_inj, hfront]
    simp
  case last => simp
  case base =>
    rw [← String.toList_inj, hbase]
    simp
  -- only the directory of the page goes into its base
  case same =>
    have hpath' : (String.ofList (front ++ ['/']) ++ file').toList =
        front ++ '/' :: file'.toList := by simp
    have hsame : Address.base origin (.ofList (front ++ ['/']) ++ file') = base := by
      rw [← String.toList_inj, Address.base_eq horigin hpath' hfile' (hrooted []), hbase]
    rw [hsame]

/-- A page with a port, two slashes at the start of its path and two in the middle: where it loads a
track from, and where it asks for words with marks in them. -/
theorem requests_resolve_like_loads_of_doubled_slashes :
    let origin := "http://music.lan:8337"
    let pathname := "//beets//index.html"
    let client := Client.ofBase (Address.base origin pathname)
    let track : Track := { id := 12 }
    Address.IsOrigin origin ∧ Address.IsPathname pathname ∧
    client.base = "http://music.lan:8337//beets//" ∧
    Reference.resolve "http://music.lan:8337//beets//index.html" "item/12/file" =
      "http://music.lan:8337//beets//item/12/file" ∧
    client.url track.audioPath = Reference.resolve (origin ++ pathname) track.audioPath ∧
    Query.path? "artist:AC/DC ...?" = some "item/query/artist%3AAC%2FDC/...%3F" ∧
    client.url "item/query/artist%3AAC%2FDC/...%3F" =
      Reference.resolve (origin ++ pathname) "item/query/artist%3AAC%2FDC/...%3F" := by
  intro origin pathname client track
  have horigin : Address.IsOrigin origin :=
    ⟨by decide, "http", "music.lan:8337", by decide, by decide, by decide, by simp, by simp⟩
  have hpathname : Address.IsPathname pathname := ⟨by decide, by simp [pathname], by decide⟩
  have hquery : Query.path? "artist:AC/DC ...?" = some "item/query/artist%3AAC%2FDC/...%3F" := by
    decide
  obtain ⟨hloads, hrequests, -, hbase⟩ := requests_resolve_like_loads horigin hpathname
  exact ⟨horigin, hpathname, hbase.trans (by decide), by decide, hloads track, hquery,
    hrequests _ _ hquery (by decide)⟩

end LibraryPlayer
