import LibraryPlayer.Proofs.Catalog.Route
import LibraryPlayer.Proofs.Text.Runs

/-!
# References

What a page loads is named by a reference, which is read in view of the page's own address.  Both
are texts that fall into up to five parts at certain marks (`Reference.ofChars`), and the address
that a reference stands for is put together from the parts of the two (`Reference.against`): what
the reference has is taken from it, and the parts in front of that from the page.  A path that does
not start with a slash is one in the directory of the page's path; dot segments are removed from it.

* `against_relative`: a relative path is looked for in the page's directory.
-/

namespace LibraryPlayer

/-- The parts of an address or of a reference.  A part that is missing is not the same as an empty
one. -/
structure Reference where
  scheme : Option (List Char)
  authority : Option (List Char)
  path : List Char
  query : Option (List Char)
  fragment : Option (List Char)

namespace Reference

/-! ## Taking texts apart -/

/-- What stands in front of the first of some marks, and the text from that mark on. -/
def cut (marks s : List Char) : List Char × List Char :=
  (s.takeWhile (!marks.contains ·), s.dropWhile (!marks.contains ·))

/-- The scheme ends at a colon, and none of the other marks stands in front of that. -/
def readScheme (s : List Char) : Option (List Char) × List Char :=
  match cut [':', '/', '?', '#'] s with
  | (c :: cs, ':' :: rest) => (some (c :: cs), rest)
  | _ => (none, s)

/-- The authority follows two slashes. -/
def readAuthority : List Char → Option (List Char) × List Char
  | '/' :: '/' :: s => ((cut ['/', '?', '#'] s).1, (cut ['/', '?', '#'] s).2)
  | s => (none, s)

/-- The query follows a question mark. -/
def readQuery : List Char → Option (List Char) × List Char
  | '?' :: s => ((cut ['#'] s).1, (cut ['#'] s).2)
  | s => (none, s)

/-- The fragment follows a number sign and is all that is left. -/
def readFragment : List Char → Option (List Char)
  | '#' :: s => some s
  | _ => none

/-- The parts of a text; any text has a path, if only an empty one. -/
def ofChars (s : List Char) : Reference :=
  let (scheme, s) := readScheme s
  let (authority, s) := readAuthority s
  let (path, s) := cut ['?', '#'] s
  let (query, s) := readQuery s
  { scheme, authority, path, query, fragment := readFragment s }

/-- The text that has these parts. -/
def toChars (r : Reference) : List Char :=
  r.scheme.elim [] (· ++ [':']) ++ r.authority.elim [] ('/' :: '/' :: ·) ++ r.path ++
    r.query.elim [] ('?' :: ·) ++ r.fragment.elim [] ('#' :: ·)

/-! ## Resolving references -/

/-- The directory of a path: all of it up to its last slash. -/
def directory (path : List Char) : List Char := (path.reverse.dropWhile (· ≠ '/')).reverse

/-- The path of a relative reference, in the directory of the page. -/
def merge (page r : Reference) : List Char :=
  if page.authority.isSome ∧ page.path = [] then '/' :: r.path else directory page.path ++ r.path

/-- The address that a reference stands for on a page. -/
def against (page r : Reference) : Reference :=
  if r.scheme.isSome then { r with path := Path.removeDotsChars r.path }
  else if r.authority.isSome then
    { r with scheme := page.scheme, path := Path.removeDotsChars r.path }
  else if r.path = [] then { page with query := r.query.or page.query, fragment := r.fragment }
  else
    let path := if r.path.head? = some '/' then r.path else merge page r
    { page with path := Path.removeDotsChars path, query := r.query, fragment := r.fragment }

/-- The address that a reference stands for on the page of an address. -/
def resolve (page reference : String) : String :=
  .ofList (against (ofChars page.toList) (ofChars reference.toList)).toChars

example : resolve "http://a/b/c/d;p?q" "../g" = "http://a/b/g" := by decide
example : resolve "http://a/b/c/d;p?q" "//g" = "http://g" := by decide
example : resolve "http://a/b/c/d;p?q" "?y#s" = "http://a/b/c/d;p?y#s" := by decide
example : resolve "http://a/b/c/d;p?q" "g:h" = "g:h" := by decide

/-! ## Addresses and relative paths -/

section Parts

variable {marks s rest scheme authority path front file : List Char}

/-- Only a mark ends what stands in front of it. -/
theorem cut_append (h : ∀ c ∈ s, c ∉ marks) (hrest : ∀ c, rest.head? = some c → c ∈ marks) :
    cut marks (s ++ rest) = (s, rest) := by
  have hs : ∀ c ∈ s, (!marks.contains c) = true := fun c hc => by simpa using h c hc
  have hstop : ∀ c, rest.head? = some c → (!marks.contains c) = false := fun c hc => by
    simpa using hrest c hc
  rw [cut, Text.takeWhile_run hs hstop, Text.dropWhile_run hs hstop]

/-- Without a mark there is nothing to cut off. -/
theorem cut_of_not_mem (h : ∀ c ∈ s, c ∉ marks) : cut marks s = (s, []) := by
  have hcut : cut marks (s ++ []) = (s, []) := cut_append h (by simp)
  rwa [List.append_nil] at hcut

/-- The parts of an address that consists of a scheme, an authority and a path. -/
theorem ofChars_address (hne : scheme ≠ []) (hscheme : ∀ c ∈ scheme, c ∉ [':', '/', '?', '#'])
    (hauthority : ∀ c ∈ authority, c ∉ ['/', '?', '#']) (hpath : ∀ c ∈ path, c ∉ ['?', '#'])
    (hhead : path.head? = some '/') :
    ofChars (scheme ++ ':' :: '/' :: '/' :: (authority ++ path)) =
      ⟨some scheme, some authority, path, none, none⟩ := by
  -- the first mark is the colon of the scheme
  have hcolon : readScheme (scheme ++ ':' :: '/' :: '/' :: (authority ++ path)) =
      (some scheme, '/' :: '/' :: (authority ++ path)) := by
    rw [readScheme, cut_append hscheme (by simp)]
    obtain ⟨c, cs, rfl⟩ := List.exists_cons_of_ne_nil hne
    rfl
  -- behind the two slashes the first mark is the slash of the path
  have hslashes : readAuthority ('/' :: '/' :: (authority ++ path)) = (some authority, path) := by
    rw [readAuthority, cut_append hauthority (by simp [hhead])]
  simp only [ofChars, hcolon, hslashes, cut_of_not_mem hpath]
  rfl

/-- A path that has no marks and does not start with a slash is nothing but a path: what comes first
in it is neither a scheme nor an authority. -/
theorem ofChars_relative (hpath : ∀ c ∈ path, c ∉ [':', '?', '#'])
    (hhead : path.head? ≠ some '/') : ofChars path = ⟨none, none, path, none, none⟩ := by
  have hscheme : readScheme path = (none, path) := by
    unfold readScheme
    split
    next hcut =>
      -- the colon that would end a scheme would be one of the path's characters
      have hcolon : ':' ∈ path := by
        apply (List.dropWhile_suffix fun c => !([':', '/', '?', '#'].contains c)).mem
        simp only [cut, Prod.mk.injEq] at hcut
        rw [hcut.2]
        exact List.mem_cons_self
      exact absurd List.mem_cons_self (hpath ':' hcolon)
    · rfl
  -- two slashes in front would be an authority
  have hauthority : readAuthority path = (none, path) := by
    unfold readAuthority
    split
    · exact absurd rfl hhead
    · rfl
  have hwhole : cut ['?', '#'] path = (path, []) :=
    cut_of_not_mem fun c hc => mt (List.mem_cons_of_mem _) (hpath c hc)
  simp only [ofChars, hscheme, hauthority, hwhole]
  rfl

/-- The directory of a path ends with its last slash. -/
theorem directory_append (hfile : '/' ∉ file) :
    directory (front ++ '/' :: file) = front ++ ['/'] := by
  have hname : ∀ c ∈ file.reverse, decide (c ≠ '/') = true := fun c hc => by
    simpa using ne_of_mem_of_not_mem (List.mem_reverse.1 hc) hfile
  -- the last slash is the first one of the reversed path
  have hreverse : (front ++ '/' :: file).reverse = file.reverse ++ '/' :: front.reverse := by simp
  rw [directory, hreverse, Text.dropWhile_run hname (by simp)]
  simp

/-- A relative path is looked for in the directory of the page. -/
theorem against_relative (hfile : '/' ∉ file) (hne : path ≠ []) (hhead : path.head? ≠ some '/') :
    against ⟨some scheme, some authority, front ++ '/' :: file, none, none⟩
        ⟨none, none, path, none, none⟩ =
      ⟨some scheme, some authority, Path.removeDotsChars (front ++ '/' :: path), none, none⟩ := by
  have hmerge : merge ⟨some scheme, some authority, front ++ '/' :: file, none, none⟩
      ⟨none, none, path, none, none⟩ = front ++ '/' :: path := by
    rw [merge, if_neg (by simp), directory_append hfile, List.append_assoc]
    rfl
  simp [against, hne, hhead, hmerge]

end Parts

end Reference

end LibraryPlayer
