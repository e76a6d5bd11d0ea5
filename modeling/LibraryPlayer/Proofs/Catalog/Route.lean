import LibraryPlayer.Proofs.Catalog.Requests
import LibraryPlayer.Proofs.Text.Runs

/-!
# Dot segments in a query's path

Before an address is requested its dot segments are removed: `.` stands for the directory it is in
and `..` for the one above.  The full stop is a character that is written as itself, so a word that
is one of the two goes into the path as such a segment and is taken for a step instead of a word.

* `route_kept_iff`: the path of a query keeps its form exactly when no word is a dot segment.
-/

namespace LibraryPlayer

namespace Path

/-! ## Removing dot segments -/

/-- A path without its last segment and the slash in front of that. -/
def parent (path : List Char) : List Char := (path.reverse.dropWhile (· ≠ '/')).tail.reverse

/-- Removes the dot segments in the part of a path that is still to be looked at, given the part
that is done.  A dot segment starts at a slash and ends before one or at the end of the path, where
its slash stays. -/
def follow (done : List Char) : List Char → List Char
  | '/' :: '.' :: '/' :: s => follow done ('/' :: s)
  | ['/', '.'] => done ++ ['/']
  | '/' :: '.' :: '.' :: '/' :: s => follow (parent done) ('/' :: s)
  | ['/', '.', '.'] => parent done ++ ['/']
  | c :: s => follow (done ++ [c]) s
  | [] => done

/-- Removes the dot segments of a path; those in front of the first slash go without a trace. -/
def removeDotsChars : List Char → List Char
  | '.' :: '.' :: '/' :: s => removeDotsChars s
  | '.' :: '/' :: s => removeDotsChars s
  | ['.', '.'] => []
  | ['.'] => []
  | s => follow [] s

/-- The path without dot segments. -/
def removeDots (path : String) : String := .ofList (removeDotsChars path.toList)

example : removeDots "/a/b/c/./../../g" = "/a/g" := by decide
example : removeDots "mid/content=5/../6" = "mid/6" := by decide
example : removeDots "/a/.." = "/" := by decide

/-- The two segments that are steps. -/
def IsDots (segment : List Char) : Prop := segment = ['.'] ∨ segment = ['.', '.']

/-- Segments in a path, with a slash in front of each. -/
def slashed (segments : List (List Char)) : List Char := segments.flatMap ('/' :: ·)

/-- A first segment comes with its slash. -/
theorem slashed_cons (s : List Char) (ss : List (List Char)) :
    slashed (s :: ss) = '/' :: (s ++ slashed ss) := rfl

/-- A place in a path where a segment is over. -/
def AtSlash (s : List Char) : Prop := s = [] ∨ ∃ rest, s = '/' :: rest

/-- Segments start with a slash, or there are none. -/
theorem atSlash_slashed (ss : List (List Char)) : AtSlash (slashed ss) := by
  cases ss with
  | nil => exact .inl rfl
  | cons s ss => exact .inr ⟨_, slashed_cons s ss⟩

/-- A segment is what stands before the next slash. -/
theorem takeWhile_segment {segment s : List Char} (h : '/' ∉ segment) (hs : AtSlash s) :
    (segment ++ s).takeWhile (· ≠ '/') = segment := by
  have hsegment : ∀ c ∈ segment, decide (c ≠ '/') = true := fun c hc => by
    simpa using ne_of_mem_of_not_mem hc h
  apply Text.takeWhile_run hsegment
  obtain rfl | ⟨rest, rfl⟩ := hs <;> simp

/-- A slash that is added at the end changes nothing of what stands before the first. -/
theorem takeWhile_append_slash (s rest : List Char) :
    (s ++ '/' :: rest).takeWhile (· ≠ '/') = s.takeWhile (· ≠ '/') := by
  induction s with
  | nil => simp
  | cons c s ih => rw [List.cons_append, List.takeWhile_cons, List.takeWhile_cons, ih]

/-- What stands before the first slash is followed by it, or by nothing. -/
theorem eq_append_of_takeWhile {s segment : List Char}
    (h : s.takeWhile (· ≠ '/') = segment) : ∃ rest, AtSlash rest ∧ s = segment ++ rest := by
  refine ⟨s.dropWhile (· ≠ '/'), ?_, by rw [← h, List.takeWhile_append_dropWhile]⟩
  -- what is left is nothing, or starts with the slash that ended the run
  cases hrest : s.dropWhile (· ≠ '/') with
  | nil => exact .inl rfl
  | cons c rest =>
    have hc := List.head?_dropWhile_not (· ≠ '/') s
    rw [hrest] at hc
    exact .inr ⟨rest, by simpa using hc⟩

/-- A character that starts no step is taken over. -/
theorem follow_cons {c : Char} {s : List Char} (h : c = '/' → ¬IsDots (s.takeWhile (· ≠ '/')))
    (done : List Char) : follow done (c :: s) = follow (done ++ [c]) s := by
  rw [follow]
  -- the rules for dot segments are those that the assumption excludes
  all_goals
    intros
    subst_vars
    simp [IsDots] at h

/-- Characters of a segment are taken over. -/
theorem follow_append {segment : List Char} (h : '/' ∉ segment) (done s : List Char) :
    follow done (segment ++ s) = follow (done ++ segment) s := by
  -- none of its characters is a slash, so none starts a step
  induction segment generalizing done with
  | nil => simp
  | cons c segment ih =>
    obtain ⟨hc, hsegment⟩ := not_or.1 (mt List.mem_cons.2 h)
    rw [List.cons_append, follow_cons fun heq => absurd heq.symm hc, ih hsegment,
      List.append_assoc, List.singleton_append]

/-- A segment that is no step is taken over. -/
theorem follow_segment {segment s : List Char} (h : '/' ∉ segment) (hdots : ¬IsDots segment)
    (hs : AtSlash s) (done : List Char) :
    follow done ('/' :: (segment ++ s)) = follow (done ++ '/' :: segment) s := by
  rw [follow_cons fun _ => by rwa [takeWhile_segment h hs], follow_append h, List.append_assoc,
    List.singleton_append]

/-- The directory above has a path that is no longer. -/
theorem length_parent_le (path : List Char) : (parent path).length ≤ path.length := by
  have h := (List.dropWhile_suffix (· ≠ '/') : path.reverse.dropWhile _ <:+ _).length_le
  simp only [parent, List.length_reverse, List.length_tail] at h ⊢
  omega

/-- Removing dot segments makes no path longer. -/
theorem length_follow_le (done s : List Char) :
    (follow done s).length ≤ done.length + s.length := by
  -- each rule drops something of the path or takes it over
  fun_induction follow done s with
  | case1 done s ih => grind
  | case2 done => simp
  | case3 done s ih => grind [length_parent_le]
  | case4 done => grind [length_parent_le]
  | case5 done c s _ _ _ _ ih => grind
  | case6 done => simp

/-- A step makes the path shorter. -/
theorem length_follow_dots_lt {segment s : List Char} (hdots : IsDots segment) (hs : AtSlash s)
    (done : List Char) :
    (follow done ('/' :: (segment ++ s))).length <
      done.length + ('/' :: (segment ++ s)).length := by
  have hparent := length_parent_le done
  -- the step itself is gone, and what follows it does not grow
  obtain rfl | rfl := hdots <;> obtain rfl | ⟨rest, rfl⟩ := hs
  · simp [follow]
  · have := length_follow_le done ('/' :: rest)
    simp [follow] at *
    omega
  · simp [follow]
    omega
  · have := length_follow_le (parent done) ('/' :: rest)
    simp [follow] at *
    omega

/-- Segments are taken over as they are exactly when none of them is a step. -/
theorem follow_slashed_iff {segments : List (List Char)} (h : ∀ s ∈ segments, '/' ∉ s)
    (done : List Char) :
    follow done (slashed segments) = done ++ slashed segments ↔ ∀ s ∈ segments, ¬IsDots s := by
  -- by the first segment: a step shortens the path, anything else is taken over
  induction segments generalizing done with
  | nil => simp [slashed, follow]
  | cons s ss ih =>
    rw [List.forall_mem_cons] at h ⊢
    rw [slashed_cons]
    by_cases hs : IsDots s
    -- what has become shorter is not the same
    · refine iff_of_false (fun heq => ?_) fun hall => hall.1 hs
      have hlt := length_follow_dots_lt hs (atSlash_slashed ss) done
      rw [heq, List.length_append] at hlt
      exact Nat.lt_irrefl _ hlt
    · rw [follow_segment h.1 hs (atSlash_slashed ss), ← List.cons_append, ← List.append_assoc,
        ih h.2 (done ++ '/' :: s)]
      simp [hs]

/-- What is done when a slash is reached does not depend on what comes after the slash. -/
theorem exists_follow_append (done dir : List Char) :
    ∃ done', ∀ s, follow done (dir ++ '/' :: s) = follow done' ('/' :: s) := by
  -- on the rules that are applied up to the slash
  fun_induction follow done dir with
  | case1 done s ih => simpa [follow] using ih
  | case2 done => exact ⟨done, fun s => by simp [follow]⟩
  | case3 done s ih => simpa [follow] using ih
  | case4 done => exact ⟨parent done, fun s => by simp [follow]⟩
  | case5 done c dir h1 h2 h3 h4 ih =>
    obtain ⟨done', hdone'⟩ := ih
    refine ⟨done', fun s => ?_⟩
    rw [← hdone', List.cons_append, follow_cons]
    -- a step that ends at the new slash would have ended at the end of `dir`
    rintro rfl hstep
    rw [takeWhile_append_slash] at hstep
    obtain hstep | hstep := hstep
    all_goals
      obtain ⟨rest, rfl | ⟨rest, rfl⟩, rfl⟩ := eq_append_of_takeWhile hstep
    · exact h2 rfl rfl
    · exact h1 rest rfl rfl
    · exact h4 rfl rfl
    · exact h3 rest rfl rfl
  | case6 done => exact ⟨done, fun s => rfl⟩

/-- In front of the first slash there is nothing to remove. -/
theorem removeDotsChars_of_slash {s : List Char} (h : s.head? = some '/') :
    removeDotsChars s = follow [] s := by
  cases s with
  | nil => exact nomatch h
  | cons c s =>
    obtain rfl : c = '/' := by simpa using h
    rfl

/-- Under a directory, segments are taken over as they are exactly when none of them is a step. -/
theorem removeDotsChars_append_iff {dir : List Char} {segments : List (List Char)}
    (hdir : (dir ++ ['/']).head? = some '/') (hne : segments ≠ []) (h : ∀ s ∈ segments, '/' ∉ s) :
    removeDotsChars (dir ++ slashed segments) =
        removeDotsChars (dir ++ ['/']) ++ (slashed segments).tail ↔
      ∀ s ∈ segments, ¬IsDots s := by
  obtain ⟨rest, hrest⟩ : ∃ rest, slashed segments = '/' :: rest := by
    obtain ⟨s, ss, rfl⟩ := List.exists_cons_of_ne_nil hne
    exact ⟨_, slashed_cons s ss⟩
  have hhead : (dir ++ slashed segments).head? = some '/' := by
    rw [hrest, ← hdir, List.head?_append, List.head?_append, List.head?_cons, List.head?_cons]
  -- both paths reach the slash with the same part done
  obtain ⟨done, hdone⟩ := exists_follow_append [] dir
  have hdir' : follow done ['/'] = done ++ ['/'] := by simp [follow]
  rw [removeDotsChars_of_slash hdir, removeDotsChars_of_slash hhead, hdone, hrest, hdone, hdir',
    List.tail_cons, List.append_assoc, List.singleton_append, ← hrest, follow_slashed_iff h]

end Path

namespace Query

/-- The segments of a query's path, those of its route included. -/
def pathSegments (query : String) : List String := "item" :: "query" :: segments query

/-- Segments between slashes are the first one, and the others with a slash in front of each. -/
theorem intercalate_eq_slashed (s : List Char) (ss : List (List Char)) :
    ['/'].intercalate (s :: ss) = s ++ Path.slashed ss := by
  -- each further segment brings the slash before it
  induction ss generalizing s with
  | nil => simp [Path.slashed]
  | cons t ss ih =>
    rw [List.intercalate_cons_cons, ih, Path.slashed_cons]
    simp

/-- The path of a query is its segments and those of the route between slashes. -/
theorem path?_eq_intercalate {query path : String} (h : path? query = some path) :
    path = "/".intercalate (pathSegments query) := by
  have hne : segments query ≠ [] := by
    intro hnil
    simp [path?, hnil] at h
  rw [path?_eq_some hne, Option.some.injEq] at h
  rw [← h, ← String.toList_inj, String.toList_append, String.toList_intercalate,
    String.toList_intercalate]
  obtain ⟨s, ss, hs⟩ := List.exists_cons_of_ne_nil hne
  rw [pathSegments, hs]
  rfl

/-- So it is the first segment of the route, and the others with a slash in front of each. -/
theorem toList_path? {query path : String} (h : path? query = some path) :
    path.toList = "item".toList ++
      Path.slashed ("query".toList :: (segments query).map String.toList) := by
  rw [path?_eq_intercalate h, String.toList_intercalate]
  exact intercalate_eq_slashed _ _

/-- No segment has a slash in it. -/
theorem slash_not_mem_pathSegments {query : String} :
    ∀ s ∈ (pathSegments query).map String.toList, '/' ∉ s := by
  rw [List.forall_mem_map, pathSegments, List.forall_mem_cons, List.forall_mem_cons]
  exact ⟨by decide, by decide, fun s hs => (mem_segments hs).2.slash_not_mem⟩

/-- The only word that is written as a step is the step itself. -/
theorem isDots_encode_iff (word : String) :
    Path.IsDots (Text.Percent.encode word).toList ↔ word = "." ∨ word = ".." := by
  -- the steps are written as themselves, so only they are written as steps
  have hdot : (Text.Percent.encode ".").toList = ['.'] := by decide
  have hdotdot : (Text.Percent.encode "..").toList = ['.', '.'] := by decide
  rw [Path.IsDots, ← hdotdot, ← hdot, String.toList_inj, String.toList_inj,
    Text.Percent.encode_inj, Text.Percent.encode_inj]

/-- The segments of the route are no steps, so what matters is the words. -/
theorem forall_not_isDots_iff (query : String) :
    (∀ s ∈ (pathSegments query).map String.toList, ¬Path.IsDots s) ↔
      ∀ word ∈ Text.words query, word ≠ "." ∧ word ≠ ".." := by
  have hitem : ¬Path.IsDots "item".toList := by simp [Path.IsDots]
  have hquery : ¬Path.IsDots "query".toList := by simp [Path.IsDots]
  rw [pathSegments, List.map_cons, List.map_cons, List.forall_mem_cons, List.forall_mem_cons]
  simp only [hitem, hquery, not_false_eq_true, true_and]
  simp [segments, isDots_encode_iff]

/-- The path of a query, by itself, is left as it is exactly if no word is a dot segment. -/
theorem removeDots_path? {query path : String} (h : path? query = some path) :
    Path.removeDots path = path ↔ ∀ word ∈ Text.words query, word ≠ "." ∧ word ≠ ".." := by
  obtain ⟨hitem, hslash⟩ := List.forall_mem_cons.1 (@slash_not_mem_pathSegments query)
  -- the first segment of the route has no slash before it, and is taken over
  have hfollow : Path.removeDotsChars path.toList =
      Path.follow "item".toList (Path.slashed (("query" :: segments query).map String.toList)) := by
    rw [toList_path? h]
    exact Path.follow_append hitem [] _
  have hstep : ¬Path.IsDots "item".toList := by simp [Path.IsDots]
  rw [← forall_not_isDots_iff, pathSegments, List.map_cons, List.forall_mem_cons,
    and_iff_right hstep, ← Path.follow_slashed_iff hslash "item".toList, ← hfollow, Path.removeDots,
    ← String.toList_inj, String.toList_ofList, toList_path? h]
  rfl

/-- Under a directory the same holds: the directory stands apart from what the query adds. -/
theorem removeDots_path?_under {query path : String} (h : path? query = some path) {dir : String}
    (hhead : dir.toList.head? = some '/') (hlast : dir.toList.getLast? = some '/') :
    Path.removeDots (dir ++ path) = Path.removeDots dir ++ path ↔
      ∀ word ∈ Text.words query, word ≠ "." ∧ word ≠ ".." := by
  obtain ⟨front, hfront⟩ : ∃ front, dir.toList = front ++ ['/'] :=
    List.getLast?_eq_some_iff.1 hlast
  -- the slash at the end of the directory is the one in front of the route
  have hjoined : dir.toList ++ path.toList =
      front ++ Path.slashed ((pathSegments query).map String.toList) := by
    rw [hfront, toList_path? h, List.append_assoc]
    rfl
  have htail : path.toList = (Path.slashed ((pathSegments query).map String.toList)).tail := by
    rw [toList_path? h]
    rfl
  have hne : (pathSegments query).map String.toList ≠ [] := by simp [pathSegments]
  rw [← forall_not_isDots_iff, ← Path.removeDotsChars_append_iff (hfront ▸ hhead) hne
      slash_not_mem_pathSegments, Path.removeDots, Path.removeDots, ← String.toList_inj,
    String.toList_append, String.toList_append, String.toList_ofList, String.toList_ofList, hjoined,
    htail, hfront]

/-- The path of a query has a segment for each of its words, after the two of the route.  Removing
dot segments leaves it as it is, alone or under any directory, exactly when no word is a dot
segment. -/
theorem route_kept_iff {query path : String} (h : path? query = some path) :
    pieces path = "item" :: "query" :: (Text.words query).map Text.Percent.encode ∧
    (Path.removeDots path = path ↔ ∀ word ∈ Text.words query, word ≠ "." ∧ word ≠ "..") ∧
    ∀ dir : String, dir.toList.head? = some '/' → dir.toList.getLast? = some '/' →
      (Path.removeDots (dir ++ path) = Path.removeDots dir ++ path ↔
        ∀ word ∈ Text.words query, word ≠ "." ∧ word ≠ "..") := by
  refine ⟨?_, removeDots_path? h, fun dir => removeDots_path?_under h⟩
  -- the pieces between slashes are the segments
  rw [path?_eq_intercalate h]
  exact pieces_intercalate (List.cons_ne_nil _ _) fun s hs =>
    slash_not_mem_pathSegments _ (List.mem_map_of_mem hs)

/-- Words that are steps lead out of the route, to any other address of the catalog. -/
theorem route_left_by_steps :
    path? ".. .. stats" = some "item/query/../../stats" ∧
    Path.removeDots ("/beets/" ++ "item/query/../../stats") = "/beets/stats" ∧
    Path.removeDots "item/query/../../stats" ≠ "item/query/../../stats" := by
  have hpath : path? ".. .. stats" = some "item/query/../../stats" := by decide
  have hwords : ".." ∈ Text.words ".. .. stats" := by decide
  refine ⟨hpath, by decide, fun hkept => ?_⟩
  exact ((route_kept_iff hpath).2.1.1 hkept ".." hwords).2 rfl

end Query

end LibraryPlayer
