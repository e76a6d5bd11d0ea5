import LibraryPlayer.Location.Hash
import LibraryPlayer.Proofs.Text.Blank
import LibraryPlayer.Proofs.Text.Percent

/-!
# Queries in hashes

The hash of a query that is not blank gives the query back, without the blanks around it
(`query?_ofQuery`).  Other hashes may have a query, too, but none that is blank or has blanks around
it (`trim_of_query?`), so every query read from a hash has a hash of its own.

* `codec_exact`: writing and reading of hashes, over all texts.
-/

namespace LibraryPlayer.Hash

/-- What is in front is there exactly when the text begins with it. -/
theorem after?_eq_some_iff {wanted s rest : List Char} :
    after? wanted s = some rest ↔ s = wanted ++ rest := by
  -- character by character, on those that are wanted
  induction wanted generalizing s with
  | nil => simp [after?]
  | cons w ws ih =>
    cases s with
    | nil => simp [after?]
    | cons c s =>
      rw [after?]
      split
      next h => simp [ih, h]
      next h => simp [h]

/-- The route of a hash that has been written is that of queries with the encoded query behind it.
-/
theorem routeOf_ofQuery (query : String) :
    routeOf (ofQuery query) =
      Query.route.toList ++ (Text.Percent.encode (Text.trim query)).toList := by
  have hsign : (ofQuery query).toList = ['#'] ++ (Query.route.toList ++
      (Text.Percent.encode (Text.trim query)).toList) := by
    simp [ofQuery]
  rw [routeOf, after?_eq_some_iff.2 hsign, Option.getD_some]

/-- The hash of a query that is not blank gives it back, without the blanks around it. -/
theorem query?_ofQuery {query : String} (h : Text.trim query ≠ "") :
    query? (ofQuery query) = some (Text.trim query) := by
  simp [query?, routeOf_ofQuery, after?_eq_some_iff.2 rfl, h]

/-- A query in a hash is not blank and has no blanks around it. -/
theorem trim_of_query? {hash query : String} (h : query? hash = some query) :
    Text.trim query = query ∧ query ≠ "" := by
  simp only [query?, Option.bind_eq_bind, Option.bind_eq_some_iff] at h
  obtain ⟨encoded, -, decoded, -, hquery⟩ := h
  -- what has been decoded is trimmed, and no query if nothing is left
  split at hquery
  · exact nomatch hquery
  next hblank =>
    obtain rfl := Option.some.inj hquery
    exact ⟨Text.trim_trim decoded, hblank⟩

/-- A query is restored from a hash exactly if it is not the one that is shown. -/
theorem queryToRestore?_eq_some_iff {hash showing query : String} :
    queryToRestore? hash showing = some query ↔
      query? hash = some query ∧ query ≠ Text.trim showing := by
  simp [queryToRestore?, Option.filter_eq_some_iff]

/-- A query that is shown already is not restored, whatever blanks are around it. -/
theorem queryToRestore?_of_shown {hash showing query : String} (h : query? hash = some query)
    (hshown : Text.trim showing = query) : queryToRestore? hash showing = none := by
  simp [queryToRestore?, h, hshown]

/-! ## All texts -/

/-- A hash has a query exactly if it was written for one that is not blank. -/
theorem query?_ofQuery_eq (query : String) :
    query? (ofQuery query) =
      if Text.trim query = "" then none else some (Text.trim query) := by
  by_cases hblank : Text.trim query = ""
  · have hempty : Text.trim "" = "" := rfl
    simp [query?, routeOf_ofQuery, after?_eq_some_iff.2 rfl, hblank, hempty]
  · rw [query?_ofQuery hblank, if_neg hblank]

/-- Two queries have the same hash exactly if they differ in nothing but the blanks around them. -/
theorem ofQuery_inj {a b : String} : ofQuery a = ofQuery b ↔ Text.trim a = Text.trim b := by
  simp only [ofQuery, String.append_right_inj, Text.Percent.encode_inj]

/-- One number sign in front does not belong to the route. -/
theorem routeOf_sign (hash : String) : routeOf ("#" ++ hash) = hash.toList := by
  have hsign : ("#" ++ hash).toList = ['#'] ++ hash.toList := by simp
  rw [routeOf, after?_eq_some_iff.2 hsign, Option.getD_some]

/-- Without a number sign in front all of the hash is the route. -/
theorem routeOf_of_not_sign {hash : String} (h : hash.toList.head? ≠ some '#') :
    routeOf hash = hash.toList := by
  have hnone : after? ['#'] hash.toList = none := by
    refine Option.eq_none_iff_forall_ne_some.2 fun rest hrest => h ?_
    rw [after?_eq_some_iff.1 hrest]
    rfl
  rw [routeOf, hnone, Option.getD_none]

/-- A number sign that is added in front changes nothing of the query. -/
theorem query?_sign {hash : String} (h : hash.toList.head? ≠ some '#') :
    query? ("#" ++ hash) = query? hash := by
  rw [query?, query?, routeOf_sign, routeOf_of_not_sign h]

/-- Writing and reading of hashes, over all texts.  The hash of a query gives it back without the
blanks around it, and gives none for a blank one, so two queries share a hash only if they differ in
such blanks.  Whatever hash a query is read from, it is not blank, has no blanks around it and is
read again from the hash that is written for it; and it does not matter whether the hash came with
its number sign. -/
theorem codec_exact (query a b hash : String) :
    (query? (ofQuery query) =
      if Text.trim query = "" then none else some (Text.trim query)) ∧
    (ofQuery a = ofQuery b ↔ Text.trim a = Text.trim b) ∧
    (∀ q, query? hash = some q → q ≠ "" ∧ q = Text.trim q ∧ query? (ofQuery q) = some q) ∧
    (hash.toList.head? ≠ some '#' → query? ("#" ++ hash) = query? hash) := by
  refine ⟨query?_ofQuery_eq query, ofQuery_inj, fun q hq => ?_, query?_sign⟩
  -- a query that has been read needs no trimming, so its own hash gives it back
  obtain ⟨htrim, hblank⟩ := trim_of_query? hq
  refine ⟨hblank, htrim.symm, ?_⟩
  rw [query?_ofQuery (htrim.symm ▸ hblank), htrim]

/-- A query with a percent sign, a number sign, another script and wide blanks around it, against
one without these blanks; and a hash without its number sign that has escapes of blanks at both
ends, a percent sign that starts no escape and the route once more. -/
theorem codec_exact_of_odd_texts :
    let query := "\u3000 100%25 #é\u2003"
    let hash := "item/query/%e2%80%83%zz#item/query/%C3%A9%09"
    ofQuery query = ofQuery "100%25 #é" ∧ query? (ofQuery query) = some "100%25 #é" ∧
    query? hash = some "%zz#item/query/é" ∧
    query? (ofQuery "%zz#item/query/é") = some "%zz#item/query/é" ∧
    query? ("#" ++ hash) = query? hash := by
  intro query hash
  have hread : query? hash = some "%zz#item/query/é" := by decide +kernel
  have hsign : hash.toList.head? ≠ some '#' := by decide
  obtain ⟨hquery, hinj, hcanonical, hsame⟩ := codec_exact query query "100%25 #é" hash
  refine ⟨hinj.2 (by decide), ?_, hread, (hcanonical _ hread).2.2, hsame hsign⟩
  rw [hquery]
  decide

end LibraryPlayer.Hash
