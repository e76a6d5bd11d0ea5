import LibraryPlayer.Proofs.Text.Blank
import LibraryPlayer.Proofs.Text.Percent
import LibraryPlayer.Proofs.Text.Runs

/-!
# What a request carries

A query is sent as one address, and the words of the query can be read back from it: the part after
the route is cut at its slashes, and every piece is decoded by itself.  That works because an
encoded word has no slash in it (`IsWritten.slash_not_mem`) and is not empty, so cutting undoes
joining.

* `query_carries_words`: when a request is sent, to which address, and what it tells of the query.
-/

namespace LibraryPlayer

namespace Text

/-! ## Words -/

/-- No word is empty. -/
theorem ne_empty_of_mem_words {s word : String} (h : word ∈ words s) : word ≠ "" := by
  obtain ⟨cs, hcs, rfl⟩ := List.mem_map.1 h
  have hne : cs ≠ [] := by simpa using (List.mem_filter.1 hcs).2
  simpa using hne

namespace Percent

/-! ## Encoded texts -/

/-- Characters that are written as themselves. -/
def isPlain (c : Char) : Bool := c.isAlphanum || ['-', '.', '_', '~'].contains c

/-- The hexadecimal digits of an escape. -/
def isEscapeDigit (c : Char) : Bool := "0123456789ABCDEF".toList.contains c

/-- Nothing but characters that are written as themselves and escapes of two digits. -/
inductive IsWritten : List Char → Prop where
  | nil : IsWritten []
  | plain {c : Char} {cs : List Char} (hc : isPlain c = true) (hcs : IsWritten cs) :
    IsWritten (c :: cs)
  | escape {h l : Char} {cs : List Char} (hh : isEscapeDigit h = true)
    (hl : isEscapeDigit l = true) (hcs : IsWritten cs) : IsWritten ('%' :: h :: l :: cs)

/-- An octet that needs no escape is a character that is written as itself. -/
theorem isPlain_of_isUnreserved {b : UInt8} (h : isUnreserved b = true) :
    isPlain (Char.ofNat b.toNat) = true := by
  -- there are 128 octets to look at
  have hascii : ∀ n : Fin 128, isUnreserved (.ofNat n.val) = true →
      isPlain (Char.ofNat n.val) = true := by decide +kernel
  have := hascii ⟨b.toNat, lt_of_isUnreserved h⟩
  rw [UInt8.ofNat_toNat] at this
  exact this h

/-- The digits that are written for an octet are those of escapes. -/
theorem isEscapeDigit_hexDigit :
    ∀ n : Fin 16, isEscapeDigit (Char.ofNat (hexDigit n).toNat) = true := by decide

/-- Octets are written in plain characters and escapes. -/
theorem isWritten_encodeOctets (bs : List UInt8) :
    IsWritten ((encodeOctets bs).map fun b => Char.ofNat b.toNat) := by
  induction bs with
  | nil => exact .nil
  | cons b bs ih =>
    rw [encodeOctets, List.flatMap_cons, List.map_append, encodeOctet]
    split
    next hb => exact .plain (isPlain_of_isUnreserved hb) ih
    next =>
      -- an escape has the two halves of the octet as digits
      have hb := b.toNat_lt
      exact .escape (isEscapeDigit_hexDigit ⟨b.toNat / 16, by omega⟩)
        (isEscapeDigit_hexDigit ⟨b.toNat % 16, by omega⟩) ih

/-- So are texts. -/
theorem isWritten_encode (s : String) : IsWritten (encode s).toList := by
  rw [encode, String.toList_ofList]
  exact isWritten_encodeOctets _

/-- Apart from the percent sign all characters are written as themselves: so are the digits of an
escape. -/
theorem IsWritten.isPlain_or {cs : List Char} (h : IsWritten cs) :
    ∀ c ∈ cs, isPlain c = true ∨ c = '%' := by
  -- each of the sixteen digits is a letter or a numeral
  have hdigit {c : Char} (hc : isEscapeDigit c = true) : isPlain c = true := by
    have hplain : ∀ c ∈ "0123456789ABCDEF".toList, isPlain c = true := by simp [isPlain]
    exact hplain c (by simpa [isEscapeDigit] using hc)
  induction h with
  | nil => simp
  | plain hc _ ih => simpa [hc] using ih
  | escape hh hl _ ih => simpa [hdigit hh, hdigit hl] using ih

/-- A slash is always written as an escape. -/
theorem IsWritten.slash_not_mem {cs : List Char} (h : IsWritten cs) : '/' ∉ cs := by
  intro hmem
  rcases h.isPlain_or '/' hmem with hplain | hsign
  · exact absurd hplain (by decide)
  · exact absurd hsign (by decide)

/-- Only the empty text is written as nothing. -/
theorem encode_eq_empty_iff (s : String) : encode s = "" ↔ s = "" := by
  have h := @encode_inj s ""
  rwa [show encode "" = "" from rfl] at h

end Percent

end Text

namespace Query

/-! ## Paths -/

/-- The pieces of a text between its slashes. -/
def pieces (s : String) : List String := (s.toList.splitOn '/').map String.ofList

/-- A segment of a query is not empty, and is written in plain characters and escapes. -/
theorem mem_segments {query segment : String} (h : segment ∈ segments query) :
    segment ≠ "" ∧ Text.Percent.IsWritten segment.toList := by
  obtain ⟨word, hword, rfl⟩ := List.mem_map.1 h
  have hne := Text.ne_empty_of_mem_words hword
  exact ⟨mt (Text.Percent.encode_eq_empty_iff word).1 hne, Text.Percent.isWritten_encode word⟩

/-- Cutting at the slashes undoes joining by slashes. -/
theorem pieces_intercalate {segments : List String} (hne : segments ≠ [])
    (h : ∀ s ∈ segments, '/' ∉ s.toList) : pieces ("/".intercalate segments) = segments := by
  -- no segment has a slash in it, so the only slashes are those between segments
  have hcut : List.splitOn '/' (['/'].intercalate (segments.map String.toList)) =
      segments.map String.toList :=
    List.splitOn_intercalate '/' (by simpa using h) (by simpa using hne)
  rw [pieces, String.toList_intercalate, show "/".toList = ['/'] from rfl, hcut, List.map_map]
  simp [Function.comp_def]

/-- So the segments of a query can be cut out of its path. -/
theorem pieces_intercalate_segments {query : String} (h : segments query ≠ []) :
    pieces ("/".intercalate (segments query)) = segments query :=
  pieces_intercalate h fun _ hs => (mem_segments hs).2.slash_not_mem

/-- Decoding the segments of a query gives its words. -/
theorem map_decode?_segments (query : String) :
    (segments query).map Text.Percent.decode? = (Text.words query).map some := by
  simp [segments, Function.comp_def]

/-- A query with words has a path: the route, and the segments between slashes. -/
theorem path?_eq_some {query : String} (h : segments query ≠ []) :
    path? query = some (route ++ "/".intercalate (segments query)) := by
  rw [path?]
  split
  next hnil => exact absurd hnil h
  next s ss hs => rw [hs]

/-- A query has no path exactly if it has no words. -/
theorem path?_eq_none_iff (query : String) : path? query = none ↔ Text.words query = [] := by
  rw [← Option.not_isSome_iff_eq_none, path?_isSome_iff, not_not, Text.words_eq_nil_iff]

/-- The path of a query tells its words. -/
theorem path?_inj {query query' : String} :
    path? query = path? query' ↔ Text.words query = Text.words query' := by
  constructor
  · intro h
    by_cases hnil : Text.words query = []
    · rw [hnil, Eq.comm, ← path?_eq_none_iff, ← h, path?_eq_none_iff, hnil]
    · have hne : segments query ≠ [] := by simpa [segments] using hnil
      have hne' : segments query' ≠ [] := by
        have hsome : path? query' ≠ none := by
          rw [← h]
          exact mt (path?_eq_none_iff query).1 hnil
        simpa [segments] using mt (path?_eq_none_iff query').2 hsome
      rw [path?_eq_some hne, path?_eq_some hne', Option.some.injEq, String.append_right_inj] at h
      -- both paths are cut into their segments, and these are decoded
      have hsegments : segments query = segments query' := by
        rw [← pieces_intercalate_segments hne, h, pieces_intercalate_segments hne']
      have hwords := congrArg (List.map Text.Percent.decode?) hsegments
      rw [map_decode?_segments, map_decode?_segments] at hwords
      exact (List.map_inj_right fun _ _ => Option.some.inj).1 hwords
  · intro h
    rw [path?, path?, segments, segments, h]

end Query

namespace Client

/-! ## Requests -/

/-- The base of a client is trimmed, and ends in a slash. -/
theorem base_ofBase (base : String) :
    (ofBase base).base =
      if (Text.trim base).toList.getLast? = some '/' then Text.trim base
      else Text.trim base ++ "/" := by
  simp only [ofBase]
  split
  · exact String.ofList_toList
  · rw [String.ofList_append, String.ofList_toList]

/-- Nothing is dropped of a path that does not start with a slash. -/
theorem url_eq (c : Client) {path : String} (h : path.toList.head? ≠ some '/') :
    c.url path = c.base ++ path := by
  have hkept : path.toList.dropWhile (· = '/') = path.toList := by
    apply Text.dropWhile_of_stop
    intro x hx
    apply decide_eq_false
    rintro rfl
    exact h hx
  rw [url, hkept, String.ofList_toList]

/-- The address of a route is under the base. -/
theorem url_route (c : Client) (rest : String) :
    c.url (Query.route ++ rest) = c.base ++ Query.route ++ rest := by
  rw [url_eq, String.append_assoc]
  simp [Query.route]

/-- What is sent for a query: the address of its path, if it has one. -/
theorem query_requests (c : Client) (query : String) (answer : Answer) :
    (c.query query answer).1 = ((Query.path? query).map c.url).toList := by
  rw [Client.query, queryUrl?]
  cases Query.path? query <;> rfl

/-- The addresses of two queries are the same exactly if their paths are. -/
theorem url_path?_inj (c : Client) {query query' : String} :
    (Query.path? query).map c.url = (Query.path? query').map c.url ↔
      Query.path? query = Query.path? query' := by
  refine ⟨fun h => ?_, fun h => by rw [h]⟩
  -- a query without words has no address, and any other one has
  by_cases hnil : Query.segments query = [] <;> by_cases hnil' : Query.segments query' = []
  · rw [Query.path?, Query.path?, hnil, hnil']
  · rw [Query.path?_eq_some hnil', Query.path?, hnil] at h
    cases h
  · rw [Query.path?_eq_some hnil, Query.path?, hnil'] at h
    cases h
  · rw [Query.path?_eq_some hnil, Query.path?_eq_some hnil', Option.map_some, Option.map_some,
      Option.some.injEq, url_route, url_route, String.append_right_inj] at h
    rw [Query.path?_eq_some hnil, Query.path?_eq_some hnil', h]

/-- A request carries the words of its query and nothing else.  None is sent exactly when the query
has no words, which is when it is blank.  Otherwise one is sent, under the base without blanks
around it and with a slash at its end, and what follows the route, cut at its slashes and decoded
piece by piece, is the words in order; no piece is empty, and none has characters other than
letters, digits, `-._~` and escapes.  So a client sends two queries to one address exactly when
their words are the same. -/
theorem query_carries_words (base query : String) (answer : Answer) :
    let root := if (Text.trim base).toList.getLast? = some '/' then Text.trim base
      else Text.trim base ++ "/"
    let sent := ((ofBase base).query query answer).1
    (sent = [] ↔ Text.words query = []) ∧
    (Text.words query = [] ↔ Text.trim query = "") ∧
    (Text.words query ≠ [] → ∃ rest : String,
      sent = [root ++ "item/query/" ++ rest] ∧
      (Query.pieces rest).map Text.Percent.decode? = (Text.words query).map some ∧
      ∀ piece ∈ Query.pieces rest, piece ≠ "" ∧ Text.Percent.IsWritten piece.toList) ∧
    ∀ (query' : String) (answer' : Answer),
      sent = ((ofBase base).query query' answer').1 ↔ Text.words query = Text.words query' := by
  intro root sent
  have hsent : sent = ((Query.path? query).map (ofBase base).url).toList := query_requests ..
  -- when none is sent; what is sent; and when two queries send the same
  refine ⟨?_, Text.words_eq_nil_iff query, fun hwords => ?_, fun query' answer' => ?_⟩
  · rw [hsent, Option.toList_eq_nil_iff, Option.map_eq_none_iff, Query.path?_eq_none_iff]
  · have hne : Query.segments query ≠ [] := by simpa [Query.segments] using hwords
    refine ⟨"/".intercalate (Query.segments query), ?_, ?_, ?_⟩
    · rw [hsent, Query.path?_eq_some hne, Option.map_some, url_route, base_ofBase]
      rfl
    · rw [Query.pieces_intercalate_segments hne, Query.map_decode?_segments]
    · rw [Query.pieces_intercalate_segments hne]
      exact fun piece hpiece => Query.mem_segments hpiece
  · rw [hsent, query_requests, ← Query.path?_inj, ← url_path?_inj (ofBase base)]
    -- what is sent is a list of at most one address
    exact ⟨fun h => by simpa using congrArg List.head? h, fun h => by rw [h]⟩

/-- A query with a slash, a percent sign and a character beyond ASCII: its words come back from the
address. -/
theorem query_carries_words_of_odd_query :
    Text.words " AC/DC\t50%\u3000é.. " = ["AC/DC", "50%", "é.."] ∧
    Text.words " AC/DC\t50%\u3000é.. " ≠ [] ∧
    ∃ rest : String,
      ((ofBase " http://h/api").query " AC/DC\t50%\u3000é.. " .disconnected).1 =
        ["http://h/api/" ++ "item/query/" ++ rest] ∧
      (Query.pieces rest).map Text.Percent.decode? = [some "AC/DC", some "50%", some "é.."] := by
  have hwords : Text.words " AC/DC\t50%\u3000é.. " = ["AC/DC", "50%", "é.."] := by decide +kernel
  have hne : Text.words " AC/DC\t50%\u3000é.. " ≠ [] := by simp [hwords]
  have hcarries := query_carries_words " http://h/api" " AC/DC\t50%\u3000é.. " .disconnected
  obtain ⟨rest, hsent, hdecoded, -⟩ := hcarries.2.2.1 hne
  refine ⟨hwords, hne, rest, hsent, ?_⟩
  rw [hdecoded, hwords]
  rfl

end Client

end LibraryPlayer
