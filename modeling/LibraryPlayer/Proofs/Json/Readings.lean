import LibraryPlayer.Proofs.Json.Skipping

/-!
# What readers want

A reader for a wanted kind of value is told by a function on trees: `Reads reader wanted` says that
it takes exactly the spellings of those trees for which `wanted` gives something, and gives that.
Blanks and the spelling of texts are not in a tree, so a reader told in this way does not depend on
them.

The readers for lists, optional values, objects and records pass the law on from the readers that
they are made of.
-/

namespace LibraryPlayer.Json

/-! ## Wanted values -/

namespace Tree

/-- The text that a tree is. -/
def text? : Tree → Option String
  | text t => t
  | _ => none

/-- The number that a numeral stands for, unless it is too large. -/
def number? : Tree → Option Number
  | number x => x.value?.map fun v => ⟨v, x.natural?⟩
  | _ => none

/-- The double nearest to the number that a tree is. -/
def double? (t : Tree) : Option Binary64 := t.number?.map Number.value

/-- The natural number that a tree is, if it fits 64 bits. -/
def natural64? (t : Tree) : Option UInt64 := t.number?.bind Number.natural?

/-- The natural number that a tree is, if it fits 32 bits. -/
def natural32? (t : Tree) : Option UInt32 :=
  t.natural64?.bind fun n => if n.toNat < UInt32.size then some n.toUInt32 else none

variable {α σ : Type}

/-- `null`, or else what is wanted. -/
def optional? (wanted : Tree → Option α) : Tree → Option (Option α)
  | null => some none
  | t => (wanted t).map some

/-- A list of what is wanted. -/
def list? (wanted : Tree → Option α) : Tree → Option (List α)
  | list ts => ts.mapM wanted
  | _ => none

/-- Folds the members of an object in order; each key must be a text. -/
def foldMembers? (enter : σ → String → Tree → Option σ) :
    σ → List (Option String × Tree) → Option σ
  | state, [] => some state
  | _, (none, _) :: _ => none
  | state, (some key, t) :: ms => (enter state key t).bind fun state => foldMembers? enter state ms

/-- A list or an object, of which the items or the members are wanted. -/
def record? (fromItems : List Tree → Option α)
    (fromMembers : List (Option String × Tree) → Option α) : Tree → Option α
  | list ts => fromItems ts
  | object ms => fromMembers ms
  | _ => none

end Tree

section
variable {α β σ : Type}

/-- A reader takes exactly the spellings of the trees that are wanted, with blanks before them. -/
structure Reads (reader : Bytes → Except Fault (α × Bytes)) (wanted : Tree → Option α) : Prop where
  complete : ∀ {g x rest : Bytes} {t : Tree} {a : α}, IsBlank g → Spells x (.value t) →
    wanted t = some a → Stops rest → reader (g ++ (x ++ rest)) = .ok (a, rest)
  sound : ∀ {s rest : Bytes} {a : α}, reader s = .ok (a, rest) →
    ∃ g x t, IsBlank g ∧ s = g ++ (x ++ rest) ∧ Spells x (.value t) ∧ wanted t = some a

/-- A reader takes exactly what is left of a list or an object, as `phrase` says, if it is wanted.
-/
structure ReadsRest (phrase : β → Phrase) (reader : Bytes → Except Fault (α × Bytes))
    (wanted : β → Option α) : Prop where
  complete : ∀ {x rest : Bytes} {b : β} {a : α}, Spells x (phrase b) → wanted b = some a →
    reader (x ++ rest) = .ok (a, rest)
  sound : ∀ {s rest : Bytes} {a : α}, reader s = .ok (a, rest) →
    ∃ x b, s = x ++ rest ∧ Spells x (phrase b) ∧ wanted b = some a

/-- A reader of members takes exactly the values that are wanted for a key, from the colon on. -/
structure ReadsMember (member : σ → String → Bytes → Except Fault (σ × Bytes))
    (enter : σ → String → Tree → Option σ) : Prop where
  complete : ∀ {g g' x rest : Bytes} {t : Tree} {state state' : σ} {key : String}, IsBlank g →
    IsBlank g' → Spells x (.value t) → enter state key t = some state' → Stops rest →
    member state key (g ++ colonMark :: (g' ++ (x ++ rest))) = .ok (state', rest)
  sound : ∀ {s rest : Bytes} {state state' : σ} {key : String},
    member state key s = .ok (state', rest) →
    ∃ g g' x t, IsBlank g ∧ IsBlank g' ∧ s = g ++ colonMark :: (g' ++ (x ++ rest)) ∧
      Spells x (.value t) ∧ enter state key t = some state'

/-- A reader that goes on to judge what another has read. -/
theorem Reads.bind {reader : Bytes → Except Fault (α × Bytes)} {wanted : Tree → Option α}
    (h : Reads reader wanted) (f : α → Option β) (fault : Fault)
    {reader' : Bytes → Except Fault (β × Bytes)}
    (heq : ∀ s, reader' s = reader s >>= fun p =>
      match f p.1 with
      | some b => .ok (b, p.2)
      | none => .error fault) :
    Reads reader' fun t => (wanted t).bind f where
  complete hg hx ht hrest := by
    obtain ⟨a, ha, hb⟩ := Option.bind_eq_some_iff.1 ht
    -- the first reader takes the octets, and its result is judged afterwards
    rw [heq, h.complete hg hx ha hrest, ok_bind]
    simp [hb]
  sound {s rest b} hs := by
    rw [heq] at hs
    obtain ⟨⟨a, r⟩, ha, hs⟩ := bind_eq_ok.1 hs
    obtain ⟨g, x, t, hg, hsplit, hx, ht⟩ := h.sound ha
    dsimp only at hs
    split at hs
    next b' hb =>
      cases hs
      exact ⟨g, x, t, hg, hsplit, hx, by rw [ht, Option.bind_some, hb]⟩
    · exact nomatch hs

/-! ## Texts and numbers -/

/-- The reader for texts takes exactly the texts. -/
theorem reads_text : Reads text Tree.text? where
  complete {g x rest t a} hg hx ht hrest := by
    -- only a text is wanted, and only a quotation mark starts one
    cases t with
    | text t =>
      obtain rfl : t = some a := ht
      rw [text, skipSpace_value hx hg]
      cases hx with
      | text hc =>
        cases hc with
        | text hc =>
          rw [List.cons_append, List.append_assoc]
          exact readText_append hc rest
    | _ => exact nomatch ht
  sound {s rest a} h := by
    unfold text at h
    split at h
    · exact nomatch h
    next b u hskip =>
      obtain ⟨g, hg, rfl, -⟩ := eq_of_skipSpace hskip
      split at h
      next hb =>
        obtain ⟨c, rfl, hc⟩ := content_of_readText h
        exact ⟨g, quote :: (c ++ [quote]), .text (some a), hg, by simp [hb], .text (.text hc), rfl⟩
      · exact nomatch h

/-- The reader for numbers takes exactly the numerals that are not too large. -/
theorem reads_number : Reads number Tree.number? where
  complete {g x rest t a} hg hx ht hrest := by
    cases t with
    | number n =>
      obtain ⟨v, hv, rfl⟩ := Option.map_eq_some_iff.1 ht
      rw [number, skipSpace_value hx hg]
      cases hx with
      | number hn =>
        -- what follows cannot be taken for more of the numeral
        have hread := Numeral.read_of_spelled hn hrest .ended
        obtain ⟨b, u, rfl, hb⟩ := hn.head
        rw [List.cons_append] at hread ⊢
        simp [hb, readNumber, hread, hv, pure, Except.pure]
    | _ => exact nomatch ht
  sound {s rest a} h := by
    unfold number at h
    split at h
    · exact nomatch h
    next b u hskip =>
      obtain ⟨g, hg, rfl, -⟩ := eq_of_skipSpace hskip
      split at h
      · obtain ⟨⟨n, r⟩, hread, h⟩ := bind_eq_ok.1 h
        obtain ⟨w, hw, hn⟩ := Numeral.spelled_of_read hread
        dsimp only at h
        split at h
        next v hv =>
          cases h
          exact ⟨g, w, .number n, hg, by rw [hw], .number hn, by simp [Tree.number?, hv]⟩
        · exact nomatch h
      · exact nomatch h

/-- The reader for doubles takes the same numerals. -/
theorem reads_double : Reads double Tree.double? := by
  have hwanted : Tree.double? = fun t => t.number?.bind fun x => some x.value :=
    funext fun _ => Option.map_eq_bind
  rw [hwanted]
  exact reads_number.bind _ .malformed fun _ => rfl

/-- The reader for 64 bits takes the natural numbers that fit them. -/
theorem reads_natural64 : Reads natural64 Tree.natural64? := by
  refine reads_number.bind Number.natural? .mismatched fun s => ?_
  rw [natural64]
  congr 1
  funext ⟨x, r⟩
  cases hx : x.natural? <;> simp [hx] <;> rfl

/-- The reader for 32 bits takes the natural numbers that fit these. -/
theorem reads_natural32 : Reads natural32 Tree.natural32? := by
  refine reads_natural64.bind (fun n => if n.toNat < UInt32.size then some n.toUInt32 else none)
    .mismatched fun s => ?_
  rw [natural32]
  congr 1
  funext ⟨n, r⟩
  -- the reader judges the size as the function on trees does
  dsimp only
  split <;> rfl

/-! ## Optional values -/

/-- A value that starts with the letter of `null` is `null`. -/
theorem Spells.eq_null {u : Bytes} {t : Tree} (h : Spells (0x6e :: u) (.value t)) :
    u = [0x75, 0x6c, 0x6c] ∧ t = .null := by
  -- the first octets of all other values differ
  generalize hs : 0x6e :: u = s at h
  cases h with
  | nullLiteral => exact ⟨(List.cons.inj hs).2, rfl⟩
  | number h =>
    obtain ⟨b, v, rfl, hb⟩ := h.head
    rw [← (List.cons.inj hs).1] at hb
    exact absurd hb (by decide)
  | _ => exact absurd (List.cons.inj hs).1 (by decide)

/-- A reader for optional values takes `null` and what the reader for values takes. -/
theorem reads_optional {reader : Bytes → Except Fault (α × Bytes)} {wanted : Tree → Option α}
    (h : Reads reader wanted) : Reads (optional reader) (Tree.optional? wanted) where
  complete {g x rest t a} hg hx ht hrest := by
    have hspace := skipSpace_value hx hg rest
    -- the reader looks at the first letter, which tells `null` from all else
    by_cases hnull : t = .null
    · subst hnull
      obtain rfl := Option.some.inj ht
      cases hx
      rw [optional, hspace]
      rfl
    · obtain ⟨a, ha, rfl⟩ : ∃ a', wanted t = some a' ∧ some a' = a := by
        cases t with
        | null => exact absurd rfl hnull
        | _ => exact Option.map_eq_some_iff.1 ht
      have hread := h.complete .nil hx ha hrest
      obtain ⟨b, u, rfl, -⟩ := hx.head
      have hb : b ≠ 0x6e := by
        rintro rfl
        exact hnull hx.eq_null.2
      rw [List.nil_append, List.cons_append] at hread
      rw [optional, hspace, List.cons_append]
      simp [hb, hread, pure, Except.pure]
  sound {s rest a} hs := by
    unfold optional at hs
    split at hs
    · exact nomatch hs
    next b u hskip =>
      obtain ⟨g, hg, rfl, hspace⟩ := eq_of_skipSpace hskip
      split at hs
      next hb =>
        obtain ⟨r, hr, hs⟩ := bind_eq_ok.1 hs
        obtain rfl := expect_eq_ok.1 hr
        cases hs
        exact ⟨g, [0x6e, 0x75, 0x6c, 0x6c], .null, hg, by simp [hb], .nullLiteral, rfl⟩
      next hb =>
        obtain ⟨⟨a', r⟩, hr, hs⟩ := bind_eq_ok.1 hs
        cases hs
        obtain ⟨g', x, t, hg', hsplit, hx, ht⟩ := h.sound hr
        refine ⟨g ++ g', x, t, hg.append hg', by rw [hsplit, List.append_assoc], hx, ?_⟩
        cases t with
        | null =>
          -- `null` would have been met by its first letter
          have hnull := skipSpace_value hx hg' rest
          cases hx
          rw [← hsplit, skipSpace_cons hspace] at hnull
          exact absurd (List.cons.inj hnull).1 hb
        | _ => exact congrArg (Option.map some) ht

/-! ## Lists -/

/-- What spells wanted items is read as them, if there is fuel for its octets. -/
theorem items_of_spells {item : Bytes → Except Fault (α × Bytes)} {wanted : Tree → Option α}
    (h : Reads item wanted) {x : Bytes} {first : Bool} {ts : List Tree} {as : List α}
    (hx : Spells x (.items first ts)) (hts : ts.mapM wanted = some as) {fuel : Nat}
    (hfuel : x.length ≤ fuel) (rest : Bytes) :
    items item fuel first (x ++ rest) = .ok (as, rest) := by
  -- on the fuel; an item uses up an octet at least, so there is enough for the rest
  induction fuel generalizing x first ts as with
  | zero => exact absurd (List.length_eq_zero_iff.1 (Nat.le_zero.1 hfuel)) hx.ne_nil
  | succ n ih =>
    cases hx with
    | endItems hg =>
      obtain rfl : [] = as := by simpa using hts
      rw [items, List.append_assoc, List.singleton_append, next_close (.inl rfl) hg]
      rfl
    | @item lead y z _ t ts hlead hy hz =>
      rw [List.mapM_cons] at hts
      obtain ⟨b, hb, hts⟩ := Option.bind_eq_some_iff.1 hts
      obtain ⟨bs, hbs, hts⟩ := Option.bind_eq_some_iff.1 hts
      obtain rfl : b :: bs = as := Option.some.inj hts
      have hlen := List.length_pos_iff.2 hy.ne_nil
      simp only [List.length_append] at hfuel
      -- after an item comes a comma or the bracket, where even a numeral is over
      have hitem := h.complete .nil hy hb (stops_of_items hz rest)
      rw [List.nil_append] at hitem
      rw [items, List.append_assoc, List.append_assoc, next_value hy (.inl rfl) hlead, ok_bind]
      dsimp only
      rw [hitem, ok_bind]
      dsimp only
      rw [ih hz hbs (by omega), ok_bind]
      rfl

/-- What has been read as items spells wanted ones. -/
theorem spells_of_items {item : Bytes → Except Fault (α × Bytes)} {wanted : Tree → Option α}
    (h : Reads item wanted) {fuel : Nat} {first : Bool} {s rest : Bytes} {as : List α}
    (hs : items item fuel first s = .ok (as, rest)) :
    ∃ x ts, s = x ++ rest ∧ Spells x (.items first ts) ∧ ts.mapM wanted = some as := by
  induction fuel generalizing first s as with
  | zero => exact nomatch hs
  | succ n ih =>
    rw [items] at hs
    obtain ⟨next, hnext, hs⟩ := bind_eq_ok.1 hs
    -- the reader has met the bracket, or else an item and what follows it
    cases next with
    | close t =>
      cases hs
      obtain ⟨g, hg, rfl⟩ := eq_of_next_close hnext
      exact ⟨_, [], by simp, .endItems hg, rfl⟩
    | item t =>
      obtain ⟨⟨b, r⟩, hitem, hs⟩ := bind_eq_ok.1 hs
      obtain ⟨⟨bs, r'⟩, hitems, hs⟩ := bind_eq_ok.1 hs
      cases hs
      obtain ⟨lead, -, -, hlead, rfl, -⟩ := eq_of_next_item hnext
      obtain ⟨g, x, t, hg, rfl, hx, ht⟩ := h.sound hitem
      obtain ⟨y, ts, rfl, hy, hts⟩ := ih hitems
      exact ⟨_, t :: ts, by simp, .item (hlead.append_blank hg) hx hy, by simp [ht, hts]⟩

/-- A reader for lists takes the lists of what the reader for items takes. -/
theorem reads_list {item : Bytes → Except Fault (α × Bytes)} {wanted : Tree → Option α}
    (h : Reads item wanted) : Reads (list item) (Tree.list? wanted) where
  complete {g x rest t a} hg hx ht hrest := by
    cases t with
    | list ts =>
      rw [list, skipSpace_value hx hg]
      cases hx with
      | @list y _ hy => exact items_of_spells h hy ht (by simp; omega) rest
    | _ => exact nomatch ht
  sound {s rest a} hs := by
    unfold list at hs
    split at hs
    · exact nomatch hs
    next b u hskip =>
      obtain ⟨g, hg, rfl, -⟩ := eq_of_skipSpace hskip
      split at hs
      next hb =>
        obtain ⟨x, ts, rfl, hx, hts⟩ := spells_of_items h hs
        exact ⟨g, openList :: x, .list ts, hg, by simp [hb], .list hx, hts⟩
      · exact nomatch hs

/-! ## Objects and records -/

/-- What spells members that can be entered is read as their fold, if there is fuel for its octets.
-/
theorem members_of_spells {member : σ → String → Bytes → Except Fault (σ × Bytes)}
    {enter : σ → String → Tree → Option σ} (h : ReadsMember member enter) {x : Bytes}
    {first : Bool} {ms : List (Option String × Tree)} {state state' : σ}
    (hx : Spells x (.members first ms)) (hms : Tree.foldMembers? enter state ms = some state')
    {fuel : Nat} (hfuel : x.length ≤ fuel) (rest : Bytes) :
    members member fuel first state (x ++ rest) = .ok (state', rest) := by
  -- as in `items_of_spells`, with what has been entered so far carried along
  induction fuel generalizing x first ms state with
  | zero => exact absurd (List.length_eq_zero_iff.1 (Nat.le_zero.1 hfuel)) hx.ne_nil
  | succ n ih =>
    cases hx with
    | endMembers hg =>
      obtain rfl : state = state' := Option.some.inj hms
      rw [members, List.append_assoc, List.singleton_append, nextMember_close hg]
      rfl
    | @member lead k g g' y z _ key t ms hlead hk hg hg' hy hz =>
      -- a key that is no text cannot be entered
      cases hk with
      | other => exact nomatch hms
      | @text key hk =>
        obtain ⟨state₁, hstate₁, hms⟩ := Option.bind_eq_some_iff.1 hms
        simp only [List.length_append, List.length_cons] at hfuel
        have hmember := h.complete hg hg' hy hstate₁ (stops_of_members hz rest)
        have hsplit :
            lead ++ quote :: (k ++ quote :: (g ++ colonMark :: (g' ++ (y ++ z)))) ++ rest =
            lead ++ quote :: (k ++ quote :: (g ++ colonMark :: (g' ++ (y ++ (z ++ rest))))) := by
          simp
        rw [members, hsplit, nextMember_item hlead, ok_bind]
        dsimp only
        rw [readText_append hk, ok_bind]
        dsimp only
        rw [hmember, ok_bind]
        exact ih hz hms (by omega)

/-- What has been read as members spells some that can be entered. -/
theorem spells_of_members {member : σ → String → Bytes → Except Fault (σ × Bytes)}
    {enter : σ → String → Tree → Option σ} (h : ReadsMember member enter) {fuel : Nat}
    {first : Bool} {state state' : σ} {s rest : Bytes}
    (hs : members member fuel first state s = .ok (state', rest)) :
    ∃ x ms, s = x ++ rest ∧ Spells x (.members first ms) ∧
      Tree.foldMembers? enter state ms = some state' := by
  induction fuel generalizing first state s with
  | zero => exact nomatch hs
  | succ n ih =>
    rw [members] at hs
    obtain ⟨next, hnext, hs⟩ := bind_eq_ok.1 hs
    cases next with
    | close t =>
      cases hs
      obtain ⟨g, hg, rfl⟩ := eq_of_nextMember_close hnext
      exact ⟨_, [], by simp, .endMembers hg, rfl⟩
    | item t =>
      obtain ⟨⟨key, r⟩, hkey, h₁⟩ := bind_eq_ok.1 hs
      obtain ⟨⟨state₁, r'⟩, hmember, h₂⟩ := bind_eq_ok.1 h₁
      -- the parts of the member from its lead to its value, then the rest of the object
      obtain ⟨lead, hlead, rfl⟩ := eq_of_nextMember_item hnext
      obtain ⟨k, rfl, hk⟩ := content_of_readText hkey
      obtain ⟨g, g', x, t, hg, hg', rfl, hx, henter⟩ := h.sound hmember
      obtain ⟨y, ms, rfl, hy, hms⟩ := ih h₂
      exact ⟨_, (some key, t) :: ms, by simp, .member hlead (.text hk) hg hg' hx hy,
        by simp [Tree.foldMembers?, henter, hms]⟩

/-- A record ends with its closing bracket, whatever follows. -/
theorem record_of_spells {fromList fromObject : Bytes → Except Fault (α × Bytes)}
    {fromItems : List Tree → Option α} {fromMembers : List (Option String × Tree) → Option α}
    (hl : ReadsRest (.items true) fromList fromItems)
    (ho : ReadsRest (.members true) fromObject fromMembers) {g x : Bytes} {t : Tree} {a : α}
    (hg : IsBlank g) (hx : Spells x (.value t)) (ht : t.record? fromItems fromMembers = some a)
    (rest : Bytes) : record fromList fromObject (g ++ (x ++ rest)) = .ok (a, rest) := by
  cases t with
  | list ts =>
    rw [record, skipSpace_value hx hg]
    cases hx with
    | list hy => exact hl.complete hy ht
  | object ms =>
    rw [record, skipSpace_value hx hg]
    cases hx with
    | object hy => exact ho.complete hy ht
  | _ => exact nomatch ht

/-- A reader for records takes what the readers for lists and objects take, told by the bracket. -/
theorem reads_record {fromList fromObject : Bytes → Except Fault (α × Bytes)}
    {fromItems : List Tree → Option α} {fromMembers : List (Option String × Tree) → Option α}
    (hl : ReadsRest (.items true) fromList fromItems)
    (ho : ReadsRest (.members true) fromObject fromMembers) :
    Reads (record fromList fromObject) (Tree.record? fromItems fromMembers) where
  complete hg hx ht _ := record_of_spells hl ho hg hx ht _
  sound {s rest a} hs := by
    unfold record at hs
    split at hs
    · exact nomatch hs
    next b u hskip =>
      obtain ⟨g, hg, rfl, -⟩ := eq_of_skipSpace hskip
      split at hs
      next hb =>
        obtain ⟨x, ts, rfl, hx, hts⟩ := hl.sound hs
        exact ⟨g, openList :: x, .list ts, hg, by simp [hb], .list hx, hts⟩
      split at hs
      next hb =>
        obtain ⟨x, ms, rfl, hx, hms⟩ := ho.sound hs
        exact ⟨g, openObject :: x, .object ms, hg, by simp [hb], .object hx, hms⟩
      · exact nomatch hs

/-- Reading a whole text takes exactly the texts that say a wanted tree. -/
theorem whole_eq_ok {reader : Bytes → Except Fault (α × Bytes)} {wanted : Tree → Option α}
    (h : Reads reader wanted) {s : Bytes} {a : α} :
    whole reader s = .ok a ↔ ∃ t, Says s t ∧ wanted t = some a := by
  constructor
  · intro hs
    obtain ⟨⟨b, r⟩, hread, hs⟩ := bind_eq_ok.1 hs
    obtain ⟨u, hfinish, hs⟩ := bind_eq_ok.1 hs
    cases hs
    obtain ⟨g, x, t, hg, rfl, hx, ht⟩ := h.sound hread
    exact ⟨t, ⟨g, x, r, hg, finish_eq_ok.1 hfinish, rfl, hx⟩, ht⟩
  -- the blanks at the end stop a numeral, and `finish` takes them
  · rintro ⟨t, ⟨g, x, r, hg, hr, rfl, hx⟩, ht⟩
    rw [whole, h.complete hg hx ht (stops_blank hr), ok_bind]
    dsimp only
    rw [finish_of_blank hr]
    rfl

end

end LibraryPlayer.Json
