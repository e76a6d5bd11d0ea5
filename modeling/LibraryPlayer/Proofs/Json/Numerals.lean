import LibraryPlayer.Proofs.Json.Punctuation
import LibraryPlayer.Proofs.Text.Runs

/-!
# Reading numerals

`Numeral.read` takes exactly the spellings of the grammar: one that is followed by no character of a
numeral is read to its end (`read_of_spelled`), and what has been read is the spelling of the result
(`spelled_of_read`).
-/

namespace LibraryPlayer.Json

/-- The octets that numerals are made of. -/
def isNumeralOctet (b : UInt8) : Bool :=
  isDigit b || b == point || b == plus || b == minus || isExponentMark b

/-- A numeral is over here, as no octet of numerals follows. -/
def Stops (s : Bytes) : Prop := ∀ b, s.head? = some b → isNumeralOctet b = false

/-- A numeral is over where the octets are. -/
theorem stops_nil : Stops [] := nofun

/-- It is over in front of an octet that no numeral has. -/
theorem stops_cons {b : UInt8} {s : Bytes} (h : isNumeralOctet b = false) : Stops (b :: s) := by
  intro c hc
  obtain rfl : b = c := by simpa using hc
  exact h

namespace Numeral

/-- A run of digits is over here. -/
def EndsDigits (s : Bytes) : Prop := ∀ b, s.head? = some b → isDigit b = false

/-- A run of digits is over in front of anything else. -/
theorem EndsDigits.of_cons {b : UInt8} {s : Bytes} (h : isDigit b = false) :
    EndsDigits (b :: s) := by
  intro c hc
  obtain rfl : b = c := by simpa using hc
  exact h

/-- An octet that no numeral has is no digit, no point and no letter of an exponent. -/
theorem not_of_not_isNumeralOctet {b : UInt8} (h : isNumeralOctet b = false) :
    isDigit b = false ∧ b ≠ point ∧ isExponentMark b = false := by
  simp only [isNumeralOctet, Bool.or_eq_false_iff, beq_eq_false_iff_ne] at h
  exact ⟨h.1.1.1.1, h.1.1.1.2, h.2⟩

/-- Where a numeral is over, its digits are. -/
theorem endsDigits_of_stops {s : Bytes} (h : Stops s) : EndsDigits s :=
  fun b hb => (not_of_not_isNumeralOctet (h b hb)).1

/-- A digit is none of the marks. -/
theorem isDigit_ne {b c : UInt8} (h : isDigit b = true) (hc : isDigit c = false) : b ≠ c := by
  rintro rfl
  simp [h] at hc

/-- The letter of an exponent is no digit. -/
theorem isDigit_of_isExponentMark {b : UInt8} (h : isExponentMark b = true) :
    isDigit b = false := by
  simp only [isExponentMark, Bool.or_eq_true, beq_iff_eq] at h
  obtain rfl | rfl := h <;> decide

/-! ## Digits -/

/-- A run of digits is cut off where it is over. -/
theorem digits_append {ds s : Bytes} (hds : ∀ d ∈ ds, isDigit d = true) (hs : EndsDigits s) :
    digits (ds ++ s) = (ds, s) := by
  rw [digits, Text.takeWhile_run hds hs, Text.dropWhile_run hds hs]

/-- Where at least one digit stands, all of them are read. -/
theorem someDigits_append {ds s : Bytes} (hds : IsDigits ds) (hs : EndsDigits s) (short : Fault) :
    someDigits short (ds ++ s) = .ok (ds, s) := by
  obtain ⟨d, ds', rfl⟩ := List.exists_cons_of_ne_nil hds.ne_nil
  -- the first digit tells that there is one
  have hd := hds.digits d List.mem_cons_self
  rw [List.cons_append, someDigits]
  simp only [hd, if_true]
  rw [← List.cons_append, digits_append hds.digits hs]

/-- What has been read is all the digits in front, and there is one at least. -/
theorem eq_of_someDigits {short : Fault} {s ds t : Bytes}
    (h : someDigits short s = .ok (ds, t)) : s = ds ++ t ∧ IsDigits ds ∧ EndsDigits t := by
  unfold someDigits at h
  split at h
  · exact nomatch h
  next b u =>
    split at h
    next hb =>
      obtain ⟨rfl, rfl⟩ := Prod.mk.inj (Except.ok.inj h)
      refine ⟨List.takeWhile_append_dropWhile.symm, ⟨?_, fun d hd => List.mem_takeWhile_imp hd⟩, ?_⟩
      · simp [hb]
      -- what is left after the longest run of digits starts with none
      · intro c hc
        have := List.head?_dropWhile_not isDigit (b :: u)
        rw [hc] at this
        simpa using this
    · exact nomatch h

/-! ## The parts of a numeral -/

/-- The digits before the point are read, unless a zero stands in front of others. -/
theorem readWhole_append {ds s : Bytes} (hds : IsDigits ds)
    (hzero : ds.head? = some 0x30 → ds = [0x30]) (hs : EndsDigits s) (short : Fault) :
    readWhole short (ds ++ s) = .ok (ds, s) := by
  rw [readWhole, someDigits_append hds hs]
  -- only of two digits or more is the first one looked at
  match ds with
  | [] => rfl
  | [d] => rfl
  | d :: d' :: ds =>
    have hd : d ≠ 0x30 := by
      rintro rfl
      simpa using hzero rfl
    simp [hd]
    rfl

/-- What has been read as the whole part is one. -/
theorem eq_of_readWhole {short : Fault} {s ds t : Bytes} (h : readWhole short s = .ok (ds, t)) :
    s = ds ++ t ∧ IsDigits ds ∧ (ds.head? = some 0x30 → ds = [0x30]) ∧ EndsDigits t := by
  obtain ⟨⟨ds', t'⟩, hread, h⟩ := bind_eq_ok.1 h
  obtain ⟨hs, hds, ht⟩ := eq_of_someDigits hread
  simp only at h
  split at h
  -- two digits or more: the reader has seen that the first is no zero
  next d d' ds'' =>
    split at h
    · exact nomatch h
    next hd =>
      cases h
      exact ⟨hs, hds, by simp [hd], ht⟩
  next hshort =>
    cases h
    refine ⟨hs, hds, fun hhead => ?_, ht⟩
    match ds with
    | [d] => simpa using hhead
    | d :: d' :: ds => exact absurd rfl (hshort d d' ds)

/-- A fraction is read to its end, and none where no point stands. -/
theorem readFraction_append {f s : Bytes} {x : Option Bytes} (h : Fraction f x)
    (hs : EndsDigits s) (hpoint : ∀ b, s.head? = some b → b ≠ point) (short : Fault) :
    readFraction short (f ++ s) = .ok (x, s) := by
  cases h with
  | none =>
    -- where the numeral has no fraction, what follows must not look like one
    cases s with
    | nil => rfl
    | cons b s => simp [readFraction, hpoint b rfl, pure, Except.pure]
  | some hds =>
    rw [List.cons_append, readFraction]
    simp [someDigits_append hds hs, pure, Except.pure]

/-- What has been read as a fraction is one. -/
theorem eq_of_readFraction {short : Fault} {s t : Bytes} {x : Option Bytes}
    (h : readFraction short s = .ok (x, t)) : ∃ f, s = f ++ t ∧ Fraction f x := by
  unfold readFraction at h
  split at h
  · cases h
    exact ⟨[], rfl, .none⟩
  next b u =>
    split at h
    next hb =>
      obtain ⟨⟨ds, v⟩, hread, h⟩ := bind_eq_ok.1 h
      obtain ⟨hu, hds, -⟩ := eq_of_someDigits hread
      cases h
      exact ⟨point :: ds, by rw [hb, hu]; rfl, .some hds⟩
    · cases h
      exact ⟨[], rfl, .none⟩

/-- An exponent is read to its end, and none where its letter is missing. -/
theorem readExponent_append {e s : Bytes} {x : Option (Bool × Bytes)} (h : Exponent e x)
    (hs : Stops s) (short : Fault) : readExponent short (e ++ s) = .ok (x, s) := by
  have hmark {b : UInt8} (hb : isExponentMark b = true) : b = 0x65 ∨ b = 0x45 := by
    simpa [isExponentMark] using hb
  cases h with
  | none =>
    cases s with
    | nil => rfl
    | cons b s =>
      have hb : ¬(b = 0x65 ∨ b = 0x45) := by
        simpa [isExponentMark] using (not_of_not_isNumeralOctet (hs b rfl)).2.2
      simp [readExponent, hb, pure, Except.pure]
  | @unsigned b ds hb hds =>
    obtain ⟨d, ds', rfl⟩ := List.exists_cons_of_ne_nil hds.ne_nil
    have hd := hds.digits d List.mem_cons_self
    -- a digit is neither sign, so the reader takes the exponent as unsigned
    have hplus : d ≠ plus := isDigit_ne hd (by decide)
    have hminus : d ≠ minus := isDigit_ne hd (by decide)
    have hread := someDigits_append hds (endsDigits_of_stops hs) short
    rw [List.cons_append] at hread
    simp [readExponent, hmark hb, hplus, hminus, hread, pure, Except.pure]
  | @plus b ds hb hds =>
    have hread := someDigits_append hds (endsDigits_of_stops hs) short
    simp [readExponent, hmark hb, hread, pure, Except.pure]
    decide
  | @minus b ds hb hds =>
    have hread := someDigits_append hds (endsDigits_of_stops hs) short
    simp [readExponent, hmark hb, hread, pure, Except.pure]

/-- What has been read as an exponent is one. -/
theorem eq_of_readExponent {short : Fault} {s t : Bytes} {x : Option (Bool × Bytes)}
    (h : readExponent short s = .ok (x, t)) : ∃ e, s = e ++ t ∧ Exponent e x := by
  unfold readExponent at h
  split at h
  · cases h
    exact ⟨[], rfl, .none⟩
  next b u =>
    split at h
    next hb =>
      have hmark : isExponentMark b = true := by simpa [isExponentMark] using hb
      split at h
      · exact nomatch h
      next c v =>
        obtain ⟨⟨ds, w⟩, hread, h⟩ := bind_eq_ok.1 h
        obtain ⟨hsplit, hds, -⟩ := eq_of_someDigits hread
        cases h
        -- a sign has been read or not; in either case digits follow
        split at hsplit
        next hc =>
          subst hsplit
          obtain rfl | rfl := hc
          · exact ⟨b :: plus :: ds, rfl, .plus hmark hds⟩
          · exact ⟨b :: minus :: ds, rfl, .minus hmark hds⟩
        next hc =>
          have hminus : (c == minus) = false := by simpa using (not_or.1 hc).2
          exact ⟨b :: ds, by rw [hsplit]; rfl, hminus ▸ .unsigned hmark hds⟩
    · cases h
      exact ⟨[], rfl, .none⟩

/-! ## Numerals -/

/-- A spelling starts with a digit or a minus sign, which tells a numeral from other values. -/
theorem Spelled.head {s : Bytes} {x : Numeral} (h : x.Spelled s) :
    ∃ b t, s = b :: t ∧ startsNumber b = true := by
  obtain @⟨negative, whole, f, e, -, -, hwhole, -, -, -⟩ := h
  obtain ⟨d, ds, rfl⟩ := List.exists_cons_of_ne_nil hwhole.ne_nil
  have hd := hwhole.digits d List.mem_cons_self
  cases negative with
  | false => exact ⟨d, _, rfl, by simp [startsNumber, hd]⟩
  | true => exact ⟨minus, _, rfl, by simp [startsNumber]⟩

/-- Numerals are made of digits, among other octets. -/
theorem isNumeralOctet_of_isDigits {ds : Bytes} (h : IsDigits ds) :
    ∀ b ∈ ds, isNumeralOctet b = true := fun b hb => by
  simp [isNumeralOctet, h.digits b hb]

/-- A spelling has octets of numerals only. -/
theorem Spelled.octets {s : Bytes} {x : Numeral} (h : x.Spelled s) :
    ∀ b ∈ s, isNumeralOctet b = true := by
  obtain @⟨negative, whole, f, e, fraction, exponent, hwhole, -, hf, he⟩ := h
  have hmark {b : UInt8} (hb : isExponentMark b = true) : isNumeralOctet b = true := by
    simp [isNumeralOctet, hb]
  -- sign, whole part, fraction and exponent in turn
  simp only [List.forall_mem_append]
  refine ⟨?_, isNumeralOctet_of_isDigits hwhole, ?_, ?_⟩
  · cases negative <;> simp [signOf, isNumeralOctet]
  · cases hf with
    | none => simp
    | some hds => exact List.forall_mem_cons.2 ⟨by decide, isNumeralOctet_of_isDigits hds⟩
  · cases he with
    | none => simp
    | unsigned he hds => exact List.forall_mem_cons.2 ⟨hmark he, isNumeralOctet_of_isDigits hds⟩
    | plus he hds =>
      exact List.forall_mem_cons.2 ⟨hmark he, List.forall_mem_cons.2
        ⟨by decide, isNumeralOctet_of_isDigits hds⟩⟩
    | minus he hds =>
      exact List.forall_mem_cons.2 ⟨hmark he, List.forall_mem_cons.2
        ⟨by decide, isNumeralOctet_of_isDigits hds⟩⟩

/-- What follows the digits before the point starts with no digit. -/
theorem endsDigits_append {f e s : Bytes} {x : Option Bytes} {y : Option (Bool × Bytes)}
    (hf : Fraction f x) (he : Exponent e y) (hs : Stops s) : EndsDigits (f ++ (e ++ s)) := by
  -- it starts with the point, or else the exponent, or else what follows the numeral
  cases hf with
  | some _ => exact .of_cons (by decide)
  | none =>
    cases he with
    | none => exact endsDigits_of_stops hs
    | unsigned he _ => exact .of_cons (isDigit_of_isExponentMark he)
    | plus he _ => exact .of_cons (isDigit_of_isExponentMark he)
    | minus he _ => exact .of_cons (isDigit_of_isExponentMark he)

/-- What follows the fraction starts with no point. -/
theorem head_ne_point {e s : Bytes} {y : Option (Bool × Bytes)} (he : Exponent e y)
    (hs : Stops s) : ∀ b, (e ++ s).head? = some b → b ≠ point := by
  have hmark {b c : UInt8} (hb : isExponentMark b = true) (hc : some b = some c) : c ≠ point := by
    rintro rfl
    obtain rfl := Option.some.inj hc
    exact absurd hb (by decide)
  intro b hb
  cases he with
  | none => exact (not_of_not_isNumeralOctet (hs b hb)).2.1
  | unsigned he _ => exact hmark he hb
  | plus he _ => exact hmark he hb
  | minus he _ => exact hmark he hb

/-- A spelling that is over is read to its end. -/
theorem read_of_spelled {s t : Bytes} {x : Numeral} (h : x.Spelled s) (ht : Stops t)
    (short : Fault) : read short (s ++ t) = .ok (x, t) := by
  obtain @⟨negative, whole, f, e, fraction, exponent, hwhole, hzero, hf, he⟩ := h
  have hdigits := endsDigits_append hf he ht
  -- the sign is told by the first octet, since a digit is no minus sign
  have hsign : ((signOf negative ++ (whole ++ (f ++ e)) ++ t).head? == some minus) = negative := by
    cases negative with
    | true => rfl
    | false =>
      obtain ⟨d, ds, rfl⟩ := List.exists_cons_of_ne_nil hwhole.ne_nil
      have hd : d ≠ minus := isDigit_ne (hwhole.digits d List.mem_cons_self) (by decide)
      simp [signOf, hd]
  have hunsigned : (if negative = true then (signOf negative ++ (whole ++ (f ++ e)) ++ t).tail
      else signOf negative ++ (whole ++ (f ++ e)) ++ t) = whole ++ (f ++ (e ++ t)) := by
    cases negative <;> simp [signOf]
  -- in front of the exponent stands no digit that the fraction could go on with
  have hfraction := endsDigits_append .none he ht
  rw [List.nil_append] at hfraction
  rw [read, hsign]
  simp only [hunsigned]
  rw [readWhole_append hwhole hzero hdigits, ok_bind]
  simp only
  rw [readFraction_append hf hfraction (head_ne_point he ht), ok_bind]
  simp only
  rw [readExponent_append he ht, ok_bind]
  rfl

/-- What has been read is the spelling of the result. -/
theorem spelled_of_read {short : Fault} {s t : Bytes} {x : Numeral}
    (h : read short s = .ok (x, t)) : ∃ u, s = u ++ t ∧ x.Spelled u := by
  obtain ⟨⟨whole, t₁⟩, hwhole, h⟩ := bind_eq_ok.1 h
  obtain ⟨⟨fraction, t₂⟩, hfraction, h⟩ := bind_eq_ok.1 h
  obtain ⟨⟨exponent, t₃⟩, hexponent, h⟩ := bind_eq_ok.1 h
  cases h
  obtain ⟨hs, hdigits, hzero, -⟩ := eq_of_readWhole hwhole
  obtain ⟨f, rfl, hf⟩ := eq_of_readFraction hfraction
  obtain ⟨e, rfl, he⟩ := eq_of_readExponent hexponent
  refine ⟨_, ?_, .mk hdigits hzero hf he⟩
  -- the parts have been found behind the sign, if there is one
  cases hsign : s.head? == some minus with
  | false =>
    rw [hsign] at hs
    simpa [signOf] using hs
  | true =>
    rw [hsign] at hs
    obtain ⟨u, rfl⟩ : ∃ u, s = minus :: u := by
      cases s with
      | nil => simp at hsign
      | cons b s => exact ⟨s, by rw [show b = minus by simpa using hsign]⟩
    simpa [signOf] using hs

end Numeral

end LibraryPlayer.Json
