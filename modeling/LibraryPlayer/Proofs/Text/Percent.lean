import LibraryPlayer.Text.Percent

/-!
# Percent-encoded texts

What an encoding writes is ASCII, so the octets of the encoded text are those that were written
(`octets_encode`), and decoding it gives the text back, whatever characters it has
(`decode?_encode`).
-/

namespace LibraryPlayer.Text

/-- The octets of a text are those of its characters, one after the other. -/
theorem octets_ofList (cs : List Char) :
    octets (.ofList cs) = cs.flatMap String.utf8EncodeChar := by
  rw [octets, String.toUTF8_eq_toByteArray, String.toByteArray_ofList, List.utf8Encode,
    List.toList_data_toByteArray]

/-- The character that an ASCII octet stands for has this one octet. -/
theorem utf8EncodeChar_ofNat {b : UInt8} (h : b.toNat < 128) :
    String.utf8EncodeChar (Char.ofNat b.toNat) = [b] := by
  have hvalid : b.toNat.isValidChar := Or.inl (by omega)
  have hval : (Char.ofNat b.toNat).val.toNat = b.toNat := by
    rw [Char.ofNat, dif_pos hvalid]
    rfl
  -- below 128 a character is encoded by its number itself
  simp only [String.utf8EncodeChar, hval]
  rw [if_pos (by omega), UInt8.ofNat_toNat]

/-- A text that is made of ASCII octets has these octets. -/
theorem octets_ofList_map {bs : List UInt8} (h : ∀ b ∈ bs, b.toNat < 128) :
    octets (.ofList (bs.map fun b => Char.ofNat b.toNat)) = bs := by
  rw [octets_ofList]
  induction bs with
  | nil => rfl
  | cons b bs ih =>
    rw [List.map_cons, List.flatMap_cons, utf8EncodeChar_ofNat (h b List.mem_cons_self),
      ih fun c hc => h c (List.mem_cons_of_mem _ hc), List.singleton_append]

namespace Percent

/-- The digits of an escape are ASCII. -/
theorem hexDigit_lt : ∀ n : Fin 16, (hexDigit n).toNat < 128 := by decide

/-- Unreserved octets are ASCII. -/
theorem lt_of_isUnreserved {b : UInt8} (h : isUnreserved b = true) : b.toNat < 128 := by
  simp only [isUnreserved, Bool.or_eq_true, Bool.and_eq_true, decide_eq_true_eq,
    beq_iff_eq] at h
  omega

/-- So is everything that is written for an octet. -/
theorem lt_of_mem_encodeOctet {b c : UInt8} (h : c ∈ encodeOctet b) : c.toNat < 128 := by
  unfold encodeOctet at h
  split at h
  next hb =>
    obtain rfl := List.mem_singleton.1 h
    exact lt_of_isUnreserved hb
  next =>
    have hb := b.toNat_lt
    -- a percent sign, or one of the two digits
    simp only [List.mem_cons, List.not_mem_nil, or_false] at h
    obtain rfl | rfl | rfl := h
    · decide
    · exact hexDigit_lt ⟨b.toNat / 16, by omega⟩
    · exact hexDigit_lt ⟨b.toNat % 16, by omega⟩

/-- The octets of an encoded text are those that were written. -/
@[simp] theorem octets_encode (s : String) : octets (encode s) = encodeOctets (octets s) := by
  -- all octets that an encoding writes are ASCII, so each is the only one of its character
  refine octets_ofList_map fun c hc => ?_
  obtain ⟨b, -, hb⟩ := List.mem_flatMap.1 hc
  exact lt_of_mem_encodeOctet hb

/-- Decoding gives every encoded text back. -/
@[simp] theorem decode?_encode (s : String) : decode? (encode s) = some s := by
  rw [decode?, octets_encode, decodeOctets_encodeOctets, ofOctets?_octets]

/-- Different texts are written differently. -/
theorem encode_inj {s t : String} : encode s = encode t ↔ s = t := by
  refine ⟨fun h => ?_, fun h => h ▸ rfl⟩
  have hdecoded := decode?_encode s
  rw [h, decode?_encode, Option.some.injEq] at hdecoded
  exact hdecoded.symm

end Percent

end LibraryPlayer.Text
