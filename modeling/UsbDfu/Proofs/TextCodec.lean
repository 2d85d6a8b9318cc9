import UsbDfu.Descriptor.Text

/-!
# Texts read back

A device gives its names in UTF-16. What `Utf16.encode` writes `Utf16.decode` reads back, surrogate
pairs included, and so does a string descriptor whose length byte can hold its length.

- `Utf16.decode_encodeChar`: one character in front of a stream of units.
- `TextDescriptor.decode_ofUnits`: the whole descriptor, whatever its units stand for and whatever bytes
  follow it; `TextDescriptor.decode_encode` is that of a text.
-/

namespace UsbDfu

/-! ## Units -/

namespace Text.Utf16

theorem isHigh_iff {u : UInt16} : isHigh u = true ↔ 0xd800 ≤ u.toNat ∧ u.toNat < 0xdc00 := by
  simp [isHigh, UInt16.le_iff_toNat_le, UInt16.lt_iff_toNat_lt]

theorem isLow_iff {u : UInt16} : isLow u = true ↔ 0xdc00 ≤ u.toNat ∧ u.toNat < 0xe000 := by
  simp [isLow, UInt16.le_iff_toNat_le, UInt16.lt_iff_toNat_lt]

/-- A unit that is no surrogate stands for itself. -/
theorem decode_cons_of_plain {u : UInt16} (hu : u.toNat < 0xd800 ∨ 0xe000 ≤ u.toNat)
    (rest : List UInt16) : decode (u :: rest) = Char.ofNat u.toNat :: decode rest := by
  have hhigh : isHigh u = false := by
    rw [← Bool.not_eq_true, isHigh_iff]
    omega
  have hlow : isLow u = false := by
    rw [← Bool.not_eq_true, isLow_iff]
    omega
  cases rest with
  | nil => simp [decode, hhigh, hlow]
  | cons v rest => simp [decode, hhigh, hlow]

/-- A high surrogate and a low one stand for one character. -/
theorem decode_cons_of_pair {high low : UInt16} (hhigh : isHigh high = true)
    (hlow : isLow low = true) (rest : List UInt16) :
    decode (high :: low :: rest) = pair high low :: decode rest := by
  rw [decode, if_pos hhigh, if_pos hlow]

/-- No character has the code point of a surrogate, and the greatest one has 0x10ffff. -/
theorem toNat_bounds (c : Char) : c.toNat < 0xd800 ∨ 0xe000 ≤ c.toNat ∧ c.toNat < 0x110000 :=
  c.valid

theorem decode_encodeChar (c : Char) (rest : List UInt16) :
    decode (encodeChar c ++ rest) = c :: decode rest := by
  have hbounds := toNat_bounds c
  by_cases hc : c.toNat < 0x10000
  · have hunit : (UInt16.ofNat c.toNat).toNat = c.toNat := by
      rw [UInt16.toNat_ofNat']
      omega
    rw [encodeChar, if_pos hc, List.singleton_append, decode_cons_of_plain (by omega), hunit,
      Char.ofNat_toNat]
  · have hhigh : (UInt16.ofNat (0xd800 + (c.toNat - 0x10000) / 0x400)).toNat =
        0xd800 + (c.toNat - 0x10000) / 0x400 := by
      rw [UInt16.toNat_ofNat']
      omega
    have hlow : (UInt16.ofNat (0xdc00 + (c.toNat - 0x10000) % 0x400)).toNat =
        0xdc00 + (c.toNat - 0x10000) % 0x400 := by
      rw [UInt16.toNat_ofNat']
      omega
    rw [encodeChar, if_neg hc, List.cons_append, List.singleton_append,
      decode_cons_of_pair (isHigh_iff.2 (by omega)) (isLow_iff.2 (by omega)), pair, hhigh, hlow,
      show 0x10000 + (0xd800 + (c.toNat - 0x10000) / 0x400 - 0xd800) * 0x400 +
        (0xdc00 + (c.toNat - 0x10000) % 0x400 - 0xdc00) = c.toNat by omega, Char.ofNat_toNat]

theorem decode_encode (cs : List Char) : decode (encode cs) = cs := by
  induction cs with
  | nil => rfl
  | cons c cs ih =>
    rw [encode, List.flatMap_cons, decode_encodeChar]
    exact congrArg (c :: ·) ih

end Text.Utf16

/-! ## String descriptors -/

theorem Bytes.words_flatMap_le16 (ws : List UInt16) : words (ws.flatMap le16) = ws := by
  induction ws with
  | nil => rfl
  | cons w ws ih =>
    rw [List.flatMap_cons, le16, List.cons_append, List.singleton_append, words, word_le16, ih]

theorem Bytes.length_flatMap_le16 (ws : List UInt16) : (ws.flatMap le16).length = 2 * ws.length := by
  induction ws with
  | nil => rfl
  | cons w ws ih =>
    rw [List.flatMap_cons, List.length_append, ih, List.length_cons, le16]
    simp only [List.length_cons, List.length_nil]
    omega

namespace TextDescriptor

/-- The length byte can hold the length of the text's descriptor. -/
def Fits (s : String) : Prop :=
  (Text.Utf16.encode s.toList).length ≤ 126

instance (s : String) : Decidable (Fits s) :=
  inferInstanceAs (Decidable (_ ≤ 126))

/-- The descriptor that holds these units, whatever they stand for. -/
def ofUnits (units : List UInt16) : Bytes :=
  UInt8.ofNat (2 * units.length + 2) :: Descriptor.textType :: units.flatMap Bytes.le16

theorem encode_eq_ofUnits (s : String) : encode s = ofUnits (Text.Utf16.encode s.toList) := rfl

/-- It is its length, its type, and its units. -/
theorem ofUnits_eq {units : List UInt16} (h : units.length ≤ 126) : ∃ length content,
    ofUnits units = length :: Descriptor.textType :: content ∧
      length.toNat = content.length + 2 ∧ Bytes.words content = units := by
  refine ⟨_, _, rfl, ?_, Bytes.words_flatMap_le16 _⟩
  rw [UInt8.toNat_ofNat', Bytes.length_flatMap_le16]
  omega

/-- The units are given as they are in language 0, and as a text in every other one. -/
theorem decode_ofUnits {units : List UInt16} (h : units.length ≤ 126) (language : UInt16)
    (junk : Bytes) : decode (ofUnits units ++ junk) language =
      .ok (if language = 0 then .languages units
        else .text (String.ofList (Text.Utf16.decode units))) := by
  obtain ⟨length, content, hdescriptor, hlength, hunits⟩ := ofUnits_eq h
  have hwhole : ¬ (length.toNat < 2 ∨ (content ++ junk).length + 2 < length.toNat) := by
    rw [List.length_append]
    omega
  have hcontent : (content ++ junk).take (length.toNat - 2) = content := by
    rw [hlength, Nat.add_sub_cancel, List.take_left]
  rw [hdescriptor, List.cons_append, List.cons_append, decode, if_neg hwhole, Descriptor.checkType,
    if_pos rfl, hcontent, hunits]
  by_cases hlanguage : language = 0
  · rw [if_pos hlanguage, if_pos hlanguage]
    rfl
  · rw [if_neg hlanguage, if_neg hlanguage]
    rfl

theorem decode_encode {s : String} (h : Fits s) {language : UInt16} (hlanguage : language ≠ 0)
    (junk : Bytes) : decode (encode s ++ junk) language = .ok (.text s) := by
  rw [encode_eq_ofUnits, decode_ofUnits h, if_neg hlanguage, Text.Utf16.decode_encode,
    String.ofList_toList]

end TextDescriptor
end UsbDfu
