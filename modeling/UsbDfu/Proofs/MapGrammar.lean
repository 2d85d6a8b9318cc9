import Mathlib.Data.Nat.Digits.Defs
import UsbDfu.MemoryMap.Reader
import UsbDfu.Proofs.Numerals

/-!
# The grammar of memory maps

How the text of a memory map can be written, and that the reader takes every such text apart again:
leading zeros, digits of either case, and blanks wherever they may stand. The one place where a
character has two readings is the unit of a size, a space being a unit itself and a blank before
one.

- `Numeral`, `Address`, `EntryText`, `BlockText`, `MapText`: the written forms, each with its `text`
  and what it stands for.
- `readDecimal?_text`, `readSpacedUnit?_text`, `readEntry?_text`, `readBlock?_text`: each reader
  takes exactly its own part and leaves the rest.
- `readBlocks_text`: the blocks of a map come back in order, none dropped, merged or added.
-/

namespace UsbDfu
namespace MemoryMap

open Text (isBlank trimStart isDecimalDigit isHexDigit)

/-! ## Texts in front of other texts -/

/-- The text is empty or begins with a character outside the class. -/
def StartsOutside (p : Char → Bool) (cs : List Char) : Prop :=
  ∀ c ∈ cs.head?, p c = false

section

variable {p : Char → Bool} {cs rest : List Char} {c : Char}

theorem startsOutside_cons (h : p c = false) : StartsOutside p (c :: cs) := by
  rintro _ ⟨⟩
  exact h

theorem startsOutside_append (hne : cs ≠ []) (hcs : ∀ c ∈ cs, p c = false) (rest : List Char) :
    StartsOutside p (cs ++ rest) := by
  cases cs with
  | nil => exact absurd rfl hne
  | cons c cs => exact startsOutside_cons (hcs c List.mem_cons_self)

theorem takeWhile_append_of_startsOutside (hcs : ∀ c ∈ cs, p c = true)
    (hrest : StartsOutside p rest) : (cs ++ rest).takeWhile p = cs := by
  rw [List.takeWhile_append_of_pos hcs]
  cases rest with
  | nil => simp
  | cons c rest => simp [hrest c rfl]

theorem dropWhile_append_of_startsOutside (hcs : ∀ c ∈ cs, p c = true)
    (hrest : StartsOutside p rest) : (cs ++ rest).dropWhile p = rest := by
  rw [List.dropWhile_append_of_pos hcs]
  cases rest with
  | nil => rfl
  | cons c rest => simp [hrest c rfl]

end

/-! ## Blanks -/

/-- Any number of blank characters. -/
abbrev Blanks := { cs : List Char // ∀ c ∈ cs, isBlank c = true }

/-- No blank at all. -/
def noBlanks : Blanks :=
  ⟨[], nofun⟩

/-- Blanks whose kind is decided by evaluation. -/
def Blanks.ofList (cs : List Char) (h : cs.all isBlank = true) : Blanks :=
  ⟨cs, List.all_eq_true.1 h⟩

theorem trimStart_blanks_append (b : Blanks) (rest : List Char) :
    trimStart (b.1 ++ rest) = trimStart rest :=
  List.dropWhile_append_of_pos b.2

theorem trimStart_eq_self {cs : List Char} (h : StartsOutside isBlank cs) : trimStart cs = cs :=
  dropWhile_append_of_startsOutside (List.forall_mem_nil _) h

theorem startsOutside_trimStart (cs : List Char) : StartsOutside isBlank (trimStart cs) := by
  intro c hc
  have h := List.head?_dropWhile_not isBlank cs
  rw [show (cs.dropWhile isBlank).head? = some c from hc] at h
  simpa using h

theorem trimStart_trimStart (cs : List Char) : trimStart (trimStart cs) = trimStart cs :=
  trimStart_eq_self (startsOutside_trimStart cs)

/-- A blank is no letter and no digit. -/
theorem alphanumericValue?_of_isBlank {c : Char} (h : isBlank c = true) :
    Text.alphanumericValue? c = none := by
  have hle : ∀ d e : Char, d ≤ e ↔ d.toNat ≤ e.toNat := fun _ _ => Iff.rfl
  simp only [isBlank, Text.blankRanges, List.any_cons, List.any_nil, Bool.or_false, Bool.or_eq_true,
    Bool.and_eq_true, decide_eq_true_eq] at h
  have h0 : '0'.toNat = 48 := rfl
  have h9 : '9'.toNat = 57 := rfl
  have ha : 'a'.toNat = 97 := rfl
  have hz : 'z'.toNat = 122 := rfl
  have hA : 'A'.toNat = 65 := rfl
  have hZ : 'Z'.toNat = 90 := rfl
  simp only [Text.alphanumericValue?, hle]
  rw [if_neg (by omega), if_neg (by omega), if_neg (by omega)]

theorem isDecimalDigit_of_isBlank {c : Char} (h : isBlank c = true) : isDecimalDigit c = false := by
  have halpha := alphanumericValue?_of_isBlank h
  by_contra hdigit
  simp only [isDecimalDigit, Bool.and_eq_true, decide_eq_true_eq, Bool.not_eq_false] at hdigit
  simp [Text.alphanumericValue?, hdigit] at halpha

theorem isHexDigit_of_isBlank {c : Char} (h : isBlank c = true) : isHexDigit c = false := by
  simp [isHexDigit, Text.digitValue?, alphanumericValue?_of_isBlank h]

/-- Blanks in front of what is not one. -/
theorem trimStart_blanks_cons (b : Blanks) {c : Char} (h : isBlank c = false) (rest : List Char) :
    trimStart (b.1 ++ c :: rest) = c :: rest := by
  rw [trimStart_blanks_append, Text.trimStart_cons_of_not_blank h]

/-! ## Numbers -/

/-- A decimal number with zeros in front of its digits. -/
structure Numeral where
  zeros : Nat
  value : Nat
  deriving DecidableEq, Repr

namespace Numeral

/-- The number as it was written, with its leading zeros. -/
def text (n : Numeral) : List Char :=
  List.replicate n.zeros '0' ++ Text.digits 10 n.value

end Numeral

/-- A hexadecimal digit of either case. -/
structure HexDigit where
  value : Fin 16
  upper : Bool
  deriving DecidableEq, Repr

/-- The digit as it was written. -/
def HexDigit.char (d : HexDigit) : Char :=
  if d.upper then (Nat.digitChar d.value).toUpper else Nat.digitChar d.value

/-- A base address in one to eight digits. -/
structure Address where
  digits : List HexDigit
  digits_ne_nil : digits ≠ [] := by simp
  length_le : digits.length ≤ 8 := by decide
  deriving DecidableEq, Repr

namespace Address

/-- The digits as they were written. -/
def text (a : Address) : List Char :=
  a.digits.map HexDigit.char

/-- The number that the digits denote. -/
def value (a : Address) : Nat :=
  Nat.ofDigits 16 (a.digits.reverse.map (·.value.val))

end Address

/-! ## Entries, blocks and maps -/

/-- The letter of the unit, the inverse of `ofChar?`. -/
def SizeUnit.char : SizeUnit → Char
  | .blank => ' '
  | .byte => 'B'
  | .kilo => 'K'
  | .mega => 'M'

/-- The letter of the access rights, `a` to `g`. -/
def rightsLetter (rights : Fin 7) : Char :=
  Char.ofNat ('a'.toNat + rights)

/-- One written entry with the blanks before it and the comma after it. -/
structure EntryText where
  lead : Blanks := noBlanks
  count : Numeral
  beforeStar : Blanks := noBlanks
  afterStar : Blanks := noBlanks
  size : Numeral
  /-- At most one blank before the unit. -/
  gap : Option { c : Char // isBlank c = true } := none
  unit : SizeUnit
  beforeRights : Blanks := noBlanks
  rights : Fin 7
  beforeComma : Blanks := noBlanks
  comma : Bool := false

namespace EntryText

/-- The entry as it was written. -/
def text (e : EntryText) : List Char :=
  e.lead.1 ++ e.count.text ++ e.beforeStar.1 ++ '*' :: e.afterStar.1 ++ e.size.text
    ++ (e.gap.map (·.1)).toList ++ e.unit.char :: e.beforeRights.1 ++ rightsLetter e.rights
    :: e.beforeComma.1 ++ if e.comma then [','] else []

/-- What is written: the bits of the rights are the place of the letter, counted from 1. -/
def entry (e : EntryText) : Entry where
  count := e.count.value
  size := e.size.value
  unit := e.unit
  access := .ofBits (e.rights + 1)

end EntryText

/-- One written block with the blanks after it. -/
structure BlockText where
  afterSlash : Blanks := noBlanks
  address : Address
  beforeSlash : Blanks := noBlanks
  entries : List EntryText
  entries_ne_nil : entries ≠ [] := by simp
  trail : Blanks := noBlanks

namespace BlockText

/-- The block as it was written. -/
def text (b : BlockText) : List Char :=
  '/' :: b.afterSlash.1 ++ '0' :: 'x' :: b.address.text ++ b.beforeSlash.1
    ++ '/' :: b.entries.flatMap EntryText.text ++ b.trail.1

/-- What the text of a block says. -/
def block (b : BlockText) : Block where
  base := b.address.value
  entries := b.entries.map EntryText.entry

end BlockText

/-- The text of a map: a name, and one block or more. -/
structure MapText where
  name : List Char
  slash_notMem_name : '/' ∉ name
  blocks : List BlockText
  blocks_ne_nil : blocks ≠ [] := by simp

/-- The map as it was written. -/
def MapText.text (m : MapText) : List Char :=
  '@' :: m.name ++ m.blocks.flatMap BlockText.text

/-! ## Reading numbers -/

section Numbers

theorem decimalValue_concat_digitChar (cs : List Char) {d : Nat} (h : d < 10) :
    decimalValue (cs ++ [Nat.digitChar d]) = decimalValue cs * 10 + d := by
  have hall : ∀ d : Fin 10, (Nat.digitChar d).toNat - '0'.toNat = d := by decide
  rw [decimalValue, List.foldl_append]
  exact congrArg _ (hall ⟨d, h⟩)

theorem isDecimalDigit_of_mem_digits {n : Nat} {c : Char} (h : c ∈ Text.digits 10 n) :
    isDecimalDigit c = true := by
  have hall : ∀ d : Fin 10, isDecimalDigit (Nat.digitChar d) = true := by decide
  exact Text.forall_mem_digits (isDecimalDigit · = true) (by decide) (fun d hd => hall ⟨d, hd⟩) n c h

theorem decimalValue_digits (n : Nat) : decimalValue (Text.digits 10 n) = n := by
  induction n using Nat.strongRecOn with
  | ind n ih =>
    by_cases hn : n < 10
    · rw [Text.digits_of_lt hn]
      simpa [decimalValue] using decimalValue_concat_digitChar [] hn
    · rw [Text.digits_of_le (by decide) (by omega),
        decimalValue_concat_digitChar _ (Nat.mod_lt n (by omega)), ih (n / 10) (by omega)]
      omega

namespace Numeral

variable (n : Numeral)

theorem isDecimalDigit_of_mem_text {c : Char} (h : c ∈ n.text) : isDecimalDigit c = true := by
  rcases List.mem_append.1 h with h | h
  · rw [(List.mem_replicate.1 h).2]
    decide
  · exact isDecimalDigit_of_mem_digits h

/-- Leading zeros do not count. -/
theorem decimalValue_text : decimalValue n.text = n.value := by
  have hzeros : ∀ k, (List.replicate k '0').foldl (fun v c => v * 10 + (c.toNat - '0'.toNat)) 0 = 0 := by
    intro k
    induction k with
    | zero => rfl
    | succ k ih => exact ih
  rw [decimalValue, text, List.foldl_append, hzeros]
  exact decimalValue_digits n.value

theorem text_ne_nil : n.text ≠ [] :=
  List.append_ne_nil_of_right_ne_nil _ (Text.digits_ne_nil 10 n.value)

end Numeral

theorem readDecimal?_text (n : Numeral) {rest : List Char}
    (h : StartsOutside isDecimalDigit rest) :
    readDecimal? (n.text ++ rest) = some (n.value, rest) := by
  have hdigits : ∀ c ∈ n.text, isDecimalDigit c = true := fun c => n.isDecimalDigit_of_mem_text
  rw [readDecimal?, takeWhile_append_of_startsOutside hdigits h,
    dropWhile_append_of_startsOutside hdigits h]
  split
  · rename_i hnil
    exact absurd hnil n.text_ne_nil
  · rw [n.decimalValue_text]

theorem startsOutside_numeral (n : Numeral) (rest : List Char) :
    StartsOutside isBlank (n.text ++ rest) := by
  refine startsOutside_append n.text_ne_nil (fun c hc => Bool.eq_false_iff.2 fun hb => ?_) rest
  have hdigit := n.isDecimalDigit_of_mem_text hc
  rw [isDecimalDigit_of_isBlank hb] at hdigit
  cases hdigit

/-- Blanks in front of a number. -/
theorem trimStart_blanks_numeral (b : Blanks) (n : Numeral) (rest : List Char) :
    trimStart (b.1 ++ (n.text ++ rest)) = n.text ++ rest := by
  rw [trimStart_blanks_append, trimStart_eq_self (startsOutside_numeral n rest)]

theorem digitValue?_char (d : HexDigit) : Text.digitValue? 16 d.char = some d.value.val := by
  have hall : ∀ (v : Fin 16) (u : Bool), Text.digitValue? 16 (HexDigit.char ⟨v, u⟩) = some v.val := by
    decide
  exact hall d.value d.upper

theorem isHexDigit_of_mem_text {a : Address} {c : Char} (h : c ∈ a.text) : isHexDigit c = true := by
  obtain ⟨d, -, rfl⟩ := List.mem_map.1 h
  rw [isHexDigit, digitValue?_char]
  rfl

theorem hexValue_text (a : Address) : hexValue a.text = a.value := by
  rw [hexValue, Address.text, List.foldl_map, Address.value, List.map_reverse, Nat.ofDigits_eq_foldr,
    List.foldr_reverse, List.foldl_map]
  congr
  funext v d
  simp [digitValue?_char]
  ring

end Numbers

/-! ## Reading entries -/

section Entries

theorem isBlank_rightsLetter (r : Fin 7) : isBlank (rightsLetter r) = false := by
  revert r
  decide

theorem ofLetter?_rightsLetter (r : Fin 7) :
    Access.ofLetter? (rightsLetter r) = some (.ofBits (r + 1)) := by
  revert r
  decide

theorem ofChar?_char (u : SizeUnit) : SizeUnit.ofChar? u.char = some u := by
  cases u <;> rfl

theorem readAccess?_text (b : Blanks) (r : Fin 7) (rest : List Char) :
    readAccess? (b.1 ++ rightsLetter r :: rest) = some (.ofBits (r + 1), rest) := by
  rw [readAccess?, trimStart_blanks_cons b (isBlank_rightsLetter r)]
  simp [ofLetter?_rightsLetter]

theorem readUnit?_text (u : SizeUnit) (b : Blanks) (r : Fin 7) (rest : List Char) :
    readUnit? (u.char :: (b.1 ++ rightsLetter r :: rest)) = some (u, .ofBits (r + 1), rest) := by
  simp [readUnit?, ofChar?_char, readAccess?_text]

/-- Of all blanks only the space is a unit. -/
theorem ofChar?_of_isBlank {c : Char} (h : isBlank c = true) :
    SizeUnit.ofChar? c = if c = ' ' then some .blank else none := by
  unfold SizeUnit.ofChar?
  split
  · rfl
  · exact absurd h (by decide)
  · exact absurd h (by decide)
  · exact absurd h (by decide)
  · rename_i hne _ _ _
    rw [if_neg hne]

/-- What follows the unit is not read as a unit, but for blanks after the unit that is a space. -/
theorem readUnit?_after_unit (b : Blanks) (r : Fin 7) (rest : List Char) :
    readUnit? (b.1 ++ rightsLetter r :: rest) = none ∨
      readUnit? (b.1 ++ rightsLetter r :: rest) = some (.blank, .ofBits (r + 1), rest) := by
  obtain ⟨cs, hcs⟩ := b
  cases cs with
  | nil =>
    have hletter : ∀ r : Fin 7, SizeUnit.ofChar? (rightsLetter r) = none := by decide
    exact .inl (by simp [readUnit?, hletter])
  | cons c cs =>
    obtain ⟨hc, htail⟩ := List.forall_mem_cons.1 hcs
    by_cases hspace : c = ' '
    · subst hspace
      exact .inr (readUnit?_text .blank ⟨cs, htail⟩ r rest)
    · exact .inl (by simp [readUnit?, ofChar?_of_isBlank hc, hspace])

/-- Whatever stands before the unit, it is read as written. -/
theorem readSpacedUnit?_text (gap : Option { c : Char // isBlank c = true }) (u : SizeUnit)
    (b : Blanks) (r : Fin 7) (rest : List Char) :
    readSpacedUnit? ((gap.map (·.1)).toList ++ u.char :: (b.1 ++ rightsLetter r :: rest)) =
      some (u, .ofBits (r + 1), rest) := by
  cases gap with
  | some g => simp [readSpacedUnit?, g.2, readUnit?_text]
  | none =>
    cases u with
    | blank =>
      have hunit := readUnit?_text .blank b r rest
      rcases readUnit?_after_unit b r rest with h | h
      · simpa [readSpacedUnit?, SizeUnit.char, Text.isBlank_space, h] using hunit
      · simp [readSpacedUnit?, SizeUnit.char, Text.isBlank_space, h]
    | byte => exact readUnit?_text .byte b r rest
    | kilo => exact readUnit?_text .kilo b r rest
    | mega => exact readUnit?_text .mega b r rest

theorem dropComma_text (b : Blanks) (comma : Bool) {rest : List Char}
    (h : StartsOutside (· = ',') (trimStart rest)) :
    dropComma (b.1 ++ ((if comma then [','] else []) ++ rest)) = trimStart rest := by
  cases comma with
  | true =>
    rw [dropComma, trimStart_blanks_append, if_pos rfl, List.singleton_append,
      Text.trimStart_cons_of_not_blank (by decide)]
    rfl
  | false =>
    rw [dropComma, trimStart_blanks_append, if_neg Bool.false_ne_true, List.nil_append]
    split
    · rename_i tail heq
      rw [heq] at h
      exact absurd (h ',' rfl) (by decide)
    · rfl

theorem startsOutside_blanks {p : Char → Bool} (hp : ∀ c, isBlank c = true → p c = false)
    (b : Blanks) {rest : List Char} (h : StartsOutside p rest) : StartsOutside p (b.1 ++ rest) := by
  obtain ⟨cs, hcs⟩ := b
  cases cs with
  | nil => exact h
  | cons c cs => exact startsOutside_cons (hp c (hcs c List.mem_cons_self))

/-- The digits of the size end before the unit. -/
theorem startsOutside_spacedUnit (gap : Option { c : Char // isBlank c = true }) (u : SizeUnit)
    (rest : List Char) :
    StartsOutside isDecimalDigit ((gap.map (·.1)).toList ++ u.char :: rest) := by
  cases gap with
  | some g => exact startsOutside_cons (isDecimalDigit_of_isBlank g.2)
  | none => exact startsOutside_cons (by cases u <;> decide)

theorem readEntry?_text (e : EntryText) {rest : List Char}
    (h : StartsOutside (· = ',') (trimStart rest)) :
    readEntry? (e.text ++ rest) = some (e.entry, trimStart rest) := by
  simp only [EntryText.text, List.append_assoc, List.cons_append]
  unfold readEntry?
  rw [trimStart_blanks_numeral, readDecimal?_text _ (startsOutside_blanks
    (fun _ => isDecimalDigit_of_isBlank) _ (startsOutside_cons (by decide)))]
  simp only [Option.bind_eq_bind, Option.bind_some]
  rw [trimStart_blanks_cons _ (by decide)]
  simp only
  rw [trimStart_blanks_numeral, readDecimal?_text _ (startsOutside_spacedUnit _ _ _)]
  simp only [Option.bind_some]
  rw [readSpacedUnit?_text]
  simp only [Option.bind_some, Option.pure_def, dropComma_text _ _ h]
  rfl

theorem readEntry?_trimStart (cs : List Char) : readEntry? (trimStart cs) = readEntry? cs := by
  unfold readEntry?
  rw [trimStart_trimStart]

theorem readEntries_of_some {cs rest : List Char} {e : Entry} (h : readEntry? cs = some (e, rest)) :
    readEntries cs = (e :: (readEntries rest).1, (readEntries rest).2) := by
  rw [readEntries]
  split
  · rename_i heq
    rw [h] at heq
    cases heq
    rfl
  · rename_i heq
    rw [h] at heq
    cases heq

theorem readEntries_of_none {cs : List Char} (h : readEntry? cs = none) :
    readEntries cs = ([], cs) := by
  rw [readEntries]
  split
  · rename_i heq
    rw [h] at heq
    cases heq
  · rfl

/-- The block ends here: nothing more follows, or the slash of the next block. -/
def EndsBlock (cs : List Char) : Prop :=
  ∀ c ∈ cs.head?, c = '/'

section

variable {rest : List Char}

theorem EndsBlock.startsOutside (h : EndsBlock rest) {p : Char → Bool} (hp : p '/' = false) :
    StartsOutside p rest := by
  intro c hc
  rw [h c hc, hp]

theorem EndsBlock.trimStart_eq (h : EndsBlock rest) : trimStart rest = rest :=
  trimStart_eq_self (h.startsOutside Text.isBlank_slash)

theorem EndsBlock.readEntry?_eq_none (h : EndsBlock rest) : readEntry? rest = none := by
  unfold readEntry?
  rw [h.trimStart_eq]
  cases rest with
  | nil => rfl
  | cons c rest =>
    obtain rfl := h c rfl
    rfl

/-- What follows an entry: more entries, or blanks and the end of the block. -/
theorem startsOutside_entries (es : List EntryText) (b : Blanks) (h : EndsBlock rest) :
    StartsOutside (· = ',') (trimStart (es.flatMap EntryText.text ++ (b.1 ++ rest))) := by
  cases es with
  | nil =>
    rw [List.flatMap_nil, List.nil_append, trimStart_blanks_append, h.trimStart_eq]
    exact h.startsOutside (by decide)
  | cons e es =>
    simp only [List.flatMap_cons, EntryText.text, List.append_assoc, List.cons_append]
    rw [trimStart_blanks_numeral]
    refine startsOutside_append e.count.text_ne_nil (fun c hc => decide_eq_false ?_) _
    rintro rfl
    exact absurd (e.count.isDecimalDigit_of_mem_text hc) (by decide)

/-- The entries of a block once the blanks before them have been taken. -/
theorem readEntries_text (es : List EntryText) (b : Blanks) (h : EndsBlock rest) :
    readEntries (trimStart (es.flatMap EntryText.text ++ (b.1 ++ rest))) =
      (es.map EntryText.entry, rest) := by
  induction es with
  | nil =>
    rw [List.flatMap_nil, List.nil_append, trimStart_blanks_append, h.trimStart_eq]
    exact readEntries_of_none h.readEntry?_eq_none
  | cons e es ih =>
    have hentry := readEntry?_text e (startsOutside_entries es b h)
    rw [← List.append_assoc, ← List.flatMap_cons, ← readEntry?_trimStart] at hentry
    rw [readEntries_of_some hentry, ih]
    rfl

end

end Entries

/-! ## Reading blocks -/

section Blocks

variable {rest : List Char}

/-- The first entry of a block takes the blanks before it itself. -/
theorem readEntries_text_of_ne_nil {es : List EntryText} (hes : es ≠ []) (b : Blanks)
    (h : EndsBlock rest) :
    readEntries (es.flatMap EntryText.text ++ (b.1 ++ rest)) = (es.map EntryText.entry, rest) := by
  cases es with
  | nil => exact absurd rfl hes
  | cons e es =>
    have hentry := readEntry?_text e (startsOutside_entries es b h)
    rw [← List.append_assoc, ← List.flatMap_cons] at hentry
    rw [readEntries_of_some hentry, readEntries_text es b h]
    rfl

theorem readBlock?_text (b : BlockText) (h : EndsBlock rest) :
    readBlock? (b.text ++ rest) = some (b.block, rest) := by
  have hdigits : ∀ c ∈ b.address.text, isHexDigit c = true := fun c => isHexDigit_of_mem_text
  -- after the digits come blanks or a slash, so the digits end where they were meant to
  have hafter : ∀ tail, StartsOutside isHexDigit (b.beforeSlash.1 ++ '/' :: tail) := fun tail =>
    startsOutside_blanks (fun _ => isHexDigit_of_isBlank) _ (startsOutside_cons (by decide))
  have hlength : ¬ (b.address.text.length = 0 ∨ 8 < b.address.text.length) := by
    have h₁ := List.length_pos_iff.2 b.address.digits_ne_nil
    have h₂ := b.address.length_le
    simp only [Address.text, List.length_map]
    omega
  have hentries : b.entries.map EntryText.entry ≠ [] := by simpa using b.entries_ne_nil
  simp only [BlockText.text, List.append_assoc, List.cons_append, readBlock?]
  rw [trimStart_blanks_cons _ (by decide)]
  simp only
  rw [takeWhile_append_of_startsOutside hdigits (hafter _),
    dropWhile_append_of_startsOutside hdigits (hafter _), trimStart_blanks_cons _ Text.isBlank_slash]
  simp only
  rw [readEntries_text_of_ne_nil b.entries_ne_nil _ h]
  split
  · rename_i heq
    exact absurd (congrArg Prod.fst heq) hentries
  · rename_i heq
    cases heq
    rw [if_neg hlength, hexValue_text]
    rfl

theorem readBlocks_of_some {cs rest : List Char} {b : Block} (h : readBlock? cs = some (b, rest)) :
    readBlocks cs = b :: readBlocks rest := by
  cases cs with
  | nil => cases h
  | cons c cs =>
    rw [readBlocks]
    split
    · rename_i heq
      rw [h] at heq
      cases heq
      rfl
    · rename_i heq
      rw [h] at heq
      cases heq

theorem endsBlock_blocks (bs : List BlockText) : EndsBlock (bs.flatMap BlockText.text) := by
  cases bs with
  | nil => exact fun c hc => by cases hc
  | cons b bs =>
    intro c hc
    cases hc
    rfl

/-- The blocks of a map are read as written. -/
theorem readBlocks_text (bs : List BlockText) :
    readBlocks (bs.flatMap BlockText.text) = bs.map BlockText.block := by
  induction bs with
  | nil => rw [List.flatMap_nil, readBlocks, List.map_nil]
  | cons b bs ih =>
    rw [List.flatMap_cons, readBlocks_of_some (readBlock?_text b (endsBlock_blocks bs)), ih,
      List.map_cons]

end Blocks

/-! ## Reading maps -/

/-- The text of a map is read as its name and its blocks. -/
theorem parse?_text (m : MapText) :
    parse? m.text = (segmentsOf? (m.blocks.map BlockText.block)).bind fun segments =>
      if h : segments = [] then none
      else some ⟨String.ofList (Text.trim m.name), segments, h⟩ := by
  have hname : ∀ c ∈ m.name, (c != '/') = true := by
    intro c hc
    have hne : c ≠ '/' := fun h => m.slash_notMem_name (h ▸ hc)
    simpa using hne
  have hblocks : StartsOutside (· != '/') (m.blocks.flatMap BlockText.text) :=
    (endsBlock_blocks m.blocks).startsOutside (by decide)
  have hne : m.blocks.flatMap BlockText.text ≠ [] := by
    cases hb : m.blocks with
    | nil => exact absurd hb m.blocks_ne_nil
    | cons b bs => simp [BlockText.text]
  rw [MapText.text, List.cons_append, parse?]
  rw [takeWhile_append_of_startsOutside hname hblocks, dropWhile_append_of_startsOutside hname hblocks]
  split
  · rename_i hnil
    exact absurd hnil hne
  · rw [readBlocks_text]
    rfl

end MemoryMap
end UsbDfu
