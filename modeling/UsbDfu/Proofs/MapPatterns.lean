import UsbDfu.Proofs.MapGrammar
import UsbDfu.Proofs.Pattern

/-!
# Memory maps by patterns

The text of a memory map as two patterns, one for a block and one for the entries in the text that a
block keeps. The reader goes through a text once and looks back nowhere but at the unit of a size;
it finds what the patterns find, in every text.

- `entryPattern`, `blockPattern`: the patterns; `entryOf?`, `blockOf?`: what a match stands for.
- `read?_entryPattern`, `read?_blockPattern`: the readers take the preferred match.
- `findAll_entryPattern`: the entries found in the text that a block keeps are those that were taken
  while the rest of the text was still there.
- `findAll_blockPattern`: every match is a block, and these are the blocks that are read.
-/

namespace UsbDfu
namespace MemoryMap

open Text (isBlank trimStart isDecimalDigit isHexDigit Pattern)
open Text.Pattern

/-! ## The patterns -/

/-- The class of a unit of size. -/
def isUnit (c : Char) : Bool :=
  [' ', 'B', 'K', 'M'].contains c

/-- The class of a letter for the rights. -/
def isRights (c : Char) : Bool :=
  'a' ≤ c && c ≤ 'g'

/-- White space, `\s*`. -/
def blanks : Pattern :=
  many isBlank

/-- Digits, `[0-9]+`. -/
def number : Pattern :=
  seq (char isDecimalDigit) (many isDecimalDigit)

/-- What may follow an entry, `\s*,?\s*`. -/
def trail : Pattern :=
  all [blanks, atMost 1 (· == ','), blanks]

section

/-! What is done to the parts that say what an entry is: they are kept or left alone. -/
variable (part : Pattern → Pattern)

/-- From the end of the unit on, `\s*([a-g])\s*,?\s*`. -/
def rightsShape : Pattern :=
  all [blanks, part (char isRights), trail]

/-- From the unit on, `([ BKM])\s*([a-g])\s*,?\s*`. -/
def unitShape : Pattern :=
  all [part (char isUnit), rightsShape part]

/-- An entry, `([0-9]+)\s*\*\s*([0-9]+)\s?([ BKM])\s*([a-g])\s*,?\s*`. -/
def entryShape : Pattern :=
  all [part number, blanks, lit '*', blanks, part number, atMost 1 isBlank, unitShape part]

end

/-- The pattern of one entry, which keeps its parts. -/
def entryPattern : Pattern :=
  entryShape keep

/-- A block, `/\s*0x([0-9a-fA-F]{1,8})\s*/((?:` blanks and an entry with nothing kept `)+)`. -/
def blockPattern : Pattern :=
  all [lit '/', blanks, lit '0', lit 'x', keep (seq (char isHexDigit) (atMost 7 isHexDigit)), blanks,
    lit '/', keep (often (seq blanks (entryShape id)))]

/-! ## What a match stands for -/

/-- What the part that was kept last says. -/
def rightsOf? : List (List Char) → Option Access
  | [[c]] => Access.ofLetter? c
  | _ => none

/-- What the last two parts say: the unit of size and the rights. -/
def unitOf? : List (List Char) → Option (SizeUnit × Access)
  | [c] :: kept => do
    let unit ← SizeUnit.ofChar? c
    let access ← rightsOf? kept
    pure (unit, access)
  | _ => none

/-- The entry of a count, a size, a unit and rights. -/
def entryOf? : List (List Char) → Option Entry
  | count :: size :: kept => do
    let (unit, access) ← unitOf? kept
    pure ⟨decimalValue count, decimalValue size, unit, access⟩
  | _ => none

/-- The block of a base address and a text, in which the entries are looked for. -/
def blockOf? : List (List Char) → Option Block
  | [base, text] => do
    let entries ← (entryPattern.findAll text).mapM entryOf?
    pure ⟨hexValue base, entries⟩
  | _ => none

/-! ## Matches against readers -/

section

variable {α β : Type} {R : α → β → Prop} {a a' : Option α} {b b' : Option β}

theorem eq_none_of_rel_none (h : Option.Rel R a none) : a = none := by
  cases h
  rfl

theorem exists_of_rel_some {y : β} (h : Option.Rel R a (some y)) : ∃ x, a = some x ∧ R x y := by
  cases h with
  | some hr => exact ⟨_, rfl, hr⟩

theorem rel_or (h : Option.Rel R a b) (h' : Option.Rel R a' b') :
    Option.Rel R (a.or a') (b <|> b') := by
  cases h with
  | none => exact h'
  | some hr => exact .some hr

end

/-! ## What cannot begin where -/

section

variable {c : Char} {p : Char → Bool} {b : Pattern}

theorem isUnit_iff : isUnit c = true ↔ (SizeUnit.ofChar? c).isSome = true := by
  unfold SizeUnit.ofChar?
  split
  · exact iff_of_true (by decide) rfl
  · exact iff_of_true (by decide) rfl
  · exact iff_of_true (by decide) rfl
  · exact iff_of_true (by decide) rfl
  · rename_i hspace hbyte hkilo hmega
    refine iff_of_false ?_ (by simp)
    simpa [isUnit] using ⟨hspace, hbyte, hkilo, hmega⟩

theorem isRights_iff : isRights c = true ↔ (Access.ofLetter? c).isSome = true := by
  rw [isRights, Access.ofLetter?, Bool.and_eq_true, decide_eq_true_iff, decide_eq_true_iff]
  split
  · rename_i h
    exact iff_of_true h rfl
  · rename_i h
    exact iff_of_false h (by simp)

/-- A letter of rights is not blank. -/
theorem isRights_of_isBlank (h : isBlank c = true) : isRights c = false := by
  have halpha := alphanumericValue?_of_isBlank h
  refine Bool.eq_false_iff.2 fun hc => ?_
  simp only [isRights, Bool.and_eq_true, decide_eq_true_eq] at hc
  have hz : c ≤ 'z' := Char.le_trans hc.2 (by decide)
  simp only [Text.alphanumericValue?, hc.1, hz, and_self, if_true] at halpha
  split at halpha <;> cases halpha

theorem isUnit_of_isDecimalDigit (h : isDecimalDigit c = true) : isUnit c = false := by
  refine Bool.eq_false_iff.2 fun hc => ?_
  simp only [isUnit, List.contains_eq_mem, List.mem_cons, List.not_mem_nil, or_false,
    decide_eq_true_eq] at hc
  rcases hc with rfl | rfl | rfl | rfl <;> exact absurd h (by decide)

theorem isBlank_of_isDecimalDigit (h : isDecimalDigit c = true) : isBlank c = false := by
  refine Bool.eq_false_iff.2 fun hb => ?_
  rw [isDecimalDigit_of_isBlank hb] at h
  cases h

theorem isBlank_of_isHexDigit (h : isHexDigit c = true) : isBlank c = false := by
  refine Bool.eq_false_iff.2 fun hb => ?_
  rw [isHexDigit_of_isBlank hb] at h
  cases h

theorem rejects_lit (h : p c = false) : (seq (lit c) b).Rejects p := by
  refine (rejects_char fun d hd => ?_).seq
  rw [beq_eq_false_iff_ne]
  rintro rfl
  rw [h] at hd
  cases hd

theorem rejects_number : (seq (keep number) b).Rejects isBlank :=
  (rejects_char fun _ => isDecimalDigit_of_isBlank).seq.keep.seq

theorem rejects_entryPattern : entryPattern.Rejects isBlank :=
  rejects_number

end

/-! ## Entries -/

section

variable {cs : List Char}

theorem read?_blanks_seq {b : Pattern} (h : b.Rejects isBlank) :
    (seq blanks b).read? cs = b.read? (trimStart cs) :=
  read?_many_seq h

theorem read?_trail (cs : List Char) : trail.read? cs = some ([], dropComma cs) := by
  have hblanks : ∀ cs, blanks.read? cs = some ([], trimStart cs) := fun _ => read?_many
  calc trail.read? cs
    _ = (seq (atMost 1 (· == ',')) blanks).read? (trimStart cs) :=
      read?_many_seq_of_total (total_atMost.seq total_many)
    _ = some ([], dropComma cs) := by
      have htrim := trimStart_trimStart cs
      rw [dropComma]
      cases h : trimStart cs with
      | nil => rfl
      | cons c rest =>
        rw [h] at htrim
        rw [read?_optional_seq_cons, hblanks, hblanks, htrim]
        split
        · rename_i hc
          obtain rfl : c = ',' := by simpa using hc
          rfl
        · rename_i hc
          split
          · rename_i heq
            cases heq
            exact absurd rfl hc
          · rfl

theorem read?_rightsShape (cs : List Char) :
    Option.Rel (fun m r => rightsOf? m.1 = some r.1 ∧ m.2 = dropComma r.2)
      ((rightsShape keep).read? cs) (readAccess? cs) := by
  have hrights : (seq (keep (char isRights)) trail).Rejects isBlank :=
    (rejects_char fun _ => isRights_of_isBlank).keep.seq
  simp only [rightsShape, all]
  rw [read?_blanks_seq hrights, readAccess?]
  cases trimStart cs with
  | nil => exact .none
  | cons c rest =>
    rw [read?_keep_char_seq_cons, read?_trail]
    dsimp only
    cases h : Access.ofLetter? c with
    | none =>
      rw [if_neg (by simp [isRights_iff, h])]
      exact .none
    | some a =>
      rw [if_pos (isRights_iff.2 (by simp [h]))]
      exact .some ⟨h, rfl⟩

/-- A match from the unit of a size on, and what the reader takes there. -/
def UnitRead (m : List (List Char) × List Char) (r : SizeUnit × Access × List Char) : Prop :=
  unitOf? m.1 = some (r.1, r.2.1) ∧ m.2 = dropComma r.2.2

theorem read?_unitShape (cs : List Char) :
    Option.Rel UnitRead ((unitShape keep).read? cs) (readUnit? cs) := by
  simp only [unitShape, all]
  cases cs with
  | nil => exact .none
  | cons c cs =>
    rw [read?_keep_char_seq_cons, readUnit?]
    cases h : SizeUnit.ofChar? c with
    | none =>
      rw [if_neg (by simp [isUnit_iff, h])]
      exact .none
    | some u =>
      rw [if_pos (isUnit_iff.2 (by simp [h]))]
      have hrights := read?_rightsShape cs
      generalize (rightsShape keep).read? cs = m at hrights ⊢
      generalize readAccess? cs = r at hrights ⊢
      cases hrights with
      | none => exact .none
      | some hr => exact .some ⟨by simp [unitOf?, h, hr.1], hr.2⟩

/-- Both try the blank before the unit first, and do without it where no unit follows. -/
theorem read?_spacedUnit (cs : List Char) :
    Option.Rel UnitRead ((seq (atMost 1 isBlank) (unitShape keep)).read? cs) (readSpacedUnit? cs) := by
  cases cs with
  | nil =>
    rw [read?_optional_seq_nil]
    exact read?_unitShape []
  | cons c cs =>
    rw [read?_optional_seq_cons, readSpacedUnit?]
    split
    · exact rel_or (read?_unitShape cs) (read?_unitShape (c :: cs))
    · exact read?_unitShape (c :: cs)

/-- A number after blanks, and what follows it. -/
theorem rel_number {β : Type} {b : Pattern} {R : List (List Char) × List Char → β → Prop}
    {follow : Nat × List Char → Option β} (h : b.Rejects isDecimalDigit)
    (hb : ∀ digits rest, Option.Rel (fun m r => R (digits :: m.1, m.2) r) (b.read? rest)
      (follow (decimalValue digits, rest))) :
    Option.Rel R ((seq blanks (seq (keep number) b)).read? cs)
      ((readDecimal? (trimStart cs)).bind follow) := by
  rw [read?_blanks_seq rejects_number, number, read?_keep_some_seq h, readDecimal?]
  cases (trimStart cs).takeWhile isDecimalDigit with
  | nil => exact .none
  | cons c digits =>
    rw [if_neg (List.cons_ne_nil _ _)]
    have hrest := hb (c :: digits) ((trimStart cs).dropWhile isDecimalDigit)
    generalize b.read? _ = m at hrest ⊢
    simp only [Option.bind_some]
    generalize follow _ = r at hrest ⊢
    cases hrest with
    | none => exact .none
    | some hr => exact .some hr

/-- A match of an entry, and what the reader takes there. -/
def EntryRead (m : List (List Char) × List Char) (r : Entry × List Char) : Prop :=
  entryOf? m.1 = some r.1 ∧ m.2 = r.2

/-- The reader of an entry takes the preferred match. -/
theorem read?_entryPattern (cs : List Char) :
    Option.Rel EntryRead ((seq blanks entryPattern).read? cs) <| readEntry? cs := by
  have hspaced : (seq (atMost 1 isBlank) (unitShape keep)).Rejects isDecimalDigit :=
    (rejects_char fun _ => isUnit_of_isDecimalDigit).keep.seq.atMost_seq
      fun _ => isBlank_of_isDecimalDigit
  simp only [entryPattern, entryShape, all]
  unfold readEntry?
  refine rel_number ((rejects_lit (by decide)).many_seq fun _ => isBlank_of_isDecimalDigit)
    fun count rest => ?_
  rw [read?_blanks_seq (rejects_lit (by decide))]
  dsimp only
  split
  · rename_i rest heq
    rw [heq, read?_lit_cons]
    refine rel_number hspaced fun size rest => ?_
    have hunit := read?_spacedUnit rest
    generalize (seq (atMost 1 isBlank) (unitShape keep)).read? rest = m at hunit ⊢
    generalize readSpacedUnit? rest = r at hunit ⊢
    cases hunit with
    | none => exact .none
    | some hr => exact .some ⟨by simp [entryOf?, hr.1], hr.2⟩
  · rename_i hne
    rw [read?_lit_eq_none hne]
    exact .none

theorem read?_of_readEntry?_eq_none (h : readEntry? cs = none) :
    (seq blanks entryPattern).read? cs = none :=
  eq_none_of_rel_none (h ▸ read?_entryPattern cs)

theorem read?_of_readEntry?_eq_some {e : Entry} {rest : List Char}
    (h : readEntry? cs = some (e, rest)) :
    ∃ kept, (seq blanks entryPattern).read? cs = some (kept, rest) ∧ entryOf? kept = some e := by
  have hread := read?_entryPattern cs
  rw [h] at hread
  obtain ⟨⟨kept, _⟩, hkept, he, rfl⟩ := exists_of_rel_some hread
  exact ⟨kept, hkept, he⟩

/-- A match of an entry is not empty. -/
theorem length_of_read?_entryPattern {kept : List (List Char)} {rest : List Char}
    (h : entryPattern.read? (trimStart cs) = some (kept, rest)) :
    rest.length < (trimStart cs).length := by
  have hread := read?_entryPattern (trimStart cs)
  rw [read?_blanks_seq rejects_entryPattern, trimStart_trimStart, h] at hread
  generalize hr : readEntry? (trimStart cs) = r at hread
  cases hread with
  | some hentry =>
    obtain ⟨-, rfl⟩ := hentry
    exact length_of_readEntry? hr

/-! ## Entries one after another -/

theorem readEntries_suffix (cs : List Char) : (readEntries cs).2 <:+ cs := by
  fun_induction readEntries cs with
  | case1 cs e rest h es tail heq ih =>
    rw [heq] at ih
    obtain ⟨kept, hkept, -⟩ := read?_of_readEntry?_eq_some h
    exact ih.trans (suffix_of_read? hkept)
  | case2 cs h => exact List.suffix_refl cs

theorem readEntries_snd_eq_self (h : (readEntries cs).1 = []) : (readEntries cs).2 = cs := by
  cases hentry : readEntry? cs with
  | none => rw [readEntries_of_none hentry]
  | some r =>
    rw [readEntries_of_some hentry] at h
    cases h

theorem read?_plainEntry (cs : List Char) : (seq blanks (entryShape id)).read? cs =
    ((seq blanks entryPattern).read? cs).map fun r => ([], r.2) :=
  read?_plain (a := seq blanks entryPattern)

/-- As many entries as the reader takes, unless it takes none. -/
theorem read?_entries (cs : List Char) : (often (seq blanks (entryShape id))).read? cs =
    if (readEntries cs).1 = [] then none else some ([], (readEntries cs).2) := by
  induction hn : cs.length using Nat.strongRecOn generalizing cs with
  | ind n ih =>
    subst hn
    rw [read?_often, read?_plainEntry]
    cases hentry : readEntry? cs with
    | none =>
      rw [read?_of_readEntry?_eq_none hentry, readEntries_of_none hentry]
      rfl
    | some r =>
      obtain ⟨e, rest⟩ := r
      obtain ⟨kept, hkept, -⟩ := read?_of_readEntry?_eq_some hentry
      have hlt := length_of_readEntry? hentry
      -- an entry takes at least one character, so the loop of the pattern goes on after it
      rw [hkept, readEntries_of_some hentry, if_neg (List.cons_ne_nil _ _), Option.map_some,
        Option.bind_some, if_pos hlt, ih _ hlt rest rfl]
      split
      · rename_i hnil
        rw [readEntries_snd_eq_self hnil]
        rfl
      · rfl

/-- In the text that entries take up the same entries are found. -/
theorem findAll_entryPattern {text rest : List Char} (h : (readEntries (text ++ rest)).2 = rest) :
    (entryPattern.findAll text).mapM entryOf? = some (readEntries (text ++ rest)).1 := by
  induction hn : text.length using Nat.strongRecOn generalizing text with
  | ind n ih =>
    subst hn
    cases hentry : readEntry? (text ++ rest) with
    | none =>
      rw [readEntries_of_none hentry] at h ⊢
      obtain rfl : text = [] := List.append_left_eq_self.1 h
      rw [findAll]
      rfl
    | some r =>
      obtain ⟨e, r⟩ := r
      rw [readEntries_of_some hentry] at h ⊢
      obtain ⟨tail, rfl⟩ : rest <:+ r := h ▸ readEntries_suffix r
      -- What was matched while the rest was still there is matched in the text alone.
      obtain ⟨kept, hkept, he⟩ := read?_of_readEntry?_eq_some hentry
      have hread : (seq blanks entryPattern).read? text = some (kept, tail) := read?_of_append hkept
      rw [read?_blanks_seq rejects_entryPattern] at hread
      have hlt : tail.length < (trimStart text).length := length_of_read?_entryPattern hread
      have hshort : tail.length < text.length := Nat.lt_of_lt_of_le hlt (length_trimStart_le text)
      rw [← rejects_entryPattern.findAll_dropWhile, ← trimStart, findAll_of_read? hread hlt,
        List.mapM_cons, he, ih _ hshort h rfl]
      rfl

/-- The text of the entries is kept, and they are found again in it. -/
theorem read?_keep_entries (base : List Char) {entries : List Entry} {rest : List Char}
    (h : readEntries cs = (entries, rest)) (hne : entries ≠ []) :
    ∃ text, (keep (often (seq blanks (entryShape id)))).read? cs = some ([text], rest) ∧
      blockOf? [base, text] = some ⟨hexValue base, entries⟩ := by
  have hread := read?_entries cs
  rw [h, if_neg hne] at hread
  obtain ⟨text, rfl, hkept⟩ := read?_keep_eq_some hread
  refine ⟨text, hkept, ?_⟩
  rw [blockOf?, findAll_entryPattern (congrArg Prod.snd h), h]
  rfl

/-! ## Blocks -/

/-- A match of a block, and what the reader takes there. -/
def BlockRead (m : List (List Char) × List Char) (r : Block × List Char) : Prop :=
  blockOf? m.1 = some r.1 ∧ m.2 = r.2

/-- The reader of a block takes the preferred match. -/
theorem read?_blockPattern (cs : List Char) :
    Option.Rel BlockRead (blockPattern.read? cs) (readBlock? cs) := by
  -- what comes after the digits begins with no digit, so to give some of them back never helps
  have hslash : ∀ {b : Pattern}, (seq blanks (seq (lit '/') b)).Rejects isHexDigit :=
    (rejects_lit (by decide)).many_seq fun _ => isBlank_of_isHexDigit
  simp only [blockPattern, all]
  unfold readBlock?
  split
  · rename_i rest
    rw [read?_lit_cons, read?_blanks_seq (rejects_lit (by decide))]
    split
    · rename_i rest heq
      rw [heq, read?_lit_cons, read?_lit_cons, read?_keep_upTo_seq hslash,
        read?_blanks_seq (rejects_lit Text.isBlank_slash)]
      simp only [List.length_eq_zero_iff]
      generalize rest.takeWhile isHexDigit = base
      by_cases hbase : base = [] ∨ 8 < base.length
      · simp only [if_pos hbase]
        split
        · split <;> exact .none
        · exact .none
      · simp only [if_neg hbase]
        split
        · rename_i rest heq
          rw [heq, read?_lit_cons]
          split
          · rename_i hentries
            rw [read?_keep_eq_none (by rw [read?_entries, hentries, if_pos rfl])]
            exact .none
          · rename_i entries tail hne hentries
            obtain ⟨text, hkept, hblock⟩ := read?_keep_entries base hentries hne
            rw [hkept]
            exact .some ⟨hblock, rfl⟩
        · rename_i hne
          rw [read?_lit_eq_none hne]
          exact .none
    · rename_i hne
      by_cases hzero : ∃ tail, trimStart rest = '0' :: tail
      · obtain ⟨tail, htail⟩ := hzero
        rw [htail, read?_lit_cons, read?_lit_eq_none fun _ h => hne _ (by rw [htail, h])]
        exact .none
      · rw [read?_lit_eq_none fun tail h => hzero ⟨tail, h⟩]
        exact .none
  · rename_i hne
    rw [read?_lit_eq_none hne]
    exact .none

/-- Every match in a text is a block, and these are the blocks that are read. -/
theorem findAll_blockPattern (cs : List Char) :
    (blockPattern.findAll cs).mapM blockOf? = some (readBlocks cs) := by
  fun_induction readBlocks cs with
  | case1 =>
    rw [findAll]
    rfl
  | case2 c tail b rest h ih =>
    have hread := read?_blockPattern (c :: tail)
    rw [h] at hread
    obtain ⟨⟨kept, _⟩, hkept, hblock, rfl⟩ := exists_of_rel_some hread
    rw [findAll_of_read? hkept (length_of_readBlock? h), List.mapM_cons, hblock, ih]
    rfl
  | case3 c tail h ih =>
    have hread := read?_blockPattern (c :: tail)
    rw [h] at hread
    rw [findAll_cons_of_none (eq_none_of_rel_none hread), ih]

end

end MemoryMap
end UsbDfu
