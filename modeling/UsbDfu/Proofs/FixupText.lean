import UsbDfu.Fixup
import UsbDfu.Proofs.MapGrammar

/-!
# The text of a fixup

A fixup is told as `0x90000000+0x40000`, the address in eight digits and the offset in as many as it
needs. It is read with blanks wherever they stand around the two numbers.

- `FixupText`: a written form, with its `text`.
- `Text.trim_blanks`, `Fixup.readNumber?_number`: blanks around a number say nothing.
- `FixupText.parse?_spaced`: a written form is read as the fixup that it is of, however it is spaced.
- `fixup_reads_back`: so is what is told of a fixup, whatever text that was read from.
-/

namespace UsbDfu

open MemoryMap (Blanks noBlanks StartsOutside startsOutside_append startsOutside_cons
  takeWhile_append_of_startsOutside dropWhile_append_of_startsOutside)

/-! ## Blanks around a text -/

theorem Text.trim_blanks (before after : Blanks) {core : List Char} (hne : core ≠ [])
    (hcore : ∀ c ∈ core, isBlank c = false) : trim (before.1 ++ (core ++ after.1)) = core := by
  have hstart : StartsOutside isBlank (core ++ after.1) := startsOutside_append hne hcore _
  have hend : StartsOutside isBlank core.reverse := by
    simpa using startsOutside_append (List.reverse_ne_nil_iff.2 hne)
      (fun c hc => hcore c (List.mem_reverse.1 hc)) []
  calc trim (before.1 ++ (core ++ after.1))
    _ = trimEnd (core ++ after.1) := by
      rw [trim, MemoryMap.trimStart_blanks_append, MemoryMap.trimStart_eq_self hstart]
    _ = core.reverse.reverse := by
      rw [trimEnd, List.reverse_append, dropWhile_append_of_startsOutside
        (fun c hc => after.2 c (List.mem_reverse.1 hc)) hend]
    _ = core := List.reverse_reverse core

/-! ## Written forms -/

/-- A fixup with blanks around its numbers. -/
structure FixupText where
  fixup : Fixup
  beforeReported : Blanks := noBlanks
  afterReported : Blanks := noBlanks
  beforeOffset : Blanks := noBlanks
  afterOffset : Blanks := noBlanks

namespace FixupText

/-- A hexadecimal number after its mark. -/
def number (width n : Nat) : List Char :=
  '0' :: 'x' :: (Text.hex width n).toList

/-- What stands before the `+`. -/
def reportedText (t : FixupText) : List Char :=
  t.beforeReported.1 ++ (number 8 t.fixup.reported ++ t.afterReported.1)

/-- What stands after the `+`. -/
def offsetText (t : FixupText) : List Char :=
  t.beforeOffset.1 ++ (number 1 t.fixup.offset ++ t.afterOffset.1)

/-- The numbers as they were written, around a plus sign. -/
def text (t : FixupText) : String :=
  String.ofList (t.reportedText ++ '+' :: t.offsetText)

end FixupText

namespace Fixup

open FixupText (number)

/-- Without blanks it is what is told of the fixup. -/
theorem describe_eq_text (f : Fixup) : f.describe = FixupText.text { fixup := f } := by
  have hdescribe : f.describe =
      "0x" ++ Text.hex 8 f.reported ++ "+0x" ++ Text.hex 1 f.offset := rfl
  have htext : FixupText.text { fixup := f } =
      String.ofList (number 8 f.reported ++ '+' :: number 1 f.offset) := by
    simp [FixupText.text, FixupText.reportedText, FixupText.offsetText, noBlanks]
  rw [hdescribe, htext, ← String.toList_inj]
  simp [number]

/-! ## Reading -/

/-- Neither blanks nor the `+` between two numbers are in a number. -/
theorem of_mem_number {width n : Nat} : ∀ c ∈ number width n, Text.isBlank c = false ∧ c ≠ '+' := by
  have hall : ∀ d : Fin 16, Text.isBlank (Nat.digitChar d) = false ∧ Nat.digitChar d ≠ '+' := by decide
  rw [number, Text.hex, String.toList_ofList]
  refine List.forall_mem_cons.2 ⟨by decide, List.forall_mem_cons.2 ⟨by decide, ?_⟩⟩
  exact Text.forall_mem_padStart (fun c => Text.isBlank c = false ∧ c ≠ '+') (by decide)
    (fun d hd => hall ⟨d, hd⟩) width n

theorem readNumber?_number (before after : Blanks) {width n : Nat} (hn : n < addressSpace) :
    readNumber? (before.1 ++ (number width n ++ after.1)) = some n := by
  have htrim : Text.trim (before.1 ++ (number width n ++ after.1)) = number width n :=
    Text.trim_blanks before after (List.cons_ne_nil _ _) fun c hc => (of_mem_number c hc).1
  rw [readNumber?, htrim, number, Text.readMaybeHex_hex hn]
  rfl

end Fixup

namespace FixupText

variable (t : FixupText)

/-- The `+` between the numbers is the first one. -/
theorem plus_notMem_reportedText : ∀ c ∈ t.reportedText, (c != '+') = true := by
  have hblank : ∀ b : Blanks, ∀ c ∈ b.1, (c != '+') = true := by
    intro b c hc
    rw [bne_iff_ne]
    rintro rfl
    exact absurd (b.2 _ hc) (by decide)
  refine List.forall_mem_append.2 ⟨hblank _, List.forall_mem_append.2 ⟨fun c hc => ?_, hblank _⟩⟩
  exact bne_iff_ne.2 (Fixup.of_mem_number c hc).2

theorem parse?_spaced : Fixup.parse? t.text.toList = some t.fixup := by
  have hplus : StartsOutside (· != '+') ('+' :: t.offsetText) := startsOutside_cons (by decide)
  have hreported : Fixup.readNumber? t.reportedText = some t.fixup.reported :=
    Fixup.readNumber?_number _ _ t.fixup.reported_lt
  have hoffset : Fixup.readNumber? t.offsetText = some t.fixup.offset :=
    Fixup.readNumber?_number _ _ t.fixup.offset_lt
  rw [text, String.toList_ofList, Fixup.parse?,
    takeWhile_append_of_startsOutside t.plus_notMem_reportedText hplus,
    dropWhile_append_of_startsOutside t.plus_notMem_reportedText hplus]
  simp [hreported, hoffset, t.fixup.reported_lt, t.fixup.offset_lt]

theorem parse_spaced : Fixup.parse t.text = .ok t.fixup := by
  rw [Fixup.parse, t.parse?_spaced]

end FixupText

/-- A fixup of any two addresses is read back from what is told of it, also with blanks before and after
either number. So every text that is read at all is read as a fixup that is told and read again. -/
theorem fixup_reads_back :
    (∀ f : Fixup, FixupText.text { fixup := f } = f.describe ∧ Fixup.parse f.describe = .ok f) ∧
    (∀ t : FixupText, Fixup.parse t.text = .ok t.fixup) ∧
    ∀ text f, Fixup.parse text = .ok f → Fixup.parse f.describe = .ok f := by
  have hdescribe : ∀ f : Fixup, Fixup.parse f.describe = .ok f := by
    intro f
    rw [f.describe_eq_text]
    exact FixupText.parse_spaced _
  exact ⟨fun f => ⟨f.describe_eq_text.symm, hdescribe f⟩, FixupText.parse_spaced,
    fun _ f _ => hdescribe f⟩

/-- A wide blank and a tab between the numbers; and decimal numbers, the second with a sign of its own. -/
theorem fixup_reads_back_spaced :
    let f : Fixup := ⟨0x90000000, 0x40000, by decide, by decide⟩
    let spaced : FixupText :=
      { fixup := f
        afterReported := .ofList ['\u2003'] (by decide)
        beforeOffset := .ofList ['\t', ' '] (by decide) }
    spaced.text = "0x90000000\u2003+\t 0x40000" ∧ Fixup.parse spaced.text = .ok f ∧
    Fixup.parse "2415919104 + +262144" = .ok f ∧
    f.describe = "0x90000000+0x40000" ∧ Fixup.parse f.describe = .ok f := by
  intro f spaced
  obtain ⟨-, hspaced, hagain⟩ := fixup_reads_back
  have hread : Fixup.parse "2415919104 + +262144" = .ok f := by cbv
  exact ⟨by cbv, hspaced spaced, hread, by cbv, hagain _ f hread⟩

end UsbDfu
