import UsbDfu.MemoryMap.Basic
import UsbDfu.Text.Blank

/-!
# The text of a memory map

A DfuSe device writes its memory map into the name of an interface:
`@Internal Flash  /0x08000000/04*016Kg,01*064Kg`. The name goes from `@` to the first slash. Then
come blocks: a base address between slashes and entries *count* `*` *size* *unit* *rights*, each of
which goes on where the one before it ended. Text between blocks that is no block is skipped; a
block whose numbers do not fit makes the whole text unreadable.
-/

namespace UsbDfu
namespace MemoryMap

open Text (isBlank trimStart isDecimalDigit isHexDigit)

/-! ## Written form -/

/-- What a size counts. -/
inductive SizeUnit where
  | blank
  | byte
  | kilo
  | mega
  deriving DecidableEq, Repr

namespace SizeUnit

/-- The unit of a letter. -/
def ofChar? : Char → Option SizeUnit
  | ' ' => some .blank
  | 'B' => some .byte
  | 'K' => some .kilo
  | 'M' => some .mega
  | _ => none

/-- How many bytes one of the unit is. -/
def factor : SizeUnit → Nat
  | .blank => 1
  | .byte => 1
  | .kilo => 1024
  | .mega => 1024 * 1024

end SizeUnit

/-- `count` sectors of `size` units each. -/
structure Entry where
  count : Nat
  size : Nat
  unit : SizeUnit
  access : Access
  deriving DecidableEq, Repr

/-- Entries one after another from an address on. -/
structure Block where
  base : Nat
  entries : List Entry
  deriving DecidableEq, Repr

/-! ## Reading a block -/

/-- The number that decimal digits write. -/
def decimalValue (digits : List Char) : Nat :=
  digits.foldl (fun n c => n * 10 + (c.toNat - '0'.toNat)) 0

/-- The number that hexadecimal digits write. -/
def hexValue (digits : List Char) : Nat :=
  digits.foldl (fun n c => n * 16 + (Text.digitValue? 16 c).getD 0) 0

/-- One or more decimal digits, as many as there are. -/
def readDecimal? (cs : List Char) : Option (Nat × List Char) :=
  match cs.takeWhile isDecimalDigit with
  | [] => none
  | digits => some (decimalValue digits, cs.dropWhile isDecimalDigit)

/-- The letter of the rights, after blanks. -/
def readAccess? (cs : List Char) : Option (Access × List Char) :=
  match trimStart cs with
  | c :: rest => (Access.ofLetter? c).map (·, rest)
  | [] => none

/-- The unit, followed by the rights. -/
def readUnit? : List Char → Option (SizeUnit × Access × List Char)
  | c :: rest => do
    let unit ← SizeUnit.ofChar? c
    let (access, rest) ← readAccess? rest
    pure (unit, access, rest)
  | [] => none

/-- The unit after at most one blank. A space may be that blank or the unit itself; it is the unit
only where no unit follows it. -/
def readSpacedUnit? (cs : List Char) : Option (SizeUnit × Access × List Char) :=
  match cs with
  | c :: rest => if isBlank c then readUnit? rest <|> readUnit? cs else readUnit? cs
  | [] => none

/-- The rest after blanks, at most one comma, and blanks. -/
def dropComma (cs : List Char) : List Char :=
  match trimStart cs with
  | ',' :: rest => trimStart rest
  | rest => rest

/-- One entry with the blanks around it and the comma after it. -/
def readEntry? (cs : List Char) : Option (Entry × List Char) := do
  let (count, rest) ← readDecimal? (trimStart cs)
  match trimStart rest with
  | '*' :: rest =>
    let (size, rest) ← readDecimal? (trimStart rest)
    let (unit, access, rest) ← readSpacedUnit? rest
    pure (⟨count, size, unit, access⟩, dropComma rest)
  | _ => none

theorem length_trimStart_le (cs : List Char) : (trimStart cs).length ≤ cs.length :=
  (List.dropWhile_sublist _).length_le

theorem length_of_readDecimal? {cs rest : List Char} {n : Nat}
    (h : readDecimal? cs = some (n, rest)) : rest.length < cs.length := by
  unfold readDecimal? at h
  split at h
  · simp at h
  · rename_i digits hne
    obtain ⟨-, rfl⟩ := Prod.mk.inj (Option.some.inj h)
    have hsum := congrArg List.length (List.takeWhile_append_dropWhile (p := isDecimalDigit) (l := cs))
    have hpos : 0 < (cs.takeWhile isDecimalDigit).length :=
      List.length_pos_iff.2 fun h0 => hne h0
    rw [List.length_append] at hsum
    omega

theorem length_of_readAccess? {cs rest : List Char} {a : Access}
    (h : readAccess? cs = some (a, rest)) : rest.length ≤ cs.length := by
  unfold readAccess? at h
  split at h
  · rename_i c tail heq
    obtain ⟨_, -, h⟩ := Option.map_eq_some_iff.1 h
    obtain ⟨-, rfl⟩ := Prod.mk.inj h
    have := length_trimStart_le cs
    rw [heq, List.length_cons] at this
    omega
  · simp at h

theorem length_of_readUnit? {cs rest : List Char} {u : SizeUnit} {a : Access}
    (h : readUnit? cs = some (u, a, rest)) : rest.length ≤ cs.length := by
  unfold readUnit? at h
  split at h
  · simp only [Option.bind_eq_bind, Option.bind_eq_some_iff, Option.pure_def, Option.some.injEq,
      Prod.mk.injEq] at h
    obtain ⟨_, -, ⟨_, tail⟩, ha, -, -, rfl⟩ := h
    have := length_of_readAccess? ha
    simp only [List.length_cons]
    omega
  · simp at h

theorem length_of_readSpacedUnit? {cs rest : List Char} {u : SizeUnit} {a : Access}
    (h : readSpacedUnit? cs = some (u, a, rest)) : rest.length ≤ cs.length := by
  unfold readSpacedUnit? at h
  split at h
  · rename_i c tail
    split at h
    · cases hu : readUnit? tail with
      | some r =>
        rw [hu] at h
        have := length_of_readUnit? (hu.trans h)
        simp only [List.length_cons]
        omega
      | none =>
        rw [hu] at h
        exact length_of_readUnit? h
    · exact length_of_readUnit? h
  · simp at h

theorem length_dropComma_le (cs : List Char) : (dropComma cs).length ≤ cs.length := by
  have h₁ := length_trimStart_le cs
  unfold dropComma
  split
  · rename_i rest heq
    have h₂ := length_trimStart_le rest
    rw [heq, List.length_cons] at h₁
    omega
  · exact h₁

/-- An entry is not empty. -/
theorem length_of_readEntry? {cs rest : List Char} {e : Entry}
    (h : readEntry? cs = some (e, rest)) : rest.length < cs.length := by
  unfold readEntry? at h
  simp only [Option.bind_eq_bind, Option.bind_eq_some_iff] at h
  obtain ⟨⟨_, r₁⟩, h₁, h⟩ := h
  have := length_of_readDecimal? h₁
  have := length_trimStart_le cs
  split at h
  · rename_i r₂ heq
    simp only [Option.bind_eq_some_iff, Option.pure_def, Option.some.injEq, Prod.mk.injEq] at h
    obtain ⟨⟨_, r₃⟩, h₃, ⟨_, _, r₄⟩, h₄, -, rfl⟩ := h
    have := length_trimStart_le r₁
    have := length_trimStart_le r₂
    have := length_of_readDecimal? h₃
    have := length_of_readSpacedUnit? h₄
    have := length_dropComma_le r₄
    rw [heq, List.length_cons] at *
    dsimp only at *
    omega
  · simp at h

/-- As many entries as there are. -/
def readEntries (cs : List Char) : List Entry × List Char :=
  match _h : readEntry? cs with
  | some (e, rest) =>
    let (es, tail) := readEntries rest
    (e :: es, tail)
  | none => ([], cs)
  termination_by cs.length
  decreasing_by exact length_of_readEntry? _h

theorem length_readEntries_le (cs : List Char) : (readEntries cs).2.length ≤ cs.length := by
  fun_induction readEntries cs with
  | case1 cs e rest h es tail heq ih =>
    have := length_of_readEntry? h
    rw [heq] at ih
    simp only at ih ⊢
    omega
  | case2 => exact Nat.le_refl _

/-- A base address of one to eight digits between slashes, and one entry or more. -/
def readBlock? (cs : List Char) : Option (Block × List Char) :=
  match cs with
  | '/' :: rest =>
    match trimStart rest with
    | '0' :: 'x' :: rest =>
      let digits := rest.takeWhile isHexDigit
      match trimStart (rest.dropWhile isHexDigit) with
      | '/' :: rest =>
        match readEntries rest with
        | ([], _) => none
        | (entries, rest) =>
          if digits.length = 0 ∨ 8 < digits.length then none
          else some (⟨hexValue digits, entries⟩, rest)
      | _ => none
    | _ => none
  | _ => none

/-- A block is not empty. -/
theorem length_of_readBlock? {cs rest : List Char} {b : Block}
    (h : readBlock? cs = some (b, rest)) : rest.length < cs.length := by
  unfold readBlock? at h
  split at h
  · rename_i r₀
    split at h
    · rename_i r₁ h₁
      simp only at h
      split at h
      · rename_i r₂ h₂
        split at h
        · simp at h
        · rename_i es r₃ hne h₃
          split at h
          · simp at h
          · obtain ⟨-, rfl⟩ := Prod.mk.inj (Option.some.inj h)
            -- no part that is read gives back more than it was given, and the slash is gone
            have e₀ := length_trimStart_le r₀
            have e₁ := length_trimStart_le (r₁.dropWhile isHexDigit)
            have e₂ := (List.dropWhile_sublist (p := isHexDigit) (l := r₁)).length_le
            have e₃ := length_readEntries_le r₂
            rw [h₃] at e₃
            rw [h₁] at e₀
            rw [h₂] at e₁
            simp only [List.length_cons] at *
            omega
      · simp at h
    · simp at h
  · simp at h

/-- All blocks of a text, the leftmost first. -/
def readBlocks (cs : List Char) : List Block :=
  match cs with
  | [] => []
  | c :: tail =>
    match _h : readBlock? (c :: tail) with
    | some (b, rest) => b :: readBlocks rest
    | none => readBlocks tail
  termination_by cs.length
  decreasing_by
    · exact length_of_readBlock? _h
    · exact Nat.lt_succ_self _

/-! ## From blocks to segments -/

/-- The segments of entries from an address on; none if a number does not fit. -/
def segmentsFrom? : Nat → List Entry → Option (List Segment)
  | _, [] => some []
  | start, e :: rest => do
    let s ← Segment.make? start e.count (e.size * e.unit.factor) e.access
    let tail ← segmentsFrom? s.stop rest
    pure (s :: tail)

/-- The segments of a block, one after the other from its base. There are none if one of them does
not fit into the address space. -/
def Block.segments? (b : Block) : Option (List Segment) :=
  segmentsFrom? b.base b.entries

/-- The segments of all blocks; none if a number of one of them does not fit. -/
def segmentsOf? : List Block → Option (List Segment)
  | [] => some []
  | b :: rest => do
    let segments ← b.segments?
    let tail ← segmentsOf? rest
    pure (segments ++ tail)

/-! ## The whole text -/

/-- The map that a text writes. -/
def parse? (text : List Char) : Option MemoryMap :=
  match text with
  | '@' :: rest =>
    let name := rest.takeWhile (· != '/')
    match rest.dropWhile (· != '/') with
    | [] => none
    | blocks => do
      let segments ← segmentsOf? (readBlocks blocks)
      if h : segments = [] then none
      else some ⟨String.ofList (Text.trim name), segments, h⟩
  | _ => none

/-- Reads the text of a memory map. -/
def parse (text : String) : Except DescriptorError MemoryMap :=
  match parse? text.toList with
  | some m => .ok m
  | none => .error (.notMemoryMap text)

end MemoryMap
end UsbDfu
