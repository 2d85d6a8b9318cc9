import Mathlib.Data.List.Forall2
import Mathlib.Data.List.TakeWhile
import UsbDfu.Proofs.MapGrammar

/-!
# What a memory map says

The segments that a written map stands for, and which maps stand for any: every number has to fit
thirty-two bits, the size of a sector and every running end included.

- `EntriesFit start es`: the numbers of the entries fit when the first begins at `start`.
- `LaidOut start es segments`: one segment for each entry, each beginning where the one before it
  ended; `segmentsFrom?_eq_some_iff` says that the reader lays out just the entries that fit.
- `Trimmed cs core`: `core` is the text without the blanks around it (`trimmed_trim`).
- `parse_text`: for every way to write a map, what is read, or that it is refused with its text.
-/

namespace UsbDfu
namespace MemoryMap

open Text (isBlank trimStart)

/-! ## Entries that fit -/

namespace Entry

/-- The bytes of one sector. -/
def sectorSize (e : Entry) : Nat :=
  e.size * e.unit.factor

/-- How many bytes the entry stands for. -/
def length (e : Entry) : Nat :=
  e.count * e.sectorSize

end Entry

/-- The numbers of one entry that begins at `start`. -/
structure EntryFits (start : Nat) (e : Entry) : Prop where
  count_lt : e.count < 2 ^ 32
  size_lt : e.size < 2 ^ 32
  sectorSize_pos : 1 ≤ e.sectorSize
  sectorSize_le : e.sectorSize ≤ 2 ^ 32 - 1
  stop_le : start + e.length ≤ 2 ^ 32 - 1

/-- Every entry fits where the one before it ends. -/
def EntriesFit : Nat → List Entry → Prop
  | _, [] => True
  | start, e :: rest => EntryFits start e ∧ EntriesFit (start + e.length) rest

/-- One segment for each entry, each beginning where the one before it ended. -/
inductive LaidOut : Nat → List Entry → List Segment → Prop where
  | nil (start : Nat) : LaidOut start [] []
  | cons {start : Nat} {e : Entry} {rest : List Entry} {s : Segment} {segments : List Segment}
      (start_eq : s.start = start) (sectors_eq : s.sectors = e.count)
      (sectorSize_eq : s.sectorSize = e.sectorSize) (access_eq : s.access = e.access)
      (h : LaidOut s.stop rest segments) : LaidOut start (e :: rest) (s :: segments)

namespace Block

/-- The entries of the block fit into the address space, one after the other from its base. -/
def Fits (b : Block) : Prop :=
  EntriesFit b.base b.entries

/-- The segments are those of the block's entries, one after the other from its base. -/
def LaidOut (b : Block) (segments : List Segment) : Prop :=
  MemoryMap.LaidOut b.base b.entries segments

end Block

section

variable {start : Nat} {e : Entry} {es : List Entry} {segments : List Segment}

theorem SizeUnit.factor_pos (u : SizeUnit) : 0 < u.factor := by
  cases u <;> decide

/-- Of the four bounds two follow from the others. -/
theorem entryFits_iff : EntryFits start e ↔
    0 < e.sectorSize ∧ e.sectorSize < addressSpace ∧ start + e.length < addressSpace := by
  have hspace : addressSpace = 2 ^ 32 := rfl
  constructor
  · rintro ⟨-, -, hpos, hsize, hstop⟩
    omega
  · rintro ⟨hpos, hsize, hstop⟩
    have hcount : e.count ≤ e.length := Nat.le_mul_of_pos_right _ hpos
    have hunit : e.size ≤ e.sectorSize := Nat.le_mul_of_pos_right _ e.unit.factor_pos
    exact ⟨by omega, by omega, hpos, by omega, by omega⟩

instance : Decidable (EntryFits start e) :=
  decidable_of_iff _ entryFits_iff.symm

instance decidableEntriesFit : (start : Nat) → (es : List Entry) → Decidable (EntriesFit start es)
  | _, [] => .isTrue trivial
  | start, e :: rest =>
    have := decidableEntriesFit (start + e.length) rest
    inferInstanceAs (Decidable (EntryFits start e ∧ EntriesFit (start + e.length) rest))

theorem make?_eq_some_iff {s : Segment} :
    Segment.make? start e.count (e.size * e.unit.factor) e.access = some s ↔
      EntryFits start e ∧ s.start = start ∧ s.sectors = e.count ∧ s.sectorSize = e.sectorSize ∧
        s.access = e.access := by
  rw [entryFits_iff, Segment.make?]
  constructor
  · intro h
    split at h
    · rename_i hfits
      cases h
      exact ⟨hfits, rfl, rfl, rfl, rfl⟩
    · cases h
  · rintro ⟨hfits, hstart, hsectors, hsize, haccess⟩
    cases s
    cases hstart
    cases hsectors
    cases hsize
    cases haccess
    exact dif_pos hfits

/-- The reader lays out the entries that fit, and no others. -/
theorem segmentsFrom?_eq_some_iff :
    segmentsFrom? start es = some segments ↔ EntriesFit start es ∧ LaidOut start es segments := by
  induction es generalizing start segments with
  | nil =>
    rw [segmentsFrom?]
    constructor
    · rintro ⟨⟩
      exact ⟨trivial, .nil start⟩
    · rintro ⟨-, ⟨⟩⟩
      rfl
  | cons e rest ih =>
    simp only [segmentsFrom?, Option.bind_eq_bind, Option.bind_eq_some_iff, Option.pure_def,
      Option.some.injEq, make?_eq_some_iff, ih]
    constructor
    · rintro ⟨s, ⟨hfits, hstart, hsectors, hsize, haccess⟩, tail, ⟨hrest, htail⟩, rfl⟩
      refine ⟨⟨hfits, ?_⟩, .cons hstart hsectors hsize haccess htail⟩
      rwa [Segment.stop, Segment.length, hstart, hsectors, hsize] at hrest
    · rintro ⟨⟨hfits, hrest⟩, hlaid⟩
      cases hlaid with
      | cons hstart hsectors hsize haccess htail =>
        refine ⟨_, ⟨hfits, hstart, hsectors, hsize, haccess⟩, _, ⟨?_, htail⟩, rfl⟩
        rwa [Segment.stop, Segment.length, hstart, hsectors, hsize]

/-- Entries that fit can be laid out. -/
theorem exists_laidOut_of_fits (h : EntriesFit start es) : ∃ segments, LaidOut start es segments := by
  induction es generalizing start with
  | nil => exact ⟨[], .nil start⟩
  | cons e rest ih =>
    obtain ⟨hentry, hrest⟩ := h
    obtain ⟨hpos, hsize, hstop⟩ := entryFits_iff.1 hentry
    obtain ⟨segments, hsegments⟩ := ih hrest
    exact ⟨⟨start, e.count, e.sectorSize, e.access, hpos, hsize, hstop⟩ :: segments,
      .cons rfl rfl rfl rfl hsegments⟩

theorem LaidOut.ne_nil (h : LaidOut start es segments) (hes : es ≠ []) : segments ≠ [] := by
  cases h with
  | nil => exact absurd rfl hes
  | cons => simp

end

/-! ## Blocks that fit -/

section

variable {b : Block} {blocks : List Block} {segments : List Segment}

instance : Decidable b.Fits :=
  inferInstanceAs (Decidable (EntriesFit b.base b.entries))

theorem segments?_eq_some_iff : b.segments? = some segments ↔ b.Fits ∧ b.LaidOut segments :=
  segmentsFrom?_eq_some_iff

/-- The blocks are laid out one after another, or a number of one of them does not fit. -/
theorem segmentsOf?_eq_some_iff : segmentsOf? blocks = some segments ↔
    (∀ b ∈ blocks, b.Fits) ∧
      ∃ parts, List.Forall₂ Block.LaidOut blocks parts ∧ segments = parts.flatten := by
  induction blocks generalizing segments with
  | nil =>
    constructor
    · rintro ⟨⟩
      exact ⟨by simp, [], .nil, rfl⟩
    · rintro ⟨-, parts, ⟨⟩, rfl⟩
      rfl
  | cons b blocks ih =>
    simp only [segmentsOf?, Option.bind_eq_bind, Option.bind_eq_some_iff, Option.pure_def,
      Option.some.injEq, segments?_eq_some_iff, ih, List.forall_mem_cons]
    constructor
    · rintro ⟨part, ⟨hfits, hpart⟩, _, ⟨hrest, parts, hparts, rfl⟩, rfl⟩
      exact ⟨⟨hfits, hrest⟩, part :: parts, .cons hpart hparts, rfl⟩
    · rintro ⟨⟨hfits, hrest⟩, _, ⟨⟩, rfl⟩
      rename_i part parts hpart hparts
      exact ⟨part, ⟨hfits, hpart⟩, _, ⟨hrest, parts, hparts, rfl⟩, rfl⟩

theorem exists_laidOut_of_forall_fits (h : ∀ b ∈ blocks, b.Fits) :
    ∃ parts, List.Forall₂ Block.LaidOut blocks parts := by
  induction blocks with
  | nil => exact ⟨[], .nil⟩
  | cons b blocks ih =>
    obtain ⟨hb, hblocks⟩ := List.forall_mem_cons.1 h
    obtain ⟨part, hpart⟩ := exists_laidOut_of_fits hb
    obtain ⟨parts, hparts⟩ := ih hblocks
    exact ⟨part :: parts, .cons hpart hparts⟩

end

/-! ## Names -/

/-- The text without the blanks around it. -/
structure Trimmed (cs core : List Char) : Prop where
  split : ∃ before after : Blanks, cs = before.1 ++ core ++ after.1
  head : ∀ c ∈ core.head?, isBlank c = false
  last : ∀ c ∈ core.getLast?, isBlank c = false

theorem trimmed_trim (cs : List Char) : Trimmed cs (Text.trim cs) := by
  set rest := trimStart cs with hrest
  have hbefore : cs = cs.takeWhile isBlank ++ rest := List.takeWhile_append_dropWhile.symm
  have hafter : rest = Text.trimEnd rest ++ (rest.reverse.takeWhile isBlank).reverse := by
    rw [Text.trimEnd, ← List.reverse_append, List.takeWhile_append_dropWhile, List.reverse_reverse]
  refine ⟨⟨⟨cs.takeWhile isBlank, fun c hc => List.mem_takeWhile_imp hc⟩,
    ⟨(rest.reverse.takeWhile isBlank).reverse, fun c hc =>
      List.mem_takeWhile_imp (List.mem_reverse.1 hc)⟩, ?_⟩, fun c hc => ?_, fun c hc => ?_⟩
  · rw [List.append_assoc]
    exact hbefore.trans (congrArg _ hafter)
  · refine startsOutside_trimStart cs c ?_
    rw [← hrest, hafter, List.head?_append, show (Text.trimEnd rest).head? = some c from hc]
    rfl
  · rw [Text.trim, Text.trimEnd, List.getLast?_reverse] at hc
    exact startsOutside_trimStart rest.reverse c hc

/-! ## Maps -/

/-- A map that can be laid out has a segment. -/
theorem flatten_ne_nil (m : MapText) {parts : List (List Segment)}
    (h : List.Forall₂ (fun b part => b.block.LaidOut part) m.blocks parts) : parts.flatten ≠ [] := by
  obtain ⟨b, blocks, hm⟩ := List.exists_cons_of_ne_nil m.blocks_ne_nil
  rw [hm] at h
  cases h with
  | cons hpart _ =>
    have hentries : b.block.entries ≠ [] := by simpa [BlockText.block] using b.entries_ne_nil
    rw [List.flatten_cons]
    exact List.append_ne_nil_of_left_ne_nil (LaidOut.ne_nil hpart hentries) _

/-- For every way to write a map: if its numbers fit, its name without the blanks around it and the
segments of its blocks are read, and otherwise it is refused with its text. -/
theorem parse_text (m : MapText) :
    ((∀ b ∈ m.blocks, b.block.Fits) →
      ∃ map, parse (String.ofList m.text) = .ok map ∧ Trimmed m.name map.name.toList ∧
        ∃ parts, List.Forall₂ (fun b part => b.block.LaidOut part) m.blocks parts ∧
          map.segments = parts.flatten) ∧
    ((¬ ∀ b ∈ m.blocks, b.block.Fits) →
      parse (String.ofList m.text) = .error (.notMemoryMap (String.ofList m.text))) := by
  -- there are segments just where all blocks fit, and then they are those of the blocks
  have hblocks : ∀ {segments}, segmentsOf? (m.blocks.map BlockText.block) = some segments ↔
      (∀ b ∈ m.blocks, b.block.Fits) ∧ ∃ parts,
        List.Forall₂ (fun b part => b.block.LaidOut part) m.blocks parts ∧
          segments = parts.flatten := by
    intro segments
    rw [segmentsOf?_eq_some_iff]
    simp only [List.forall_mem_map, List.forall₂_map_left_iff]
  rw [parse, String.toList_ofList, parse?_text]
  constructor
  · intro hfits
    obtain ⟨parts, hparts⟩ : ∃ parts,
        List.Forall₂ (fun b part => b.block.LaidOut part) m.blocks parts := by
      obtain ⟨parts, hparts⟩ := exists_laidOut_of_forall_fits (List.forall_mem_map.2 hfits)
      exact ⟨parts, List.forall₂_map_left_iff.1 hparts⟩
    rw [hblocks.2 ⟨hfits, parts, hparts, rfl⟩, Option.bind_some, dif_neg (flatten_ne_nil m hparts)]
    exact ⟨_, rfl, by simpa using trimmed_trim m.name, parts, hparts, rfl⟩
  · intro hfits
    have hnone : segmentsOf? (m.blocks.map BlockText.block) = none := by
      rw [Option.eq_none_iff_forall_ne_some]
      exact fun segments h => hfits (hblocks.1 h).1
    rw [hnone]
    rfl

/-- A map in two blocks, the second out of order and with blanks wherever they may stand. -/
def sparseMap : MapText where
  name := "SRAM ".toList
  slash_notMem_name := by decide
  blocks :=
    [{ address := { digits := [⟨2, false⟩, ⟨0, false⟩, ⟨0, false⟩] }
       entries := [{ count := ⟨0, 64⟩, size := ⟨3, 1⟩, unit := .kilo, rights := 6 }] },
     { afterSlash := .ofList [' '] rfl
       address := { digits := [⟨1, false⟩, ⟨15, true⟩, ⟨15, false⟩] }
       beforeSlash := .ofList [' '] rfl
       entries :=
         [{ lead := .ofList ['\t'] rfl
            count := ⟨0, 3⟩
            beforeStar := .ofList [' '] rfl
            afterStar := .ofList [' '] rfl
            size := ⟨0, 2⟩
            gap := some ⟨' ', by decide⟩
            unit := .byte
            rights := 0
            comma := true },
          { lead := .ofList [' ', ' '] rfl, count := ⟨1, 2⟩, size := ⟨0, 128⟩, unit := .blank
            rights := 4 }] }]

/-- A map whose only sector ends with the address space, one byte too far. -/
def topMap : MapText where
  name := "TOP ".toList
  slash_notMem_name := by decide
  blocks :=
    [{ address := { digits := List.replicate 6 ⟨15, true⟩ ++ [⟨0, false⟩, ⟨0, false⟩] }
       entries := [{ count := ⟨0, 1⟩, size := ⟨0, 256⟩, unit := .byte, rights := 0 }] }]

theorem parse_text_sparse :
    (String.ofList sparseMap.text = "@SRAM /0x200/64*0001Kg/ 0x1Ff /\t3 * 2 Ba,  02*128 e" ∧
      (∀ b ∈ sparseMap.blocks, b.block.Fits) ∧
      ∃ map, parse "@SRAM /0x200/64*0001Kg/ 0x1Ff /\t3 * 2 Ba,  02*128 e" = .ok map ∧
        Trimmed sparseMap.name map.name.toList ∧
        ∃ parts, List.Forall₂ (fun b part => b.block.LaidOut part) sparseMap.blocks parts ∧
          map.segments = parts.flatten) ∧
    String.ofList topMap.text = "@TOP /0xFFFFFF00/1*256Ba" ∧
      (¬ ∀ b ∈ topMap.blocks, b.block.Fits) ∧
      parse "@TOP /0xFFFFFF00/1*256Ba" = .error (.notMemoryMap "@TOP /0xFFFFFF00/1*256Ba") := by
  have hsparse : String.ofList sparseMap.text =
      "@SRAM /0x200/64*0001Kg/ 0x1Ff /\t3 * 2 Ba,  02*128 e" := by decide +kernel
  have hfits : ∀ b ∈ sparseMap.blocks, b.block.Fits := by decide +kernel
  have htop : String.ofList topMap.text = "@TOP /0xFFFFFF00/1*256Ba" := by decide +kernel
  have hover : ¬ ∀ b ∈ topMap.blocks, b.block.Fits := by decide +kernel
  exact ⟨⟨hsparse, hfits, hsparse ▸ (parse_text sparseMap).1 hfits⟩, htop, hover,
    htop ▸ (parse_text topMap).2 hover⟩

end MemoryMap
end UsbDfu
