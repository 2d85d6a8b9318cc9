import UsbDfu.Proofs.MapLayout
import UsbDfu.Proofs.Sectors

/-!
# Blocks that overlap

A memory map is written in blocks, each with an address of its own. Within a block a segment begins
where the one before it ended, so no address lies in two of its segments. Nothing relates the
addresses of two blocks, and a device may write blocks that overlap.

- `Block.Covers b a`: the address `a` lies in the range of the block `b`.
- `LaidOut.exists_contains_iff`, `LaidOut.disjoint`: the segments of a block share its range out.
- `parse_disjoint_iff`: a map that was read is disjoint just when the ranges of its blocks are;
  `parse_overlapping` is one that is not.
-/

namespace UsbDfu
namespace MemoryMap

/-- The first address after all entries. -/
def Block.stop (b : Block) : Nat :=
  b.base + (b.entries.map Entry.length).sum

/-- The address lies in the range of the block. -/
def Block.Covers (b : Block) (a : Nat) : Prop :=
  b.base ≤ a ∧ a < b.stop

/-- The blocks in a text, in order. -/
def blocksOf (text : String) : List Block :=
  readBlocks (text.toList.dropWhile (· != '/'))

/-! ## One block -/

namespace LaidOut

variable {start a : Nat} {es : List Entry} {segments : List Segment}

/-- The segments contain what lies between the start and the end of all entries. -/
theorem exists_contains_iff (h : LaidOut start es segments) :
    (∃ s ∈ segments, s.contains a = true) ↔ start ≤ a ∧ a < start + (es.map Entry.length).sum := by
  induction h with
  | nil => simp
  | @cons start e rest s segments hstart hsectors hsize _ _ ih =>
    have hstop : s.stop = start + e.length := by
      rw [Segment.stop, Segment.length, hstart, hsectors, hsize, Entry.length]
    rw [List.exists_mem_cons_iff, ih, Segment.contains_iff, hstart, hstop, List.map_cons,
      List.sum_cons]
    omega

theorem le_start (h : LaidOut start es segments) : ∀ s ∈ segments, start ≤ s.start := by
  induction h with
  | nil => simp
  | @cons start e rest s segments hstart _ _ _ _ ih =>
    refine List.forall_mem_cons.2 ⟨Nat.le_of_eq hstart.symm, fun t ht => ?_⟩
    exact Nat.le_trans (hstart ▸ Nat.le_add_right _ _) (ih t ht)

theorem disjoint (h : LaidOut start es segments) :
    segments.Pairwise fun s t => ∀ a, s.contains a = true → t.contains a = false := by
  induction h with
  | nil => exact .nil
  | @cons start e rest s segments _ _ _ _ hrest ih =>
    refine .cons (fun t ht a ha => ?_) ih
    have hle := hrest.le_start t ht
    rw [Segment.contains_iff] at ha
    rw [← Bool.not_eq_true, Segment.contains_iff]
    omega

end LaidOut

/-! ## All blocks -/

section

variable {blocks : List Block} {parts : List (List Segment)} {a : Nat}

/-- An address lies in a segment if it lies in the range of a block. -/
theorem exists_contains_flatten_iff (h : List.Forall₂ Block.LaidOut blocks parts) :
    (∃ s ∈ parts.flatten, s.contains a = true) ↔ ∃ b ∈ blocks, b.Covers a := by
  induction h with
  | nil => simp
  | @cons b part blocks parts hpart _ ih =>
    have hb : (∃ s ∈ part, s.contains a = true) ↔ b.Covers a := LaidOut.exists_contains_iff hpart
    simp only [List.flatten_cons, List.mem_append, or_and_right, exists_or, hb, ih,
      List.exists_mem_cons_iff]

/-- No address lies in two segments of one block. -/
theorem disjoint_of_mem_parts (h : List.Forall₂ Block.LaidOut blocks parts) :
    ∀ part ∈ parts, part.Pairwise fun s t => ∀ a, s.contains a = true → t.contains a = false := by
  induction h with
  | nil => simp
  | cons hpart _ ih => exact List.forall_mem_cons.2 ⟨LaidOut.disjoint hpart, ih⟩

/-- Segments are disjoint just when the ranges of their blocks are. -/
theorem disjoint_flatten_iff (h : List.Forall₂ Block.LaidOut blocks parts) :
    (parts.flatten.Pairwise fun s t => ∀ a, s.contains a = true → t.contains a = false) ↔
      blocks.Pairwise fun b b' => ∀ a, b.Covers a → ¬ b'.Covers a := by
  induction h with
  | nil => simp
  | @cons b part blocks parts hpart hparts ih =>
    have hb : ∀ a, (∃ s ∈ part, s.contains a = true) ↔ b.Covers a :=
      fun a => LaidOut.exists_contains_iff hpart
    have hcross : (∀ s ∈ part, ∀ t ∈ parts.flatten, ∀ a, s.contains a = true →
        t.contains a = false) ↔ ∀ b' ∈ blocks, ∀ a, b.Covers a → ¬ b'.Covers a := by
      constructor
      · intro hapart b' hb' a ha ha'
        obtain ⟨s, hs, hsa⟩ := (hb a).2 ha
        obtain ⟨t, ht, hta⟩ := (exists_contains_flatten_iff hparts).2 ⟨b', hb', ha'⟩
        simp [hapart s hs t ht a hsa] at hta
      · intro hapart s hs t ht a hsa
        refine Bool.eq_false_iff.2 fun hta => ?_
        obtain ⟨b', hb', ha'⟩ := (exists_contains_flatten_iff hparts).1 ⟨t, ht, hta⟩
        exact hapart b' hb' a ((hb a).1 ⟨s, hs, hsa⟩) ha'
    rw [List.flatten_cons, List.pairwise_append, List.pairwise_cons, ih, hcross]
    exact ⟨fun h => ⟨h.2.2, h.2.1⟩, fun h => ⟨LaidOut.disjoint hpart, h.2, h.1⟩⟩

end

/-! ## Maps that were read -/

/-- A map that was read has the segments of the blocks in its text. -/
theorem exists_parts_of_parse {text : String} {m : MemoryMap} (h : parse text = .ok m) :
    ∃ parts, List.Forall₂ Block.LaidOut (blocksOf text) parts ∧ m.segments = parts.flatten := by
  unfold parse at h
  split at h
  · rename_i map hmap
    cases h
    unfold parse? at hmap
    split at hmap
    · rename_i rest htext
      dsimp only at hmap
      split at hmap
      · cases hmap
      · rename_i blocks _
        -- what stands before the first slash is the name, and no block
        have hblocks : blocksOf text = readBlocks (rest.dropWhile (· != '/')) := by
          rw [blocksOf, htext]
          rfl
        simp only [Option.bind_eq_bind, Option.bind_eq_some_iff] at hmap
        obtain ⟨segments, hsegments, hmap⟩ := hmap
        split at hmap
        · cases hmap
        · cases hmap
          rw [hblocks]
          exact (segmentsOf?_eq_some_iff.1 hsegments).2
    · cases hmap
  · cases h

/-- Of a map that was read, the segments of one block are pairwise disjoint, and all segments are
just when the ranges of the blocks are. -/
theorem parse_disjoint_iff {text : String} {m : MemoryMap} (h : parse text = .ok m) :
    ∃ parts, List.Forall₂ Block.LaidOut (blocksOf text) parts ∧ m.segments = parts.flatten ∧
      (∀ part ∈ parts,
        part.Pairwise fun s t => ∀ a, s.contains a = true → t.contains a = false) ∧
      (m.Disjoint ↔ (blocksOf text).Pairwise fun b b' => ∀ a, b.Covers a → ¬ b'.Covers a) := by
  obtain ⟨parts, hparts, hm⟩ := exists_parts_of_parse h
  refine ⟨parts, hparts, hm, disjoint_of_mem_parts hparts, ?_⟩
  rw [Disjoint, hm]
  exact disjoint_flatten_iff hparts

/-- Two kilobytes in two blocks, the one at the higher addresses written first. -/
def swappedMap : MemoryMap where
  name := "Flash"
  segments :=
    [⟨0x08000400, 1, 1024, .ofBits 7, by decide, by decide, by decide⟩,
      ⟨0x08000000, 1, 1024, .ofBits 7, by decide, by decide, by decide⟩]
  segments_ne_nil := nofun

theorem parse_disjoint_iff_swapped :
    parse "@Flash /0x08000400/1*1Kg/0x08000000/1*1Kg" = .ok swappedMap ∧ swappedMap.Disjoint := by
  have h : parse "@Flash /0x08000400/1*1Kg/0x08000000/1*1Kg" = .ok swappedMap := by
    decide +kernel
  have hblocks : blocksOf "@Flash /0x08000400/1*1Kg/0x08000000/1*1Kg" =
      [⟨0x08000400, [⟨1, 1, .kilo, .ofBits 7⟩]⟩, ⟨0x08000000, [⟨1, 1, .kilo, .ofBits 7⟩]⟩] := by
    decide +kernel
  obtain ⟨parts, -, -, -, hdisjoint⟩ := parse_disjoint_iff h
  refine ⟨h, hdisjoint.2 ?_⟩
  rw [hblocks]
  simp [Block.Covers, Block.stop, Entry.length, Entry.sectorSize, SizeUnit.factor]
  omega

/-- A block of two kilobytes, and one that is written over the second of them. -/
def overlappingMap : MemoryMap where
  name := "Flash"
  segments :=
    [⟨0x08000000, 2, 1024, .ofBits 7, by decide, by decide, by decide⟩,
      ⟨0x08000400, 1, 1024, .ofBits 7, by decide, by decide, by decide⟩]
  segments_ne_nil := nofun

/-- It is read as it stands, and an address lies in both of its segments. -/
theorem parse_overlapping :
    parse "@Flash /0x08000000/2*1Kg/0x08000400/1*1Kg" = .ok overlappingMap ∧
      (∀ s ∈ overlappingMap.segments, s.contains 0x08000400 = true) ∧
      overlappingMap.segments.length = 2 ∧ ¬ overlappingMap.Disjoint := by
  have hin : ∀ s ∈ overlappingMap.segments, s.contains 0x08000400 = true := by decide
  refine ⟨by decide +kernel, hin, rfl, fun hd => ?_⟩
  have hfirst : overlappingMap.first.contains 0x08000400 = true := hin _ List.mem_cons_self
  cases (List.pairwise_cons.1 hd).1 _ List.mem_cons_self 0x08000400 hfirst

end MemoryMap
end UsbDfu
