import UsbDfu.Proofs.MapBlocks
import UsbDfu.Proofs.ReadableRange
import UsbDfu.Proofs.SectorBounds

/-!
# The arithmetic of a memory map

A map adds its addresses up without a bound where they cannot leave the words of 32 bits. These sums are
computed once more here with every operation checked, next to the two that a map itself has to check: a
device may write segments without sectors and segments that overlap.

- `Segment.checkedSectors_eq`, `MemoryMap.checkedTotalSize_eq`, `EraseStep.checkedLength_eq`: what
  always stays in words.
- `Segment.last_eq`: the last address of a segment does, unless the segment ends at address 0.
- `MemoryMap.arithmetic_in_words`: all together, with the count of the bytes that can be read, which does
  if the first address can be read from one segment at most; `MemoryMap.arithmetic_leaves_words` is a map
  that is read and over which the other two do not.
-/

namespace UsbDfu

/-! ## Segments -/

namespace Segment

variable {s : Segment} {a : Nat}

/-- The sectors, from both ends of the segment. -/
def checkedSectors (s : Segment) : Checked Empty Nat := do
  let length ← Word.sub s.stop s.start
  Word.div length s.sectorSize

theorem checkedSectors_eq (s : Segment) : s.checkedSectors = .ok s.sectors := by
  rw [checkedSectors, sub_stop_start, Checked.ok_bind, Word.div_eq s.sectorSize_pos, length,
    Nat.mul_div_cancel _ s.sectorSize_pos]

/-- Only a segment without sectors ends where it starts. -/
theorem stop_eq_zero_iff : s.stop = 0 ↔ s.start = 0 ∧ s.sectors = 0 := by
  have hsize := s.sectorSize_pos
  rw [stop, length, Nat.add_eq_zero_iff, Nat.mul_eq_zero]
  omega

/-- The last address of a segment without sectors at address 0 is no word. -/
theorem last_eq (s : Segment) :
    s.last = if s.start = 0 ∧ s.sectors = 0 then .error .outside else .ok (s.stop - 1) := by
  by_cases hempty : s.start = 0 ∧ s.sectors = 0
  · rw [if_pos hempty, last, stop_eq_zero_iff.2 hempty]
    rfl
  · have hpos : 0 < s.stop := Nat.pos_of_ne_zero fun hzero => hempty (stop_eq_zero_iff.1 hzero)
    rw [if_neg hempty, last, Word.sub_eq hpos]

/-- Just such a segment cannot be put in words. -/
theorem describe_eq_error_iff (s : Segment) :
    s.describe = .error .outside ↔ s.start = 0 ∧ s.sectors = 0 := by
  rw [describe, last_eq]
  by_cases hempty : s.start = 0 ∧ s.sectors = 0
  · rw [if_pos hempty]
    exact ⟨fun _ => hempty, fun _ => rfl⟩
  · rw [if_neg hempty]
    exact ⟨nofun, fun h => absurd h hempty⟩

end Segment

/-! ## Erase steps -/

namespace EraseStep

/-- The length, from both ends of a stretch that is left out. -/
def checkedLength : EraseStep → Checked Empty Nat
  | .erase _ size => .ok size
  | .skip start stop => Word.sub stop start

theorem checkedLength_eq {step : EraseStep} (h : step.start < step.stop) :
    step.checkedLength = .ok step.length := by
  cases step with
  | erase address size => rfl
  | skip start stop => exact Word.sub_eq (Nat.le_of_lt h)

end EraseStep

/-! ## Maps -/

namespace MemoryMap

variable {m : MemoryMap}

/-- The length of every segment is a word; their sum has twice the bits. -/
def checkedTotalSize (m : MemoryMap) : Checked Empty Nat := do
  let lengths ← m.segments.mapM fun s => Word.sub s.stop s.start
  pure lengths.sum

theorem totalSize_eq_sum (m : MemoryMap) : m.totalSize = (m.segments.map Segment.length).sum := by
  unfold totalSize
  induction m.segments with
  | nil => rfl
  | cons s rest ih => rw [List.foldr_cons, ih, List.map_cons, List.sum_cons]

theorem checkedTotalSize_eq (m : MemoryMap) : m.checkedTotalSize = .ok m.totalSize := by
  have hlengths : (m.segments.mapM fun s => (Word.sub s.stop s.start : Checked Empty Nat)) =
      .ok (m.segments.map Segment.length) := by
    simp only [Segment.sub_stop_start]
    exact List.mapM_pure
  rw [checkedTotalSize, hlengths, Checked.ok_bind, totalSize_eq_sum]
  rfl

/-- The sum of fewer than `2 ^ 32` lengths fits twice the bits of a word. -/
theorem totalSize_le (m : MemoryMap) :
    m.totalSize ≤ m.segments.length * (addressSpace - 1) := by
  unfold totalSize
  induction m.segments with
  | nil => exact Nat.zero_le _
  | cons s rest ih =>
    have hstop : s.stop = s.start + s.length := rfl
    have htop := s.stop_lt_addressSpace
    rw [List.foldr_cons, List.length_cons, Nat.succ_mul]
    omega

/-- Over every map, sectors and their bounds, the lengths of segments, erase plans and the lengths of
their steps stay in words, and no divisor is zero. The last address of a segment does, and the segment can
be put in words, unless the segment has no sectors and starts at address 0. So does the count of what can
be read from an address, if the address can be read from one segment at most; what is counted then ends
below the top of the address space. -/
theorem arithmetic_in_words (m : MemoryMap) :
    (∀ s ∈ m.segments, s.checkedSectors = .ok s.sectors ∧
      s.last = (if s.start = 0 ∧ s.sectors = 0 then .error .outside else .ok (s.stop - 1)) ∧
      (s.describe = .error .outside ↔ s.start = 0 ∧ s.sectors = 0)) ∧
    (m.checkedTotalSize = .ok m.totalSize ∧
      m.totalSize ≤ m.segments.length * (addressSpace - 1)) ∧
    (∀ a, m.checkedSectorStart a = (m.sectorStart a).mapError .refused ∧
      m.checkedSectorEnd a = (m.sectorEnd a).mapError .refused) ∧
    (∀ start length,
      m.checkedErasePlan start length = (m.erasePlan start length).mapError .refused ∧
      ∀ steps, m.erasePlan start length = .ok steps →
        ∀ step ∈ steps, step.checkedLength = .ok step.length) ∧
    ∀ a < addressSpace, (m.segments.Pairwise fun s t => ¬ (s.Offers a ∧ t.Offers a)) →
      ∃ n, m.maxRead a = .ok n ∧ a + n < addressSpace :=
  ⟨fun s _ => ⟨s.checkedSectors_eq, s.last_eq, s.describe_eq_error_iff⟩,
    ⟨m.checkedTotalSize_eq, m.totalSize_le⟩,
    fun a => ⟨m.checkedSectorStart_eq a, m.checkedSectorEnd_eq a⟩,
    fun start length => ⟨m.checkedErasePlan_eq start length, fun _ h step hstep =>
      EraseStep.checkedLength_eq (bounds_of_erasePlan h step hstep).1⟩,
    fun _ ha honce =>
      let ⟨n, hn, hrun⟩ := exists_maxRead ha honce
      ⟨n, hn, hrun.lt⟩⟩

/-! ## Two maps that overlap -/

/-- Up to the last address that a segment can have, with a segment over the first one and one without
sectors. -/
def shadowed : MemoryMap where
  name := "Shadowed"
  segments :=
    [⟨0xfffff000, 15, 0x100, .ofBits 7, by decide, by decide, by decide⟩,
      ⟨0xfffff800, 2, 0x100, .ofBits 2, by decide, by decide, by decide⟩,
      ⟨0x1000, 0, 0x300, .ofBits 7, by decide, by decide, by decide⟩,
      ⟨0xffffff00, 1, 0xff, .ofBits 5, by decide, by decide, by decide⟩]
  segments_ne_nil := nofun

theorem arithmetic_in_words_shadowed :
    (∀ s ∈ shadowed.segments, s.last = .ok (s.stop - 1)) ∧
    (∃ steps, shadowed.erasePlan 0xfffffe80 0x100 = .ok steps ∧ steps.length = 2 ∧
      ∀ step ∈ steps, step.checkedLength = .ok step.length) ∧
    shadowed.maxRead 0xfffff400 = .ok 0xbff := by
  obtain ⟨hsegments, -, -, hplans, hreads⟩ := arithmetic_in_words shadowed
  have hplan : shadowed.erasePlan 0xfffffe80 0x100 =
      .ok [.erase 0xfffffe00 0x100, .skip 0xffffff00 0xffffffff] := by
    cbv
  have hlater : ∀ s ∈ shadowed.segments, ¬ (s.start = 0 ∧ s.sectors = 0) := by decide
  have honce : shadowed.segments.Pairwise
      fun s t => ¬ (s.Offers 0xfffff400 ∧ t.Offers 0xfffff400) := by
    decide
  obtain ⟨n, hn, -⟩ := hreads 0xfffff400 (by decide) honce
  obtain rfl : n = 0xbff := Except.ok.inj (hn.symm.trans rfl)
  refine ⟨fun s hs => ?_, ⟨_, hplan, rfl, (hplans _ _).2 _ hplan⟩, hn⟩
  rw [(hsegments s hs).2.1, if_neg (hlater s hs)]

/-- A segment without sectors, and two of 4095 megabytes each, all at address 0. -/
def stacked : MemoryMap where
  name := "Flash"
  segments :=
    [⟨0, 0, 0xc00, .ofBits 7, by decide, by decide, by decide⟩,
      ⟨0, 4095, 0x100000, .ofBits 7, by decide, by decide, by decide⟩,
      ⟨0, 4095, 0x100000, .ofBits 7, by decide, by decide, by decide⟩]
  segments_ne_nil := nofun

/-- It is read. The last address of its first segment would lie before all addresses, and the bytes from
address 0 on are counted twice, which is more than a word holds. -/
theorem arithmetic_leaves_words :
    parse "@Flash /0x00000000/0*3Kg/0x00000000/4095*1Mg/0x00000000/4095*1Mg" = .ok stacked ∧
    stacked.first.last = .error .outside ∧ stacked.first.describe = .error .outside ∧
    stacked.maxRead 0 = .error .outside :=
  ⟨by decide +kernel, rfl, rfl, rfl⟩

end MemoryMap
end UsbDfu
