import UsbDfu.Proofs.ErasableRange

/-!
# The sector of an address

Both ends of a sector are found from any address in it: by a search for the segment of the address,
and a division from the start of that segment, which need not be a multiple of the sector size.

- `Segment.contains_of_sector`, `Segment.sectorStart_of_sector`: a sector lies in its segment, and
  every address in it has its bounds.
- `MemoryMap.sectorStart_of_segmentAt?`, `MemoryMap.sectorStart_of_not_covers`, and the same for
  `sectorEnd`: the bounds that a map gives, or its refusal.
- `MemoryMap.checkedSectorStart_eq`, `MemoryMap.checkedSectorEnd_eq`: in words of 32 bits.
- `MemoryMap.sector_bounds`: over disjoint segments, all of that for every address.
-/

namespace UsbDfu

/-! ## In a segment -/

namespace Segment

variable {s : Segment} {a b : Nat}

theorem start_le_sectorStart (s : Segment) (a : Nat) : s.start ≤ s.sectorStart a :=
  Nat.le_add_right _ _

theorem contains_of_sector (h : s.contains a = true) (hle : s.sectorStart a ≤ b)
    (hlt : b < s.sectorEnd a) : s.contains b = true := by
  have hstart := s.start_le_sectorStart a
  have hstop := sectorEnd_le h
  exact contains_iff.2 ⟨by omega, by omega⟩

theorem sectorStart_of_sector (hle : s.sectorStart a ≤ b) (hlt : b < s.sectorEnd a) :
    s.sectorStart b = s.sectorStart a :=
  sectorStart_eq_of_lt (s.sectorStart_sectorStart a) hle hlt

theorem sectorEnd_of_sector (hle : s.sectorStart a ≤ b) (hlt : b < s.sectorEnd a) :
    s.sectorEnd b = s.sectorEnd a :=
  congrArg (· + s.sectorSize) (sectorStart_of_sector hle hlt)

end Segment

/-! ## In a map -/

namespace MemoryMap

variable {m : MemoryMap} {s : Segment} {a : Nat}

theorem sectorStart_of_segmentAt? (h : m.segmentAt? a = some s) :
    m.sectorStart a = .ok (s.sectorStart a) := by
  rw [sectorStart, segmentAt_eq_ok_iff.2 h]
  rfl

theorem sectorEnd_of_segmentAt? (h : m.segmentAt? a = some s) :
    m.sectorEnd a = .ok (s.sectorEnd a) := by
  rw [sectorEnd, segmentAt_eq_ok_iff.2 h]
  rfl

theorem segmentAt_of_not_covers (h : ¬ m.Covers a) :
    m.segmentAt a = .error (.addressOutOfRange a) := by
  rw [segmentAt, not_covers_iff.1 h]

theorem sectorStart_of_not_covers (h : ¬ m.Covers a) :
    m.sectorStart a = .error (.addressOutOfRange a) := by
  rw [sectorStart, segmentAt_of_not_covers h]
  rfl

theorem sectorEnd_of_not_covers (h : ¬ m.Covers a) :
    m.sectorEnd a = .error (.addressOutOfRange a) := by
  rw [sectorEnd, segmentAt_of_not_covers h]
  rfl

/-- The first address of the sector of the address, which has to be in the map. -/
def checkedSectorStart (m : MemoryMap) (address : Nat) : Checked ConfigurationError Nat := do
  let s ← m.checkedSegmentAt address
  s.checkedSectorStart address

/-- The first address after the sector of the address, which has to be in the map. -/
def checkedSectorEnd (m : MemoryMap) (address : Nat) : Checked ConfigurationError Nat := do
  let s ← m.checkedSegmentAt address
  s.checkedSectorEnd address

/-- In words, a sector starts at the same address, over every map. -/
theorem checkedSectorStart_eq (m : MemoryMap) (a : Nat) :
    m.checkedSectorStart a = (m.sectorStart a).mapError .refused := by
  rw [checkedSectorStart, checkedSegmentAt_eq]
  cases h : m.segmentAt? a with
  | none =>
    rw [sectorStart_of_not_covers (not_covers_iff.2 h)]
    rfl
  | some s =>
    rw [sectorStart_of_segmentAt? h]
    exact Segment.checkedSectorStart_eq (segmentAt?_contains h)

theorem checkedSectorEnd_eq (m : MemoryMap) (a : Nat) :
    m.checkedSectorEnd a = (m.sectorEnd a).mapError .refused := by
  rw [checkedSectorEnd, checkedSegmentAt_eq]
  cases h : m.segmentAt? a with
  | none =>
    rw [sectorEnd_of_not_covers (not_covers_iff.2 h)]
    rfl
  | some s =>
    rw [sectorEnd_of_segmentAt? h]
    exact Segment.checkedSectorEnd_eq (segmentAt?_contains h)

/-- Over disjoint segments, an address in none of them is refused. Any other address lies in a sector of
its segment, of that segment's sector size, and every address in this sector has the same bounds. No
operation on the way leaves the words. -/
theorem sector_bounds (hd : m.Disjoint) (a : Nat) :
    (¬ m.Covers a → m.sectorStart a = .error (.addressOutOfRange a) ∧
      m.sectorEnd a = .error (.addressOutOfRange a)) ∧
    (∀ s ∈ m.segments, s.contains a = true →
      ∃ first stop, m.sectorStart a = .ok first ∧ m.sectorEnd a = .ok stop ∧
        first ≤ a ∧ a < stop ∧ s.start ≤ first ∧ stop ≤ s.stop ∧ stop = first + s.sectorSize ∧
        ∀ b, first ≤ b → b < stop → m.sectorStart b = .ok first ∧ m.sectorEnd b = .ok stop) ∧
    m.checkedSectorStart a = (m.sectorStart a).mapError .refused ∧
    m.checkedSectorEnd a = (m.sectorEnd a).mapError .refused := by
  refine ⟨fun h => ⟨sectorStart_of_not_covers h, sectorEnd_of_not_covers h⟩, ?_,
    m.checkedSectorStart_eq a, m.checkedSectorEnd_eq a⟩
  intro s hs ha
  have hat := hd.segmentAt?_eq_some_iff.2 ⟨hs, ha⟩
  have hle := (Segment.contains_iff.1 ha).1
  refine ⟨s.sectorStart a, s.sectorEnd a, sectorStart_of_segmentAt? hat, sectorEnd_of_segmentAt? hat,
    Segment.sectorStart_le hle, Segment.lt_sectorEnd hle, s.start_le_sectorStart a,
    Segment.sectorEnd_le ha, rfl, fun b hb hlt => ?_⟩
  -- the search from `b` finds the same segment, since no other one contains `b`
  have hbt := hd.segmentAt?_eq_some_iff.2 ⟨hs, Segment.contains_of_sector ha hb hlt⟩
  rw [sectorStart_of_segmentAt? hbt, sectorEnd_of_segmentAt? hbt, Segment.sectorStart_of_sector hb hlt,
    Segment.sectorEnd_of_sector hb hlt]
  exact ⟨rfl, rfl⟩

/-- Sectors of 36 bytes from an address on that is no multiple of 36, and listed before them sectors of 20
bytes that follow them. -/
def uneven : MemoryMap where
  name := "Uneven"
  segments :=
    [⟨0x152, 2, 20, .ofBits 7, by decide, by decide, by decide⟩,
      ⟨0x10a, 2, 36, .ofBits 7, by decide, by decide, by decide⟩]
  segments_ne_nil := nofun

/-- The last address of the first large sector, and the first address after it, have different sectors;
the last address of the map is the last one that has any. -/
theorem sector_bounds_uneven :
    uneven.Disjoint ∧
    (uneven.sectorStart 0x12d = .ok 0x10a ∧ uneven.sectorEnd 0x12d = .ok 0x12e ∧
      ∀ b, 0x10a ≤ b → b < 0x12e → uneven.sectorStart b = .ok 0x10a ∧
        uneven.sectorEnd b = .ok 0x12e) ∧
    (uneven.sectorStart 0x12e = .ok 0x12e ∧ uneven.sectorEnd 0x12e = .ok 0x152) ∧
    uneven.sectorStart 0x17a = .error (.addressOutOfRange 0x17a) := by
  have hd : uneven.Disjoint := disjoint_of_apart (by decide)
  have hmem : (⟨0x10a, 2, 36, .ofBits 7, by decide, by decide, by decide⟩ : Segment) ∈
      uneven.segments := List.mem_cons_of_mem _ List.mem_cons_self
  obtain ⟨first, stop, hfirst, hstop, -, -, -, -, -, hsame⟩ :=
    (sector_bounds hd 0x12d).2.1 _ hmem (by decide)
  rw [show uneven.sectorStart 0x12d = .ok 0x10a from rfl] at hfirst
  rw [show uneven.sectorEnd 0x12d = .ok 0x12e from rfl] at hstop
  cases hfirst
  cases hstop
  exact ⟨hd, ⟨rfl, rfl, hsame⟩, ⟨rfl, rfl⟩, ((sector_bounds hd 0x17a).1 (by decide)).1⟩

end MemoryMap
end UsbDfu
