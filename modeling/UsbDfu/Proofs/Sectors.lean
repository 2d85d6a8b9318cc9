import UsbDfu.MemoryMap.Basic

/-!
# Sectors and segments

The geometry that every walk through a memory map rests on.

- `Segment.sectorStart_sectorStart`, `Segment.sectorStart_sectorEnd`: both ends of a sector are
  sector boundaries, where an address is one when `sectorStart` leaves it alone.
- `Segment.sectorEnd_le_of_lt`: from a boundary before the end of a sector the whole sector fits.
- `MemoryMap.Disjoint`: no address lies in two segments. Then the segment of an address does not
  depend on the order of the map (`MemoryMap.Disjoint.segmentAt?_eq_some_iff`), and memory that
  goes on after a segment goes on with the start of another
  (`MemoryMap.Disjoint.start_eq_stop`).
-/

namespace UsbDfu

/-! ## Sector boundaries -/

namespace Segment

variable {s : Segment} {a b : Nat}

theorem contains_eq_false_iff : s.contains a = false ↔ a < s.start ∨ s.stop ≤ a := by
  rw [← Bool.not_eq_true, contains_iff]
  omega

theorem sectorStart_add_mul (s : Segment) (k : Nat) :
    s.sectorStart (s.start + k * s.sectorSize) = s.start + k * s.sectorSize := by
  unfold sectorStart
  rw [Nat.add_sub_cancel_left, Nat.mul_div_cancel k s.sectorSize_pos]

@[simp] theorem sectorStart_start (s : Segment) : s.sectorStart s.start = s.start := by
  simp [sectorStart]

@[simp] theorem sectorStart_sectorStart (s : Segment) (a : Nat) :
    s.sectorStart (s.sectorStart a) = s.sectorStart a :=
  s.sectorStart_add_mul _

@[simp] theorem sectorStart_sectorEnd (s : Segment) (a : Nat) :
    s.sectorStart (s.sectorEnd a) = s.sectorEnd a := by
  have h : s.sectorEnd a = s.start + ((a - s.start) / s.sectorSize + 1) * s.sectorSize := by
    rw [Nat.succ_mul, ← Nat.add_assoc]
    rfl
  rw [h, sectorStart_add_mul]

/-- A boundary is a whole number of sectors from the start. -/
theorem eq_add_mul (h : s.sectorStart a = a) : ∃ k, a = s.start + k * s.sectorSize :=
  ⟨_, h.symm⟩

/-- A boundary before the end of a sector is not after its start. -/
theorem le_sectorStart_of_lt (hb : s.sectorStart b = b) (h : b < s.sectorEnd a) :
    b ≤ s.sectorStart a := by
  obtain ⟨k, rfl⟩ := eq_add_mul hb
  have hk : k * s.sectorSize < ((a - s.start) / s.sectorSize + 1) * s.sectorSize := by
    rw [Nat.succ_mul]
    unfold sectorEnd sectorStart at h
    omega
  have := Nat.mul_le_mul_right s.sectorSize (Nat.le_of_lt_succ (Nat.lt_of_mul_lt_mul_right hk))
  unfold sectorStart
  omega

theorem sectorEnd_le_of_lt (hb : s.sectorStart b = b) (h : b < s.sectorEnd a) :
    s.sectorEnd b ≤ s.sectorEnd a := by
  have := le_sectorStart_of_lt hb h
  unfold sectorEnd
  omega

/-- The sector from a boundary on is the sector of its addresses. -/
theorem sectorStart_eq_of_lt (hb : s.sectorStart b = b) (hle : b ≤ a) (h : a < b + s.sectorSize) :
    s.sectorStart a = b := by
  have hs : s.start ≤ b := hb ▸ Nat.le_add_right _ _
  have h₁ : s.sectorStart a ≤ b := by
    have h' : s.sectorStart a < s.sectorEnd b := by
      have := sectorStart_le (Nat.le_trans hs hle)
      unfold sectorEnd
      omega
    exact hb ▸ le_sectorStart_of_lt (s.sectorStart_sectorStart a) h'
  have h₂ : b ≤ s.sectorStart a :=
    le_sectorStart_of_lt hb (Nat.lt_of_le_of_lt hle (lt_sectorEnd (Nat.le_trans hs hle)))
  omega

end Segment

/-! ## Disjoint segments -/

namespace MemoryMap

/-- No address lies in two segments. -/
def Disjoint (m : MemoryMap) : Prop :=
  m.segments.Pairwise fun s t => ∀ a, s.contains a = true → t.contains a = false

/-- Segments each of which ends before the other one starts are disjoint. -/
theorem disjoint_of_apart {m : MemoryMap}
    (h : m.segments.Pairwise fun s t => s.stop ≤ t.start ∨ t.stop ≤ s.start) : m.Disjoint := by
  refine List.Pairwise.imp (fun {s t} hst a hs => ?_) h
  rw [← Bool.not_eq_true, Segment.contains_iff]
  rw [Segment.contains_iff] at hs
  omega

namespace Disjoint

variable {m : MemoryMap} {s t : Segment} {a : Nat}

theorem eq_of_contains (hd : m.Disjoint) (hs : s ∈ m.segments) (ht : t ∈ m.segments)
    (has : s.contains a = true) (hat : t.contains a = true) : s = t := by
  have h := List.Pairwise.forall_of_forall_of_flip
    (R := fun s t : Segment => s.contains a = true → t.contains a = true → s = t)
    (fun _ _ _ _ => rfl)
    (hd.imp fun hst hs ht => absurd ht (by simp [hst a hs]))
    (hd.imp fun hst ht hs => absurd ht (by simp [hst a hs]))
  exact h hs ht has hat

/-- The segment of an address is the one that contains it, wherever the map lists it. -/
theorem segmentAt?_eq_some_iff (hd : m.Disjoint) :
    m.segmentAt? a = some s ↔ s ∈ m.segments ∧ s.contains a = true := by
  constructor
  · intro h
    exact ⟨segmentAt?_mem h, segmentAt?_contains h⟩
  · rintro ⟨hs, ha⟩
    cases ht : m.segmentAt? a with
    | none =>
      have := List.find?_eq_none.1 ht s hs
      exact absurd ha this
    | some t =>
      rw [hd.eq_of_contains (segmentAt?_mem ht) hs (segmentAt?_contains ht) ha]

/-- The segment that contains the first address after another one starts there. -/
theorem start_eq_stop (hd : m.Disjoint) (hs : s ∈ m.segments) (ht : t ∈ m.segments)
    (ha : s.contains a = true) (hat : t.contains s.stop = true) : t.start = s.stop := by
  rw [Segment.contains_iff] at ha hat
  refine Nat.le_antisymm hat.1 (Nat.le_of_not_lt fun hlt => ?_)
  -- otherwise the last address of `s` lies in both
  obtain rfl := hd.eq_of_contains (a := s.stop - 1) hs ht (Segment.contains_iff.2 (by omega))
    (Segment.contains_iff.2 (by omega))
  omega

end Disjoint
end MemoryMap
end UsbDfu
