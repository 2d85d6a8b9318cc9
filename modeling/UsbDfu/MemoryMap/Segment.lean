import UsbDfu.Text.Numeral
import UsbDfu.Word

/-!
# Segments of memory

A segment is a run of equal sectors with one set of access rights. It ends below `2 ^ 32`, and a
sector has at least one byte, so the bounds of its sectors are words: `Segment.sectorStart_le`,
`Segment.lt_sectorEnd`, `Segment.sectorEnd_le`. Only its last address may be none.
-/

namespace UsbDfu

/-! ## Access rights -/

/-- What can be done with the sectors of a segment. -/
structure Access where
  readable : Bool
  erasable : Bool
  writable : Bool
  deriving DecidableEq, Repr

namespace Access

/-- The rights a number between 0 and 7 stands for, the lowest bit being the right to read. -/
def ofBits (n : Nat) : Access where
  readable := n.testBit 0
  erasable := n.testBit 1
  writable := n.testBit 2

/-- The letters `a` to `g` stand for the numbers 1 to 7. -/
def ofLetter? (c : Char) : Option Access :=
  if 'a' ≤ c ∧ c ≤ 'g' then some (ofBits (c.toNat - 'a'.toNat + 1)) else none

/-- The rights in words. -/
def describe (a : Access) : String :=
  let granted :=
    [(a.readable, "readable"), (a.erasable, "erasable"), (a.writable, "writable")].filterMap
      fun (set, word) => if set then some word else none
  if granted.isEmpty then "inaccessible" else String.intercalate ", " granted

end Access

/-! ## Segments -/

/-- `sectors` sectors of `sectorSize` bytes from `start` on. -/
structure Segment where
  start : Nat
  sectors : Nat
  sectorSize : Nat
  access : Access
  sectorSize_pos : 0 < sectorSize
  sectorSize_lt : sectorSize < addressSpace
  stop_lt : start + sectors * sectorSize < addressSpace
  deriving DecidableEq, Repr

namespace Segment

/-- The segment, if its sectors are not empty and it ends below the top of the address space. -/
def make? (start sectors sectorSize : Nat) (access : Access) : Option Segment :=
  if h : 0 < sectorSize ∧ sectorSize < addressSpace ∧ start + sectors * sectorSize < addressSpace then
    some ⟨start, sectors, sectorSize, access, h.1, h.2.1, h.2.2⟩
  else none

/-- The number of bytes. -/
def length (s : Segment) : Nat :=
  s.sectors * s.sectorSize

/-- The first address after the segment. -/
def stop (s : Segment) : Nat :=
  s.start + s.length

/-- The address lies in the segment. -/
def contains (s : Segment) (address : Nat) : Bool :=
  s.start ≤ address && address < s.stop

/-- The first address of the sector that holds the address. -/
def sectorStart (s : Segment) (address : Nat) : Nat :=
  s.start + (address - s.start) / s.sectorSize * s.sectorSize

/-- The first address after the sector that holds the address. -/
def sectorEnd (s : Segment) (address : Nat) : Nat :=
  s.sectorStart address + s.sectorSize

/-- The last address, counted back from the end. An empty segment at address 0 has none. -/
def last (s : Segment) : Checked Empty Nat :=
  Word.sub s.stop 1

/-- The range and the rights in words. -/
def describe (s : Segment) : Checked Empty String := do
  let last ← s.last
  pure s!"0x{Text.hex 8 s.start}-0x{Text.hex 8 last} ({s.access.describe})"

theorem contains_iff {s : Segment} {a : Nat} :
    s.contains a = true ↔ s.start ≤ a ∧ a < s.stop := by
  simp [contains]

theorem stop_lt_addressSpace (s : Segment) : s.stop < addressSpace :=
  s.stop_lt

theorem sectorStart_le {s : Segment} {a : Nat} (h : s.start ≤ a) : s.sectorStart a ≤ a := by
  have := Nat.div_mul_le_self (a - s.start) s.sectorSize
  unfold sectorStart
  omega

theorem contains_sectorStart {s : Segment} {a : Nat} (h : s.contains a = true) :
    s.contains (s.sectorStart a) = true := by
  obtain ⟨h₁, h₂⟩ := contains_iff.1 h
  have := sectorStart_le h₁
  exact contains_iff.2 ⟨Nat.le_add_right _ _, by omega⟩

theorem lt_sectorEnd {s : Segment} {a : Nat} (h : s.start ≤ a) : a < s.sectorEnd a := by
  have h₁ := Nat.div_add_mod (a - s.start) s.sectorSize
  have h₂ := Nat.mod_lt (a - s.start) s.sectorSize_pos
  have h₃ := Nat.mul_comm s.sectorSize ((a - s.start) / s.sectorSize)
  unfold sectorEnd sectorStart
  omega

theorem sectorEnd_le {s : Segment} {a : Nat} (h : s.contains a = true) : s.sectorEnd a ≤ s.stop := by
  obtain ⟨h₁, h₂⟩ := contains_iff.1 h
  have hlt : (a - s.start) / s.sectorSize < s.sectors := by
    rw [Nat.div_lt_iff_lt_mul s.sectorSize_pos]
    unfold stop length at h₂
    omega
  have := Nat.mul_le_mul_right s.sectorSize (Nat.succ_le_of_lt hlt)
  rw [Nat.succ_mul] at this
  unfold sectorEnd sectorStart stop length
  omega

end Segment
end UsbDfu
