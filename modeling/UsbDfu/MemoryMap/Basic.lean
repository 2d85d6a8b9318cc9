import UsbDfu.Failure
import UsbDfu.MemoryMap.Segment

/-!
# Memory maps

A named list of segments, in the order the device gives them; an address belongs to the first
segment that contains it. `segmentAt?` finds it, `sectorStart` and `sectorEnd` bound its sector,
and `maxRead` says how far a read can go without leaving readable memory.
-/

namespace UsbDfu

/-- The memory of a device as one alternate setting shows it: a name, and one segment or more. -/
structure MemoryMap where
  name : String
  segments : List Segment
  segments_ne_nil : segments ≠ []
  deriving DecidableEq, Repr

namespace MemoryMap

/-- The segment listed first. -/
def first (m : MemoryMap) : Segment :=
  m.segments.head m.segments_ne_nil

/-- The first listed segment that contains the address. -/
def segmentAt? (m : MemoryMap) (address : Nat) : Option Segment :=
  m.segments.find? (·.contains address)

/-- The segment of the address, which has to be in the map. -/
def segmentAt (m : MemoryMap) (address : Nat) : Except ConfigurationError Segment :=
  match m.segmentAt? address with
  | some s => .ok s
  | none => .error (.addressOutOfRange address)

/-- The start of the sector with the address. -/
def sectorStart (m : MemoryMap) (address : Nat) : Except ConfigurationError Nat := do
  let s ← m.segmentAt address
  pure (s.sectorStart address)

/-- The address after the sector with the address. -/
def sectorEnd (m : MemoryMap) (address : Nat) : Except ConfigurationError Nat := do
  let s ← m.segmentAt address
  pure (s.sectorEnd address)

/-- The first segment in the order of the map that can be written. -/
def firstWritable? (m : MemoryMap) : Option Segment :=
  m.segments.find? (·.access.writable)

/-- The bytes of all segments together, which may be more than there are addresses. -/
def totalSize (m : MemoryMap) : Nat :=
  m.segments.foldr (·.length + ·) 0

/-- Adds to `n` readable bytes from `address` on what the listed segments continue. -/
def readableFrom (address : Nat) : Nat → List Segment → Checked Empty Nat
  | n, [] => pure n
  | n, s :: rest => do
    if s.contains address then
      if s.access.readable then
        let more ← Word.sub s.stop address
        let n ← Word.add n more
        readableFrom address n rest
      else
        pure 0
    else
      -- where the count ends is only computed once it has begun
      let next? ← if 0 < n then some <$> Word.add address n else pure none
      if next? = some s.start then
        if s.access.readable then
          let more ← Word.sub s.stop s.start
          let n ← Word.add n more
          readableFrom address n rest
        else
          pure n
      else
        readableFrom address n rest

/-- The bytes that can be read from the address on, through segments listed one after another. Segments
that overlap may have more of them than a word holds. -/
def maxRead (m : MemoryMap) (address : Nat) : Checked Empty Nat :=
  readableFrom address 0 m.segments

theorem segmentAt?_contains {m : MemoryMap} {a : Nat} {s : Segment} (h : m.segmentAt? a = some s) :
    s.contains a = true := by
  have := List.find?_some h
  exact this

theorem segmentAt?_mem {m : MemoryMap} {a : Nat} {s : Segment} (h : m.segmentAt? a = some s) :
    s ∈ m.segments :=
  List.mem_of_find?_eq_some h

theorem segmentAt_eq_ok_iff {m : MemoryMap} {a : Nat} {s : Segment} :
    m.segmentAt a = .ok s ↔ m.segmentAt? a = some s := by
  unfold segmentAt
  split <;> simp_all

end MemoryMap
end UsbDfu
