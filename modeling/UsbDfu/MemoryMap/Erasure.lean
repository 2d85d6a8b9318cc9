import UsbDfu.MemoryMap.Basic

/-!
# Erase plans

What has to be erased before a range can be programmed. A plan is made of whole sectors and of
stretches that cannot be erased, in address order; it is complete before the first command is
sent, so a range that leaves the map costs nothing.
-/

namespace UsbDfu

/-- One step of an erase. -/
inductive EraseStep where
  /-- Erase the sector of `size` bytes at the address. -/
  | erase (address size : Nat)
  /-- Memory that cannot be erased: the step only counts. -/
  | skip (start stop : Nat)
  deriving DecidableEq, Repr

namespace EraseStep

/-- How many addresses the step goes over. -/
def length : EraseStep → Nat
  | .erase _ size => size
  | .skip start stop => stop - start

/-- The first address after the step. -/
def stop : EraseStep → Nat
  | .erase address size => address + size
  | .skip _ stop => stop

end EraseStep

namespace Segment

/-- The step at an address of the segment, in a plan that ends at `limit`. -/
def eraseStep (s : Segment) (cursor limit : Nat) : EraseStep :=
  if s.access.erasable then .erase (s.sectorStart cursor) s.sectorSize
  else .skip cursor (min s.stop limit)

/-- A step moves on. -/
theorem lt_stop_eraseStep {s : Segment} {cursor limit : Nat} (h : s.contains cursor = true)
    (hl : cursor < limit) : cursor < (s.eraseStep cursor limit).stop := by
  obtain ⟨h₁, h₂⟩ := contains_iff.1 h
  unfold eraseStep
  split
  · exact lt_sectorEnd h₁
  · show cursor < min s.stop limit
    omega

end Segment

namespace MemoryMap

/-- The steps from `cursor` to `limit`. The segment `s` contains the cursor and is left at its
end, where the map is asked for the next one. -/
def eraseFrom (m : MemoryMap) (limit cursor : Nat) (s : Segment) (inside : s.contains cursor = true)
    (below : cursor < limit) : Except ConfigurationError (List EraseStep) :=
  let step := s.eraseStep cursor limit
  if hn : step.stop < limit then
    -- the segment is kept while the cursor is in it, and only then looked up again
    if hs : step.stop < s.stop then do
      let rest ← m.eraseFrom limit step.stop s
        (Segment.contains_iff.2
          ⟨Nat.le_trans (Segment.contains_iff.1 inside).1
            (Nat.le_of_lt (Segment.lt_stop_eraseStep inside below)), hs⟩) hn
      pure (step :: rest)
    else
      match ha : m.segmentAt? step.stop with
      | none => .error (.addressOutOfRange step.stop)
      | some next => do
        let rest ← m.eraseFrom limit step.stop next (segmentAt?_contains ha) hn
        pure (step :: rest)
  else pure [step]
  termination_by limit - cursor
  decreasing_by
    all_goals
      have := Segment.lt_stop_eraseStep inside below
      omega

/-- The plan for `length` bytes from `start` on. -/
def erasePlan (m : MemoryMap) (start length : Nat) :
    Except ConfigurationError (List EraseStep) :=
  let last := start + (length - 1)
  if length = 0 then .ok []
  else if addressSpace ≤ last then .error (.addressOutOfRange (addressSpace - 1))
  else
    -- both ends are looked up before the walk, so they are what is reported first
    match hs : m.segmentAt? start, hl : m.segmentAt? last with
    | none, _ => .error (.addressOutOfRange start)
    | some _, none => .error (.addressOutOfRange last)
    | some s, some e =>
      m.eraseFrom (e.sectorEnd last) (s.sectorStart start) s
        (Segment.contains_sectorStart (segmentAt?_contains hs))
        (by
          have h₁ := Segment.sectorStart_le (Segment.contains_iff.1 (segmentAt?_contains hs)).1
          have h₂ := Segment.lt_sectorEnd (Segment.contains_iff.1 (segmentAt?_contains hl)).1
          omega)

end MemoryMap
end UsbDfu
