import UsbDfu.Proofs.ErasePlan
import UsbDfu.Word

/-!
# Erase plans in words of 32 bits

An erase plan is made once more here, with addresses in words and every operation on them checked.

- `Segment.checkedSectorStart_eq`, `Segment.checkedSectorEnd_eq`: the sector of an address of the
  segment.
- `MemoryMap.checkedEraseLoop_eq`: the loop, by induction on the rounds that it is given.
- `MemoryMap.checkedErasePlan_eq`: the plan comes to the same end, whatever the map and the range.
-/

namespace UsbDfu

/-! ## Sectors -/

namespace Segment

variable {s : Segment} {a cursor limit : Nat}

/-- `sectorStart` by checked operations. -/
def checkedSectorStart (s : Segment) (address : Nat) : Checked ConfigurationError Nat := do
  let offset ← Word.sub address s.start
  let sector ← Word.div offset s.sectorSize
  let skipped ← Word.mul sector s.sectorSize
  Word.add s.start skipped

/-- `sectorEnd` by checked operations. -/
def checkedSectorEnd (s : Segment) (address : Nat) : Checked ConfigurationError Nat := do
  let start ← s.checkedSectorStart address
  Word.add start s.sectorSize

/-- The step at the cursor, and where the next one begins. -/
def checkedEraseStep (s : Segment) (cursor limit : Nat) :
    Checked ConfigurationError (EraseStep × Nat) := do
  if s.access.erasable then
    let address ← s.checkedSectorStart cursor
    let next ← Word.add address s.sectorSize
    pure (.erase address s.sectorSize, next)
  else
    pure (.skip cursor (min s.stop limit), min s.stop limit)

theorem checkedSectorStart_eq (h : s.contains a = true) :
    s.checkedSectorStart a = .ok (s.sectorStart a) := by
  obtain ⟨hle, hlt⟩ := contains_iff.1 h
  have hstop := s.stop_lt_addressSpace
  have hskipped := Nat.div_mul_le_self (a - s.start) s.sectorSize
  rw [checkedSectorStart, Word.sub_eq hle, Checked.ok_bind, Word.div_eq s.sectorSize_pos,
    Checked.ok_bind, Word.mul_eq (by omega), Checked.ok_bind]
  exact Word.add_eq (by omega)

theorem checkedSectorEnd_eq (h : s.contains a = true) :
    s.checkedSectorEnd a = .ok (s.sectorEnd a) := by
  have hstop := s.stop_lt_addressSpace
  have hend := sectorEnd_le h
  rw [checkedSectorEnd, checkedSectorStart_eq h, Checked.ok_bind]
  exact Word.add_eq (Nat.lt_of_le_of_lt hend hstop)

theorem checkedEraseStep_eq (h : s.contains cursor = true) :
    s.checkedEraseStep cursor limit =
      .ok (s.eraseStep cursor limit, (s.eraseStep cursor limit).stop) := by
  have hstop := s.stop_lt_addressSpace
  have hend := sectorEnd_le h
  unfold checkedEraseStep eraseStep
  split
  · rw [checkedSectorStart_eq h, Checked.ok_bind, Word.add_eq (Nat.lt_of_le_of_lt hend hstop)]
    rfl
  · rfl

end Segment

/-! ## Erase plans -/

namespace MemoryMap

variable {m : MemoryMap} {s : Segment} {cursor limit rounds : Nat}

/-- The segment of the address, which has to be in the map. -/
def checkedSegmentAt (m : MemoryMap) (address : Nat) : Checked ConfigurationError Segment :=
  (m.segmentAt address).mapError .refused

/-- The steps from the cursor to the limit. The segment is kept until the cursor leaves it. -/
def checkedEraseLoop (m : MemoryMap) (limit : Nat) :
    Nat → Nat → Segment → Checked ConfigurationError (List EraseStep)
  | 0, cursor, _ => if cursor < limit then .error .endless else .ok []
  | rounds + 1, cursor, s =>
    if cursor < limit then do
      let s ← if s.stop ≤ cursor then m.checkedSegmentAt cursor else pure s
      let (step, next) ← s.checkedEraseStep cursor limit
      let rest ← m.checkedEraseLoop limit rounds next s
      pure (step :: rest)
    else .ok []

/-- The plan. Each round of its loop moves on, so no more rounds are needed than there are
addresses. -/
def checkedErasePlan (m : MemoryMap) (start length : Nat) :
    Checked ConfigurationError (List EraseStep) := do
  if length = 0 then
    pure []
  else
    let more ← Word.sub length 1
    if addressSpace ≤ start + more then
      throw (.refused (.addressOutOfRange (addressSpace - 1)))
    else
      let s ← m.checkedSegmentAt start
      let first ← s.checkedSectorStart start
      let e ← m.checkedSegmentAt (start + more)
      let limit ← e.checkedSectorEnd (start + more)
      m.checkedEraseLoop limit addressSpace first s

theorem checkedSegmentAt_eq {a : Nat} :
    m.checkedSegmentAt a =
      match m.segmentAt? a with
      | some s => .ok s
      | none => .error (.refused (.addressOutOfRange a)) := by
  rw [checkedSegmentAt, segmentAt]
  cases m.segmentAt? a with
  | none => rfl
  | some s => rfl

/-- The loop at an end. -/
theorem checkedEraseLoop_of_le (h : limit ≤ cursor) :
    m.checkedEraseLoop limit rounds cursor s = .ok [] := by
  cases rounds with
  | zero => rw [checkedEraseLoop, if_neg (Nat.not_lt.2 h)]
  | succ rounds => rw [checkedEraseLoop, if_neg (Nat.not_lt.2 h)]

/-- A round in a segment. -/
theorem checkedEraseLoop_of_contains (h : s.contains cursor = true) (hlt : cursor < limit) :
    m.checkedEraseLoop limit (rounds + 1) cursor s =
      (m.checkedEraseLoop limit rounds (s.eraseStep cursor limit).stop s).map
        (s.eraseStep cursor limit :: ·) := by
  have hin : ¬ s.stop ≤ cursor := Nat.not_le.2 (Segment.contains_iff.1 h).2
  rw [checkedEraseLoop, if_pos hlt, if_neg hin]
  show (do let (step, next) ← s.checkedEraseStep cursor limit; _) = _
  rw [Segment.checkedEraseStep_eq h, Checked.ok_bind]
  dsimp only
  cases m.checkedEraseLoop limit rounds (s.eraseStep cursor limit).stop s with
  | error e => rfl
  | ok rest => rfl

/-- A round that has left its segment is one in the segment that the map gives. -/
theorem checkedEraseLoop_of_stop_le (h : s.stop ≤ cursor) (hlt : cursor < limit) :
    m.checkedEraseLoop limit (rounds + 1) cursor s =
      match m.segmentAt? cursor with
      | some next => m.checkedEraseLoop limit (rounds + 1) cursor next
      | none => .error (.refused (.addressOutOfRange cursor)) := by
  rw [checkedEraseLoop, if_pos hlt, if_pos h, checkedSegmentAt_eq]
  cases hnext : m.segmentAt? cursor with
  | none => rfl
  | some next =>
    have hin : ¬ next.stop ≤ cursor :=
      Nat.not_le.2 (Segment.contains_iff.1 (segmentAt?_contains hnext)).2
    dsimp only
    rw [checkedEraseLoop, if_pos hlt, if_neg hin]
    rfl

/-- The loop makes the walk of a plan, if it is given a round for every address. -/
theorem checkedEraseLoop_eq (inside : s.contains cursor = true) (below : cursor < limit)
    (hrounds : limit - cursor ≤ rounds) :
    m.checkedEraseLoop limit rounds cursor s =
      (m.eraseFrom limit cursor s inside below).mapError .refused := by
  -- every round goes on by an address or more, so the rounds left are enough for the addresses left
  induction rounds generalizing cursor s with
  | zero => omega
  | succ rounds ih =>
    have hmoves := Segment.lt_stop_eraseStep inside below
    rw [checkedEraseLoop_of_contains inside below, eraseFrom]
    split
    · rename_i hgoes
      obtain ⟨rounds, rfl⟩ : ∃ k, rounds = k + 1 := Nat.exists_eq_succ_of_ne_zero (by omega)
      split
      · rename_i hsame
        have hin : s.contains (s.eraseStep cursor limit).stop = true :=
          Segment.contains_iff.2 ⟨by have := (Segment.contains_iff.1 inside).1; omega, hsame⟩
        rw [ih hin hgoes (by omega)]
        cases m.eraseFrom limit (s.eraseStep cursor limit).stop s _ hgoes with
        | error e => rfl
        | ok rest => rfl
      · rename_i hleft
        rw [checkedEraseLoop_of_stop_le (Nat.le_of_not_lt hleft) hgoes]
        split
        · rename_i next hnext
          split
          · rename_i hnone
            rw [hnext] at hnone
            cases hnone
          · rename_i next' hnext'
            obtain rfl := Option.some.inj (hnext.symm.trans hnext')
            rw [ih (segmentAt?_contains hnext) hgoes (by omega)]
            cases m.eraseFrom limit (s.eraseStep cursor limit).stop next _ hgoes with
            | error e => rfl
            | ok rest => rfl
        · rename_i hnone
          split
          · rfl
          · rename_i next hnext
            rw [hnone] at hnext
            cases hnext
    · rename_i hends
      rw [checkedEraseLoop_of_le (Nat.le_of_not_lt hends)]
      rfl

/-- Computed in words, an erase plan comes to the same end. No operation leaves the words, and the
loop ends. -/
theorem checkedErasePlan_eq (m : MemoryMap) (start length : Nat) :
    m.checkedErasePlan start length = (m.erasePlan start length).mapError .refused := by
  unfold checkedErasePlan
  -- case by case of the plan: what one check lets through makes the next operation one within words
  rcases m.erasePlan_cases start length with ⟨hzero, hplan⟩ | ⟨hlen, hcases⟩
  · rw [if_pos hzero, hplan]
    rfl
  rw [if_neg (Nat.ne_of_gt hlen), Word.sub_eq hlen, Checked.ok_bind, ← Nat.add_sub_assoc hlen]
  rcases hcases with ⟨htop, hplan⟩ | ⟨hfits, hcases⟩
  · rw [if_pos htop, hplan]
    rfl
  rw [if_neg (Nat.not_le.2 hfits), checkedSegmentAt_eq]
  rcases hcases with ⟨hs, hplan⟩ | ⟨s, hs, hcases⟩
  · rw [hs, hplan]
    rfl
  rw [hs]
  dsimp only
  rw [Checked.ok_bind, Segment.checkedSectorStart_eq (segmentAt?_contains hs), Checked.ok_bind,
    checkedSegmentAt_eq]
  rcases hcases with ⟨hl, hplan⟩ | ⟨e, inside, below, hl, hplan⟩
  · rw [hl, hplan]
    rfl
  rw [hl]
  dsimp only
  rw [Checked.ok_bind, Segment.checkedSectorEnd_eq (segmentAt?_contains hl), Checked.ok_bind, hplan]
  refine checkedEraseLoop_eq inside below ?_
  have := Segment.sectorEnd_le (segmentAt?_contains hl)
  have := e.stop_lt_addressSpace
  omega

end MemoryMap
end UsbDfu
