import UsbDfu.MemoryMap.Erasure
import UsbDfu.Proofs.Sectors

/-!
# What an erase plan covers

- `Tiles steps a b`: the steps are not empty and go from `a` to `b`, each from where the one
  before it ended. An address between the two lies in exactly one of them (`Tiles.exactly_one`).
- `MemoryMap.Fits m lo hi step`: the step is one whole sector of an erasable segment that has a
  byte of `[lo, hi)`, or a stretch of one segment that cannot be erased.
- `MemoryMap.erasePlan_tiles`: over disjoint segments a plan tiles its range, rounded to whole
  sectors, with such steps.
- `MemoryMap.erasePlan_cases`: what a plan can be over any map, and why.
- `MemoryMap.Disjoint.covered_of_erasePlan`: the sector of every address of the range is erased,
  unless its segment cannot be.
-/

namespace UsbDfu

/-! ## Tilings -/

namespace EraseStep

/-- The first address of the step. -/
def start : EraseStep → Nat
  | .erase address _ => address
  | .skip start _ => start

/-- The address lies in the step. -/
def contains (step : EraseStep) (address : Nat) : Bool :=
  step.start ≤ address && address < step.stop

theorem contains_iff {step : EraseStep} {a : Nat} :
    step.contains a = true ↔ step.start ≤ a ∧ a < step.stop := by
  simp [contains]

end EraseStep

/-- The steps go from `a` to `b` without a gap, an overlap or an empty step. -/
def Tiles : List EraseStep → Nat → Nat → Prop
  | [], a, b => a = b
  | step :: rest, a, b => step.start = a ∧ a < step.stop ∧ Tiles rest step.stop b

namespace Tiles

variable {steps : List EraseStep} {a b x : Nat}

theorem le_start (h : Tiles steps a b) : ∀ step ∈ steps, a ≤ step.start := by
  induction steps generalizing a with
  | nil => simp
  | cons step rest ih =>
    obtain ⟨rfl, hlt, hr⟩ := h
    refine List.forall_mem_cons.2 ⟨Nat.le_refl _, fun t ht => ?_⟩
    have := ih hr t ht
    omega

/-- An address of the span lies in one step and in no other. -/
theorem exactly_one (h : Tiles steps a b) (ha : a ≤ x) (hb : x < b) :
    ∃ before step after, steps = before ++ step :: after ∧ step.contains x = true ∧
      ∀ other ∈ before ++ after, other.contains x = false := by
  induction steps generalizing a with
  | nil =>
    obtain rfl : a = b := h
    omega
  | cons step rest ih =>
    obtain ⟨rfl, hlt, hr⟩ := h
    by_cases hx : x < step.stop
    · refine ⟨[], step, rest, rfl, EraseStep.contains_iff.2 ⟨ha, hx⟩, fun t ht => ?_⟩
      have := hr.le_start t ht
      rw [← Bool.not_eq_true, EraseStep.contains_iff]
      omega
    · obtain ⟨before, s, after, rfl, hs, hother⟩ := ih hr (Nat.le_of_not_lt hx)
      refine ⟨step :: before, s, after, rfl, hs, List.forall_mem_cons.2 ⟨?_, hother⟩⟩
      rw [← Bool.not_eq_true, EraseStep.contains_iff]
      omega

end Tiles

/-! ## Steps that fit the map -/

namespace MemoryMap

variable {m : MemoryMap} {s e : Segment} {lo hi last cursor start length : Nat}
  {steps : List EraseStep}

/-- What a step may be, of a plan for the addresses from `lo` to below `hi`. -/
def Fits (m : MemoryMap) (lo hi : Nat) : EraseStep → Prop
  | .erase address size => ∃ s ∈ m.segments, s.access.erasable = true ∧
      s.contains address = true ∧ s.sectorStart address = address ∧ size = s.sectorSize ∧
      address < hi ∧ lo < address + size
  | .skip start stop => ∃ s ∈ m.segments, s.access.erasable = false ∧
      s.start ≤ start ∧ stop ≤ s.stop

theorem start_eraseStep {limit : Nat} (hb : s.sectorStart cursor = cursor) :
    (s.eraseStep cursor limit).start = cursor := by
  unfold Segment.eraseStep
  split
  · exact hb
  · rfl

/-- A step stays in its segment. -/
theorem stop_eraseStep_le_stop {limit : Nat} (hc : s.contains cursor = true) :
    (s.eraseStep cursor limit).stop ≤ s.stop := by
  unfold Segment.eraseStep
  split
  · exact Segment.sectorEnd_le hc
  · exact Nat.min_le_left _ _

/-- A step that does not end its segment ends a sector. -/
theorem sectorStart_stop_eraseStep {limit : Nat} (hs : (s.eraseStep cursor limit).stop < s.stop)
    (hl : (s.eraseStep cursor limit).stop < limit) :
    s.sectorStart (s.eraseStep cursor limit).stop = (s.eraseStep cursor limit).stop := by
  unfold Segment.eraseStep at hs hl ⊢
  split
  · exact s.sectorStart_sectorEnd cursor
  · rename_i hx
    rw [if_neg hx] at hs hl
    simp only [EraseStep.stop] at hs hl
    omega

namespace Disjoint

/-- A segment with an address before the end of the plan ends before it as well, if it is not the
one the plan ends in. -/
theorem stop_le_sectorEnd (hd : m.Disjoint) (hs : s ∈ m.segments) (he : e ∈ m.segments)
    (hc : s.contains cursor = true) (hl : e.contains last = true) (h : cursor < e.sectorEnd last)
    (hne : s ≠ e) : s.stop ≤ e.sectorEnd last := by
  refine Nat.le_of_not_lt fun hlt => hne ?_
  -- otherwise the last address of the plan lies in both
  have h₁ := Segment.sectorEnd_le hl
  have h₂ := Segment.lt_sectorEnd (Segment.contains_iff.1 hl).1
  rw [Segment.contains_iff] at hc hl
  exact hd.eq_of_contains (a := e.sectorEnd last - 1) hs he (Segment.contains_iff.2 (by omega))
    (Segment.contains_iff.2 (by omega))

theorem stop_eraseStep_le (hd : m.Disjoint) (hs : s ∈ m.segments) (he : e ∈ m.segments)
    (hc : s.contains cursor = true) (hl : e.contains last = true) (h : cursor < e.sectorEnd last)
    (hb : s.sectorStart cursor = cursor) :
    (s.eraseStep cursor (e.sectorEnd last)).stop ≤ e.sectorEnd last := by
  by_cases hse : s = e
  · subst hse
    unfold Segment.eraseStep
    split
    · exact Segment.sectorEnd_le_of_lt hb h
    · exact Nat.min_le_right _ _
  · exact Nat.le_trans (stop_eraseStep_le_stop hc) (hd.stop_le_sectorEnd hs he hc hl h hse)

/-- No step begins after the last address of the range. -/
theorem cursor_le_last (hd : m.Disjoint) (hs : s ∈ m.segments) (he : e ∈ m.segments)
    (hc : s.contains cursor = true) (hl : e.contains last = true) (h : cursor < e.sectorEnd last)
    (hb : s.sectorStart cursor = cursor) : cursor ≤ last := by
  have hle := (Segment.contains_iff.1 hl).1
  refine Nat.le_of_not_lt fun hlt => ?_
  have hec : e.contains cursor = true := by
    have := Segment.sectorEnd_le hl
    exact Segment.contains_iff.2 (by omega)
  obtain rfl := hd.eq_of_contains hs he hc hec
  have := Segment.le_sectorStart_of_lt hb h
  have := Segment.sectorStart_le hle
  omega

/-- The step at a sector boundary fits the map, if the range has begun before its end. -/
theorem fits_eraseStep (hd : m.Disjoint) (hs : s ∈ m.segments) (he : e ∈ m.segments)
    (hc : s.contains cursor = true) (hl : e.contains last = true) (h : cursor < e.sectorEnd last)
    (hb : s.sectorStart cursor = cursor) (hhi : last < hi)
    (hlo : lo < (s.eraseStep cursor (e.sectorEnd last)).stop) :
    m.Fits lo hi (s.eraseStep cursor (e.sectorEnd last)) := by
  unfold Segment.eraseStep at hlo ⊢
  split
  · rename_i hx
    rw [if_pos hx, hb] at hlo
    rw [hb]
    have := hd.cursor_le_last hs he hc hl h hb
    exact ⟨s, hs, hx, hc, hb, rfl, by omega, hlo⟩
  · rename_i hx
    exact ⟨s, hs, by simpa using hx, (Segment.contains_iff.1 hc).1, Nat.min_le_left _ _⟩

end Disjoint

/-- What one round of the walk does: it takes the step at the cursor, and goes on after it in the
same segment or in the next one. -/
theorem eraseFrom_eq_ok {limit : Nat} {inside : s.contains cursor = true} {below : cursor < limit}
    (h : m.eraseFrom limit cursor s inside below = .ok steps) :
    (limit ≤ (s.eraseStep cursor limit).stop ∧ steps = [s.eraseStep cursor limit]) ∨
      ∃ next rest, ∃ inside : next.contains (s.eraseStep cursor limit).stop = true,
        ∃ below : (s.eraseStep cursor limit).stop < limit,
          (next = s ∨ s.stop ≤ (s.eraseStep cursor limit).stop ∧ next ∈ m.segments) ∧
          m.eraseFrom limit (s.eraseStep cursor limit).stop next inside below = .ok rest ∧
          steps = s.eraseStep cursor limit :: rest := by
  rw [eraseFrom] at h
  -- the end, the same segment, or the one that the map has at the cursor
  split at h
  · rename_i hn
    refine .inr ?_
    split at h
    · rename_i hs
      obtain ⟨rest, hr, heq⟩ := bind_eq_ok h
      cases heq
      exact ⟨s, rest, _, hn, .inl rfl, hr, rfl⟩
    · rename_i hs
      split at h
      · cases h
      · rename_i next ha
        obtain ⟨rest, hr, heq⟩ := bind_eq_ok h
        cases heq
        exact ⟨next, rest, segmentAt?_contains ha, hn, .inr ⟨Nat.le_of_not_lt hs, segmentAt?_mem ha⟩,
          hr, rfl⟩
  · rename_i hn
    cases h
    exact .inl ⟨Nat.le_of_not_lt hn, rfl⟩

namespace Disjoint

/-- The walk from a sector boundary tiles what is left of the plan with steps that fit. -/
theorem eraseFrom_tiles (hd : m.Disjoint) (hs : s ∈ m.segments) (he : e ∈ m.segments)
    (hl : e.contains last = true) (hb : s.sectorStart cursor = cursor) (hhi : last < hi)
    {inside : s.contains cursor = true} {below : cursor < e.sectorEnd last}
    (hlo : lo < (s.eraseStep cursor (e.sectorEnd last)).stop)
    (h : m.eraseFrom (e.sectorEnd last) cursor s inside below = .ok steps) :
    Tiles steps cursor (e.sectorEnd last) ∧ ∀ step ∈ steps, m.Fits lo hi step := by
  induction steps generalizing cursor s with
  | nil => rcases eraseFrom_eq_ok h with ⟨-, h⟩ | ⟨_, _, _, _, -, -, h⟩ <;> cases h
  | cons step rest ih =>
    have hfit := hd.fits_eraseStep hs he inside hl below hb hhi hlo
    have hstart : (s.eraseStep cursor (e.sectorEnd last)).start = cursor := start_eraseStep hb
    have hlt := Segment.lt_stop_eraseStep inside below
    rcases eraseFrom_eq_ok h with ⟨hstop, heq⟩ | ⟨next, rest, hc, hn, hnext, hr, heq⟩
    · obtain ⟨rfl, rfl⟩ := List.cons.inj heq
      have := hd.stop_eraseStep_le hs he inside hl below hb
      exact ⟨⟨hstart, hlt, show _ = _ by omega⟩, by simpa using hfit⟩
    · obtain ⟨rfl, rfl⟩ := List.cons.inj heq
      -- the cursor is a boundary again: the end of a sector, or the start of the next segment
      have hnext : next ∈ m.segments ∧ next.sectorStart (s.eraseStep cursor (e.sectorEnd last)).stop =
          (s.eraseStep cursor (e.sectorEnd last)).stop := by
        rcases hnext with rfl | ⟨hge, hmem⟩
        · exact ⟨hs, sectorStart_stop_eraseStep (Segment.contains_iff.1 hc).2 hn⟩
        · refine ⟨hmem, ?_⟩
          have hstop := Nat.le_antisymm (stop_eraseStep_le_stop inside) hge
          rw [hstop] at hc ⊢
          rw [← hd.start_eq_stop hs hmem inside hc, Segment.sectorStart_start]
      have hlo' := Nat.lt_trans hlo (Segment.lt_stop_eraseStep hc hn)
      obtain ⟨ht, hf⟩ := ih hnext.1 hnext.2 hlo' hr
      exact ⟨⟨hstart, hlt, ht⟩, List.forall_mem_cons.2 ⟨hfit, hf⟩⟩

end Disjoint

/-! ## Plans -/

/-- What a plan can be, and why. -/
theorem erasePlan_cases (m : MemoryMap) (start length : Nat) :
    (length = 0 ∧ m.erasePlan start length = .ok []) ∨
    0 < length ∧
      ((addressSpace ≤ start + length - 1 ∧
          m.erasePlan start length = .error (.addressOutOfRange (addressSpace - 1))) ∨
        start + length - 1 < addressSpace ∧
          ((m.segmentAt? start = none ∧
              m.erasePlan start length = .error (.addressOutOfRange start)) ∨
            ∃ s, m.segmentAt? start = some s ∧
              ((m.segmentAt? (start + length - 1) = none ∧
                  m.erasePlan start length = .error (.addressOutOfRange (start + length - 1))) ∨
                ∃ e inside below, m.segmentAt? (start + length - 1) = some e ∧
                  m.erasePlan start length =
                    m.eraseFrom (e.sectorEnd (start + length - 1)) (s.sectorStart start) s inside
                      below))) := by
  rcases Nat.eq_zero_or_pos length with hzero | hlen
  · exact .inl ⟨hzero, by rw [erasePlan, if_pos hzero]⟩
  refine .inr ⟨hlen, ?_⟩
  rw [Nat.add_sub_assoc hlen]
  by_cases htop : addressSpace ≤ start + (length - 1)
  · exact .inl ⟨htop, by rw [erasePlan, if_neg (Nat.ne_of_gt hlen), if_pos htop]⟩
  refine .inr ⟨Nat.lt_of_not_le htop, ?_⟩
  -- the program looks both ends up at once; here the start comes first, as its error does
  generalize hplan : m.erasePlan start length = plan
  rw [erasePlan, if_neg (Nat.ne_of_gt hlen), if_neg htop] at hplan
  split at hplan
  · rename_i hs
    exact .inl ⟨hs, hplan.symm⟩
  · rename_i s hs hl
    exact .inr ⟨s, hs, .inl ⟨hl, hplan.symm⟩⟩
  · rename_i s e hs hl
    exact .inr ⟨s, hs, .inr ⟨e, _, _, hl, hplan.symm⟩⟩

theorem erasePlan_eq_ok (hlen : 0 < length) (h : m.erasePlan start length = .ok steps) :
    ∃ s e, m.segmentAt? start = some s ∧ m.segmentAt? (start + length - 1) = some e ∧
      ∃ inside below, m.eraseFrom (e.sectorEnd (start + length - 1)) (s.sectorStart start) s inside
        below = .ok steps := by
  rcases m.erasePlan_cases start length with ⟨hzero, -⟩ | ⟨-, ⟨-, hplan⟩ | ⟨-, ⟨-, hplan⟩ |
    ⟨s, hs, ⟨-, hplan⟩ | ⟨e, inside, below, hl, hplan⟩⟩⟩⟩
  · omega
  · cases h.symm.trans hplan
  · cases h.symm.trans hplan
  · cases h.symm.trans hplan
  · exact ⟨s, e, hs, hl, inside, below, hplan.symm.trans h⟩

/-- A range that has a plan ends below the top of the address space. -/
theorem range_lt_addressSpace (hlen : 0 < length) (h : m.erasePlan start length = .ok steps) :
    start + length < addressSpace := by
  obtain ⟨-, e, -, hl, -⟩ := erasePlan_eq_ok hlen h
  have := (Segment.contains_iff.1 (segmentAt?_contains hl)).2
  have := e.stop_lt_addressSpace
  omega

/-- A step is not empty, and lies in the address space. -/
theorem bounds_eraseStep {limit : Nat} (inside : s.contains cursor = true) (below : cursor < limit) :
    (s.eraseStep cursor limit).start < (s.eraseStep cursor limit).stop ∧
      (s.eraseStep cursor limit).stop < addressSpace := by
  have hle : (s.eraseStep cursor limit).start ≤ cursor := by
    unfold Segment.eraseStep
    split
    · exact Segment.sectorStart_le (Segment.contains_iff.1 inside).1
    · exact Nat.le_refl _
  have hlt := Segment.lt_stop_eraseStep inside below
  have hstop : (s.eraseStep cursor limit).stop ≤ s.stop := stop_eraseStep_le_stop inside
  have htop := s.stop_lt_addressSpace
  omega

theorem bounds_of_eraseFrom {limit : Nat} {inside : s.contains cursor = true} {below : cursor < limit}
    (h : m.eraseFrom limit cursor s inside below = .ok steps) :
    ∀ step ∈ steps, step.start < step.stop ∧ step.stop < addressSpace := by
  induction steps generalizing cursor s with
  | nil => simp
  | cons step rest ih =>
    have hstep := bounds_eraseStep inside below
    rcases eraseFrom_eq_ok h with ⟨-, heq⟩ | ⟨next, rest', hc, hn, -, hr, heq⟩
    · obtain ⟨rfl, rfl⟩ := List.cons.inj heq
      exact List.forall_mem_cons.2 ⟨hstep, by simp⟩
    · obtain ⟨rfl, rfl⟩ := List.cons.inj heq
      exact List.forall_mem_cons.2 ⟨hstep, ih hr⟩

/-- The steps of a plan are not empty, and lie in the address space. -/
theorem bounds_of_erasePlan (h : m.erasePlan start length = .ok steps) :
    ∀ step ∈ steps, step.start < step.stop ∧ step.stop < addressSpace := by
  by_cases hzero : length = 0
  · rw [erasePlan, if_pos hzero] at h
    cases h
    simp
  · obtain ⟨s, e, -, -, inside, below, hw⟩ := erasePlan_eq_ok (Nat.pos_of_ne_zero hzero) h
    exact bounds_of_eraseFrom hw

/-- The addresses that a plan erases at fit into the address space. -/
theorem erase_lt_of_erasePlan (h : m.erasePlan start length = .ok steps) :
    ∀ address size, .erase address size ∈ steps → address < addressSpace := by
  intro address size hmem
  obtain ⟨hlt, htop⟩ := bounds_of_erasePlan h _ hmem
  exact Nat.lt_trans hlt htop

namespace Disjoint

/-- A plan goes from the start of the first sector to the end of the last one. -/
theorem tiles_of_erasePlan (hd : m.Disjoint) (hlen : 0 < length)
    (h : m.erasePlan start length = .ok steps) :
    ∃ s e, m.segmentAt? start = some s ∧ m.segmentAt? (start + length - 1) = some e ∧
      Tiles steps (s.sectorStart start) (e.sectorEnd (start + length - 1)) ∧
      ∀ step ∈ steps, m.Fits start (start + length) step := by
  obtain ⟨s, e, hs, hl, inside, below, hw⟩ := erasePlan_eq_ok hlen h
  have hle := (Segment.contains_iff.1 (segmentAt?_contains hs)).1
  refine ⟨s, e, hs, hl, ?_⟩
  refine hd.eraseFrom_tiles (segmentAt?_mem hs) (segmentAt?_mem hl) (segmentAt?_contains hl)
    (s.sectorStart_sectorStart start) (by omega) ?_ hw
  unfold Segment.eraseStep
  split
  · rw [Segment.sectorStart_sectorStart]
    exact Segment.lt_sectorEnd hle
  · have := (Segment.contains_iff.1 (segmentAt?_contains hs)).2
    have := Segment.lt_sectorEnd (Segment.contains_iff.1 (segmentAt?_contains hl)).1
    simp only [EraseStep.stop]
    omega

/-- A plan erases the sector of every address of its range, unless the segment of the address
cannot be erased. -/
theorem covered_of_erasePlan (hd : m.Disjoint) {a : Nat} (h : m.erasePlan start length = .ok steps)
    (ha : start ≤ a) (hlt : a < start + length) :
    ∃ s ∈ m.segments, s.contains a = true ∧
      (s.access.erasable = false ∨ .erase (s.sectorStart a) s.sectorSize ∈ steps) := by
  obtain ⟨s, e, hs, hl, htiles, hfits⟩ := hd.tiles_of_erasePlan (by omega) h
  have h₁ := Segment.sectorStart_le (Segment.contains_iff.1 (segmentAt?_contains hs)).1
  have h₂ := Segment.lt_sectorEnd (Segment.contains_iff.1 (segmentAt?_contains hl)).1
  obtain ⟨before, step, after, rfl, hstep, -⟩ := htiles.exactly_one (x := a) (by omega) (by omega)
  have hfit := hfits step (by simp)
  rw [EraseStep.contains_iff] at hstep
  cases step with
  | erase address size =>
    obtain ⟨t, ht, -, hc, hb, rfl, -, -⟩ := hfit
    have hend := Segment.sectorEnd_le hc
    rw [Segment.contains_iff] at hc
    simp only [EraseStep.start, EraseStep.stop] at hstep
    unfold Segment.sectorEnd at hend
    rw [hb] at hend
    refine ⟨t, ht, Segment.contains_iff.2 (by omega), .inr ?_⟩
    rw [Segment.sectorStart_eq_of_lt hb hstep.1 hstep.2]
    exact List.mem_append_right _ List.mem_cons_self
  | skip first stop =>
    obtain ⟨t, ht, hx, hfirst, hstop⟩ := hfit
    simp only [EraseStep.start, EraseStep.stop] at hstep
    exact ⟨t, ht, Segment.contains_iff.2 (by omega), .inl hx⟩

end Disjoint

/-- Over disjoint segments a plan tiles its range, rounded to whole sectors: each step begins where
the one before it ended, is a whole sector of the range or a stretch that cannot be erased, and
shares no address with another step. -/
theorem erasePlan_tiles (hd : m.Disjoint) (hlen : 0 < length)
    (h : m.erasePlan start length = .ok steps) :
    ∃ first stop, m.sectorStart start = .ok first ∧ m.sectorEnd (start + length - 1) = .ok stop ∧
      Tiles steps first stop ∧ (∀ step ∈ steps, m.Fits start (start + length) step) ∧
      ∀ a, first ≤ a → a < stop →
        ∃ before step after, steps = before ++ step :: after ∧ step.contains a = true ∧
          ∀ other ∈ before ++ after, other.contains a = false := by
  obtain ⟨s, e, hs, hl, htiles, hfits⟩ := hd.tiles_of_erasePlan hlen h
  refine ⟨s.sectorStart start, e.sectorEnd (start + length - 1), ?_, ?_, htiles, hfits, fun a ha hb =>
    htiles.exactly_one ha hb⟩
  · rw [sectorStart, segmentAt_eq_ok_iff.2 hs]
    rfl
  · rw [sectorEnd, segmentAt_eq_ok_iff.2 hl]
    rfl

/-- Two small sectors that can be erased, listed after a large one that cannot but follows them. -/
def mixed : MemoryMap where
  name := "Mixed"
  segments :=
    [⟨0x120, 2, 0x20, .ofBits 5, by decide, by decide, by decide⟩,
      ⟨0x100, 2, 0x10, .ofBits 7, by decide, by decide, by decide⟩]
  segments_ne_nil := nofun

theorem disjoint_mixed : mixed.Disjoint :=
  disjoint_of_apart (by decide)

/-- A range that begins in the middle of a small sector and ends in the middle of a large one. -/
theorem erasePlan_tiles_mixed :
    mixed.erasePlan 0x118 0x10 = .ok [.erase 0x110 0x10, .skip 0x120 0x140] ∧
      Tiles [.erase 0x110 0x10, .skip 0x120 0x140] 0x110 0x140 := by
  have h : mixed.erasePlan 0x118 0x10 = .ok [.erase 0x110 0x10, .skip 0x120 0x140] := by
    cbv
  obtain ⟨first, stop, hfirst, hstop, htiles, -⟩ := erasePlan_tiles disjoint_mixed (by decide) h
  rw [show mixed.sectorStart 0x118 = .ok 0x110 from rfl] at hfirst
  rw [show mixed.sectorEnd (0x118 + 0x10 - 1) = .ok 0x140 from rfl] at hstop
  cases hfirst
  cases hstop
  exact ⟨h, htiles⟩

end MemoryMap
end UsbDfu
