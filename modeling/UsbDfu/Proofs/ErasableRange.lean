import UsbDfu.Proofs.CheckedErasure

/-!
# Ranges that can be erased

Which ranges of a map have an erase plan, and what becomes of the others. Segments may overlap, be
empty, and be listed in any order.

- `MemoryMap.Covers m a`: the address lies in the map.
- `MemoryMap.reaches_eraseFrom`: a walk comes through the map to its limit, or stops at the first
  address that does not lie in the map.
- `MemoryMap.Refuses m start length a`: why a range has no plan, and the address that is named.
- `MemoryMap.erasePlan_decides`: a range has a plan just when it lies in the map, and otherwise the first
  of these reasons is given; the arithmetic of all that stays in words of 32 bits.
-/

namespace UsbDfu
namespace MemoryMap

variable {m : MemoryMap} {s e : Segment} {cursor start length a : Nat}

/-! ## Walks through a map -/

/-- The address lies in the map. -/
def Covers (m : MemoryMap) (a : Nat) : Prop :=
  ∃ s ∈ m.segments, s.contains a = true

instance (m : MemoryMap) (a : Nat) : Decidable (m.Covers a) :=
  inferInstanceAs (Decidable (∃ s ∈ m.segments, s.contains a = true))

theorem exists_segmentAt? (h : m.Covers a) : ∃ s, m.segmentAt? a = some s := by
  obtain ⟨s, hs, hc⟩ := h
  exact Option.isSome_iff_exists.1 (List.find?_isSome.2 ⟨s, hs, hc⟩)

theorem covers_of_segmentAt? (h : m.segmentAt? a = some s) : m.Covers a :=
  ⟨s, segmentAt?_mem h, segmentAt?_contains h⟩

theorem not_covers_iff : ¬ m.Covers a ↔ m.segmentAt? a = none := by
  constructor
  · intro h
    exact Option.eq_none_iff_forall_ne_some.2 fun s hs => h (covers_of_segmentAt? hs)
  · intro h hc
    obtain ⟨s, hs⟩ := exists_segmentAt? hc
    rw [h] at hs
    cases hs

/-- How a walk ends: it came through the map to its limit, or to the first address that does not lie
in the map. -/
inductive Reaches (m : MemoryMap) (limit cursor : Nat) :
    Except ConfigurationError (List EraseStep) → Prop where
  | limit (steps : List EraseStep) (h : ∀ a, cursor ≤ a → a < limit → m.Covers a) :
      Reaches m limit cursor (.ok steps)
  | gap (a : Nat) (hle : cursor ≤ a) (hlt : a < limit) (ha : ¬ m.Covers a)
      (h : ∀ b, cursor ≤ b → b < a → m.Covers b) :
      Reaches m limit cursor (.error (.addressOutOfRange a))

/-- A walk goes on where a step ends that stays in the map. -/
theorem Reaches.cons {limit next : Nat} {r : Except ConfigurationError (List EraseStep)}
    (h : m.Reaches limit next r) (hle : cursor ≤ next)
    (hcovered : ∀ a, cursor ≤ a → a < next → m.Covers a) (step : EraseStep) :
    m.Reaches limit cursor (do let rest ← r; pure (step :: rest)) := by
  cases h with
  | limit rest h =>
    refine .limit _ fun a ha hlt => ?_
    by_cases hnext : a < next
    · exact hcovered a ha hnext
    · exact h a (Nat.le_of_not_lt hnext) hlt
  | gap a hnext hlt hgap h =>
    refine .gap a (Nat.le_trans hle hnext) hlt hgap fun b hb hba => ?_
    by_cases hbnext : b < next
    · exact hcovered b hb hbnext
    · exact h b (Nat.le_of_not_lt hbnext) hba

/-- A walk cannot jump over an address: all that it leaves behind lies in a segment. -/
theorem reaches_eraseFrom {limit : Nat} (hs : s ∈ m.segments) (inside : s.contains cursor = true)
    (below : cursor < limit) : m.Reaches limit cursor (m.eraseFrom limit cursor s inside below) := by
  -- the walk ends as what is left of the range shrinks, whichever segment it goes on in
  induction hn : limit - cursor using Nat.strongRecOn generalizing cursor s with
  | ind n ih =>
    have hlt := Segment.lt_stop_eraseStep inside below
    have hcovered : ∀ a, cursor ≤ a → a < (s.eraseStep cursor limit).stop → m.Covers a := by
      intro a ha hstop
      have := (Segment.contains_iff.1 inside).1
      have : (s.eraseStep cursor limit).stop ≤ s.stop := stop_eraseStep_le_stop inside
      exact ⟨s, hs, Segment.contains_iff.2 ⟨by omega, by omega⟩⟩
    rw [eraseFrom]
    split
    · rename_i hgoes
      split
      · exact (ih _ (by omega) hs _ hgoes rfl).cons (Nat.le_of_lt hlt) hcovered _
      · split
        · rename_i hnone
          exact .gap _ (Nat.le_of_lt hlt) hgoes (not_covers_iff.2 hnone) hcovered
        · rename_i next hnext
          exact (ih _ (by omega) (segmentAt?_mem hnext) _ hgoes rfl).cons (Nat.le_of_lt hlt) hcovered _
    · rename_i hends
      refine .limit _ fun a ha hlimit => hcovered a ha ?_
      omega

/-! ## Plans -/

/-- The reason why the range has no plan, with the address that is named: it goes beyond the address
space; or else its first address does not lie in the map; or else its last one; or else this is the
first address of it that does not. -/
inductive Refuses (m : MemoryMap) (start length : Nat) : Nat → Prop where
  | beyond (hlen : 0 < length) (htop : addressSpace ≤ start + length - 1) :
      Refuses m start length (addressSpace - 1)
  | first (hlen : 0 < length) (hfits : start + length - 1 < addressSpace)
      (hfirst : ¬ m.Covers start) : Refuses m start length start
  | last (hlen : 0 < length) (hfits : start + length - 1 < addressSpace)
      (hfirst : m.Covers start) (hlast : ¬ m.Covers (start + length - 1)) :
      Refuses m start length (start + length - 1)
  | gap (hlen : 0 < length) (hfits : start + length - 1 < addressSpace)
      (hfirst : m.Covers start) (hlast : m.Covers (start + length - 1)) (a : Nat)
      (hle : start ≤ a) (hin : a ≤ start + length - 1) (ha : ¬ m.Covers a)
      (hleast : ∀ b, start ≤ b → b < a → m.Covers b) : Refuses m start length a

/-- The range is empty, or it ends in the address space and all of it lies in the map. -/
def Holds (m : MemoryMap) (start length : Nat) : Prop :=
  length = 0 ∨ start + length - 1 < addressSpace ∧
    ∀ a, start ≤ a → a ≤ start + length - 1 → m.Covers a

/-- A walk that covers the sectors of a range covers the range. -/
theorem Reaches.planned_or_refused {r : Except ConfigurationError (List EraseStep)} (hlen : 0 < length)
    (hfits : start + length - 1 < addressSpace) (hs : m.segmentAt? start = some s)
    (hl : m.segmentAt? (start + length - 1) = some e)
    (h : m.Reaches (e.sectorEnd (start + length - 1)) (s.sectorStart start) r) :
    (m.Holds start length ∧ ∃ steps, r = .ok steps) ∨
      ∃ a, m.Refuses start length a ∧ r = .error (.addressOutOfRange a) := by
  have hfirst := Segment.contains_iff.1 (segmentAt?_contains hs)
  have hlast := Segment.contains_iff.1 (segmentAt?_contains hl)
  have hstart := Segment.sectorStart_le hfirst.1
  have hstop := Segment.lt_sectorEnd hlast.1
  cases h with
  | limit steps h => exact .inl ⟨.inr ⟨hfits, fun a ha hle => h a (by omega) (by omega)⟩, steps, rfl⟩
  | gap a hle hlt ha h =>
    -- the sectors at both ends lie in the map, so the gap is between them
    have hafter : start ≤ a := by
      refine Nat.le_of_not_lt fun hbefore => ha ?_
      have : s.start ≤ s.sectorStart start := Nat.le_add_right _ _
      exact ⟨s, segmentAt?_mem hs, Segment.contains_iff.2 ⟨by omega, by omega⟩⟩
    have hbefore : a ≤ start + length - 1 := by
      refine Nat.le_of_not_lt fun hafter => ha ?_
      have := Segment.sectorEnd_le (segmentAt?_contains hl)
      exact ⟨e, segmentAt?_mem hl, Segment.contains_iff.2 ⟨by omega, by omega⟩⟩
    exact .inr ⟨a, .gap hlen hfits (covers_of_segmentAt? hs) (covers_of_segmentAt? hl) a hafter hbefore
      ha fun b hb hba => h b (by omega) hba, rfl⟩

theorem planned_or_refused (m : MemoryMap) (start length : Nat) :
    (m.Holds start length ∧ ∃ steps, m.erasePlan start length = .ok steps) ∨
      ∃ a, m.Refuses start length a ∧
        m.erasePlan start length = .error (.addressOutOfRange a) := by
  rcases m.erasePlan_cases start length with ⟨hzero, hplan⟩ | ⟨hlen, ⟨htop, hplan⟩ | ⟨hfits,
    ⟨hs, hplan⟩ | ⟨s, hs, ⟨hl, hplan⟩ | ⟨e, inside, below, hl, hplan⟩⟩⟩⟩
  · exact .inl ⟨.inl hzero, [], hplan⟩
  · exact .inr ⟨_, .beyond hlen htop, hplan⟩
  · exact .inr ⟨_, .first hlen hfits (not_covers_iff.2 hs), hplan⟩
  · exact .inr ⟨_, .last hlen hfits (covers_of_segmentAt? hs) (not_covers_iff.2 hl), hplan⟩
  · rw [hplan]
    exact (reaches_eraseFrom (segmentAt?_mem hs) inside below).planned_or_refused hlen hfits hs hl

theorem Refuses.not_holds (h : m.Refuses start length a) : ¬ m.Holds start length := by
  rintro (hzero | ⟨hfits, hcovers⟩)
  · cases h <;> omega
  · cases h with
    | beyond hlen htop => omega
    | first hlen _ hfirst => exact hfirst (hcovers _ (Nat.le_refl _) (by omega))
    | last hlen _ _ hlast => exact hlast (hcovers _ (by omega) (Nat.le_refl _))
    | gap hlen _ _ _ a hle hin ha _ => exact ha (hcovers a hle hin)

/-- A range is refused for one address only. -/
theorem Refuses.eq {b : Nat} (h : m.Refuses start length a) (h' : m.Refuses start length b) :
    a = b := by
  cases h with
  | beyond hlen htop =>
    cases h' with
    | beyond => rfl
    | first | last | gap => omega
  | first hlen hfits hfirst =>
    cases h' with
    | beyond => omega
    | first => rfl
    | last _ _ hfirst' | gap _ _ hfirst' => exact absurd hfirst' hfirst
  | last hlen hfits hfirst hlast =>
    cases h' with
    | beyond => omega
    | first _ _ hfirst' => exact absurd hfirst hfirst'
    | last => rfl
    | gap _ _ _ hlast' => exact absurd hlast' hlast
  | gap hlen hfits hfirst hlast a hle hin ha hleast =>
    cases h' with
    | beyond => omega
    | first _ _ hfirst' => exact absurd hfirst hfirst'
    | last _ _ _ hlast' => exact absurd hlast hlast'
    | gap _ _ _ _ b hle' hin' ha' hleast' =>
      refine Nat.le_antisymm (Nat.le_of_not_lt fun hlt => ha' (hleast b hle' hlt))
        (Nat.le_of_not_lt fun hlt => ha (hleast' a hle hlt))

theorem exists_erasePlan_iff :
    (∃ steps, m.erasePlan start length = .ok steps) ↔ m.Holds start length := by
  constructor
  · rintro ⟨steps, hplan⟩
    rcases m.planned_or_refused start length with ⟨hholds, -⟩ | ⟨a, -, hrefused⟩
    · exact hholds
    · cases hplan.symm.trans hrefused
  · intro hholds
    rcases m.planned_or_refused start length with ⟨-, hplan⟩ | ⟨a, hrefuses, -⟩
    · exact hplan
    · exact absurd hholds hrefuses.not_holds

theorem erasePlan_eq_error_iff {e : ConfigurationError} :
    m.erasePlan start length = .error e ↔
      ∃ a, m.Refuses start length a ∧ e = .addressOutOfRange a := by
  rcases m.planned_or_refused start length with ⟨hholds, steps, hplan⟩ | ⟨a, hrefuses, hplan⟩
  · rw [hplan]
    constructor
    · exact nofun
    · rintro ⟨a, hrefuses, -⟩
      exact absurd hholds hrefuses.not_holds
  · rw [hplan]
    constructor
    · rintro ⟨⟩
      exact ⟨a, hrefuses, rfl⟩
    · rintro ⟨b, hrefuses', rfl⟩
      rw [hrefuses.eq hrefuses']

/-- A range whose every address lies in a segment has a plan. -/
theorem exists_erasePlan (hcover : ∀ a, start ≤ a → a < start + length →
    ∃ s ∈ m.segments, s.contains a = true) : ∃ steps, m.erasePlan start length = .ok steps := by
  refine exists_erasePlan_iff.2 ?_
  rcases Nat.eq_zero_or_pos length with hzero | hlen
  · exact .inl hzero
  · obtain ⟨e, -, hlast⟩ := hcover (start + length - 1) (by omega) (by omega)
    have htop := e.stop_lt_addressSpace
    have hin := (Segment.contains_iff.1 hlast).2
    exact .inr ⟨by omega, fun a ha hle => hcover a ha (by omega)⟩

/-- Over every map, a range has an erase plan just when it is empty, or ends in the address space and
lies in the map with every address. Otherwise the plan is refused with an address, for the first of
the reasons that apply. Nothing wraps on the way, and the loop ends: computed with operations that
fail where their result is no word of 32 bits, the plan is the same. -/
theorem erasePlan_decides (m : MemoryMap) (start length : Nat) :
    ((∃ steps, m.erasePlan start length = .ok steps) ↔
      length = 0 ∨ start + length - 1 < addressSpace ∧
        ∀ a, start ≤ a → a ≤ start + length - 1 → m.Covers a) ∧
    (∀ e, m.erasePlan start length = .error e ↔
      ∃ a, m.Refuses start length a ∧ e = .addressOutOfRange a) ∧
    m.checkedErasePlan start length = (m.erasePlan start length).mapError .refused :=
  ⟨exists_erasePlan_iff, fun _ => erasePlan_eq_error_iff, m.checkedErasePlan_eq start length⟩

/-- Two segments with two addresses between them that lie in none. -/
def parted : MemoryMap where
  name := "Parted"
  segments :=
    [⟨6, 1, 2, .ofBits 7, by decide, by decide, by decide⟩,
      ⟨0, 1, 4, .ofBits 7, by decide, by decide, by decide⟩]
  segments_ne_nil := nofun

/-- A range across the gap is refused for the first address in it, and one that is too long for its
last address. -/
theorem erasePlan_decides_parted :
    parted.erasePlan 2 5 = .error (.addressOutOfRange 4) ∧
      parted.erasePlan 2 9 = .error (.addressOutOfRange 10) := by
  have hgap : parted.Refuses 2 5 4 := by
    refine .gap (by decide) (by decide) (by decide) (by decide) 4 (by decide) (by decide) (by decide)
      fun b hb hlt => ?_
    obtain rfl | rfl : b = 2 ∨ b = 3 := by omega
    · decide
    · decide
  have hlast : parted.Refuses 2 9 10 := .last (by decide) (by decide) (by decide) (by decide)
  exact ⟨((erasePlan_decides parted 2 5).2.1 _).2 ⟨4, hgap, rfl⟩,
    ((erasePlan_decides parted 2 9).2.1 _).2 ⟨10, hlast, rfl⟩⟩

end MemoryMap
end UsbDfu
