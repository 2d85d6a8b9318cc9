import UsbDfu.Proofs.Sectors

/-!
# How far memory can be read

The bytes that can be read from an address on are counted in one pass over the segments as they are
listed: a segment counts if it contains the address, or if it begins where the count so far ends.

- `MemoryMap.CanRead m a`: the address lies in a segment that can be read.
- `MemoryMap.readableFrom_step`: what one segment adds to the count.
- `MemoryMap.ReadableRun`: the addresses counted so far can be read. `ReadableRun.exists_readableFrom`
  carries it through the pass, in any order of the segments. There is a count at all because only one of
  them offers the first address.
- `MemoryMap.EndsOutside`: the count does not end inside a segment that can be read;
  `MemoryMap.endsOutside_readableFrom` is that of a pass over segments listed one after another.
- `MemoryMap.maxRead_readable`: both together.
-/

namespace UsbDfu

namespace Segment

theorem sub_stop_start {ε : Type} (s : Segment) :
    (Word.sub s.stop s.start : Checked ε Nat) = .ok s.length := by
  have hle : s.start ≤ s.stop := Nat.le_add_right _ _
  rw [Word.sub_eq hle, stop, Nat.add_sub_cancel_left]

theorem start_lt_stop {s : Segment} (h : 0 < s.sectors) : s.start < s.stop :=
  Nat.lt_add_of_pos_right (Nat.mul_pos h s.sectorSize_pos)

/-- The segment goes on after `n` addresses from `a` on: it contains the first of them, or starts
after the last. -/
def Continues (s : Segment) (a n : Nat) : Prop :=
  s.contains a = true ∨ 0 < n ∧ s.start = a + n

instance (s : Segment) (a n : Nat) : Decidable (s.Continues a n) :=
  inferInstanceAs (Decidable (_ ∨ _))

/-- The address lies in the segment, and can be read there. -/
def Offers (s : Segment) (a : Nat) : Prop :=
  s.contains a = true ∧ s.access.readable = true

instance (s : Segment) (a : Nat) : Decidable (s.Offers a) :=
  inferInstanceAs (Decidable (_ ∧ _))

end Segment

namespace MemoryMap

variable {m : MemoryMap} {a n : Nat} {s : Segment} {rest segments : List Segment}

/-- The address lies in a segment that can be read. -/
def CanRead (m : MemoryMap) (a : Nat) : Prop :=
  ∃ s ∈ m.segments, s.contains a = true ∧ s.access.readable = true

/-- The segments are listed by their first addresses. -/
def Ascending (m : MemoryMap) : Prop :=
  m.segments.Pairwise fun s t => s.start ≤ t.start

/-! ## One segment -/

/-- A segment that goes on moves the count to its end, if it can be read. If it cannot, the count ends,
and is none if the segment contains the first address. No sum of the pass reaches the top of the address
space. -/
theorem readableFrom_step (hlt : a + n < addressSpace) (hc : 0 < n → ¬ s.Offers a) :
    readableFrom a n (s :: rest) =
      if s.Continues a n then
        if s.access.readable then readableFrom a (s.stop - a) rest
        else if s.contains a then .ok 0 else .ok n
      else readableFrom a n rest := by
  have hstop := s.stop_lt_addressSpace
  by_cases hin : s.contains a = true
  · have hgoes : s.Continues a n := .inl hin
    obtain ⟨-, hbelow⟩ := Segment.contains_iff.1 hin
    rw [readableFrom, if_pos hin, if_pos hgoes, if_pos hin]
    by_cases hr : s.access.readable = true
    · have hn : n = 0 := Nat.eq_zero_of_not_pos fun hpos => hc hpos ⟨hin, hr⟩
      rw [if_pos hr, if_pos hr, hn, Word.sub_eq (Nat.le_of_lt hbelow), Checked.ok_bind,
        Word.add_eq (by omega), Checked.ok_bind, Nat.zero_add]
    · rw [if_neg hr, if_neg hr]
      rfl
  · rw [readableFrom, if_neg hin]
    by_cases hn : 0 < n
    · rw [if_pos hn, Word.add_eq hlt]
      show (if some (a + n) = some s.start then _ else _) = _
      by_cases hnext : s.start = a + n
      · have hgoes : s.Continues a n := .inr ⟨hn, hnext⟩
        -- the segment begins where the count ends, so the new count is its end, seen from `a`
        have hsum : n + s.length = s.stop - a := by
          rw [Segment.stop]
          omega
        rw [if_pos (congrArg some hnext.symm), if_pos hgoes, if_neg hin, Segment.sub_stop_start,
          Checked.ok_bind, Word.add_eq (by omega), Checked.ok_bind, hsum]
        rfl
      · have hnot : ¬ s.Continues a n := fun h => h.elim hin fun h => hnext h.2
        rw [if_neg fun h => hnext (Option.some.inj h).symm, if_neg hnot]
    · have hnot : ¬ s.Continues a n := fun h => h.elim hin fun h => hn h.1
      rw [if_neg hn, if_neg hnot]
      rfl

/-- If no count has begun before the segment of the first address, a count ends where it is. -/
theorem readableFrom_cons (hlt : a + n < addressSpace) (hc : 0 < n → s.contains a = false) :
    readableFrom a n (s :: rest) =
      if s.Continues a n then if s.access.readable then readableFrom a (s.stop - a) rest else .ok n
      else readableFrom a n rest := by
  have hsame : (if s.contains a = true then .ok 0 else .ok n : Checked Empty Nat) = .ok n := by
    split
    · rename_i hin
      exact congrArg _ (Nat.eq_zero_of_not_pos fun hpos => by simp [hc hpos] at hin).symm
    · rfl
  have hnone : 0 < n → ¬ s.Offers a := by
    rintro hpos ⟨hin, -⟩
    simp [hc hpos] at hin
  rw [readableFrom_step hlt hnone, hsame]

/-! ## What is counted can be read -/

/-- The `n` addresses from `a` on can be read, and end below the top of the address space. -/
structure ReadableRun (m : MemoryMap) (a n : Nat) : Prop where
  lt : a + n < addressSpace
  canRead : ∀ x, a ≤ x → x < a + n → m.CanRead x

theorem readableRun_zero (ha : a < addressSpace) : m.ReadableRun a 0 where
  lt := ha
  canRead _ hle hlt := absurd hlt (Nat.not_lt.2 hle)

namespace ReadableRun

/-- A run grows by a segment that goes on after it. -/
theorem extend (h : m.ReadableRun a n) (hs : s ∈ m.segments) (hr : s.access.readable = true)
    (hc : s.Continues a n) : m.ReadableRun a (s.stop - a) where
  lt := by
    have := s.stop_lt_addressSpace
    have := h.lt
    omega
  canRead x hle hlt := by
    by_cases hx : x < a + n
    · exact h.canRead x hle hx
    · refine ⟨s, hs, Segment.contains_iff.2 ⟨?_, by omega⟩, hr⟩
      rcases hc with hc | ⟨-, hc⟩
      · exact Nat.le_trans (Segment.contains_iff.1 hc).1 hle
      · omega

/-- The pass has an end and keeps a run, if one segment at most offers the first address. Once the run is
not empty, that one has passed, and each sum on the way is an address of a segment or the end of one. -/
theorem exists_readableFrom (h : m.ReadableRun a n)
    (honce : segments.Pairwise fun s t => ¬ (s.Offers a ∧ t.Offers a))
    (hmem : ∀ s ∈ segments, s ∈ m.segments) (hbegun : 0 < n → ∀ s ∈ segments, ¬ s.Offers a) :
    ∃ r, MemoryMap.readableFrom a n segments = .ok r ∧ m.ReadableRun a r := by
  induction segments generalizing n with
  | nil => exact ⟨n, rfl, h⟩
  | cons s rest ih =>
    obtain ⟨hs, hrest⟩ := List.forall_mem_cons.1 hmem
    obtain ⟨hfirst, honce⟩ := List.pairwise_cons.1 honce
    have hlater : 0 < n → ∀ t ∈ rest, ¬ t.Offers a :=
      fun hn t ht => hbegun hn t (List.mem_cons_of_mem s ht)
    rw [readableFrom_step h.lt fun hn => hbegun hn s List.mem_cons_self]
    split
    · rename_i hc
      split
      · rename_i hr
        refine ih (h.extend hs hr hc) honce hrest fun _ t ht hoffers => ?_
        rcases hc with hin | ⟨hn, -⟩
        · exact hfirst t ht ⟨⟨hin, hr⟩, hoffers⟩
        · exact hlater hn t ht hoffers
      -- what cannot be read ends the count, and there is none if it contains the first address
      · split
        · exact ⟨0, rfl, readableRun_zero (Nat.lt_of_le_of_lt (Nat.le_add_right a n) h.lt)⟩
        · exact ⟨n, rfl, h⟩
    · exact ih h honce hrest hlater

end ReadableRun

/-! ## What can be read is counted -/

/-- Disjoint segments that are not empty and ascend end before the next one starts. -/
theorem stop_le_start_of_ascending (hd : m.Disjoint) (hasc : m.Ascending)
    (hfull : ∀ s ∈ m.segments, 0 < s.sectors) :
    m.segments.Pairwise fun s t => s.stop ≤ t.start := by
  refine (List.Pairwise.and hd hasc).imp_of_mem fun {s t} hs ht ⟨hst, hle⟩ => ?_
  refine Nat.le_of_not_lt fun hlt => ?_
  -- otherwise the first address of `t` lies in both
  have hfirst : t.contains t.start = true :=
    Segment.contains_iff.2 ⟨Nat.le_refl _, Segment.start_lt_stop (hfull t ht)⟩
  rw [hst t.start (Segment.contains_iff.2 ⟨hle, hlt⟩)] at hfirst
  cases hfirst

/-- Segments that start later do not count. -/
theorem readableFrom_eq_self (hlt : a + n < addressSpace)
    (hlater : ∀ s ∈ segments, a + n < s.start) : readableFrom a n segments = .ok n := by
  induction segments with
  | nil => rfl
  | cons s rest ih =>
    obtain ⟨hs, hrest⟩ := List.forall_mem_cons.1 hlater
    have hout : s.contains a = false := Segment.contains_eq_false_iff.2 (by omega)
    have hnot : ¬ s.Continues a n := by
      rintro (hc | ⟨-, hc⟩)
      · simp [hout] at hc
      · omega
    rw [readableFrom_cons hlt fun _ => hout, if_neg hnot, ih hrest]

/-- A count of `r` addresses from `a` on, of which `n` were there before these segments, does not end
inside one of them that can be read. -/
def EndsOutside (segments : List Segment) (a n r : Nat) : Prop :=
  n ≤ r ∧ ∀ t ∈ segments, t.access.readable = true → t.contains (a + r) = false

theorem endsOutside_self (hout : ∀ t ∈ segments, t.contains (a + n) = false) :
    EndsOutside segments a n n :=
  ⟨Nat.le_refl n, fun t ht _ => hout t ht⟩

/-- A segment that goes on, before others that all start after it. -/
theorem endsOutside_cons (hlt : a + n < s.stop) (hc : s.Continues a n)
    (hfirst : 0 < n → s.contains a = false) (hnext : ∀ t ∈ rest, s.stop ≤ t.start)
    (hrest : ∀ r, readableFrom a (s.stop - a) rest = .ok r → EndsOutside rest a (s.stop - a) r)
    {r : Nat} (hcount : readableFrom a n (s :: rest) = .ok r) : EndsOutside (s :: rest) a n r := by
  have hstop := s.stop_lt_addressSpace
  rw [readableFrom_cons (by omega) hfirst, if_pos hc] at hcount
  split at hcount
  · obtain ⟨hle, hend⟩ := hrest r hcount
    exact ⟨by omega, List.forall_mem_cons.2
      ⟨fun _ => Segment.contains_eq_false_iff.2 (by omega), hend⟩⟩
  · rename_i hr
    obtain rfl := Except.ok.inj hcount
    refine ⟨Nat.le_refl _, List.forall_mem_cons.2 ⟨fun hr' => absurd hr' hr, fun t ht _ => ?_⟩⟩
    have := hnext t ht
    exact Segment.contains_eq_false_iff.2 (by omega)

section Sorted

variable (hsorted : segments.Pairwise fun s t => s.stop ≤ t.start)
  (hfull : ∀ s ∈ segments, 0 < s.sectors)

include hsorted hfull

/-- Of segments that all lie after the count so far, those that touch it are counted. -/
theorem endsOutside_of_le (hlt : a + n < addressSpace) (hafter : ∀ s ∈ segments, a + n ≤ s.start)
    {r : Nat} (hcount : readableFrom a n segments = .ok r) : EndsOutside segments a n r := by
  induction segments generalizing n r with
  | nil =>
    obtain rfl := Except.ok.inj hcount
    exact endsOutside_self (by simp)
  | cons s rest ih =>
    obtain ⟨hs, -⟩ := List.forall_mem_cons.1 hafter
    obtain ⟨hnext, hsorted⟩ := List.pairwise_cons.1 hsorted
    obtain ⟨hpos, hfull⟩ := List.forall_mem_cons.1 hfull
    have hopen := Segment.start_lt_stop hpos
    have hstop := s.stop_lt_addressSpace
    -- the first segment goes on where the count stands, or it begins later, as do all after it
    by_cases hstart : s.start = a + n
    · have hc : s.Continues a n := by
        rcases Nat.eq_zero_or_pos n with rfl | hn
        · exact .inl (Segment.contains_iff.2 ⟨by omega, by omega⟩)
        · exact .inr ⟨hn, hstart⟩
      refine endsOutside_cons (by omega) hc
        (fun hn => Segment.contains_eq_false_iff.2 (by omega)) hnext
        (fun r hr => ih hsorted hfull (by omega) (fun t ht => ?_) hr) hcount
      have := hnext t ht
      omega
    · have hlater : ∀ t ∈ s :: rest, a + n < t.start := by
        refine List.forall_mem_cons.2 ⟨by omega, fun t ht => ?_⟩
        have := hnext t ht
        omega
      rw [readableFrom_eq_self hlt hlater] at hcount
      obtain rfl := Except.ok.inj hcount
      exact endsOutside_self fun t ht => Segment.contains_eq_false_iff.2 (.inl (hlater t ht))

/-- The pass ends at an address that cannot be read. -/
theorem endsOutside_readableFrom (ha : a < addressSpace) {r : Nat}
    (hcount : readableFrom a 0 segments = .ok r) : EndsOutside segments a 0 r := by
  induction segments with
  | nil =>
    obtain rfl := Except.ok.inj hcount
    exact endsOutside_self (by simp)
  | cons s rest ih =>
    have hall := hsorted
    obtain ⟨hnext, hsorted⟩ := List.pairwise_cons.1 hsorted
    -- segments that end before the address are passed over, since nothing is counted yet
    by_cases hstart : a ≤ s.start
    · refine endsOutside_of_le hall hfull ha (List.forall_mem_cons.2 ⟨hstart, fun t ht => ?_⟩) hcount
      have := hnext t ht
      have := Segment.start_lt_stop (hfull s List.mem_cons_self)
      omega
    obtain ⟨-, hfull⟩ := List.forall_mem_cons.1 hfull
    by_cases hin : s.contains a = true
    · have hbelow := (Segment.contains_iff.1 hin).2
      have hstop := s.stop_lt_addressSpace
      refine endsOutside_cons hbelow (.inl hin) (fun hn => absurd hn (Nat.lt_irrefl 0)) hnext
        (fun r hr => endsOutside_of_le hsorted hfull (by omega) (fun t ht => ?_) hr) hcount
      have := hnext t ht
      omega
    · have hnot : ¬ s.Continues a 0 := fun h => h.elim hin fun hn => Nat.lt_irrefl 0 hn.1
      rw [readableFrom_cons ha fun hn => absurd hn (Nat.lt_irrefl 0), if_neg hnot] at hcount
      rw [Segment.contains_iff] at hin
      obtain ⟨hle, hend⟩ := ih hsorted hfull hcount
      exact ⟨hle, List.forall_mem_cons.2
        ⟨fun _ => Segment.contains_eq_false_iff.2 (by omega), hend⟩⟩

end Sorted

/-! ## The count as a whole -/

/-- There is a count of the bytes that can be read from an address on, if one segment at most offers the
address. Everything that is counted can be read then, and lies below the top of the address space. -/
theorem exists_maxRead (ha : a < addressSpace)
    (honce : m.segments.Pairwise fun s t => ¬ (s.Offers a ∧ t.Offers a)) :
    ∃ n, m.maxRead a = .ok n ∧ m.ReadableRun a n :=
  (readableRun_zero ha).exists_readableFrom honce (fun _ hs => hs) fun hn =>
    absurd hn (Nat.lt_irrefl 0)

/-- Over disjoint segments in any order there is a count; everything that is counted can be read and lies
below the top of the address space. If the segments are listed in ascending order and none of them is
empty, the count goes as far as it can; it is 0 just where nothing can be read. -/
theorem maxRead_readable (hd : m.Disjoint) (ha : a < addressSpace) :
    ∃ n, m.maxRead a = .ok n ∧ a + n < addressSpace ∧ (∀ x, a ≤ x → x < a + n → m.CanRead x) ∧
    (m.Ascending → (∀ s ∈ m.segments, 0 < s.sectors) →
      ¬ m.CanRead (a + n) ∧ (n = 0 ↔ ¬ m.CanRead a)) := by
  have honce : m.segments.Pairwise fun s t => ¬ (s.Offers a ∧ t.Offers a) := by
    refine hd.imp fun {s t} hapart ⟨hs, ht⟩ => ?_
    have hin := ht.1
    rw [hapart a hs.1] at hin
    cases hin
  obtain ⟨n, hn, hrun⟩ := exists_maxRead ha honce
  refine ⟨n, hn, hrun.lt, hrun.canRead, fun hasc hfull => ?_⟩
  have hend : ¬ m.CanRead (a + n) := by
    rintro ⟨t, ht, hin, hr⟩
    have hsorted := stop_le_start_of_ascending hd hasc hfull
    rw [(endsOutside_readableFrom hsorted hfull ha hn).2 t ht hr] at hin
    cases hin
  refine ⟨hend, fun hzero => ?_, fun hno => ?_⟩
  · rwa [hzero] at hend
  · refine Nat.eq_zero_of_not_pos fun hpos => hno (hrun.canRead a (Nat.le_refl _) ?_)
    exact Nat.lt_add_of_pos_right hpos

/-- Two segments that can be read, one after the other, then one that cannot, and one that can. -/
def layered : MemoryMap where
  name := "Layered"
  segments :=
    [⟨0x400, 3, 0x18, .ofBits 7, by decide, by decide, by decide⟩,
      ⟨0x448, 1, 0x38, .ofBits 1, by decide, by decide, by decide⟩,
      ⟨0x480, 1, 0x28, .ofBits 2, by decide, by decide, by decide⟩,
      ⟨0x4a8, 1, 0x48, .ofBits 7, by decide, by decide, by decide⟩]
  segments_ne_nil := nofun

/-- From the middle of the first segment the count goes to the end of the second. -/
theorem maxRead_readable_layered :
    layered.maxRead 0x408 = .ok 0x78 ∧ (∀ x, 0x408 ≤ x → x < 0x480 → layered.CanRead x) ∧
      ¬ layered.CanRead 0x480 := by
  have hcount : layered.maxRead 0x408 = .ok 0x78 := rfl
  have hd : layered.Disjoint := disjoint_of_apart (by decide)
  have hasc : layered.Ascending := by
    unfold Ascending
    decide
  obtain ⟨n, hn, -, hread, hmax⟩ := maxRead_readable (a := 0x408) hd (by decide)
  obtain rfl : 0x78 = n := Except.ok.inj (hcount.symm.trans hn)
  exact ⟨hcount, hread, (hmax hasc (by decide)).1⟩

end MemoryMap
end UsbDfu
