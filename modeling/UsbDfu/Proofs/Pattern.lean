import Mathlib.Data.List.Basic
import UsbDfu.Text.Blank

/-!
# Patterns

Patterns for pieces of text, with the meaning they have where alternatives are tried in order and
the first that leads to a match of the whole pattern wins. `ways` lists all matches where a text
begins, the preferred first; repetitions prefer to take more.

- `read?`: the preferred match, as what it keeps and the rest of the text; `findAll` goes on after
  it, and moves on by one character where there is none.
- `ways_append`: a text that is cut short has just the matches that end before the cut, in the same
  order.
- `read?_many_seq`, `read?_keep_some_seq`, `read?_keep_upTo_seq`: a repetition gives nothing back if
  what follows it cannot begin inside it (`Rejects`).
- `read?_of_append`: the preferred match is the same when the text is cut short after it.
-/

namespace UsbDfu.Text

/-- One match: the pieces it keeps, in order, and the number of characters it takes. -/
structure Match where
  kept : List (List Char)
  length : Nat
  deriving DecidableEq, Repr

namespace Match

/-- One match after another. -/
def andThen (m next : Match) : Match :=
  ⟨m.kept ++ next.kept, m.length + next.length⟩

/-- At most `n` characters, the most first. -/
def atMost : Nat → List Match
  | 0 => [⟨[], 0⟩]
  | n + 1 => ⟨[], n + 1⟩ :: atMost n

end Match

/-- The patterns, as far as the two of the memory map need them. -/
inductive Pattern where
  | empty
  /-- One character of a class. -/
  | char (p : Char → Bool)
  /-- Any number of characters of a class. -/
  | many (p : Char → Bool)
  | atMost (n : Nat) (p : Char → Bool)
  | seq (a b : Pattern)
  /-- The match is kept. -/
  | keep (a : Pattern)
  /-- Once or more often. -/
  | often (a : Pattern)

namespace Pattern

/-- The parts one after another. -/
def all : List Pattern → Pattern
  | [] => empty
  | [a] => a
  | a :: parts => seq a (all parts)

/-- This one character. -/
def lit (c : Char) : Pattern :=
  char (· == c)

/-- The pattern without what it keeps. -/
def plain : Pattern → Pattern
  | empty => empty
  | char p => char p
  | many p => many p
  | atMost n p => atMost n p
  | seq a b => seq a.plain b.plain
  | keep a => a.plain
  | often a => often a.plain

/-- Matches one after another, once or more often. -/
def repeated (ways : List Char → List Match) (cs : List Char) : List Match :=
  (ways cs).flatMap fun m =>
    if _h : (cs.drop m.length).length < cs.length then
      (repeated ways (cs.drop m.length)).map m.andThen ++ [m]
    else [m]
  termination_by cs.length
  decreasing_by exact _h

/-- All matches where the text begins, the preferred first. -/
def ways : Pattern → List Char → List Match
  | empty, _ => [⟨[], 0⟩]
  | char _, [] => []
  | char p, c :: _ => if p c then [⟨[], 1⟩] else []
  | many p, cs => Match.atMost (cs.takeWhile p).length
  | atMost n p, cs => Match.atMost (min n (cs.takeWhile p).length)
  | seq a b, cs => (a.ways cs).flatMap fun m => (b.ways (cs.drop m.length)).map m.andThen
  | keep a, cs => (a.ways cs).map fun m => ⟨cs.take m.length :: m.kept, m.length⟩
  | often a, cs => repeated a.ways cs

/-- What the preferred match keeps, and the rest of the text. -/
def read? (a : Pattern) (cs : List Char) : Option (List (List Char) × List Char) :=
  (a.ways cs).head?.map fun m => (m.kept, cs.drop m.length)

/-- What the matches in a text keep: the leftmost first, and each after the end of the one before. A
match of no characters is passed over. -/
def findAll (a : Pattern) (cs : List Char) : List (List (List Char)) :=
  match cs with
  | [] => []
  | c :: tail =>
    match a.read? (c :: tail) with
    | some (kept, rest) =>
      if rest.length ≤ tail.length then kept :: findAll a rest else findAll a tail
    | none => findAll a tail
  termination_by cs.length

/-! ## Cutting a text short -/

section

variable {p : Char → Bool}

theorem filter_atMost (n k : Nat) :
    (Match.atMost n).filter (·.length ≤ k) = Match.atMost (min n k) := by
  induction n with
  | zero => simp [Match.atMost]
  | succ n ih =>
    rw [Match.atMost]
    by_cases h : n + 1 ≤ k
    · rw [List.filter_cons_of_pos (by simpa using h), ih, show min n k = n by omega,
        show min (n + 1) k = n + 1 by omega, Match.atMost]
    · rw [List.filter_cons_of_neg (by simpa using h), ih, show min (n + 1) k = min n k by omega]

theorem length_takeWhile_append (t r : List Char) :
    (t.takeWhile p).length = min ((t ++ r).takeWhile p).length t.length := by
  induction t with
  | nil => simp
  | cons c t ih =>
    by_cases hc : p c = true
    · simp only [List.cons_append, List.takeWhile_cons_of_pos hc, List.length_cons, ih]
      omega
    · simp [hc]

/-- No match that follows a match beyond the cut ends before the cut. -/
theorem filter_andThen (m : Match) (ms : List Match) (k : Nat) :
    (ms.map m.andThen).filter (·.length ≤ k) =
      if m.length ≤ k then (ms.filter (·.length ≤ k - m.length)).map m.andThen else [] := by
  rw [List.filter_map]
  split
  · rename_i h
    congr 1
    refine List.filter_congr fun next _ => decide_eq_decide.2 ?_
    show m.length + next.length ≤ k ↔ next.length ≤ k - m.length
    omega
  · rename_i h
    rw [List.map_eq_nil_iff, List.filter_eq_nil_iff]
    intro next _
    show ¬ decide (m.length + next.length ≤ k) = true
    rw [decide_eq_true_eq]
    omega

/-- A list made of groups, only some of which have members that pass. -/
theorem filter_flatMap_eq {ms : List Match} {f g : Match → List Match} {k : Nat}
    (hle : ∀ m, m.length ≤ k → (f m).filter (·.length ≤ k) = g m)
    (hgt : ∀ m, ¬ m.length ≤ k → (f m).filter (·.length ≤ k) = []) :
    (ms.flatMap f).filter (·.length ≤ k) = (ms.filter (·.length ≤ k)).flatMap g := by
  induction ms with
  | nil => rfl
  | cons m ms ih =>
    rw [List.flatMap_cons, List.filter_append, ih]
    by_cases hm : m.length ≤ k
    · rw [hle m hm, List.filter_cons_of_pos (by simpa using hm), List.flatMap_cons]
    · rw [hgt m hm, List.filter_cons_of_neg (by simpa using hm), List.nil_append]

theorem repeated_append {ways : List Char → List Match} {r : List Char}
    (h : ∀ t, (ways (t ++ r)).filter (·.length ≤ t.length) = ways t) (t : List Char) :
    (repeated ways (t ++ r)).filter (·.length ≤ t.length) = repeated ways t := by
  induction hn : t.length using Nat.strongRecOn generalizing t with
  | ind n ih =>
    subst hn
    rw [repeated, repeated.eq_def ways t, ← h t]
    -- A first match within the cut leaves a shorter text, cut at the same place.
    refine filter_flatMap_eq (fun m hm => ?_) fun m hm => ?_
    · have hdrop : (t ++ r).drop m.length = t.drop m.length ++ r := List.drop_append_of_le_length hm
      have hlength : (t.drop m.length).length = t.length - m.length := List.length_drop
      have hself : [m].filter (·.length ≤ t.length) = [m] := by simp [hm]
      by_cases hpos : 0 < m.length
      · rw [dif_pos (by simp only [List.length_drop, List.length_append]; omega),
          dif_pos (by omega), List.filter_append, hself, filter_andThen, if_pos hm, hdrop, ← hlength,
          ih _ (by omega) _ rfl]
      · rw [dif_neg (by simp only [List.length_drop]; omega), dif_neg (by omega), hself]
    · have hself : [m].filter (·.length ≤ t.length) = [] := by simp; omega
      split
      · rw [List.filter_append, filter_andThen, if_neg hm, hself, List.append_nil]
      · exact hself

/-- A text that is cut short has just the matches that end before the cut. -/
theorem ways_append (a : Pattern) (t r : List Char) :
    (a.ways (t ++ r)).filter (·.length ≤ t.length) = a.ways t := by
  -- on the pattern; the cut only matters to a part that can go on over it
  induction a generalizing t with
  | empty => simp [ways]
  | char p =>
    cases t with
    | nil =>
      cases r with
      | nil => rfl
      | cons c r =>
        simp only [List.nil_append, ways]
        split <;> simp
    | cons c t =>
      simp only [List.cons_append, ways]
      split <;> simp
  | many p => rw [ways, ways, filter_atMost, length_takeWhile_append t r]
  | atMost n p => rw [ways, ways, filter_atMost, length_takeWhile_append t r, Nat.min_assoc]
  | seq a b iha ihb =>
    rw [ways, ways, ← iha t]
    refine filter_flatMap_eq (fun m hm => ?_) fun m hm => ?_
    · have hlength : (t.drop m.length).length = t.length - m.length := List.length_drop
      rw [filter_andThen, if_pos hm, List.drop_append_of_le_length hm, ← hlength, ihb]
    · rw [filter_andThen, if_neg hm]
  | keep a ih =>
    rw [ways, ways, ← ih t, List.filter_map]
    refine List.map_congr_left fun m hm => ?_
    have hle : m.length ≤ t.length := by simpa using (List.mem_filter.1 hm).2
    rw [List.take_append_of_le_length hle]
  | often a ih => exact repeated_append ih t

end

theorem length_le_of_mem_ways {a : Pattern} {cs : List Char} {m : Match} (h : m ∈ a.ways cs) :
    m.length ≤ cs.length := by
  rw [← a.ways_append cs []] at h
  simpa using (List.mem_filter.1 h).2

/-- A match that ends before the cut is still the preferred one. -/
theorem head?_ways_of_append {a : Pattern} {t r : List Char} {m : Match}
    (h : (a.ways (t ++ r)).head? = some m) (hm : m.length ≤ t.length) :
    (a.ways t).head? = some m := by
  obtain ⟨ms, hms⟩ := List.head?_eq_some_iff.1 h
  rw [← a.ways_append t r, hms, List.filter_cons_of_pos (by simpa using hm), List.head?_cons]

/-! ## Keeping nothing -/

theorem map_forget_atMost (n : Nat) :
    (Match.atMost n).map (fun m => (⟨[], m.length⟩ : Match)) = Match.atMost n := by
  induction n with
  | zero => rfl
  | succ n ih => rw [Match.atMost, List.map_cons, ih]

theorem repeated_forget {ways ways' : List Char → List Match}
    (h : ∀ cs, ways' cs = (ways cs).map fun m => ⟨[], m.length⟩) (cs : List Char) :
    repeated ways' cs = (repeated ways cs).map fun m => ⟨[], m.length⟩ := by
  induction hn : cs.length using Nat.strongRecOn generalizing cs with
  | ind n ih =>
    subst hn
    rw [repeated, repeated.eq_def ways cs, h, List.flatMap_map, List.map_flatMap]
    refine List.flatMap_congr fun m _ => ?_
    by_cases hm : (cs.drop m.length).length < cs.length
    · rw [dif_pos hm, dif_pos hm, ih _ hm _ rfl, List.map_append, List.map_map, List.map_map]
      rfl
    · rw [dif_neg hm, dif_neg hm]
      rfl

/-- What is kept does not change what matches. -/
theorem ways_plain (a : Pattern) (cs : List Char) :
    a.plain.ways cs = (a.ways cs).map fun m => ⟨[], m.length⟩ := by
  induction a generalizing cs with
  | empty => rfl
  | char p =>
    cases cs with
    | nil => rfl
    | cons c cs =>
      simp only [plain, ways]
      split <;> rfl
  | many p => exact (map_forget_atMost _).symm
  | atMost n p => exact (map_forget_atMost _).symm
  | seq a b iha ihb =>
    simp only [plain, ways, iha, ihb, List.flatMap_map, List.map_flatMap, List.map_map]
    rfl
  | keep a ih => simp only [plain, ways, ih, List.map_map, Function.comp_def]
  | often a ih => exact repeated_forget ih cs

/-! ## Reading parts one after another -/

/-- The pattern does not match where a character of the class comes first. -/
def Rejects (a : Pattern) (p : Char → Bool) : Prop :=
  ∀ c cs, p c = true → a.ways (c :: cs) = []

/-- The pattern matches everywhere, if only nothing. -/
def Total (a : Pattern) : Prop :=
  ∀ cs, a.ways cs ≠ []

section

variable {a b : Pattern} {p q : Char → Bool} {cs rest : List Char} {c : Char}

theorem rejects_char (h : ∀ c, p c = true → q c = false) : (char q).Rejects p := by
  intro c cs hc
  simp [ways, h c hc]

theorem Rejects.seq (h : a.Rejects p) : (Pattern.seq a b).Rejects p := by
  intro c cs hc
  rw [ways, h c cs hc, List.flatMap_nil]

theorem Rejects.keep (h : a.Rejects p) : (Pattern.keep a).Rejects p := by
  intro c cs hc
  rw [ways, h c cs hc, List.map_nil]

theorem ways_seq_of_eq_zero (h : a.ways cs = [⟨[], 0⟩]) : (seq a b).ways cs = b.ways cs := by
  rw [ways, h, List.flatMap_singleton, List.drop_zero]
  exact (List.map_congr_left fun m _ => by simp [Match.andThen]).trans (List.map_id _)

/-- What cannot begin in the class cannot do so after a repetition of others either. -/
theorem Rejects.many_seq (h : b.Rejects p) (hq : ∀ c, p c = true → q c = false) :
    (Pattern.seq (many q) b).Rejects p := by
  intro c cs hc
  have hmany : (many q).ways (c :: cs) = [⟨[], 0⟩] := by simp [ways, hq c hc, Match.atMost]
  rw [ways_seq_of_eq_zero hmany, h c cs hc]

theorem Rejects.atMost_seq {n : Nat} (h : b.Rejects p) (hq : ∀ c, p c = true → q c = false) :
    (Pattern.seq (atMost n q) b).Rejects p := by
  intro c cs hc
  have hmany : (atMost n q).ways (c :: cs) = [⟨[], 0⟩] := by simp [ways, hq c hc, Match.atMost]
  rw [ways_seq_of_eq_zero hmany, h c cs hc]

theorem drop_length_takeWhile : cs.drop (cs.takeWhile p).length = cs.dropWhile p := by
  have hsplit : cs.takeWhile p ++ cs.dropWhile p = cs := List.takeWhile_append_dropWhile
  calc cs.drop (cs.takeWhile p).length
    _ = (cs.takeWhile p ++ cs.dropWhile p).drop (cs.takeWhile p).length := by rw [hsplit]
    _ = cs.dropWhile p := List.drop_left

theorem take_length_takeWhile : cs.take (cs.takeWhile p).length = cs.takeWhile p := by
  have hsplit : cs.takeWhile p ++ cs.dropWhile p = cs := List.takeWhile_append_dropWhile
  calc cs.take (cs.takeWhile p).length
    _ = (cs.takeWhile p ++ cs.dropWhile p).take (cs.takeWhile p).length := by rw [hsplit]
    _ = cs.takeWhile p := List.take_left

/-- What is rejected does not match inside a repetition. -/
theorem Rejects.ways_drop (h : b.Rejects p) {n : Nat} (hn : n < (cs.takeWhile p).length) :
    b.ways (cs.drop n) = [] := by
  induction cs generalizing n with
  | nil => cases hn
  | cons c cs ih =>
    by_cases hc : p c = true
    · cases n with
      | zero => exact h c cs hc
      | succ n =>
        rw [List.takeWhile_cons_of_pos hc] at hn
        exact ih (Nat.lt_of_succ_lt_succ hn)
    · rw [List.takeWhile_cons_of_neg hc] at hn
      cases hn

theorem map_keep_nil (r : Option (List (List Char) × List Char)) :
    r.map (Prod.map ([] ++ ·) id) = r := by
  cases r <;> rfl

/-- No match of the first part leads to a match of the second. -/
theorem read?_seq_eq_none (h : ∀ m ∈ a.ways cs, b.ways (cs.drop m.length) = []) :
    (seq a b).read? cs = none := by
  have hnil : (seq a b).ways cs = [] :=
    List.flatMap_eq_nil_iff.2 fun m hm => by rw [h m hm, List.map_nil]
  rw [read?, hnil]
  rfl

theorem head?_map_andThen (cs : List Char) (m : Match) (ms : List Match) :
    ((ms.map m.andThen).head?.map fun m' => (m'.kept, cs.drop m'.length)) =
      (ms.head?.map fun m' => (m'.kept, (cs.drop m.length).drop m'.length)).map
        (Prod.map (m.kept ++ ·) id) := by
  cases ms with
  | nil => rfl
  | cons m' ms => simp [Match.andThen, List.drop_drop]

/-- Only the preferred match of the first part leads to a match of the second. -/
theorem read?_seq_of_cons {m : Match} {ms : List Match} (h : a.ways cs = m :: ms)
    (hms : ∀ m' ∈ ms, b.ways (cs.drop m'.length) = []) :
    (seq a b).read? cs = (b.read? (cs.drop m.length)).map (Prod.map (m.kept ++ ·) id) := by
  have hrest : (ms.flatMap fun m' => (b.ways (cs.drop m'.length)).map m'.andThen) = [] :=
    List.flatMap_eq_nil_iff.2 fun m' hm' => by rw [hms m' hm', List.map_nil]
  rw [read?, ways, h, List.flatMap_cons, hrest, List.append_nil, head?_map_andThen]
  rfl

/-- The second part matches wherever the first one ends. -/
theorem read?_seq_of_total (h : b.Total) : (seq a b).read? cs =
    (a.read? cs).bind fun r => (b.read? r.2).map (Prod.map (r.1 ++ ·) id) := by
  rw [read?, ways, read?]
  cases a.ways cs with
  | nil => rfl
  | cons m ms =>
    obtain ⟨m', ms', hb⟩ := List.exists_cons_of_ne_nil (h (cs.drop m.length))
    have hhead := head?_map_andThen cs m (b.ways (cs.drop m.length))
    rw [hb] at hhead
    rw [List.flatMap_cons, hb]
    exact hhead.trans (by simp [read?, hb])

theorem exists_atMost_eq_cons (n : Nat) :
    ∃ ms, Match.atMost n = ⟨[], n⟩ :: ms ∧ ∀ m ∈ ms, m.length < n := by
  induction n with
  | zero => exact ⟨[], rfl, nofun⟩
  | succ n ih =>
    obtain ⟨ms, hms, hlt⟩ := ih
    refine ⟨Match.atMost n, rfl, fun m hm => ?_⟩
    rw [hms, List.mem_cons] at hm
    rcases hm with rfl | hm
    · exact Nat.lt_succ_self n
    · exact Nat.lt_succ_of_lt (hlt m hm)

theorem total_many : (many p).Total := by
  intro cs
  obtain ⟨ms, hms, -⟩ := exists_atMost_eq_cons (cs.takeWhile p).length
  rw [ways, hms]
  exact List.cons_ne_nil _ _

theorem total_atMost {n : Nat} : (atMost n p).Total := by
  intro cs
  obtain ⟨ms, hms, -⟩ := exists_atMost_eq_cons (min n (cs.takeWhile p).length)
  rw [ways, hms]
  exact List.cons_ne_nil _ _

theorem Total.seq (ha : a.Total) (hb : b.Total) : (Pattern.seq a b).Total := by
  intro cs
  obtain ⟨m, ms, h⟩ := List.exists_cons_of_ne_nil (ha cs)
  rw [ways, h, List.flatMap_cons]
  exact List.append_ne_nil_of_left_ne_nil (by simpa using hb _) _

theorem read?_many : (many p).read? cs = some ([], cs.dropWhile p) := by
  obtain ⟨ms, hms, -⟩ := exists_atMost_eq_cons (cs.takeWhile p).length
  rw [read?, ways, hms, List.head?_cons, Option.map_some, drop_length_takeWhile]

theorem read?_many_seq_of_total (h : b.Total) :
    (seq (many p) b).read? cs = b.read? (cs.dropWhile p) := by
  rw [read?_seq_of_total h, read?_many, Option.bind_some]
  exact map_keep_nil _

/-- A repetition gives nothing back to what cannot begin inside it. -/
theorem read?_many_seq (h : b.Rejects p) : (seq (many p) b).read? cs = b.read? (cs.dropWhile p) := by
  obtain ⟨ms, hms, hlt⟩ := exists_atMost_eq_cons (cs.takeWhile p).length
  rw [read?_seq_of_cons (a := many p) hms fun m hm => h.ways_drop (hlt m hm), map_keep_nil,
    drop_length_takeWhile]

theorem read?_char_seq_cons :
    (seq (char p) b).read? (c :: cs) = if p c then b.read? cs else none := by
  split
  · rename_i hc
    have hways : (char p).ways (c :: cs) = [⟨[], 1⟩] := by simp [ways, hc]
    rw [read?_seq_of_cons hways nofun]
    exact map_keep_nil _
  · rename_i hc
    exact read?_seq_eq_none (by simp [ways, hc])

theorem read?_lit_cons : (seq (lit c) b).read? (c :: cs) = b.read? cs := by
  rw [lit, read?_char_seq_cons, if_pos (beq_self_eq_true c)]

theorem read?_lit_eq_none (h : ∀ rest, cs = c :: rest → False) : (seq (lit c) b).read? cs = none := by
  cases cs with
  | nil => rfl
  | cons d rest =>
    rw [lit, read?_char_seq_cons, if_neg]
    rw [beq_iff_eq]
    rintro rfl
    exact h rest rfl

theorem read?_keep_char_seq_cons : (seq (keep (char p)) b).read? (c :: cs) =
    if p c then (b.read? cs).map (Prod.map ([c] :: ·) id) else none := by
  split
  · rename_i hc
    have hways : (keep (char p)).ways (c :: cs) = [⟨[[c]], 1⟩] := by simp [ways, hc]
    rw [read?_seq_of_cons hways nofun]
    rfl
  · rename_i hc
    exact read?_seq_eq_none (by simp [ways, hc])

theorem read?_optional_seq_nil : (seq (atMost 1 p) b).read? [] = b.read? [] := by
  rw [read?, ways_seq_of_eq_zero rfl]
  rfl

theorem read?_optional_seq_cons : (seq (atMost 1 p) b).read? (c :: cs) =
    if p c then (b.read? cs).or (b.read? (c :: cs)) else b.read? (c :: cs) := by
  split
  · rename_i hc
    have hways : (atMost 1 p).ways (c :: cs) = [⟨[], 1⟩, ⟨[], 0⟩] := by
      simp [ways, hc, Match.atMost]
    have hzero := head?_map_andThen (c :: cs) ⟨[], 0⟩ (b.ways (c :: cs))
    have hone := head?_map_andThen (c :: cs) ⟨[], 1⟩ (b.ways cs)
    rw [map_keep_nil] at hzero hone
    rw [read?, ways, hways, List.flatMap_cons, List.flatMap_singleton, List.head?_append,
      Option.map_or]
    exact congrArg₂ Option.or hone hzero
  · rename_i hc
    rw [read?, ways_seq_of_eq_zero (by simp [ways, hc, Match.atMost])]
    rfl

theorem ways_keep_char_seq {rep : Pattern} {k : Nat} (hc : p c = true)
    (hrep : rep.ways cs = Match.atMost k) :
    ∃ ms, (keep (seq (char p) rep)).ways (c :: cs) = ⟨[(c :: cs).take (1 + k)], 1 + k⟩ :: ms ∧
      ∀ m ∈ ms, m.length < 1 + k := by
  obtain ⟨ms, hms, hlt⟩ := exists_atMost_eq_cons k
  have hchar : (char p).ways (c :: cs) = [⟨[], 1⟩] := by simp [ways, hc]
  have hseq : (seq (char p) rep).ways (c :: cs) = (rep.ways cs).map (Match.andThen ⟨[], 1⟩) := by
    rw [ways, hchar, List.flatMap_singleton]
    rfl
  rw [ways, hseq, hrep, hms]
  refine ⟨_, rfl, fun m hm => ?_⟩
  simp only [List.map_map, List.mem_map, Function.comp] at hm
  obtain ⟨m', hm', rfl⟩ := hm
  exact Nat.add_lt_add_left (hlt m' hm') 1

/-- A class character and as many more as a bound allows, kept: what follows cannot begin inside
them, so the bound has to allow all that there are. -/
theorem read?_keep_char_seq {rep : Pattern} {k : Nat} (h : b.Rejects p) (hc : p c = true)
    (hrep : rep.ways cs = Match.atMost k) (hk : k ≤ (cs.takeWhile p).length) :
    (seq (keep (seq (char p) rep)) b).read? (c :: cs) =
      if k < (cs.takeWhile p).length then none
      else (b.read? ((c :: cs).dropWhile p)).map (Prod.map ((c :: cs).takeWhile p :: ·) id) := by
  obtain ⟨ms, hms, hlt⟩ := ways_keep_char_seq hc hrep
  have hlength : ((c :: cs).takeWhile p).length = 1 + (cs.takeWhile p).length := by
    rw [List.takeWhile_cons_of_pos hc, List.length_cons, Nat.add_comm]
  split
  · rename_i hshort
    refine read?_seq_eq_none fun m hm => h.ways_drop ?_
    rw [hms, List.mem_cons] at hm
    rcases hm with rfl | hm
    · show 1 + k < _
      omega
    · have := hlt m hm
      omega
  · obtain rfl : k = (cs.takeWhile p).length := by omega
    rw [read?_seq_of_cons hms fun m hm => h.ways_drop (by rw [hlength]; exact hlt m hm), ← hlength,
      drop_length_takeWhile, take_length_takeWhile]
    rfl

/-- One character or more, kept. -/
theorem read?_keep_some_seq (h : b.Rejects p) : (seq (keep (seq (char p) (many p))) b).read? cs =
    if cs.takeWhile p = [] then none
    else (b.read? (cs.dropWhile p)).map (Prod.map (cs.takeWhile p :: ·) id) := by
  cases cs with
  | nil => rfl
  | cons c cs =>
    by_cases hc : p c = true
    · rw [read?_keep_char_seq h hc rfl (Nat.le_refl _), if_neg (Nat.lt_irrefl _),
        if_neg (by simp [hc])]
    · rw [if_pos (by simp [hc])]
      exact read?_seq_eq_none (by simp [ways, hc])

/-- One to `n + 1` characters, kept. -/
theorem read?_keep_upTo_seq {n : Nat} (h : b.Rejects p) :
    (seq (keep (seq (char p) (atMost n p))) b).read? cs =
      if cs.takeWhile p = [] ∨ n + 1 < (cs.takeWhile p).length then none
      else (b.read? (cs.dropWhile p)).map (Prod.map (cs.takeWhile p :: ·) id) := by
  cases cs with
  | nil => rfl
  | cons c cs =>
    by_cases hc : p c = true
    · rw [read?_keep_char_seq h hc rfl (Nat.min_le_right _ _)]
      refine if_congr ?_ rfl rfl
      simp only [List.takeWhile_cons_of_pos hc, List.length_cons, reduceCtorEq, false_or]
      omega
    · rw [if_pos (.inl (by simp [hc]))]
      exact read?_seq_eq_none (by simp [ways, hc])

theorem read?_often : (often a).read? cs = (a.read? cs).bind fun r =>
    if r.2.length < cs.length then
      (((often a).read? r.2).map (Prod.map (r.1 ++ ·) id)).or (some r)
    else some r := by
  rw [read?, read?, ways, repeated]
  cases a.ways cs with
  | nil => rfl
  | cons m ms =>
    simp only [List.flatMap_cons, List.head?_cons, Option.map_some, Option.bind_some]
    split
    · rw [List.append_assoc, List.head?_append, Option.map_or, head?_map_andThen]
      rfl
    · rfl

/-! ## Reading and searching -/

theorem read?_plain : a.plain.read? cs = (a.read? cs).map fun r => ([], r.2) := by
  rw [read?, ways_plain, List.head?_map, Option.map_map, read?, Option.map_map]
  rfl

theorem suffix_of_read? {kept : List (List Char)} (h : a.read? cs = some (kept, rest)) :
    rest <:+ cs := by
  obtain ⟨m, -, h⟩ := Option.map_eq_some_iff.1 h
  cases h
  exact List.drop_suffix _ _

theorem read?_keep_eq_none (h : a.read? cs = none) : (keep a).read? cs = none := by
  rw [read?, ways, List.head?_map, Option.map_eq_none_iff.1 h]
  rfl

theorem read?_keep_eq_some {kept : List (List Char)} (h : a.read? cs = some (kept, rest)) :
    ∃ taken, cs = taken ++ rest ∧ (keep a).read? cs = some (taken :: kept, rest) := by
  obtain ⟨m, hm, h⟩ := Option.map_eq_some_iff.1 h
  cases h
  refine ⟨cs.take m.length, (List.take_append_drop _ _).symm, ?_⟩
  rw [read?, ways, List.head?_map, hm]
  rfl

/-- A match is the same when the text is cut short after it. -/
theorem read?_of_append {t r : List Char} {kept : List (List Char)}
    (h : a.read? (t ++ r) = some (kept, rest ++ r)) : a.read? t = some (kept, rest) := by
  obtain ⟨m, hm, h⟩ := Option.map_eq_some_iff.1 h
  obtain ⟨rfl, hdrop⟩ := Prod.mk.inj h
  have hle := length_le_of_mem_ways (List.mem_of_mem_head? hm)
  have hlength := congrArg List.length hdrop
  simp only [List.length_drop, List.length_append] at hle hlength
  have hcut : m.length ≤ t.length := by omega
  rw [List.drop_append_of_le_length hcut] at hdrop
  rw [read?, head?_ways_of_append hm hcut, ← List.append_cancel_right hdrop]
  rfl

theorem findAll_of_read? {kept : List (List Char)} (h : a.read? cs = some (kept, rest))
    (hlt : rest.length < cs.length) : a.findAll cs = kept :: a.findAll rest := by
  cases cs with
  | nil => cases hlt
  | cons c cs =>
    rw [findAll, h]
    exact if_pos (Nat.le_of_lt_succ hlt)

theorem findAll_cons_of_none (h : a.read? (c :: cs) = none) : a.findAll (c :: cs) = a.findAll cs := by
  rw [findAll, h]

/-- No match begins with what the pattern rejects. -/
theorem Rejects.findAll_dropWhile (h : a.Rejects p) : a.findAll (cs.dropWhile p) = a.findAll cs := by
  induction cs with
  | nil => rfl
  | cons c cs ih =>
    by_cases hc : p c = true
    · rw [List.dropWhile_cons_of_pos hc, ih, findAll_cons_of_none (by rw [read?, h c cs hc]; rfl)]
    · rw [List.dropWhile_cons_of_neg hc]

end

end Pattern
end UsbDfu.Text
