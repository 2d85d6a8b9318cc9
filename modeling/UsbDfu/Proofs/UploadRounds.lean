import Mathlib.Algebra.Ring.Nat
import UsbDfu.Proofs.BusySafety
import UsbDfu.Proofs.History

/-!
# The rounds of an upload

An upload asks for one block after another. A device may answer with as many bytes as it likes, so two
things can end the rounds: an answer shorter than was asked for, and a limit that is reached.

- `collected ws`, `answers ws`: how many bytes the calls `ws` brought, and which.
- `transacts_uploadFrom`: one round; `nextLength_of_goes_on`: a round that another one follows brought a
  whole block.
- `AsksNext size limit first before w`: the call `w` asks for the block that comes next after the
  calls `before`. All of these brought whole blocks, so what is left of the limit is not negative.
- `EndsRead limit before w`: nothing is asked for after `w`. `GoesOn limit ws`: no call of `ws` is
  like that.
- `Collects limit patience ws o`: how rounds with the calls `ws` end. Without a limit the host may
  give up; `Collects.eq_exhausted_iff` says that it does so exactly after `patience` blocks after
  which the read goes on.
- `rounds_uploadFrom`: by induction on the rounds, every call asks for the next block, and the read
  goes on after every call but the last one.
-/

namespace UsbDfu

open Dialogue

/-! ## Bytes that were brought -/

/-- How many bytes the call brought: of the answer to an UPLOAD no more than were asked for. -/
def Transaction.brought : Transaction → Nat
  | .upload _ length (.ok data) => min data.length length.toNat
  | _ => 0

theorem Transaction.brought_upload {size : Nat} (hsize : size < 2 ^ 16) (block : UInt16)
    (data : Bytes) :
    (upload block (UInt16.ofNat size) (.ok data)).brought = (data.take size).length := by
  have hlength : (UInt16.ofNat size).toNat = size := UInt16.toNat_ofNat_of_lt hsize
  rw [brought, hlength, List.length_take, Nat.min_comm]

/-- How many bytes these calls brought together. -/
def collected (ws : List Transaction) : Nat :=
  (ws.map Transaction.brought).sum

@[simp] theorem collected_nil : collected [] = 0 := rfl

@[simp] theorem collected_cons (w : Transaction) (ws : List Transaction) :
    collected (w :: ws) = w.brought + collected ws :=
  List.sum_cons

@[simp] theorem collected_append (ws ws' : List Transaction) :
    collected (ws ++ ws') = collected ws + collected ws' := by
  simp [collected]

theorem collected_eq_zero {ws : List Transaction} (h : ∀ w ∈ ws, w.isUpload = false) :
    collected ws = 0 := by
  induction ws with
  | nil => rfl
  | cons w ws ih =>
    rw [List.forall_mem_cons] at h
    rw [collected_cons, ih h.2]
    cases w with
    | upload => cases h.1
    | _ => rfl

/-- The bytes that the call brought: of the answer to an UPLOAD no more than were asked for. -/
def Transaction.answer : Transaction → Bytes
  | .upload _ length (.ok got) => got.take length.toNat
  | _ => []

/-- The bytes that these calls brought, in order. -/
def answers (ws : List Transaction) : Bytes :=
  ws.flatMap Transaction.answer

@[simp] theorem answers_nil : answers [] = [] := rfl

@[simp] theorem answers_append (ws ws' : List Transaction) :
    answers (ws ++ ws') = answers ws ++ answers ws' :=
  List.flatMap_append

theorem length_answer (w : Transaction) : w.answer.length = w.brought := by
  cases w with
  | upload block length reply =>
    cases reply with
    | error e => rfl
    | ok got => rw [Transaction.answer, Transaction.brought, List.length_take, Nat.min_comm]
  | _ => rfl

theorem length_answers (ws : List Transaction) : (answers ws).length = collected ws := by
  induction ws with
  | nil => rfl
  | cons w ws ih =>
    rw [collected_cons, ← ih, ← length_answer]
    exact List.length_append

/-! ## One round -/

section Round

variable {c : Connection} {size rounds : Nat} {limit : Option Nat} {block : UInt16} {data : Bytes}
  {ws : List Transaction} {o : Outcome Failure Bytes}

theorem nextLength_le (size collected : Nat) (limit : Option Nat) :
    Connection.nextLength size collected limit ≤ size := by
  unfold Connection.nextLength
  split
  · exact Nat.min_le_right _ _
  · exact Nat.le_refl _

/-- The upload ends with this answer. -/
def EndsUpload (size : Nat) (limit : Option Nat) (data got : Bytes) : Bool :=
  let wanted := Connection.nextLength size data.length limit
  got.length < wanted || limit.any (· ≤ (data ++ got.take wanted).length)

/-- One round: a block is asked for. That may fail; or its answer ends the upload; or the next round
begins with what it brought. -/
theorem transacts_uploadFrom
    (h : Transacts (c.uploadFrom size limit (rounds + 1) block data) ws o) :
    ∃ reply rest, ws =
        .upload block (UInt16.ofNat (Connection.nextLength size data.length limit)) reply :: rest ∧
      match reply with
      | .error e => rest = [] ∧ o = .failed (.transport e)
      | .ok got =>
        let data' := data ++ got.take (Connection.nextLength size data.length limit)
        if EndsUpload size limit data got then rest = [] ∧ o = .done data'
        else Transacts (c.uploadFrom size limit rounds (block + 1) data') rest o := by
  obtain ⟨_, called, rest, h₁, h₂, rfl⟩ := transacts_bind_iff.1 h
  obtain ⟨reply, rfl, rfl⟩ := transacts_upload h₁
  refine ⟨reply, rest, rfl, ?_⟩
  cases reply with
  | error e => exact transacts_fail_iff.1 h₂
  | ok got =>
    have h₃ : Transacts (if EndsUpload size limit data got then pure _ else _) rest o :=
      transacts_progress_bind.1 (transacts_say_bind.1 h₂)
    dsimp only
    split
    · rename_i hends
      rw [if_pos hends] at h₃
      exact transacts_done_iff.1 h₃
    · rename_i hgoes
      rwa [if_neg hgoes] at h₃

/-- An answer that does not end the upload is a whole block. -/
theorem nextLength_of_goes_on {got : Bytes} (h : ¬ EndsUpload size limit data got) :
    Connection.nextLength size data.length limit = size ∧ size ≤ got.length := by
  simp only [EndsUpload, Bool.or_eq_true, decide_eq_true_eq, not_or, Nat.not_lt] at h
  obtain ⟨hfull, hlimit⟩ := h
  cases limit with
  | none => exact ⟨rfl, hfull⟩
  | some m =>
    simp only [Option.any_some, decide_eq_true_eq, List.length_append, List.length_take,
      Nat.not_le, Connection.nextLength] at hlimit hfull ⊢
    omega

end Round

/-! ## Rounds -/

/-- The call asks for the block that comes next after these ones. Its number counts them modulo
65536. All of them brought whole blocks, and together less than the limit. It asks for a whole block,
or for what is left of the limit if that is less. -/
def AsksNext (size : Nat) (limit : Option Nat) (first : UInt16) (before : List Transaction) :
    Transaction → Prop
  | .upload block length _ =>
    block.toNat = (first.toNat + before.length) % 2 ^ 16 ∧
      collected before = before.length * size ∧
      (limit = none → length.toNat = size) ∧
      ∀ m, limit = some m → collected before < m ∧ length.toNat = min size (m - collected before)
  | _ => False

/-- The call ends the read that has made these calls before it: it failed, its answer is shorter than
was asked for, or it brought the last byte wanted. -/
def EndsRead (limit : Option Nat) (before : List Transaction) : Transaction → Prop
  | .upload _ length (.ok got) =>
    got.length < length.toNat ∨ limit = some (collected before + length.toNat)
  | _ => True

/-- After each of these calls the read goes on. -/
def GoesOn (limit : Option Nat) (ws : List Transaction) : Prop :=
  EachAfter (fun before w => ¬ EndsRead limit before w) [] ws

/-- How the rounds of a read end, with all the calls that they made. None are made where nothing is
wanted. Else the read went on after every call but the last one. That has failed, and its failure is
the end; or it was answered in a way that ends the read, and the bytes of all answers are there. Or
the read went on after this one too: there is no limit, and as many whole blocks were brought as the
host has patience for. -/
inductive Collects (limit : Option Nat) (patience : Nat) :
    List Transaction → Outcome Failure Bytes → Prop where
  | nothing (hlimit : limit = some 0) : Collects limit patience [] (.done [])
  | failed {before : List Transaction} (hgoes : GoesOn limit before) (block length : UInt16)
      (e : TransportError) :
      Collects limit patience (before ++ [.upload block length (.error e)]) (.failed (.transport e))
  | finished {before : List Transaction} (hgoes : GoesOn limit before) {block length : UInt16}
      {got : Bytes} (hends : EndsRead limit before (.upload block length (.ok got))) :
      Collects limit patience (before ++ [.upload block length (.ok got)])
        (.done (answers (before ++ [.upload block length (.ok got)])))
  | exhausted {ws : List Transaction} (hlimit : limit = none) (hgoes : GoesOn limit ws)
      (hlength : ws.length = patience) : Collects limit patience ws .exhausted

/-- The call that the program makes after these ones. -/
def nextUpload (size : Nat) (limit : Option Nat) (first : UInt16) (before : List Transaction)
    (reply : Except TransportError Bytes) : Transaction :=
  .upload (first + UInt16.ofNat before.length)
    (UInt16.ofNat (Connection.nextLength size (collected before) limit)) reply

section Rounds

variable {c : Connection} {size rounds patience : Nat} {limit : Option Nat} {first : UInt16}
  {before ws : List Transaction} {got : Bytes} {o : Outcome Failure Bytes}

theorem ofNat_add_one (block : UInt16) (k : Nat) :
    block + UInt16.ofNat k + 1 = block + UInt16.ofNat (k + 1) := by
  rw [UInt16.ofNat_add, UInt16.add_assoc]
  rfl

theorem toNat_nextLength (hlt : size < 2 ^ 16) :
    (UInt16.ofNat (Connection.nextLength size (collected before) limit)).toNat =
      Connection.nextLength size (collected before) limit :=
  UInt16.toNat_ofNat_of_lt (Nat.lt_of_le_of_lt (nextLength_le _ _ _) hlt)

theorem asksNext_nextUpload (first : UInt16) (hlt : size < 2 ^ 16)
    (hwhole : collected before = before.length * size)
    (hbelow : ∀ m, limit = some m → collected before < m) (reply : Except TransportError Bytes) :
    AsksNext size limit first before (nextUpload size limit first before reply) := by
  refine ⟨by simp, hwhole, ?_, ?_⟩
  · rintro rfl
    rw [toNat_nextLength hlt]
    rfl
  · rintro m rfl
    rw [toNat_nextLength hlt]
    exact ⟨hbelow m rfl, Nat.min_comm _ _⟩

/-- The program's own test, of the bytes collected so far. -/
theorem endsUpload_iff (hlt : size < 2 ^ 16)
    (hbelow : ∀ m, limit = some m → collected before < m) :
    EndsUpload size limit (answers before) got = true ↔
      EndsRead limit before (nextUpload size limit first before (.ok got)) := by
  rw [nextUpload, EndsRead, toNat_nextLength hlt, EndsUpload, length_answers, Bool.or_eq_true,
    decide_eq_true_iff]
  cases limit with
  | none => simp
  | some m =>
    have hm := hbelow m rfl
    simp only [Option.any_some, decide_eq_true_eq, List.length_append, length_answers,
      List.length_take, Connection.nextLength, Option.some.injEq]
    omega

theorem answers_nextUpload (first : UInt16) (hlt : size < 2 ^ 16) :
    answers (before ++ [nextUpload size limit first before (.ok got)]) =
      answers before ++ got.take (Connection.nextLength size (collected before) limit) := by
  rw [answers_append, nextUpload]
  simp only [answers, List.flatMap_cons, List.flatMap_nil, List.append_nil, Transaction.answer,
    toNat_nextLength hlt]

/-- After an answer that does not end the read, whole blocks are there and some bytes are still
missing. -/
theorem collected_nextUpload (first : UInt16) (hlt : size < 2 ^ 16)
    (hbelow : ∀ m, limit = some m → collected before < m)
    (hgoes : ¬ EndsUpload size limit (answers before) got) :
    collected (before ++ [nextUpload size limit first before (.ok got)]) =
        collected before + size ∧
      ∀ m, limit = some m → collected before + size < m := by
  obtain ⟨hnext, hfull⟩ := nextLength_of_goes_on hgoes
  rw [length_answers] at hnext
  constructor
  · rw [← length_answers, answers_nextUpload first hlt, hnext, List.length_append, length_answers,
      List.length_take, Nat.min_eq_left hfull]
  · rintro m rfl
    have hm := hbelow m rfl
    have hopen : ¬ EndsRead (some m) before (nextUpload size (some m) first before (.ok got)) :=
      fun hends => hgoes ((endsUpload_iff hlt hbelow).2 hends)
    rw [nextUpload, EndsRead, toNat_nextLength hlt, hnext, Option.some.injEq, not_or] at hopen
    rw [Connection.nextLength] at hnext
    omega

theorem goesOn_concat_iff {w : Transaction} :
    GoesOn limit (ws ++ [w]) ↔ GoesOn limit ws ∧ ¬ EndsRead limit ws w := by
  rw [GoesOn, eachAfter_append_iff, List.nil_append, eachAfter_cons_iff]
  exact and_congr_right fun _ => and_iff_left eachAfter_nil

theorem GoesOn.not_ends {w : Transaction} {post : List Transaction} (h : GoesOn limit ws)
    (hws : ws = before ++ w :: post) : ¬ EndsRead limit before w :=
  h before w post hws

/-- Where the read went on before a call that ends it, no other call ends it. -/
theorem ends_iff_eq_nil {last w : Transaction} {post : List Transaction} (hgoes : GoesOn limit ws)
    (hends : EndsRead limit ws last) (hws : ws ++ [last] = before ++ w :: post) :
    EndsRead limit before w ↔ post = [] := by
  rcases List.eq_nil_or_concat post with rfl | ⟨init, z, rfl⟩
  · obtain ⟨rfl, hw⟩ := List.append_inj' hws rfl
    cases hw
    exact iff_of_true hends rfl
  · rw [List.concat_eq_append, ← List.cons_append, ← List.append_assoc] at hws
    obtain ⟨rfl, -⟩ := List.append_inj' hws rfl
    exact iff_of_false (hgoes.not_ends rfl) (by simp)

/-- A call ends the read exactly if it is the last one of rounds that came to an end. -/
theorem Collects.ends_iff {w : Transaction} {post : List Transaction}
    (h : Collects limit patience ws o) (hws : ws = before ++ w :: post) :
    EndsRead limit before w ↔ post = [] ∧ o ≠ .exhausted := by
  cases h with
  | nothing => simp at hws
  | @failed earlier hgoes block length e =>
    have hends : EndsRead limit earlier (.upload block length (.error e)) := trivial
    simp [ends_iff_eq_nil hgoes hends hws]
  | finished hgoes hends => simp [ends_iff_eq_nil hgoes hends hws]
  | exhausted _ hgoes => simp [hgoes.not_ends hws]

/-- Patience is lost only without a limit, and only after this many blocks that leave more to ask
for. -/
theorem Collects.eq_exhausted_iff (h : Collects limit patience ws o) :
    o = .exhausted ↔ limit = none ∧ ws.length = patience ∧ GoesOn limit ws := by
  refine ⟨?_, fun ⟨hlimit, _, hgoes⟩ => ?_⟩
  · rintro rfl
    cases h with
    | exhausted hlimit hgoes hlength => exact ⟨hlimit, hlength, hgoes⟩
  · cases h with
    | nothing hsome => cases hlimit.symm.trans hsome
    | failed => exact absurd trivial (goesOn_concat_iff.1 hgoes).2
    | finished _ hends => exact absurd hends (goesOn_concat_iff.1 hgoes).2
    | exhausted => rfl

theorem Collects.eq_answers {data : Bytes} (h : Collects limit patience ws (.done data)) :
    data = answers ws := by
  cases h with
  | nothing => rfl
  | finished => rfl

/-- Every call asks for the next block, and the end is as the calls say. What the calls `before`
brought is what the program holds: whole blocks, and fewer bytes than the limit. The rounds that are
left are enough to reach the limit, or else make up what is left of the patience. -/
theorem rounds_uploadFrom (hpos : 0 < size) (hlt : size < 2 ^ 16)
    (hgoes : GoesOn limit before) (hwhole : collected before = before.length * size)
    (hbelow : ∀ m, limit = some m → collected before < m)
    (hrounds : ∀ m, limit = some m → m ≤ collected before + rounds)
    (hpatience : limit = none → before.length + rounds = patience)
    (h : Transacts (c.uploadFrom size limit rounds (first + UInt16.ofNat before.length)
      (answers before)) ws o) :
    EachAfter (AsksNext size limit first) before ws ∧ Collects limit patience (before ++ ws) o := by
  -- on the rounds; the calls before grow by one whole block, and what is said of them stays true
  induction rounds generalizing before ws with
  | zero =>
    obtain ⟨rfl, rfl⟩ := transacts_exhausted_iff.1 h
    have hnone : limit = none := by
      cases limit with
      | none => rfl
      | some m =>
        have hopen := hbelow m rfl
        have hmet := hrounds m rfl
        omega
    rw [List.append_nil]
    exact ⟨eachAfter_nil, .exhausted hnone hgoes (hpatience hnone)⟩
  | succ rounds ih =>
    obtain ⟨reply, rest, hw, hround⟩ := transacts_uploadFrom h
    rw [length_answers] at hw hround
    change ws = nextUpload size limit first before reply :: rest at hw
    subst hw
    have hasks := asksNext_nextUpload first hlt hwhole hbelow reply
    cases reply with
    | error e =>
      obtain ⟨rfl, rfl⟩ := hround
      exact ⟨eachAfter_cons_iff.2 ⟨hasks, eachAfter_nil⟩, .failed hgoes _ _ e⟩
    | ok got =>
      dsimp only at hround
      rw [← answers_nextUpload first hlt] at hround
      split at hround
      · rename_i hends
        obtain ⟨rfl, rfl⟩ := hround
        exact ⟨eachAfter_cons_iff.2 ⟨hasks, eachAfter_nil⟩,
          .finished hgoes ((endsUpload_iff hlt hbelow).1 hends)⟩
      · rename_i hopen
        -- a whole block came, and the invariant holds again of one call more
        obtain ⟨hgrown, hbelow'⟩ := collected_nextUpload first hlt hbelow hopen
        rw [endsUpload_iff hlt hbelow] at hopen
        rw [ofNat_add_one] at hround
        generalize nextUpload size limit first before (.ok got) = w at *
        obtain ⟨hrest, hend⟩ := @ih (before ++ [w]) rest (goesOn_concat_iff.2 ⟨hgoes, hopen⟩)
          (by rw [hgrown, hwhole, List.length_append, List.length_singleton, Nat.succ_mul])
          (by rwa [hgrown])
          (fun m hm => by have hmet := hrounds m hm; omega)
          (fun hm => by
            have hmet := hpatience hm
            rw [List.length_append, List.length_singleton]
            omega)
          (by rwa [List.length_append, List.length_singleton])
        rw [List.append_assoc, List.singleton_append] at hend
        exact ⟨eachAfter_cons_iff.2 ⟨hasks, hrest⟩, hend⟩

/-- Nothing but blocks is asked for. -/
theorem isUpload_of_asksNext (h : EachAfter (AsksNext size limit first) before ws) :
    ∀ w ∈ ws, w.isUpload = true := by
  intro w hw
  obtain ⟨pre, post, rfl⟩ := List.mem_iff_append.1 hw
  have hasks := h pre w post rfl
  cases w with
  | upload => rfl
  | _ => exact hasks.elim

/-- Under a limit no more is asked for, so each call but the last one brings a whole block of it. -/
theorem length_le_of_asksNext {m : Nat} (hpos : 0 < size)
    (h : EachAfter (AsksNext size (some m) first) [] ws) :
    collected ws ≤ m ∧ ws.length ≤ (m + size - 1) / size := by
  rcases List.eq_nil_or_concat ws with rfl | ⟨init, w, rfl⟩
  · exact ⟨Nat.zero_le m, Nat.zero_le _⟩
  · rw [List.concat_eq_append] at h ⊢
    have hw := h init w [] rfl
    cases w with
    | upload block length reply =>
      obtain ⟨-, hwhole, -, hlimit⟩ := hw
      obtain ⟨hbelow, hlength⟩ := hlimit m rfl
      rw [List.nil_append] at hwhole hbelow hlength
      have hbrought : (Transaction.upload block length reply).brought ≤ length.toNat := by
        cases reply with
        | error e => exact Nat.zero_le _
        | ok got => exact Nat.min_le_right _ _
      constructor
      · rw [collected_append, collected_cons, collected_nil]
        omega
      · rw [Nat.le_div_iff_mul_le hpos, List.length_append, List.length_singleton, Nat.succ_mul,
          ← hwhole]
        omega
    | _ => exact hw.elim

end Rounds

end UsbDfu
