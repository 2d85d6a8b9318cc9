import UsbDfu.Proofs.UploadRounds

/-!
# Reads as a whole

A read fetches blocks until its rounds end. If a limit is what ended them, the device may still want to
go on, and is brought back to rest.

- `BroughtToRest ws o`: the calls of `abortToIdle` and how it ends.
- `FollowsRounds limit rest o r`: what comes after rounds that end with `r`.
- `rounds_of_readBlocks`: a read is its rounds and what follows them; `asksNext_of_readBlocks`: each
  of its UPLOADs asks for the next block.
- `readBlocks_collects`: the place of every call, the bytes that the read gives, and the calls after them.
-/

namespace UsbDfu

open Dialogue

/-! ## Back to rest -/

namespace Transaction

/-- The call asks how the device is, or brings it back to rest; it carries no data. -/
def isInquiry : Transaction → Bool
  | .status _ | .state _ | .clearStatus _ | .abort _ => true
  | .download _ _ _ | .upload _ _ _ | .reset _ | .other _ _ => false

theorem isUpload_of_isInquiry {w : Transaction} (h : w.isInquiry = true) : w.isUpload = false := by
  cases w with
  | upload => cases h
  | _ => rfl

end Transaction

/-- What is made of the state that is seen after an abort. -/
def restOutcome (s : State) : Outcome Failure Unit :=
  if s = .dfuIdle then .done () else .failed (.protocol (.notIdle s))

/-- The calls that bring a device back to rest, and their end: an abort and a look at the state; if
that is the error state, it is cleared and the state looked at once more. The first failure is the
end. -/
inductive BroughtToRest : List Transaction → Outcome Failure Unit → Prop where
  | refused (e : TransportError) : BroughtToRest [.abort (.error e)] (.failed (.transport e))
  | unseen (taken : Nat) (e : Failure) :
      BroughtToRest [.abort (.ok taken), .state (.error e)] (.failed e)
  | seen (taken : Nat) {s : State} (hs : s ≠ .error) :
      BroughtToRest [.abort (.ok taken), .state (.ok s)] (restOutcome s)
  | uncleared (taken : Nat) (e : TransportError) :
      BroughtToRest [.abort (.ok taken), .state (.ok .error), .clearStatus (.error e)]
        (.failed (.transport e))
  | unseenAgain (taken taken' : Nat) (e : Failure) :
      BroughtToRest [.abort (.ok taken), .state (.ok .error), .clearStatus (.ok taken'),
        .state (.error e)] (.failed e)
  | seenAgain (taken taken' : Nat) (s : State) :
      BroughtToRest [.abort (.ok taken), .state (.ok .error), .clearStatus (.ok taken'),
        .state (.ok s)] (restOutcome s)

theorem transacts_restOutcome {s : State} {ws : List Transaction} {o : Outcome Failure Unit}
    (h : Transacts (if s = .dfuIdle then pure () else throw (.protocol (.notIdle s)) : Exchange Unit)
      ws o) : ws = [] ∧ o = restOutcome s := by
  unfold restOutcome
  split
  · rename_i hs
    rw [if_pos hs] at h
    exact transacts_done_iff.1 h
  · rename_i hs
    rw [if_neg hs] at h
    exact transacts_fail_iff.1 h

/-- An exchange that makes one call, and what follows it. -/
theorem transacts_one_bind {α β ρ : Type} {d : Exchange α} {f : α → Exchange β} {w : ρ → Transaction}
    {read : ρ → Except Failure α} {ws : List Transaction} {o : Outcome Failure β}
    (hd : ∀ ws o, Transacts d ws o → ∃ reply, ws = [w reply] ∧ o = .ofExcept (read reply))
    (h : Transacts (d >>= f) ws o) :
    ∃ reply rest, ws = w reply :: rest ∧
      match read reply with
      | .error e => rest = [] ∧ o = .failed e
      | .ok a => Transacts (f a) rest o := by
  obtain ⟨_, called, rest, h₁, h₂, rfl⟩ := transacts_bind_iff.1 h
  obtain ⟨reply, rfl, rfl⟩ := hd _ _ h₁
  refine ⟨reply, rest, rfl, ?_⟩
  cases hr : read reply with
  | error e =>
    rw [hr] at h₂
    exact transacts_fail_iff.1 h₂
  | ok a =>
    rw [hr] at h₂
    exact h₂

theorem broughtToRest_abortToIdle {c : Connection} {ws : List Transaction} {o : Outcome Failure Unit}
    (h : Transacts c.abortToIdle ws o) : BroughtToRest ws o := by
  obtain ⟨aborted, w₁, rfl, h₁⟩ := transacts_one_bind (fun _ _ => transacts_abort) h
  cases aborted with
  | error e =>
    obtain ⟨rfl, rfl⟩ := h₁
    exact .refused e
  | ok taken =>
    obtain ⟨looked, w₂, rfl, h₂⟩ :=
      transacts_one_bind (fun _ _ => transacts_getState) h₁
    cases looked with
    | error e =>
      obtain ⟨rfl, rfl⟩ := h₂
      exact .unseen taken e
    | ok s =>
      by_cases hs : s = .error
      · subst hs
        obtain ⟨cleared, w₃, rfl, h₃⟩ := transacts_one_bind (fun _ _ => transacts_clearStatus) h₂
        cases cleared with
        | error e =>
          obtain ⟨rfl, rfl⟩ := h₃
          exact .uncleared taken e
        | ok taken' =>
          obtain ⟨again, w₄, rfl, h₄⟩ :=
            transacts_one_bind (fun _ _ => transacts_getState) h₃
          cases again with
          | error e =>
            obtain ⟨rfl, rfl⟩ := h₄
            exact .unseenAgain taken taken' e
          | ok s =>
            obtain ⟨rfl, rfl⟩ := transacts_restOutcome h₄
            exact .seenAgain taken taken' s
      · have hend : Transacts (if s = .dfuIdle then pure ()
            else throw (.protocol (.notIdle s)) : Exchange Unit) w₂ o := by
          simpa [hs] using h₂
        obtain ⟨rfl, rfl⟩ := transacts_restOutcome hend
        exact .seen taken hs

theorem BroughtToRest.isInquiry {ws : List Transaction} {o : Outcome Failure Unit}
    (h : BroughtToRest ws o) : ∀ w ∈ ws, w.isInquiry = true := by
  cases h <;> simp [Transaction.isInquiry]

theorem BroughtToRest.ne_exhausted {ws : List Transaction} {o : Outcome Failure Unit}
    (h : BroughtToRest ws o) : o ≠ .exhausted := by
  have hrest : ∀ s, restOutcome s ≠ .exhausted := by
    intro s
    unfold restOutcome
    split <;> exact nofun
  cases h with
  | seen _ _ => exact hrest _
  | seenAgain => exact hrest _
  | refused | unseen | uncleared | unseenAgain => exact nofun

/-! ## A read as a whole -/

/-- The call has this place in a read that makes the calls `ws` and ends with `o`: it asks for the
next block, and it ends the read exactly if it is the last one and the host has not given up. -/
structure PlacedIn (size : Nat) (limit : Option Nat) (first : UInt16) (ws : List Transaction)
    (o : Outcome Failure Bytes) (before : List Transaction) (w : Transaction) : Prop where
  asks : AsksNext size limit first before w
  ends_iff : EndsRead limit before w ↔ before ++ [w] = ws ∧ o ≠ .exhausted

/-- What comes after the rounds of a read, by how they ended. -/
def FollowsRounds (limit : Option Nat) (rest : List Transaction) (o : Outcome Failure Bytes) :
    Outcome Failure Bytes → Prop
  | .done data =>
    if limit = some data.length then ∃ b, BroughtToRest rest b ∧ o = b.map fun _ => data
    else rest = [] ∧ o = .done data
  | .failed e => rest = [] ∧ o = .failed e
  | .exhausted => rest = [] ∧ o = .exhausted

section Read

variable {c : Connection} {size first : UInt16} {limit : Option Nat} {ws : List Transaction}
  {o : Outcome Failure Bytes}

theorem FollowsRounds.isInquiry {r : Outcome Failure Bytes} (h : FollowsRounds limit ws o r) :
    ∀ w ∈ ws, w.isInquiry = true := by
  have hnil : ws = [] → ∀ w ∈ ws, w.isInquiry = true := by
    rintro rfl
    simp
  cases r with
  | failed e => exact hnil h.1
  | exhausted => exact hnil h.1
  | done data =>
    rw [FollowsRounds] at h
    split at h
    · obtain ⟨b, hb, -⟩ := h
      exact hb.isInquiry
    · exact hnil h.1

/-- A read that wants nothing calls nothing. -/
theorem transacts_readBlocks_zero (h : Transacts (c.readBlocks size (some 0) first) ws o) :
    ws = [] ∧ o = .done [] := by
  have hread := transacts_progress_bind.1 (transacts_say_bind.1 h)
  rw [if_pos rfl] at hread
  exact transacts_done_iff.1 hread

/-- A read that wants some bytes: its rounds, and then what is made of their end. -/
theorem transacts_readBlocks (hlimit : limit ≠ some 0)
    (h : Transacts (c.readBlocks size limit first) ws o) :
    ∃ r uploads rest, ws = uploads ++ rest ∧
      Transacts (c.uploadFrom (max size.toNat 1) limit (limit.getD c.patience) first []) uploads r ∧
      FollowsRounds limit rest o r := by
  have hread := transacts_progress_bind.1 (transacts_say_bind.1 h)
  rw [if_neg hlimit] at hread
  obtain ⟨r, uploads, rest, hrounds, hafter, rfl⟩ := transacts_bind_iff.1 hread
  refine ⟨r, uploads, rest, rfl, hrounds, ?_⟩
  cases r with
  | failed e => exact transacts_fail_iff.1 hafter
  | exhausted => exact transacts_exhausted_iff.1 hafter
  | done data =>
    change Transacts (if limit = some data.length then _ else _) rest o at hafter
    rw [FollowsRounds]
    -- the device is brought to rest only if the limit is what ended the rounds
    by_cases hfull : limit = some data.length
    · rw [if_pos hfull] at hafter ⊢
      obtain ⟨b, w₁, w₂, h₁, h₂, rfl⟩ := transacts_bind_iff.1 hafter
      have hb := broughtToRest_abortToIdle h₁
      cases b with
      | done u =>
        rw [Outcome.silent, done_bind, transacts_say_bind] at h₂
        obtain ⟨rfl, rfl⟩ := transacts_done_iff.1 h₂
        exact ⟨_, by rwa [List.append_nil], rfl⟩
      | failed e =>
        obtain ⟨rfl, rfl⟩ := transacts_fail_iff.1 h₂
        exact ⟨_, by rwa [List.append_nil], rfl⟩
      | exhausted => exact absurd rfl hb.ne_exhausted
    · rw [if_neg hfull] at hafter ⊢
      exact transacts_done_iff.1 (transacts_say_bind.1 hafter)

/-- Such a read in terms of its calls. -/
theorem rounds_of_readBlocks (hlimit : limit ≠ some 0)
    (h : Transacts (c.readBlocks size limit first) ws o) :
    ∃ r uploads rest, ws = uploads ++ rest ∧
      EachAfter (AsksNext (max size.toNat 1) limit first) [] uploads ∧
      Collects limit c.patience uploads r ∧ FollowsRounds limit rest o r := by
  obtain ⟨r, uploads, rest, rfl, hrounds, hafter⟩ := transacts_readBlocks hlimit h
  have hpos : 0 < max size.toNat 1 := Nat.lt_of_lt_of_le Nat.one_pos (Nat.le_max_right _ _)
  have hlt : max size.toNat 1 < 2 ^ 16 := Nat.max_lt.2 ⟨size.toNat_lt, by decide⟩
  have hsome : ∀ m, limit = some m → 0 < m := by
    rintro m rfl
    exact Nat.pos_of_ne_zero fun hm => hlimit (congrArg some hm)
  obtain ⟨hasks, hend⟩ := @rounds_uploadFrom c (max size.toNat 1) (limit.getD c.patience) c.patience
    limit first [] uploads r hpos hlt eachAfter_nil (by simp) hsome (by rintro m rfl; simp)
    (by rintro rfl; simp) (by simpa using hrounds)
  exact ⟨r, uploads, rest, rfl, hasks, hend, hafter⟩

/-- Each UPLOAD of a read asks for the next block; what follows the rounds asks for none. -/
theorem asksNext_of_readBlocks {pre post : List Transaction} {w : Transaction}
    (hw : w.isUpload = true) (h : Transacts (c.readBlocks size limit first) (pre ++ w :: post) o) :
    AsksNext (max size.toNat 1) limit first pre w := by
  by_cases hlimit : limit = some 0
  · subst hlimit
    have hnil := (transacts_readBlocks_zero h).1
    simp at hnil
  obtain ⟨r, uploads, rest, hws, hasks, -, hafter⟩ := rounds_of_readBlocks hlimit h
  have hnot : w ∉ rest := fun hmem =>
    Bool.false_ne_true ((Transaction.isUpload_of_isInquiry (hafter.isInquiry w hmem)).symm.trans hw)
  rcases List.append_eq_append_iff.1 hws with ⟨mid, rfl, hmid⟩ | ⟨mid, -, rfl⟩
  · cases mid with
    | nil =>
      rw [List.nil_append] at hmid
      exact absurd (hmid ▸ List.mem_cons_self) hnot
    | cons v mid =>
      obtain ⟨rfl, -⟩ := List.cons.inj hmid
      exact hasks pre w mid rfl
  · exact absurd (by simp) hnot

/-- A read gives what its calls brought. -/
theorem FollowsRounds.eq_answers {patience : Nat} {uploads rest : List Transaction}
    {r : Outcome Failure Bytes} {data : Bytes} (hafter : FollowsRounds limit rest (.done data) r)
    (hend : Collects limit patience uploads r) : data = answers uploads := by
  cases r with
  | failed e => cases hafter.2
  | exhausted => cases hafter.2
  | done got =>
    rw [FollowsRounds] at hafter
    rw [← hend.eq_answers]
    split at hafter
    · obtain ⟨b, -, ho⟩ := hafter
      cases b with
      | done u => exact Outcome.done.inj ho
      | failed e => cases ho
      | exhausted => cases ho
    · exact Outcome.done.inj hafter.2

/-- The bytes of a failed read are fewer than its limit. -/
theorem ne_collected_of_failed {block patience : Nat} {uploads : List Transaction} {e : Failure}
    (hasks : EachAfter (AsksNext block limit first) [] uploads)
    (hend : Collects limit patience uploads (.failed e)) : limit ≠ some (collected uploads) := by
  rintro hfull
  cases hend with
  | @failed before _ number length e =>
    obtain ⟨-, -, -, hlimit⟩ := hasks before (.upload number length (.error e)) [] rfl
    have hbelow := (hlimit _ hfull).1
    rw [List.nil_append, collected_append] at hbelow
    simp [Transaction.brought] at hbelow

/-- What is made of the end of the rounds, in terms of their calls. -/
theorem FollowsRounds.eq_of_collects {block patience : Nat} {uploads rest : List Transaction}
    {r : Outcome Failure Bytes} (hafter : FollowsRounds limit rest o r) (hlimit : limit ≠ some 0)
    (hasks : EachAfter (AsksNext block limit first) [] uploads)
    (hend : Collects limit patience uploads r) :
    (r = .exhausted ↔ o = .exhausted) ∧
      if 0 < collected uploads ∧ limit = some (collected uploads) then
        ∃ b, BroughtToRest rest b ∧ o = b.map fun _ => answers uploads
      else rest = [] ∧ Collects limit patience uploads o := by
  cases r with
  | failed e =>
    obtain ⟨rfl, rfl⟩ := hafter
    rw [if_neg fun hfull => ne_collected_of_failed hasks hend hfull.2]
    exact ⟨by simp, rfl, hend⟩
  | exhausted =>
    obtain ⟨rfl, rfl⟩ := hafter
    obtain ⟨hnone, -⟩ := hend.eq_exhausted_iff.1 rfl
    rw [if_neg (by simp [hnone])]
    exact ⟨Iff.rfl, rfl, hend⟩
  | done data =>
    obtain rfl := hend.eq_answers
    rw [FollowsRounds, length_answers] at hafter
    by_cases hfull : limit = some (collected uploads)
    · have hsome : 0 < collected uploads := by
        refine Nat.pos_of_ne_zero fun hzero => hlimit ?_
        rw [hfull, hzero]
      rw [if_pos hfull] at hafter
      rw [if_pos ⟨hsome, hfull⟩]
      obtain ⟨b, hb, rfl⟩ := hafter
      refine ⟨⟨nofun, fun hb' => ?_⟩, b, hb, rfl⟩
      cases b with
      | exhausted => exact absurd rfl hb.ne_exhausted
      | done u => cases hb'
      | failed e => cases hb'
    · rw [if_neg hfull] at hafter
      rw [if_neg fun h => hfull h.2]
      obtain ⟨rfl, rfl⟩ := hafter
      exact ⟨by simp, rfl, hend⟩

/-- A short answer is the last one, and leaves the limit out of reach. -/
theorem ne_collected_of_short {block patience : Nat} {uploads : List Transaction}
    {r : Outcome Failure Bytes} {number length : UInt16} {got : Bytes}
    (hasks : EachAfter (AsksNext block limit first) [] uploads)
    (hend : Collects limit patience uploads r)
    (hmem : Transaction.upload number length (.ok got) ∈ uploads)
    (hshort : got.length < length.toNat) :
    limit ≠ some (collected uploads) ∧ r = .done (answers uploads) := by
  obtain ⟨before, post, rfl⟩ := List.mem_iff_append.1 hmem
  -- it ends the read, so nothing comes after it
  obtain ⟨rfl, hgave⟩ := (hend.ends_iff rfl).1 (.inl hshort)
  obtain ⟨-, -, -, hlimit⟩ := hasks before _ [] rfl
  constructor
  · intro hfull
    obtain ⟨hbelow, hlength⟩ := hlimit _ hfull
    rw [List.nil_append, collected_append, collected_cons, collected_nil] at hbelow hlength
    simp only [Transaction.brought] at hbelow hlength
    omega
  · generalize hws : before ++ [Transaction.upload number length (.ok got)] = ws at hend
    cases hend with
    | nothing => simp at hws
    | failed => simp at hws
    | finished => rfl
    | exhausted => exact absurd rfl hgave

/-- A read of blocks of `size` bytes, of single bytes if that is 0. Each UPLOAD asks for the next
block, and the first one that is answered with less, or brings the last byte of the limit, or fails,
is the last one. What the read gives are the answers, and after a short answer it always gives them.
If some bytes were wanted and exactly as many were brought, the device is brought back to rest, and a
failure of that is the end of the read; otherwise nothing more is called. Under a limit the read ends
on every device. Without one the host gives up after as many whole blocks as it has patience for, and
never before. -/
theorem readBlocks_collects (h : Transacts (c.readBlocks size limit first) ws o) :
    let block := max size.toNat 1
    ∃ uploads rest, ws = uploads ++ rest ∧
      EachAfter (PlacedIn block limit first uploads o) [] uploads ∧
      (if 0 < collected uploads ∧ limit = some (collected uploads) then
        ∃ r, BroughtToRest rest r ∧ o = r.map fun _ => answers uploads
      else rest = [] ∧ Collects limit c.patience uploads o) ∧
      (o = .exhausted ↔ limit = none ∧ uploads.length = c.patience ∧ GoesOn limit uploads) ∧
      (∀ number length got, Transaction.upload number length (.ok got) ∈ uploads →
        got.length < length.toNat → rest = [] ∧ o = .done (answers uploads)) ∧
      (∀ data, o = .done data → data = answers uploads) ∧
      ∀ m, limit = some m → (m = 0 → ws = [] ∧ o = .done []) ∧ o ≠ .exhausted ∧
        (answers uploads).length ≤ m ∧ uploads.length ≤ (m + block - 1) / block := by
  intro block
  have hpos : 0 < block := Nat.lt_of_lt_of_le Nat.one_pos (Nat.le_max_right _ _)
  by_cases hlimit : limit = some 0
  · subst hlimit
    obtain ⟨rfl, rfl⟩ := transacts_readBlocks_zero h
    exact ⟨[], [], rfl, eachAfter_nil, ⟨rfl, .nothing rfl⟩, by simp, nofun,
      fun data hdata => by cases hdata; rfl,
      fun m hm => ⟨fun _ => ⟨rfl, rfl⟩, nofun, Nat.zero_le m, Nat.zero_le _⟩⟩
  · obtain ⟨r, uploads, rest, rfl, hasks, hend, hafter⟩ := rounds_of_readBlocks hlimit h
    obtain ⟨hgives, hbranch⟩ := hafter.eq_of_collects hlimit hasks hend
    refine ⟨uploads, rest, rfl, fun pre w post hw => ⟨hasks pre w post hw, ?_⟩, hbranch,
      hgives.symm.trans hend.eq_exhausted_iff, fun number length got hmem hshort => ?_, ?_, ?_⟩
    · rw [List.nil_append, hend.ends_iff hw, Ne, hgives, hw, List.append_cancel_left_eq]
      simp [eq_comm]
    · obtain ⟨hopen, rfl⟩ := ne_collected_of_short hasks hend hmem hshort
      rw [FollowsRounds, length_answers, if_neg hopen] at hafter
      exact hafter
    · rintro data rfl
      exact hafter.eq_answers hend
    · rintro m rfl
      obtain ⟨hcollected, hlength⟩ := length_le_of_asksNext hpos hasks
      refine ⟨fun hm => absurd (congrArg some hm) hlimit, fun ho => ?_, ?_, hlength⟩
      · obtain ⟨hnone, -⟩ := hend.eq_exhausted_iff.1 (hgives.2 ho)
        cases hnone
      · rwa [length_answers]

end Read

/-- A device at rest that answers every UPLOAD with four bytes, however many were asked for. -/
def lavishBoard : Bench.Board where
  model := .script {
    id := 0
    queues := [(.getState, [.data [2] false]), (.upload, [.data [1, 2, 3, 4] false])] }
  budget := none

/-- Four bytes in blocks of three: the second block asks for one byte. Without a limit, and with
patience for two blocks, both are whole ones, and the read has no result. -/
theorem readBlocks_collects_lavish :
    let limited : List Transaction := [.upload 7 3 (.ok [1, 2, 3, 4]), .upload 8 1 (.ok [1, 2, 3, 4]),
      .abort (.ok 0), .state (.ok .dfuIdle)]
    let unlimited : List Transaction :=
      [.upload 7 3 (.ok [1, 2, 3, 4]), .upload 8 3 (.ok [1, 2, 3, 4])]
    (Transacts ((Connection.new 0 3 8).readBlocks 3 (some 4) 7) limited (.done [1, 2, 3, 1]) ∧
      ∃ uploads rest, limited = uploads ++ rest ∧ [1, 2, 3, 1] = answers uploads ∧
        uploads.length ≤ 2) ∧
    Transacts ((Connection.new 0 3 2).readBlocks 3 none 7) unlimited .exhausted ∧
      ∃ uploads rest, unlimited = uploads ++ rest ∧ uploads.length = 2 ∧ GoesOn none uploads := by
  intro limited unlimited
  have h : Transacts ((Connection.new 0 3 8).readBlocks 3 (some 4) 7) limited
      (.done [1, 2, 3, 1]) := by
    have hrun := transacts_transcript Bench.SingleBoard.serve
      ((Connection.new 0 3 8).readBlocks 3 (some 4) 7) (.ofBoard lavishBoard)
    rwa [show (transcript Bench.SingleBoard.serve _ _).2 =
        (.done [1, 2, 3, 1] : Outcome Failure Bytes) by decide +kernel,
      show transactions (transcript Bench.SingleBoard.serve _ _).1 = limited by rfl] at hrun
  have h' : Transacts ((Connection.new 0 3 2).readBlocks 3 none 7) unlimited .exhausted := by
    have hrun := transacts_transcript Bench.SingleBoard.serve
      ((Connection.new 0 3 2).readBlocks 3 none 7) (.ofBoard lavishBoard)
    rwa [show (transcript Bench.SingleBoard.serve _ _).2 = (.exhausted : Outcome Failure Bytes) by
        decide +kernel,
      show transactions (transcript Bench.SingleBoard.serve _ _).1 = unlimited by rfl] at hrun
  obtain ⟨uploads, rest, hw, -, -, -, -, hdata, hlimit⟩ := readBlocks_collects h
  obtain ⟨uploads', rest', hw', -, -, hexhausted, -⟩ := readBlocks_collects h'
  exact ⟨⟨h, uploads, rest, hw, hdata _ rfl, (hlimit 4 rfl).2.2.2⟩, h', uploads', rest', hw',
    (hexhausted.1 rfl).2⟩

end UsbDfu
