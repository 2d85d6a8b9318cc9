import UsbDfu.Session

/-!
# Routine exchanges

Most of what a session does on its device is routine: calls, words to the user and lines of the log.
Only a few places take note of the device's life on the bus, or open and close the device, and all
else need not be looked into to follow it.

- `Dialogue.Within P R d`: whatever it is answered, `d` asks only questions in `P`, and a value that
  it ends with is in `R`; `Within.of_trace` says so of each conversation.
- `Routine d`: the dialogue asks nothing about departures and tells of none.
- `Works d`: moreover it neither opens the device nor closes it. Both transfers of both families are
  such (`works_download`, `works_upload`).
- `Uncounted d`: it works and reports no progress, as every part of a transfer does but the loops.
- `Errand d`: it works and always comes to an end. Reading a device is such (`Device.errand_read`).
- `within_connect`: connecting is routine, and ends with a session that is connected.
-/

namespace UsbDfu

open Exchange (say progress note)

namespace Dialogue

variable {Q : Type} {A : Q → Type} {ε ε' α β : Type} {P : Q → Prop} {R : α → Prop} {S : β → Prop}

/-- Whatever it is answered, the dialogue asks only such questions and ends with no other value. -/
def Within (P : Q → Prop) (R : α → Prop) : Dialogue A ε α → Prop
  | .done a => R a
  | .fail _ | .exhausted => True
  | .ask q next => P q ∧ ∀ answer, (next answer).Within P R

theorem Within.bind {d : Dialogue A ε α} {f : α → Dialogue A ε β} (hd : d.Within P R)
    (hf : ∀ a, R a → (f a).Within P S) : (d >>= f).Within P S := by
  induction d with
  | done a => exact hf a hd
  | fail e | exhausted => trivial
  | ask q next ih => exact ⟨hd.1, fun answer => ih answer (hd.2 answer)⟩

theorem Within.attempt {d : Dialogue A ε α} (hd : d.Within P R) :
    (d.attempt : Dialogue A ε' (Except ε α)).Within P fun _ => True := by
  induction d with
  | done a | fail e | exhausted => trivial
  | ask q next ih => exact ⟨hd.1, fun answer => ih answer (hd.2 answer)⟩

theorem Within.mono {P' : Q → Prop} {R' : α → Prop} {d : Dialogue A ε α} (hd : d.Within P R)
    (hP : ∀ q, P q → P' q) (hR : ∀ a, R a → R' a) : d.Within P' R' := by
  induction d with
  | done a => exact hR a hd
  | fail e | exhausted => trivial
  | ask q next ih => exact ⟨hP q hd.1, fun answer => ih answer (hd.2 answer)⟩

theorem within_any (d : Dialogue A ε α) : d.Within (fun _ => True) fun _ => True := by
  induction d with
  | done a | fail e | exhausted => trivial
  | ask q next ih => exact ⟨trivial, ih⟩

/-- Of a dialogue that only ends after another one, whatever that was. -/
theorem within_after {d : Dialogue A ε α} {f : α → Dialogue A ε β}
    (hf : ∀ a, (f a).Within (fun _ => True) S) : (d >>= f).Within (fun _ => True) S :=
  d.within_any.bind fun a _ => hf a

theorem within_ofExcept {r : Except ε α} (h : ∀ a, r = .ok a → R a) :
    (ofExcept r : Dialogue A ε α).Within P R := by
  cases r with
  | ok a => exact h a rfl
  | error e => trivial

/-- A part that is left out under a condition. -/
theorem Within.unless_bind {p : Prop} [Decidable p] {d : Dialogue A ε Unit}
    {f : Unit → Dialogue A ε β} (hd : d.Within P fun _ => True) (hf : (f ()).Within P S) :
    (if p then f () else d >>= f).Within P S := by
  by_cases hp : p
  · rwa [if_pos hp]
  · rw [if_neg hp]
    exact hd.bind fun _ _ => hf

/-- Each conversation keeps to it. -/
theorem Within.of_trace {d : Dialogue A ε α} {ts : List (Turn A)} {o : Outcome ε α}
    (hd : d.Within P R) (ht : Trace d ts o) :
    (∀ t ∈ ts, P t.question) ∧ ∀ a, o = .done a → R a := by
  induction ht with
  | done a =>
    refine ⟨by simp, fun b hb => ?_⟩
    obtain rfl : a = b := Outcome.done.inj hb
    exact hd
  | fail e => exact ⟨by simp, nofun⟩
  | exhausted => exact ⟨by simp, nofun⟩
  | ask answer _ ih =>
    obtain ⟨hq, hr⟩ := ih (hd.2 answer)
    exact ⟨List.forall_mem_cons.2 ⟨hd.1, hq⟩, hr⟩

/-- Whatever it is answered, the dialogue comes to an end. -/
def Ends : Dialogue A ε α → Prop
  | .done _ | .fail _ => True
  | .exhausted => False
  | .ask _ next => ∀ answer, (next answer).Ends

theorem Ends.bind {d : Dialogue A ε α} {f : α → Dialogue A ε β} (hd : d.Ends)
    (hf : ∀ a, (f a).Ends) : (d >>= f).Ends := by
  induction d with
  | done a => exact hf a
  | fail e => trivial
  | exhausted => cases hd
  | ask q next ih => exact fun answer => ih answer (hd answer)

theorem Ends.attempt {d : Dialogue A ε α} (hd : d.Ends) :
    (d.attempt : Dialogue A ε' (Except ε α)).Ends := by
  induction d with
  | done a | fail e => trivial
  | exhausted => cases hd
  | ask q next ih => exact fun answer => ih answer (hd answer)

theorem ends_ofExcept (r : Except ε α) : (ofExcept r : Dialogue A ε α).Ends := by
  cases r <;> trivial

/-- So does each conversation. -/
theorem Ends.of_trace {d : Dialogue A ε α} {ts : List (Turn A)} {o : Outcome ε α} (hd : d.Ends)
    (ht : Trace d ts o) : o ≠ .exhausted := by
  induction ht with
  | done | fail => exact nofun
  | exhausted => cases hd
  | ask answer _ ih => exact ih (hd answer)

end Dialogue

/-- The question is no matter of devices that leave. -/
def Query.IsRoutine : Query → Prop
  | .call _ | .log _ | .logTakes _ | .report (.log _ _) | .report (.progress _ _) => True
  | .report .disconnected | .news _ | .departure _ _ _ => False

/-- Whatever it is answered, the dialogue has nothing to do with devices that leave. -/
def Routine {ε α : Type} (d : Dialogue Query.Answer ε α) : Prop :=
  d.Within Query.IsRoutine fun _ => True

/-- The question is routine, and neither opens the device nor closes it. -/
def Query.IsWork : Query → Prop
  | .call .openDevice | .call .close => False
  | q => q.IsRoutine

theorem Query.IsWork.isRoutine {q : Query} (h : q.IsWork) : q.IsRoutine := by
  cases q with
  | call c => trivial
  | report | log | logTakes | news | departure => exact h

/-- Whatever it is answered, the dialogue is routine and leaves the device open, or closed. -/
def Works {ε α : Type} (d : Dialogue Query.Answer ε α) : Prop :=
  d.Within Query.IsWork fun _ => True

/-- The question is such work, and no report of progress. -/
def Query.IsUncounted : Query → Prop
  | .report (.progress _ _) => False
  | q => q.IsWork

theorem Query.IsUncounted.isWork {q : Query} (h : q.IsUncounted) : q.IsWork := by
  cases q with
  | report r =>
    cases r with
    | progress => cases h
    | log | disconnected => exact h
  | call | log | logTakes | news | departure => exact h

/-- Whatever it is answered, the dialogue works on the device and reports no progress. -/
def Uncounted {ε α : Type} (d : Dialogue Query.Answer ε α) : Prop :=
  d.Within Query.IsUncounted fun _ => True

/-- Whatever it is answered, the dialogue works on the device and comes to an end. -/
structure Errand {ε α : Type} (d : Dialogue Query.Answer ε α) : Prop where
  works : Works d
  ends : d.Ends

/-! ## Rules -/

section Rules

variable {ε ε' α β : Type}

theorem Routine.bind_within {d : Dialogue Query.Answer ε α} {f : α → Dialogue Query.Answer ε β}
    {R : β → Prop} (hd : Routine d) (hf : ∀ a, (f a).Within Query.IsRoutine R) :
    (d >>= f).Within Query.IsRoutine R :=
  Dialogue.Within.bind hd fun a _ => hf a

theorem Routine.bind {d : Dialogue Query.Answer ε α} {f : α → Dialogue Query.Answer ε β}
    (hd : Routine d) (hf : ∀ a, Routine (f a)) : Routine (d >>= f) :=
  hd.bind_within hf

theorem Works.routine {d : Dialogue Query.Answer ε α} (hd : Works d) : Routine d :=
  hd.mono (fun _ => Query.IsWork.isRoutine) fun _ _ => trivial

theorem Works.bind {d : Dialogue Query.Answer ε α} {f : α → Dialogue Query.Answer ε β}
    (hd : Works d) (hf : ∀ a, Works (f a)) : Works (d >>= f) :=
  Dialogue.Within.bind hd fun a _ => hf a

theorem Works.attempt {d : Dialogue Query.Answer ε α} (hd : Works d) :
    Works (d.attempt : Dialogue Query.Answer ε' (Except ε α)) :=
  Dialogue.Within.attempt hd

theorem works_done (a : α) : Works (.done a : Dialogue Query.Answer ε α) := trivial

theorem works_progress (done : Nat) (total : Option Nat) :
    Works (progress done total : Dialogue Query.Answer ε Unit) :=
  ⟨trivial, fun _ => trivial⟩

theorem Uncounted.works {d : Dialogue Query.Answer ε α} (hd : Uncounted d) : Works d :=
  hd.mono (fun _ => Query.IsUncounted.isWork) fun _ _ => trivial

theorem Uncounted.bind {d : Dialogue Query.Answer ε α} {f : α → Dialogue Query.Answer ε β}
    (hd : Uncounted d) (hf : ∀ a, Uncounted (f a)) : Uncounted (d >>= f) :=
  Dialogue.Within.bind hd fun a _ => hf a

theorem Uncounted.attempt {d : Dialogue Query.Answer ε α} (hd : Uncounted d) :
    Uncounted (d.attempt : Dialogue Query.Answer ε' (Except ε α)) :=
  Dialogue.Within.attempt hd

theorem uncounted_done (a : α) : Uncounted (.done a : Dialogue Query.Answer ε α) := trivial

theorem uncounted_fail (e : ε) : Uncounted (.fail e : Dialogue Query.Answer ε α) := trivial

theorem uncounted_ofExcept (r : Except ε α) :
    Uncounted (Dialogue.ofExcept r : Dialogue Query.Answer ε α) :=
  Dialogue.within_ofExcept fun _ _ => trivial

theorem uncounted_say (level : Level) (text : String) :
    Uncounted (say level text : Dialogue Query.Answer ε Unit) :=
  ⟨trivial, fun _ => trivial⟩

theorem uncounted_note (level : Level) (text : String) :
    Uncounted (note level text : Dialogue Query.Answer ε Unit) :=
  ⟨trivial, fun _ => trivial⟩

/-- A call that has to succeed, other than those that open and close. -/
theorem uncounted_ofTransport {c : Call} (hc : (Query.call c).IsUncounted)
    (read : c.Reply → Except TransportError α) :
    Uncounted (Exchange.perform c >>= fun r => Exchange.ofTransport (read r)) :=
  ⟨hc, fun _ => uncounted_ofExcept _⟩

theorem works_ofExcept (r : Except ε α) :
    Works (Dialogue.ofExcept r : Dialogue Query.Answer ε α) :=
  (uncounted_ofExcept r).works

theorem works_say (level : Level) (text : String) :
    Works (say level text : Dialogue Query.Answer ε Unit) :=
  (uncounted_say level text).works

theorem works_note (level : Level) (text : String) :
    Works (note level text : Dialogue Query.Answer ε Unit) :=
  (uncounted_note level text).works

theorem works_compute (r : Checked Empty α) :
    Works (Dialogue.compute r : Dialogue Query.Answer ε α) := by
  cases r <;> trivial

theorem works_noteComputed (level : Level) (text : Checked Empty String) :
    Works (Exchange.noteComputed level text : Dialogue Query.Answer ε Unit) := by
  refine ⟨trivial, fun taken => ?_⟩
  cases taken with
  | false => exact works_done ()
  | true => exact (works_compute text).bind fun line => works_note level line

theorem Errand.bind {d : Dialogue Query.Answer ε α} {f : α → Dialogue Query.Answer ε β}
    (hd : Errand d) (hf : ∀ a, Errand (f a)) : Errand (d >>= f) :=
  ⟨hd.works.bind fun a => (hf a).works, hd.ends.bind fun a => (hf a).ends⟩

theorem Errand.attempt {d : Dialogue Query.Answer ε α} (hd : Errand d) :
    Errand (d.attempt : Dialogue Query.Answer ε' (Except ε α)) :=
  ⟨hd.works.attempt, hd.ends.attempt⟩

theorem errand_done (a : α) : Errand (.done a : Dialogue Query.Answer ε α) := ⟨trivial, trivial⟩

theorem errand_fail (e : ε) : Errand (.fail e : Dialogue Query.Answer ε α) := ⟨trivial, trivial⟩

theorem errand_ofExcept (r : Except ε α) :
    Errand (Dialogue.ofExcept r : Dialogue Query.Answer ε α) :=
  ⟨works_ofExcept r, Dialogue.ends_ofExcept r⟩

theorem errand_note (level : Level) (text : String) :
    Errand (note level text : Dialogue Query.Answer ε Unit) :=
  ⟨works_note level text, fun _ => trivial⟩

theorem errand_ofTransport {c : Call} (hc : (Query.call c).IsUncounted)
    (read : c.Reply → Except TransportError α) :
    Errand (Exchange.perform c >>= fun r => Exchange.ofTransport (read r)) :=
  ⟨(uncounted_ofTransport hc read).works, fun _ => Dialogue.ends_ofExcept _⟩

end Rules

/-! ## Requests -/

section Requests

variable (c : Connection)

theorem uncounted_send (request : UInt8) (value : UInt16) (data : Bytes) :
    Uncounted (c.send request value data) :=
  uncounted_ofTransport (c := .controlOut _ _) trivial id

theorem uncounted_fetch (request : UInt8) (value length : UInt16) :
    Uncounted (c.fetch request value length) :=
  uncounted_ofTransport (c := .controlIn _ _) trivial id

theorem uncounted_reset : Uncounted Exchange.reset :=
  uncounted_ofTransport (c := .reset) trivial id

theorem uncounted_getStatus : Uncounted c.getStatus := by
  refine (uncounted_fetch c _ _ _).bind fun data => ?_
  cases Status.ofBytes? data with
  | some s => exact uncounted_done s
  | none => exact uncounted_fail _

theorem uncounted_getState : Uncounted c.getState := by
  refine (uncounted_fetch c _ _ _).bind fun data => ?_
  cases data with
  | cons code _ => exact uncounted_done _
  | nil => exact uncounted_fail _

theorem uncounted_clearStatus : Uncounted c.clearStatus :=
  (uncounted_send c _ _ _).bind fun _ => uncounted_done ()

theorem uncounted_abort : Uncounted c.abort :=
  (uncounted_send c _ _ _).bind fun _ => uncounted_done ()

theorem uncounted_pollFrom (accept : State → Bool) (rounds : Nat) (status : Status) :
    Uncounted (c.pollFrom accept rounds status) := by
  induction rounds generalizing status with
  | zero =>
    unfold Connection.pollFrom
    split <;> trivial
  | succ rounds ih =>
    unfold Connection.pollFrom
    split
    · trivial
    · exact (uncounted_note _ _).bind fun _ => (uncounted_getStatus c).bind fun status => ih status

theorem uncounted_pollUntil (accept : State → Bool) : Uncounted (c.pollUntil accept) :=
  (uncounted_getStatus c).bind fun status => uncounted_pollFrom c accept _ status

theorem uncounted_abortToIdle : Uncounted c.abortToIdle := by
  have hend : ∀ state : State, Uncounted
      (if state = .dfuIdle then pure () else throw (.protocol (.notIdle state)) : Exchange Unit) := by
    intro state
    split <;> trivial
  refine (uncounted_abort c).bind fun _ => (uncounted_getState c).bind fun state => ?_
  dsimp only
  split
  · exact (uncounted_clearStatus c).bind fun _ => (uncounted_getState c).bind hend
  · exact hend state

end Requests

/-! ## Transfers -/

section Transfers

variable (c : Connection)

theorem works_uploadFrom (size : Nat) (limit : Option Nat) (rounds : Nat) (block : UInt16)
    (data : Bytes) : Works (c.uploadFrom size limit rounds block data) := by
  induction rounds generalizing block data with
  | zero => trivial
  | succ rounds ih =>
    refine (uncounted_fetch c _ _ _).works.bind fun got => (works_say _ _).bind fun _ =>
      (works_progress _ _).bind fun _ => ?_
    split
    · trivial
    · exact ih _ _

theorem works_readBlocks (size : UInt16) (limit : Option Nat) (first : UInt16) :
    Works (c.readBlocks size limit first) := by
  refine (works_say _ _).bind fun _ => (works_progress _ _).bind fun _ => ?_
  split
  · trivial
  · refine (works_uploadFrom c _ _ _ _ _).bind fun data => ?_
    have hend : Works (do
        say .info s!"Read {data.length} bytes"
        pure data : Exchange Bytes) :=
      (works_say _ _).bind fun _ => works_done data
    split
    · exact (uncounted_abortToIdle c).works.bind fun _ => hend
    · exact hend

theorem uncounted_sendChunk (block : UInt16) (chunk : Bytes) : Uncounted (c.sendChunk block chunk) := by
  refine (uncounted_send c _ _ _).bind fun written => (uncounted_say _ _).bind fun _ =>
    (uncounted_pollUntil c _).bind fun status => (uncounted_ofExcept _).bind fun _ => ?_
  split <;> trivial

theorem works_sendChunks (total : Nat) (block : UInt16) (sent : Nat) (chunks : List Bytes) :
    Works (c.sendChunks total block sent chunks) := by
  induction chunks generalizing block sent with
  | nil => trivial
  | cons chunk rest ih =>
    exact (uncounted_sendChunk c block chunk).works.bind fun _ =>
      (works_progress _ _).bind fun _ => ih _ _

theorem uncounted_awaitManifested : Uncounted c.awaitManifested := by
  refine (uncounted_pollUntil c _).attempt.bind fun r => ?_
  cases r with
  | ok status =>
    dsimp only
    split
    · exact (uncounted_say _ _).bind fun _ => uncounted_ofExcept _
    · exact uncounted_ofExcept _
  | error e =>
    dsimp only
    split
    · exact uncounted_say _ _
    · exact uncounted_fail e

theorem uncounted_triggerManifestation : Uncounted c.triggerManifestation := by
  refine (uncounted_getStatus c).attempt.bind fun r => ?_
  cases r <;> exact uncounted_say _ _

theorem uncounted_resetAfterDownload : Uncounted Connection.resetAfterDownload := by
  refine uncounted_reset.attempt.bind fun r => ?_
  cases r with
  | ok u => exact uncounted_done ()
  | error e =>
    dsimp only
    split
    · exact uncounted_say _ _
    · exact uncounted_fail e

theorem works_writeBlocks (size : UInt16) (image : Bytes) (tolerant : Bool) :
    Works (c.writeBlocks size image tolerant) := by
  refine (works_say _ _).bind fun _ => (works_progress _ _).bind fun _ =>
    (works_sendChunks c _ _ _ _).bind fun block => (works_say _ _).bind fun _ =>
    (uncounted_send c _ _ _).works.bind fun _ => (works_say _ _).bind fun _ =>
    (works_say _ _).bind fun _ => ?_
  cases tolerant with
  | true => exact (uncounted_awaitManifested c).works.bind fun _ => uncounted_resetAfterDownload.works
  | false => exact (uncounted_triggerManifestation c).works.bind fun _ => uncounted_resetAfterDownload.works

theorem uncounted_command (cmd : Command) : Uncounted (c.command cmd) := by
  refine (uncounted_send c _ _ _).bind fun _ => (uncounted_pollUntil c _).bind fun status => ?_
  split <;> trivial

theorem works_eraseSteps (total erased : Nat) (steps : List EraseStep) :
    Works (c.eraseSteps total erased steps) := by
  induction steps generalizing erased with
  | nil => trivial
  | cons step rest ih =>
    cases step with
    | erase address size =>
      exact (works_say _ _).bind fun _ => (uncounted_command c _).works.bind fun _ =>
        (works_progress _ _).bind fun _ => ih _
    | skip start stop => exact (works_progress _ _).bind fun _ => ih _

theorem uncounted_sendChunkAt (address : Nat) (chunk : Bytes) : Uncounted (c.sendChunkAt address chunk) :=
  (uncounted_command c _).bind fun _ => (uncounted_say _ _).bind fun _ => uncounted_sendChunk c _ chunk

theorem works_sendChunksAt (total address sent : Nat) (chunks : List Bytes) :
    Works (c.sendChunksAt total address sent chunks) := by
  induction chunks generalizing address sent with
  | nil => trivial
  | cons chunk rest ih =>
    exact (uncounted_sendChunkAt c address chunk).works.bind fun _ =>
      (works_progress _ _).bind fun _ => ih _ _

theorem uncounted_manifestAt (start : Nat) : Uncounted (c.manifestAt start) := by
  refine (uncounted_command c _).bind fun _ => (uncounted_send c _ _ _).bind fun _ =>
    (uncounted_pollUntil c _).attempt.bind fun r => ?_
  cases r with
  | ok status =>
    dsimp only
    split <;> exact uncounted_say _ _
  | error e => exact uncounted_say _ _

theorem uncounted_resolveStart (t : DfuseTransfer) (strict : Bool) :
    Uncounted (t.resolveStart strict) := by
  refine (uncounted_ofExcept _).bind fun m => ?_
  split
  · exact (uncounted_say _ _).bind fun _ => uncounted_done _
  · split
    · trivial
    · split
      · trivial
      · exact (uncounted_say _ _).bind fun _ => uncounted_done _

theorem works_erase (t : DfuseTransfer) (start length : Nat) :
    Works (t.erase c start length) := by
  refine (works_ofExcept _).bind fun m => (works_ofExcept _).bind fun plan => ?_
  dsimp only
  split
  · exact (works_progress _ _).bind fun _ => works_eraseSteps c _ _ _
  · exact works_eraseSteps c _ _ _

theorem works_dfuseDownload (t : DfuseTransfer) (image : Bytes) :
    Works (t.download c image) := by
  refine (works_ofExcept _).bind fun _ => (works_say _ _).bind fun _ =>
    (uncounted_resolveStart t true).works.bind fun start => ?_
  split
  · trivial
  · exact (works_erase c t start _).bind fun _ => (works_say _ _).bind fun _ =>
      (works_progress _ _).bind fun _ => (works_sendChunksAt c _ _ _ _).bind fun _ =>
      (works_say _ _).bind fun _ => (works_say _ _).bind fun _ => (uncounted_manifestAt c start).works

theorem works_dfuseUpload (t : DfuseTransfer) (limit : Option Nat) :
    Works (t.upload c limit) := by
  refine (uncounted_resolveStart t false).works.bind fun start => ?_
  have hread : Works (do
      c.command (.setAddress start)
      c.abortToIdle
      c.readBlocks c.transferSize limit Connection.firstDataBlock) :=
    (uncounted_command c _).works.bind fun _ => (uncounted_abortToIdle c).works.bind fun _ =>
      works_readBlocks c _ _ _
  have hstate : Works (do
      if (← c.getState) ≠ .dfuIdle then c.abortToIdle
      c.command (.setAddress start)
      c.abortToIdle
      c.readBlocks c.transferSize limit Connection.firstDataBlock) := by
    refine (uncounted_getState c).works.bind fun state => ?_
    split
    · exact (uncounted_abortToIdle c).works.bind fun _ => hread
    · exact hread
  cases limit <;> exact (works_say _ _).bind fun _ => hstate

theorem works_download (s : Strategy) (image : Bytes) (tolerant : Bool) :
    Works (s.download c image tolerant) := by
  cases s with
  | plain => exact works_writeBlocks c _ image tolerant
  | dfuse t => exact works_dfuseDownload c t image

theorem works_upload (s : Strategy) (limit : Option Nat) : Works (s.upload c limit) := by
  cases s with
  | plain => exact works_readBlocks c _ limit 0
  | dfuse t => exact works_dfuseUpload c t limit

end Transfers

/-! ## Discovery -/

section Discovery

theorem errand_readDescriptor (type index : UInt8) (language length : UInt16) :
    Errand (readDescriptor type index language length) :=
  errand_ofTransport (c := .controlIn _ _) trivial id

theorem errand_readDeviceDescriptor : Errand readDeviceDescriptor :=
  (errand_readDescriptor _ _ _ _).bind fun _ => errand_ofExcept _

theorem errand_readConfiguration (index : UInt8) : Errand (readConfiguration index) := by
  refine (errand_readDescriptor _ _ _ _).bind fun header => ?_
  split
  · exact (errand_readDescriptor _ _ _ _).bind fun _ => errand_ofExcept _
  · exact errand_fail _

theorem errand_readText (index : UInt8) (language : UInt16) : Errand (readText index language) := by
  refine (errand_readDescriptor _ _ _ _).bind fun header => ?_
  cases header with
  | nil => exact errand_fail _
  | cons length _ => exact (errand_readDescriptor _ _ _ _).bind fun _ => errand_ofExcept _

variable {ε : Type}

theorem errand_readName (index : UInt8) :
    Errand (readName index : Dialogue Query.Answer ε (Option String)) := by
  refine (errand_readText index _).attempt.bind fun r => ?_
  cases r with
  | error e => exact (errand_note _ _).bind fun _ => errand_done none
  | ok text => cases text <;> exact errand_done _

/-- The name under an index, and what is made of it; none without an index. -/
theorem errand_readName_unless {α : Type} {index : UInt8}
    {f : Option String → Dialogue Query.Answer ε α} (hf : ∀ name, Errand (f name)) :
    Errand (if index = 0 then f none else readName index >>= f) := by
  split
  · exact hf none
  · exact (errand_readName index).bind hf

theorem errand_readInterfaceNames (configuration : UInt8) (is : List InterfaceDescriptor)
    (names : Names) :
    Errand (readInterfaceNames configuration is names : Dialogue Query.Answer ε Names) := by
  induction is generalizing names with
  | nil => exact errand_done names
  | cons i rest ih => exact errand_readName_unless fun _ => ih _

theorem errand_readNamesOf (indices : List UInt8) (names : Names) :
    Errand (readNamesOf indices names : Dialogue Query.Answer ε Names) := by
  induction indices generalizing names with
  | nil => exact errand_done names
  | cons index rest ih =>
    refine (errand_readConfiguration index).attempt.bind fun r => ?_
    cases r with
    | ok c => exact (errand_readInterfaceNames _ _ _).bind fun _ => ih _
    | error e => exact (errand_note _ _).bind fun _ => ih _

theorem errand_claimAlternate (configuration number alternate : UInt8) :
    Errand (do
      Exchange.selectConfiguration configuration
      Exchange.claimInterface number
      Exchange.selectAlternate number alternate) :=
  (errand_ofTransport (c := .selectConfiguration _) trivial id).bind fun _ =>
    (errand_ofTransport (c := .claimInterface _) trivial id).bind fun _ =>
    errand_ofTransport (c := .selectAlternate _ _) trivial id

theorem errand_completeNames (count : UInt8) (settings : List AltSetting) :
    Errand (completeNames count settings) := by
  unfold completeNames
  split
  · exact errand_done _
  · split
    · refine (errand_claimAlternate _ _ _).attempt.bind fun r => ?_
      cases r with
      | ok u => exact (errand_readNamesOf _ _).bind fun _ => errand_done _
      | error e => exact (errand_note _ _).bind fun _ => errand_done _
    · exact errand_done _

theorem errand_readConfigurations (indices : List UInt8) : Errand (readConfigurations indices) := by
  induction indices with
  | nil => exact errand_done []
  | cons index rest ih =>
    exact (errand_readConfiguration index).bind fun _ => ih.bind fun _ => errand_done _

theorem errand_nameSettings (settings : List AltSetting) : Errand (nameSettings settings) := by
  induction settings with
  | nil => exact errand_done []
  | cons s rest ih => exact errand_readName_unless fun _ => ih.bind fun _ => errand_done _

theorem Device.errand_read : Errand Device.read :=
  errand_readDeviceDescriptor.bind fun _ => (errand_readConfigurations _).bind fun _ =>
    (errand_nameSettings _).bind fun _ => (errand_completeNames _ _).bind fun _ => errand_done _

end Discovery

/-! ## Sessions -/

namespace Session

theorem works_leaveError (c : Connection) : Works (leaveError c) := by
  refine (uncounted_getStatus c).works.bind fun status => ?_
  split
  · exact (uncounted_clearStatus c).works
  · trivial

theorem works_requestDetach (s : Session) : Works s.requestDetach := by
  have hdetach : Works s.connection.detach :=
    (uncounted_send s.connection _ _ _).works.bind fun _ => works_done ()
  refine (works_say _ _).bind fun _ => hdetach.bind fun _ => ?_
  split
  · trivial
  · refine uncounted_reset.works.attempt.bind fun r => ?_
    cases r with
    | ok u => exact works_done ()
    | error e =>
      dsimp only
      split <;> trivial

theorem works_claim (setting : AltSetting) : Works (claim setting) :=
  (errand_claimAlternate _ _ _).works

theorem routine_openAndClaim (setting : AltSetting) : Routine (openAndClaim setting) := by
  have hopen : Routine Exchange.openDevice := ⟨trivial, fun _ => (works_ofExcept _).routine⟩
  refine hopen.bind fun _ => (works_claim setting).attempt.routine.bind fun r => ?_
  cases r with
  | ok u => trivial
  | error e => exact ⟨trivial, fun _ => trivial⟩

theorem works_agreeOn (functional? : Option Functional) : Works (agreeOn functional?) := by
  cases functional? with
  | some f => exact (works_note _ _).bind fun _ => works_done f
  | none => exact (works_say _ _).bind fun _ => works_done _

theorem works_subscribe : Works subscribe := by
  have hwatch : Works (Exchange.perform .watch : Exchange (Except TransportError Subscription)) :=
    ⟨trivial, fun _ => trivial⟩
  refine hwatch.bind fun r => ?_
  cases r with
  | ok s => exact works_done _
  | error e => exact (works_note _ _).bind fun _ => works_done _

theorem works_readMemory (setting : AltSetting) : Works (readMemory setting) := by
  unfold readMemory
  split
  · trivial
  · exact (works_say _ _).bind fun _ => works_done _
  · trivial

theorem works_describeMemory (m : MemoryMap) : Works (describeMemory m) := by
  refine (works_say _ _).bind fun _ => ?_
  induction m.segments with
  | nil => trivial
  | cons s rest ih =>
    exact ((works_compute s.describe).bind fun line => works_say .debug line).bind fun _ => ih

theorem works_chooseStart (options : SessionOptions) (m : MemoryMap) :
    Works (chooseStart options m) := by
  unfold chooseStart
  split
  · trivial
  · trivial
  · split
    · exact (works_note _ _).bind fun _ => works_done _
    · trivial

theorem works_dfuseTransfer (setting : AltSetting) (options : SessionOptions) :
    Works (dfuseTransfer setting options) := by
  refine (works_readMemory setting).bind fun memory? => ?_
  cases memory? with
  | none => trivial
  | some m =>
    refine (works_describeMemory m).bind fun _ => (works_chooseStart options m).bind fun start? => ?_
    cases start? with
    | some address => exact (works_noteComputed _ _).bind fun _ => works_done _
    | none => trivial

/-- Connecting says nothing of departures and ends with a connected session on the device. -/
theorem within_connect (id : DeviceId) (device : Device) (options : SessionOptions) :
    (connect id device options).Within Query.IsRoutine
      fun s => s.deviceId = id ∧ s.activity = .connected := by
  have hend : ∀ (setting : AltSetting) (functional : Functional) (watching : Option Subscription)
      (strategy : Strategy), Dialogue.Within Query.IsRoutine
        (fun s => s.deviceId = id ∧ s.activity = .connected) (do
          say .debug s!"Claimed {setting.describe}"
          say .info "The selected device has been connected."
          pure
            { connection := .new setting.interface
                (options.transferSize.getD functional.transferSize) options.patience
              deviceId := id
              setting := setting
              functional := functional
              strategy := strategy
              watching := watching
              activity := .connected
              disconnectTimeout := options.disconnectTimeout } : Exchange Session) :=
    fun setting functional watching strategy =>
      (works_say _ _).routine.bind_within fun _ =>
        (works_say _ _).routine.bind_within fun _ => ⟨rfl, rfl⟩
  refine (works_ofExcept _).routine.bind_within fun setting =>
    (routine_openAndClaim setting).bind_within fun _ =>
    (works_agreeOn _).routine.bind_within fun functional =>
    works_subscribe.routine.bind_within fun watching => ?_
  dsimp only
  split
  · refine Routine.bind_within ((works_dfuseTransfer setting options).bind fun t =>
      works_done (Strategy.dfuse t)).routine fun strategy => ?_
    exact hend setting functional watching strategy
  · exact hend setting functional watching .plain

end Session
end UsbDfu
