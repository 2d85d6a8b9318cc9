import UsbDfu.Bench.Board
import UsbDfu.Connection

/-!
# Transactions

What an exchange looks like from the device: the calls made on it with what came back, each DFU
request by its name, reports and log lines left out.

- `trace_bind_done_iff`, `trace_bind_pure_iff`, `trace_attempt_iff`: the conversations of a dialogue of any
  kind and of what is made of its end.
- `Transacts d ws o`: the dialogue `d` can make exactly the calls `ws` and end with `o`. A call may
  return anything, so what holds of all these `ws` holds for every device and every failure.
- `transacts_bind_iff` splits the calls of a composed dialogue; reports and log lines drop out by
  `simp` (`transacts_say_bind`, `transacts_progress_bind`, `transacts_note_bind`).
- `transacts_download`, `transacts_getStatus` and their like: the one call of a request.
- `transacts_transcript`: the calls that an answering machine gets.
-/

namespace UsbDfu

open Dialogue

/-! ## Outcomes -/

namespace Outcome

variable {ε ε' α β : Type}

/-- The end of a dialogue that has this result. -/
def ofExcept : Except ε α → Outcome ε α
  | .ok a => .done a
  | .error e => .failed e

/-- The outcome with another value. -/
def map (f : α → β) : Outcome ε α → Outcome ε β
  | .done a => .done (f a)
  | .failed e => .failed e
  | .exhausted => .exhausted

/-- The outcome once a failure has been turned into a value. -/
def attempt : Outcome ε α → Outcome ε' (Except ε α)
  | .done a => .done (.ok a)
  | .failed e => .done (.error e)
  | .exhausted => .exhausted

/-- The dialogue that ends so without a question. -/
def silent {Q : Type} {A : Q → Type} : Outcome ε α → Dialogue A ε α
  | .done a => .done a
  | .failed e => .fail e
  | .exhausted => .exhausted

@[simp] theorem ofExcept_ok (a : α) : (ofExcept (.ok a) : Outcome ε α) = .done a := rfl

@[simp] theorem ofExcept_error (e : ε) : (ofExcept (.error e) : Outcome ε α) = .failed e := rfl

@[simp] theorem map_unit (r : Outcome ε Unit) : (r.map fun _ => ()) = r := by
  cases r <;> rfl

theorem map_eq_done_iff {f : α → β} {r : Outcome ε α} {b : β} :
    r.map f = .done b ↔ ∃ a, r = .done a ∧ f a = b := by
  cases r with
  | done a =>
    constructor
    · exact fun h => ⟨a, rfl, Outcome.done.inj h⟩
    · rintro ⟨_, ⟨⟩, rfl⟩
      rfl
  | failed | exhausted => exact iff_of_false nofun (by rintro ⟨_, ⟨⟩, -⟩)

end Outcome

@[simp] theorem mapError_ok (f : ε → ε') (a : α) :
    (Except.ok a : Except ε α).mapError f = .ok a := rfl

@[simp] theorem mapError_error (f : ε → ε') (e : ε) :
    (Except.error e : Except ε α).mapError f = .error (f e) := rfl

/-! ## Conversations of composed dialogues -/

section Conversations

variable {Q : Type} {A : Q → Type} {ε ε' α β : Type} {d : Dialogue A ε α} {ts : List (Turn A)}

theorem trace_ofExcept_iff {r : Except ε α} {o : Outcome ε α} :
    Trace (Dialogue.ofExcept r : Dialogue A ε α) ts o ↔ ts = [] ∧ o = .ofExcept r := by
  cases r with
  | ok a => exact trace_done_iff
  | error e => exact trace_fail_iff

/-- What came to a value came through its first part to a value. -/
theorem trace_bind_done_iff {f : α → Dialogue A ε β} {b : β} :
    Trace (d >>= f) ts (.done b) ↔
      ∃ a t₁ t₂, Trace d t₁ (.done a) ∧ Trace (f a) t₂ (.done b) ∧ ts = t₁ ++ t₂ := by
  rw [trace_bind_iff]
  constructor
  · rintro (h | ⟨e, -, ho⟩ | ⟨-, ho⟩)
    · exact h
    · cases ho
    · cases ho
  · exact .inl

/-- A computation that the dialogue went on with had a result. -/
theorem trace_compute_done_iff {r : Checked Empty α} :
    Trace (compute r : Dialogue A ε α) ts (.done a) ↔ ts = [] ∧ r = .ok a := by
  cases r with
  | ok b =>
    rw [compute, trace_done_iff, Outcome.done.injEq, Except.ok.injEq]
    exact and_congr_right fun _ => eq_comm
  | error e => exact iff_of_false (fun h => by cases h) fun h => by cases h.2

/-- What is made of a value asks nothing. -/
theorem trace_bind_pure_iff {f : α → β} {o : Outcome ε β} :
    Trace (d >>= fun a => pure (f a)) ts o ↔ ∃ r, Trace d ts r ∧ o = r.map f := by
  rw [trace_bind_iff]
  constructor
  · rintro (⟨a, t₁, t₂, hd, hend, rfl⟩ | ⟨e, hd, rfl⟩ | ⟨hd, rfl⟩)
    · obtain ⟨rfl, rfl⟩ := trace_done_iff.1 hend
      exact ⟨.done a, by rwa [List.append_nil], rfl⟩
    · exact ⟨.failed e, hd, rfl⟩
    · exact ⟨.exhausted, hd, rfl⟩
  · rintro ⟨r, hd, rfl⟩
    cases r with
    | done a => exact .inl ⟨a, ts, [], hd, .done (f a), (List.append_nil ts).symm⟩
    | failed e => exact .inr (.inl ⟨e, hd, rfl⟩)
    | exhausted => exact .inr (.inr ⟨hd, rfl⟩)

/-- A dialogue whose failure is turned into a value has the same conversations. -/
theorem trace_attempt_iff {o : Outcome ε' (Except ε α)} :
    Trace d.attempt ts o ↔ ∃ r, Trace d ts r ∧ o = r.attempt := by
  constructor
  · intro h
    induction d generalizing ts with
    | done a =>
      obtain ⟨rfl, rfl⟩ := trace_done_iff.1 h
      exact ⟨_, .done a, rfl⟩
    | fail e =>
      obtain ⟨rfl, rfl⟩ := trace_done_iff.1 h
      exact ⟨_, .fail e, rfl⟩
    | exhausted =>
      obtain ⟨rfl, rfl⟩ := trace_exhausted_iff.1 h
      exact ⟨_, .exhausted, rfl⟩
    | ask q next ih =>
      obtain ⟨answer, rest, rfl, hr⟩ := trace_ask_iff.1 h
      obtain ⟨r, hd, rfl⟩ := ih answer hr
      exact ⟨r, .ask answer hd, rfl⟩
  · rintro ⟨r, h, rfl⟩
    induction h with
    | done a => exact .done (Except.ok a)
    | fail e => exact .done (Except.error e)
    | exhausted => exact .exhausted
    | ask answer _ ih => exact .ask answer ih

end Conversations

/-! ## Calls on the device -/

/-- One call on a device with its reply; the replies to GETSTATUS and GETSTATE as they are read. -/
inductive Transaction where
  | download (block : UInt16) (data : Bytes) (reply : Except TransportError Nat)
  | upload (block length : UInt16) (reply : Except TransportError Bytes)
  | status (reply : Except Failure Status)
  | state (reply : Except Failure State)
  | clearStatus (reply : Except TransportError Nat)
  | abort (reply : Except TransportError Nat)
  | reset (reply : Except TransportError Unit)
  | other (c : Call) (reply : c.Reply)

/-- How the reply to GETSTATUS is read. -/
def Status.read : Except TransportError Bytes → Except Failure Status
  | .error e => .error (.transport e)
  | .ok data =>
    match Status.ofBytes? data with
    | some s => .ok s
    | none => .error (.protocol (.shortResponse .status data.length))

/-- How the reply to GETSTATE is read. -/
def State.read : Except TransportError Bytes → Except Failure State
  | .error e => .error (.transport e)
  | .ok (code :: _) => .ok (State.ofCode code)
  | .ok [] => .error (.protocol (.shortResponse .state 0))

namespace Transaction

/-- A class request to the device that carries data. -/
def ofOut (r : Request) (data : Bytes) (reply : Except TransportError Nat) : Transaction :=
  if r.request = Connection.downloadRequest then .download r.value data reply
  else if r.request = Connection.clearStatusRequest then .clearStatus reply
  else if r.request = Connection.abortRequest then .abort reply
  else .other (.controlOut r data) reply

/-- A class request that the device answers with data. -/
def ofIn (r : Request) (length : UInt16) (reply : Except TransportError Bytes) : Transaction :=
  if r.request = Connection.uploadRequest then .upload r.value length reply
  else if r.request = Connection.getStatusRequest then .status (Status.read reply)
  else if r.request = Connection.getStateRequest then .state (State.read reply)
  else .other (.controlIn r length) reply

/-- The call by its meaning in the protocol, with its answer. -/
def ofCall : (c : Call) → c.Reply → Transaction
  | .controlOut r data, reply =>
    if r.type = .classSpecific then ofOut r data reply else .other (.controlOut r data) reply
  | .controlIn r length, reply =>
    if r.type = .classSpecific then ofIn r length reply else .other (.controlIn r length) reply
  | .reset, reply => .reset reply
  | c, reply => .other c reply

/-- The call of a turn; a report, a log line or news is none. -/
def ofTurn? : Turn Query.Answer → Option Transaction
  | ⟨.call c, reply⟩ => some (ofCall c reply)
  | _ => none

/-- The block and the data of a DNLOAD. -/
def download? : Transaction → Option (UInt16 × Bytes)
  | .download block data _ => some (block, data)
  | _ => none

/-- The call asks for the status. -/
def isStatus : Transaction → Bool
  | .status _ => true
  | _ => false

/-- The call resets the bus. -/
def isReset : Transaction → Bool
  | .reset _ => true
  | _ => false

@[simp] theorem isStatus_download (block : UInt16) (data : Bytes)
    (reply : Except TransportError Nat) : (download block data reply).isStatus = false := rfl

theorem isReset_of_isStatus {w : Transaction} (h : w.isStatus = true) : w.isReset = false := by
  cases w with
  | reset => cases h
  | _ => rfl

@[simp] theorem isStatus_status (reply : Except Failure Status) :
    (status reply).isStatus = true := rfl

end Transaction

/-- The calls of a conversation, in order. -/
def transactions (ts : List (Turn Query.Answer)) : List Transaction :=
  ts.filterMap Transaction.ofTurn?

/-- The blocks that were sent, in order, whatever became of them. -/
def downloads (ws : List Transaction) : List (UInt16 × Bytes) :=
  ws.filterMap Transaction.download?

@[simp] theorem downloads_nil : downloads [] = [] := rfl

@[simp] theorem downloads_append (ws ws' : List Transaction) :
    downloads (ws ++ ws') = downloads ws ++ downloads ws' :=
  List.filterMap_append

@[simp] theorem downloads_download (block : UInt16) (data : Bytes)
    (reply : Except TransportError Nat) (ws : List Transaction) :
    downloads (.download block data reply :: ws) = (block, data) :: downloads ws := rfl

theorem mem_downloads_iff {ws : List Transaction} {block : UInt16} {data : Bytes} :
    (block, data) ∈ downloads ws ↔ ∃ reply, .download block data reply ∈ ws := by
  rw [downloads, List.mem_filterMap]
  constructor
  · rintro ⟨w, hw, h⟩
    cases w with
    | download block data reply =>
      cases h
      exact ⟨reply, hw⟩
    | _ => cases h
  · rintro ⟨reply, hw⟩
    exact ⟨_, hw, rfl⟩

/-! ## The calls a dialogue can make -/

/-- The dialogue can make exactly these calls, with these replies, and end so. -/
def Transacts {ε α : Type} (d : Dialogue Query.Answer ε α) (ws : List Transaction)
    (o : Outcome ε α) : Prop :=
  ∃ ts, Trace d ts o ∧ transactions ts = ws

section Rules

variable {ε ε' α β : Type} {ws : List Transaction}

theorem transacts_done_iff {a : α} {o : Outcome ε α} :
    Transacts (.done a) ws o ↔ ws = [] ∧ o = .done a := by
  constructor
  · rintro ⟨ts, h, rfl⟩
    obtain ⟨rfl, rfl⟩ := trace_done_iff.1 h
    exact ⟨rfl, rfl⟩
  · rintro ⟨rfl, rfl⟩
    exact ⟨[], .done a, rfl⟩

theorem transacts_fail_iff {e : ε} {o : Outcome ε α} :
    Transacts (.fail e) ws o ↔ ws = [] ∧ o = .failed e := by
  constructor
  · rintro ⟨ts, h, rfl⟩
    obtain ⟨rfl, rfl⟩ := trace_fail_iff.1 h
    exact ⟨rfl, rfl⟩
  · rintro ⟨rfl, rfl⟩
    exact ⟨[], .fail e, rfl⟩

theorem transacts_exhausted_iff {o : Outcome ε α} :
    Transacts .exhausted ws o ↔ ws = [] ∧ o = .exhausted := by
  constructor
  · rintro ⟨ts, h, rfl⟩
    obtain ⟨rfl, rfl⟩ := trace_exhausted_iff.1 h
    exact ⟨rfl, rfl⟩
  · rintro ⟨rfl, rfl⟩
    exact ⟨[], .exhausted, rfl⟩

theorem transacts_ofExcept_iff {r : Except ε α} {o : Outcome ε α} :
    Transacts (Dialogue.ofExcept r) ws o ↔ ws = [] ∧ o = .ofExcept r := by
  cases r with
  | ok a => exact transacts_done_iff
  | error e => exact transacts_fail_iff

/-- The calls of a composed dialogue are those of its first part, and then those of the second
part, if the first one ends with a value. -/
theorem transacts_bind_iff {d : Dialogue Query.Answer ε α} {f : α → Dialogue Query.Answer ε β}
    {o : Outcome ε β} :
    Transacts (d >>= f) ws o ↔
      ∃ r w₁ w₂, Transacts d w₁ r ∧ Transacts (r.silent >>= f) w₂ o ∧ ws = w₁ ++ w₂ := by
  constructor
  · rintro ⟨ts, ht, rfl⟩
    rcases trace_bind_iff.1 ht with ⟨a, t₁, t₂, h₁, h₂, rfl⟩ | ⟨e, he, rfl⟩ | ⟨he, rfl⟩
    · exact ⟨.done a, _, _, ⟨t₁, h₁, rfl⟩, ⟨t₂, h₂, rfl⟩, List.filterMap_append⟩
    · exact ⟨.failed e, _, [], ⟨ts, he, rfl⟩, transacts_fail_iff.2 ⟨rfl, rfl⟩,
        (List.append_nil _).symm⟩
    · exact ⟨.exhausted, _, [], ⟨ts, he, rfl⟩, transacts_exhausted_iff.2 ⟨rfl, rfl⟩,
        (List.append_nil _).symm⟩
  · rintro ⟨r, w₁, w₂, ⟨t₁, h₁, rfl⟩, h₂, rfl⟩
    cases r with
    | done a =>
      obtain ⟨t₂, h₂, rfl⟩ := h₂
      exact ⟨t₁ ++ t₂, trace_bind_iff.2 (.inl ⟨a, t₁, t₂, h₁, h₂, rfl⟩), List.filterMap_append⟩
    | failed e =>
      obtain ⟨rfl, rfl⟩ := transacts_fail_iff.1 h₂
      exact ⟨t₁, trace_bind_iff.2 (.inr (.inl ⟨e, h₁, rfl⟩)), (List.append_nil _).symm⟩
    | exhausted =>
      obtain ⟨rfl, rfl⟩ := transacts_exhausted_iff.1 h₂
      exact ⟨t₁, trace_bind_iff.2 (.inr (.inr ⟨h₁, rfl⟩)), (List.append_nil _).symm⟩

theorem transacts_bind_of_failed {d : Dialogue Query.Answer ε α} {f : α → Dialogue Query.Answer ε β}
    {e : ε} (h : Transacts d ws (.failed e)) : Transacts (d >>= f) ws (.failed e) :=
  transacts_bind_iff.2 ⟨.failed e, ws, [], h, transacts_fail_iff.2 ⟨rfl, rfl⟩,
    (List.append_nil ws).symm⟩

theorem transacts_bind_pure {d : Dialogue Query.Answer ε α} {f : α → β} {b : β}
    (h : Transacts (d >>= fun a => pure (f a)) ws (.done b)) :
    ∃ a, Transacts d ws (.done a) ∧ b = f a := by
  obtain ⟨ts, ht, rfl⟩ := h
  obtain ⟨r, hr, ho⟩ := trace_bind_pure_iff.1 ht
  obtain ⟨a, rfl, rfl⟩ := Outcome.map_eq_done_iff.1 ho.symm
  exact ⟨a, ⟨ts, hr, rfl⟩, rfl⟩

/-- After a part that ended without a value nothing more is called. -/
theorem transacts_silent_bind {r : Outcome ε Unit} {f : Unit → α} {g : α → Dialogue Query.Answer ε β}
    {o : Outcome ε β} (h : Transacts ((r.map f).silent >>= g) ws o) :
    (r = .done () ∧ Transacts (g (f ())) ws o) ∨
      (r ≠ .done () ∧ ws = [] ∧ ∀ b, o = r.map fun _ => b) := by
  cases r with
  | done u => exact .inl ⟨rfl, h⟩
  | failed e =>
    obtain ⟨rfl, rfl⟩ := transacts_fail_iff.1 h
    exact .inr ⟨nofun, rfl, fun _ => rfl⟩
  | exhausted =>
    obtain ⟨rfl, rfl⟩ := transacts_exhausted_iff.1 h
    exact .inr ⟨nofun, rfl, fun _ => rfl⟩

/-- A dialogue whose failure is turned into a value makes the same calls. -/
theorem transacts_attempt {d : Dialogue Query.Answer ε α} {o : Outcome ε' (Except ε α)}
    (h : Transacts d.attempt ws o) : ∃ r, Transacts d ws r ∧ o = r.attempt := by
  obtain ⟨ts, ht, rfl⟩ := h
  obtain ⟨r, hr, rfl⟩ := trace_attempt_iff.1 ht
  exact ⟨r, ⟨ts, hr, rfl⟩, rfl⟩

/-- A dialogue that goes on with its failures as with its values. -/
theorem transacts_attempt_bind {d : Dialogue Query.Answer ε α}
    {f : Except ε α → Dialogue Query.Answer Empty β} {b : β}
    (h : Transacts (d.attempt >>= f) ws (.done b)) :
    ∃ r w₁ w₂, Transacts d w₁ (.ofExcept r) ∧ Transacts (f r) w₂ (.done b) ∧ ws = w₁ ++ w₂ := by
  obtain ⟨_, w₁, w₂, h₁, h₂, rfl⟩ := transacts_bind_iff.1 h
  obtain ⟨r, hr, rfl⟩ := transacts_attempt h₁
  cases r with
  | done a => exact ⟨.ok a, w₁, w₂, hr, h₂, rfl⟩
  | failed e => exact ⟨.error e, w₁, w₂, hr, h₂, rfl⟩
  | exhausted => cases (transacts_exhausted_iff.1 h₂).2

/-! ## Reports and log lines -/

@[simp] theorem transacts_report_bind {r : Report} {f : Unit → Dialogue Query.Answer ε β}
    {o : Outcome ε β} : Transacts (Exchange.report r >>= f) ws o ↔ Transacts (f ()) ws o := by
  constructor
  · rintro ⟨ts, ht, rfl⟩
    obtain ⟨_, rest, rfl, hr⟩ := trace_ask_iff.1 ht
    exact ⟨rest, hr, rfl⟩
  · rintro ⟨ts, ht, rfl⟩
    exact ⟨⟨.report r, ()⟩ :: ts, trace_ask_iff.2 ⟨(), ts, rfl, ht⟩, rfl⟩

@[simp] theorem transacts_say_bind {level : Level} {text : String}
    {f : Unit → Dialogue Query.Answer ε β} {o : Outcome ε β} :
    Transacts (Exchange.say level text >>= f) ws o ↔ Transacts (f ()) ws o :=
  transacts_report_bind

@[simp] theorem transacts_progress_bind {done : Nat} {total : Option Nat}
    {f : Unit → Dialogue Query.Answer ε β} {o : Outcome ε β} :
    Transacts (Exchange.progress done total >>= f) ws o ↔ Transacts (f ()) ws o :=
  transacts_report_bind

@[simp] theorem transacts_note_bind {level : Level} {text : String}
    {f : Unit → Dialogue Query.Answer ε β} {o : Outcome ε β} :
    Transacts (Exchange.note level text >>= f) ws o ↔ Transacts (f ()) ws o := by
  constructor
  · rintro ⟨ts, ht, rfl⟩
    obtain ⟨_, rest, rfl, hr⟩ := trace_ask_iff.1 ht
    exact ⟨rest, hr, rfl⟩
  · rintro ⟨ts, ht, rfl⟩
    exact ⟨⟨.log ⟨level, text⟩, ()⟩ :: ts, trace_ask_iff.2 ⟨(), ts, rfl, ht⟩, rfl⟩

@[simp] theorem transacts_say_iff {level : Level} {text : String} {o : Outcome ε Unit} :
    Transacts (Exchange.say level text) ws o ↔ ws = [] ∧ o = .done () := by
  rw [← bind_done (Exchange.say level text), transacts_say_bind, transacts_done_iff]

/-! ## Results -/

@[simp] theorem Exchange.ofConfiguration_ok (a : α) : Exchange.ofConfiguration (.ok a) = .done a := rfl

@[simp] theorem Exchange.ofConfiguration_error (e : ConfigurationError) :
    (Exchange.ofConfiguration (.error e) : Exchange α) = .fail (.configuration e) := rfl

/-! ## Calls -/

/-- A dialogue that makes one call and ends as its reply is read. -/
theorem transacts_call {call : Call} {read : call.Reply → Except ε α} {o : Outcome ε α}
    (h : Transacts (Exchange.perform call >>= fun r => Dialogue.ofExcept (read r)) ws o) :
    ∃ reply, ws = [.ofCall call reply] ∧ o = .ofExcept (read reply) := by
  obtain ⟨ts, ht, rfl⟩ := h
  obtain ⟨reply, rest, rfl, hr⟩ := trace_ask_iff.1 ht
  obtain ⟨hw, rfl⟩ := transacts_ofExcept_iff.1 ⟨rest, hr, rfl⟩
  exact ⟨reply, congrArg (Transaction.ofCall call reply :: ·) hw, rfl⟩

end Rules

section Requests

variable {c : Connection} {ws : List Transaction}

theorem transacts_download {block : UInt16} {data : Bytes} {o : Outcome Failure Nat}
    (h : Transacts (c.download block data) ws o) :
    ∃ reply, ws = [.download block data reply] ∧ o = .ofExcept (reply.mapError .transport) :=
  transacts_call h

theorem getStatus_eq : c.getStatus =
    Exchange.perform (.controlIn (.ofClass Connection.getStatusRequest 0 c.interface)
      (UInt16.ofNat Status.size)) >>= fun r => Dialogue.ofExcept (Status.read r) := by
  refine (bind_assoc _ _ _).trans (congrArg _ (funext fun r => ?_))
  cases r with
  | error e => rfl
  | ok data =>
    simp only [Exchange.ofTransport, mapError_ok, Dialogue.ofExcept, done_bind, Status.read]
    cases Status.ofBytes? data <;> rfl

theorem transacts_getStatus {o : Outcome Failure Status} (h : Transacts c.getStatus ws o) :
    ∃ reply, ws = [.status reply] ∧ o = .ofExcept reply := by
  rw [getStatus_eq] at h
  obtain ⟨reply, rfl, rfl⟩ := transacts_call h
  exact ⟨Status.read reply, rfl, rfl⟩

theorem transacts_upload {block length : UInt16} {o : Outcome Failure Bytes}
    (h : Transacts (c.upload block length) ws o) :
    ∃ reply, ws = [.upload block length reply] ∧ o = .ofExcept (reply.mapError .transport) :=
  transacts_call h

theorem getState_eq : c.getState =
    Exchange.perform (.controlIn (.ofClass Connection.getStateRequest 0 c.interface) 1) >>=
      fun r => Dialogue.ofExcept (State.read r) := by
  refine (bind_assoc _ _ _).trans (congrArg _ (funext fun r => ?_))
  cases r with
  | error e => rfl
  | ok data => cases data <;> rfl

theorem transacts_getState {o : Outcome Failure State} (h : Transacts c.getState ws o) :
    ∃ reply, ws = [.state reply] ∧ o = .ofExcept reply := by
  rw [getState_eq] at h
  obtain ⟨reply, rfl, rfl⟩ := transacts_call h
  exact ⟨State.read reply, rfl, rfl⟩

/-- A request whose answer tells nothing but that it was taken. -/
theorem transacts_send_void {request : UInt8} {value : UInt16} {o : Outcome Failure Unit}
    (h : Transacts (c.send request value [] >>= fun _ => pure ()) ws o) :
    ∃ reply, ws = [.ofCall (.controlOut (.ofClass request value c.interface) []) reply] ∧
      o = .ofExcept ((reply.mapError .transport).map fun _ => ()) := by
  obtain ⟨r, w₁, w₂, h₁, h₂, rfl⟩ := transacts_bind_iff.1 h
  obtain ⟨reply, rfl, rfl⟩ := transacts_call h₁
  refine ⟨reply, ?_⟩
  cases reply with
  | ok taken =>
    obtain ⟨rfl, rfl⟩ := transacts_done_iff.1 h₂
    exact ⟨List.append_nil _, rfl⟩
  | error e =>
    obtain ⟨rfl, rfl⟩ := transacts_fail_iff.1 h₂
    exact ⟨List.append_nil _, rfl⟩

theorem transacts_abort {o : Outcome Failure Unit} (h : Transacts c.abort ws o) :
    ∃ reply, ws = [.abort reply] ∧ o = .ofExcept ((reply.mapError .transport).map fun _ => ()) :=
  transacts_send_void h

theorem transacts_clearStatus {o : Outcome Failure Unit} (h : Transacts c.clearStatus ws o) :
    ∃ reply, ws = [.clearStatus reply] ∧
      o = .ofExcept ((reply.mapError .transport).map fun _ => ()) :=
  transacts_send_void h

theorem transacts_reset {o : Outcome Failure Unit} (h : Transacts Exchange.reset ws o) :
    ∃ reply, ws = [.reset reply] ∧ o = .ofExcept (reply.mapError .transport) :=
  transacts_call h

end Requests

/-! ## Answering machines -/

namespace Dialogue

/-- The conversation with a machine that answers, and how it ends. -/
def transcript {Q : Type} {A : Q → Type} {ε α σ : Type} (serve : (q : Q) → σ → A q × σ) :
    Dialogue A ε α → σ → List (Turn A) × Outcome ε α
  | .done a, _ => ([], .done a)
  | .fail e, _ => ([], .failed e)
  | .exhausted, _ => ([], .exhausted)
  | .ask q next, s =>
    let (answer, s') := serve q s
    let (ts, o) := (next answer).transcript serve s'
    (⟨q, answer⟩ :: ts, o)

theorem trace_transcript {Q : Type} {A : Q → Type} {ε α σ : Type}
    (serve : (q : Q) → σ → A q × σ) (d : Dialogue A ε α) (s : σ) :
    Trace d (d.transcript serve s).1 (d.transcript serve s).2 := by
  induction d generalizing s with
  | done a => exact .done a
  | fail e => exact .fail e
  | exhausted => exact .exhausted
  | ask q next ih => exact .ask _ (ih _ _)

end Dialogue

theorem transacts_transcript {ε α σ : Type} (serve : (q : Query) → σ → q.Answer × σ)
    (d : Dialogue Query.Answer ε α) (s : σ) :
    Transacts d (transactions (d.transcript serve s).1) (d.transcript serve s).2 :=
  ⟨_, trace_transcript serve d s, rfl⟩

/-- A simulated device that is open and takes any number of transfers. -/
def Bench.SingleBoard.ofSimulator (s : Bench.Simulator) : Bench.SingleBoard :=
  .ofBoard { model := .simulator { s with isOpen := true }, budget := none }

end UsbDfu
