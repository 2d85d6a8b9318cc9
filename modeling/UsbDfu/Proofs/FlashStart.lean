import UsbDfu.Proofs.BusySafety
import UsbDfu.Proofs.Preflight

/-!
# The device that a flash finds

Before its first block a flash asks the device how it is, and clears an error. It looks into nothing
else: a device that is in the middle of an earlier download is sent the first block all the same.
From then on the device is only sent what it can take.

- `CallsNothing d`: the dialogue calls nothing. What a session does after a transfer is such.
- `Opening ws`: the calls that a flash begins with; `opening_leaveError`.
- `BeginsWithBlock ws`: a transfer begins with a block (`Strategy.beginsWithBlock`), in both families.
- `FlashCalls s image opening sent o`: all calls of a flash, and what holds of each block after the
  first. `flash_takes_device_as_found` says so of every flash from connecting on.
- `midwayBoard`: a device on which three flashes fail one after another.
- `StartsFromIdle ws`: the stronger wish, that the device is brought to rest first; on that board
  every retried flash breaks it (`flash_starts_midway`).
-/

namespace UsbDfu

open Dialogue
open Exchange (say)

/-! ## Talks without calls -/

/-- Whatever it is answered, the dialogue calls nothing. -/
def CallsNothing {ε α : Type} (d : Dialogue Query.Answer ε α) : Prop :=
  d.Within (fun q => q.isCall = false) fun _ => True

section CallsNothing

variable {ε α β : Type} {s : Session}

theorem CallsNothing.bind {d : Dialogue Query.Answer ε α} {f : α → Dialogue Query.Answer ε β}
    (hd : CallsNothing d) (hf : ∀ a, CallsNothing (f a)) : CallsNothing (d >>= f) :=
  Dialogue.Within.bind hd fun a _ => hf a

theorem CallsNothing.eq_nil {d : Dialogue Query.Answer ε α} {ws : List Transaction}
    {o : Outcome ε α} (hd : CallsNothing d) (h : Transacts d ws o) : ws = [] := by
  obtain ⟨ts, ht, rfl⟩ := h
  exact transactions_eq_nil (hd.of_trace ht).1

theorem callsNothing_done (a : α) : CallsNothing (.done a : Dialogue Query.Answer ε α) := trivial

theorem callsNothing_question {q : Query} (h : q.isCall = false) :
    CallsNothing (question q : Dialogue Query.Answer ε q.Answer) :=
  ⟨h, fun _ => trivial⟩

theorem callsNothing_say (level : Level) (text : String) :
    CallsNothing (say level text : Dialogue Query.Answer ε Unit) :=
  callsNothing_question rfl

namespace Session

theorem callsNothing_handleDeparture (s : Session) (id : DeviceId) :
    CallsNothing (s.handleDeparture id) := by
  unfold handleDeparture
  split
  · exact callsNothing_done _
  · refine (callsNothing_say _ _).bind fun _ => ?_
    exact (callsNothing_question rfl).bind fun _ => callsNothing_done _

theorem callsNothing_handleDepartures (ids : List DeviceId) (s : Session) :
    CallsNothing (handleDepartures ids s) := by
  induction ids generalizing s with
  | nil => exact callsNothing_done s
  | cons id rest ih => exact (s.callsNothing_handleDeparture id).bind fun r => ih r.2

theorem callsNothing_pollDepartures (s : Session) : CallsNothing s.pollDepartures := by
  unfold pollDepartures
  split
  · exact callsNothing_done s
  · exact (callsNothing_question rfl).bind fun ids => callsNothing_handleDepartures ids s

theorem callsNothing_awaitDeparture (s : Session) (timeout : Nat) :
    CallsNothing (s.awaitDeparture timeout) := by
  unfold awaitDeparture
  split
  · exact callsNothing_done _
  · split
    · exact (callsNothing_question rfl).bind fun _ => callsNothing_done _
    · refine (callsNothing_question rfl).bind fun left => ?_
      dsimp only
      split
      · exact (s.callsNothing_handleDeparture _).bind fun _ => callsNothing_done _
      · exact callsNothing_done _

theorem callsNothing_awaitReboot (s : Session) : CallsNothing s.awaitReboot := by
  refine (callsNothing_awaitDeparture _ _).bind fun r => ?_
  dsimp only
  split
  · exact (callsNothing_say _ _).bind fun _ => callsNothing_done _
  · exact (callsNothing_say _ _).bind fun _ => callsNothing_done _

/-- What comes after a download is no matter of the device. -/
theorem callsNothing_afterDownload (s : Session) (r : Except Failure Unit) :
    CallsNothing (s.afterDownload r) := by
  cases r with
  | error e => exact s.callsNothing_pollDepartures.bind fun _ => callsNothing_done _
  | ok u =>
    refine (callsNothing_say _ _).bind fun _ => ?_
    dsimp only
    split
    · exact s.callsNothing_pollDepartures.bind fun _ => callsNothing_done _
    · exact s.callsNothing_awaitReboot.bind fun _ => callsNothing_done _

end Session

end CallsNothing

/-! ## What a flash begins with -/

/-- The device was asked for its status, and was sent a CLRSTATUS exactly if it reported an error,
whatever came of it. -/
inductive Opening : List Transaction → Prop where
  | cleared {s : Status} (hs : s.state = .error) (reply : Except TransportError Nat) :
      Opening [.status (.ok s), .clearStatus reply]
  | asked {read : Except Failure Status} (hread : ∀ s, read = .ok s → s.state ≠ .error) :
      Opening [.status read]

theorem opening_leaveError {c : Connection} {ws : List Transaction} {o : Outcome Failure Unit}
    (h : Transacts (Session.leaveError c) ws o) : Opening ws ∧ o ≠ .exhausted := by
  obtain ⟨_, w₁, w₂, h₁, h₂, rfl⟩ := transacts_bind_iff.1 h
  obtain ⟨read, rfl, rfl⟩ := transacts_getStatus h₁
  cases read with
  | error e =>
    obtain ⟨rfl, rfl⟩ := transacts_fail_iff.1 h₂
    exact ⟨.asked (by simp), by simp⟩
  | ok s =>
    by_cases hs : s.state = .error
    · simp only [Outcome.ofExcept_ok, Outcome.silent, done_bind, hs, if_true] at h₂
      obtain ⟨reply, rfl, rfl⟩ := transacts_clearStatus h₂
      refine ⟨.cleared hs reply, ?_⟩
      cases reply <;> rintro ⟨⟩
    · simp only [Outcome.ofExcept_ok, Outcome.silent, done_bind, hs, if_false] at h₂
      obtain ⟨rfl, rfl⟩ := transacts_done_iff.1 h₂
      refine ⟨.asked ?_, by simp⟩
      rintro _ ⟨⟩
      exact hs

/-! ## The transfer -/

/-- The first call sends a block. -/
def BeginsWithBlock (ws : List Transaction) : Prop :=
  ∃ block data reply rest, ws = .download block data reply :: rest

section Transfer

variable {js : List Delivery} {ws : List Transaction} {o : Outcome Failure Unit}

theorem DeliveredAll.beginsWithBlock (hjs : js ≠ []) (h : DeliveredAll js ws o) :
    BeginsWithBlock ws := by
  obtain ⟨j, js, rfl⟩ := List.exists_cons_of_ne_nil hjs
  obtain ⟨reply, rest, rfl⟩ := h.eq_cons
  exact ⟨_, _, reply, rest, rfl⟩

theorem DeliveredToReset.beginsWithBlock (hjs : js ≠ []) (h : DeliveredToReset js ws o) :
    BeginsWithBlock ws := by
  rcases h with ⟨-, h⟩ | ⟨calls, reset, rfl, -, h⟩
  · exact h.beginsWithBlock hjs
  · obtain ⟨block, data, reply, rest, rfl⟩ := h.beginsWithBlock hjs
    exact ⟨block, data, reply, _, rfl⟩

/-- A transfer sends a block first, or is refused for what the host knows. -/
theorem Strategy.beginsWithBlock {s : Strategy} {c : Connection} {image : Bytes} {tolerant : Bool}
    (h : Transacts (s.download c image tolerant) ws o) :
    BeginsWithBlock ws ∨ ws = [] ∧ ∃ e, o = .failed (.configuration e) := by
  cases s with
  | plain => exact .inl ((deliveredToReset_writeBlocks h).beginsWithBlock (by simp [plainDeliveries]))
  | dfuse t =>
    by_cases hp : ∃ m start steps, t.Planned image.length m start steps
    · obtain ⟨m, start, steps, hp⟩ := hp
      exact .inl ((hp.deliveredAll h).beginsWithBlock (by simp [DfuseTransfer.deliveries]))
    · exact .inr (DfuseTransfer.eq_nil_of_not_planned (by simpa using hp) h)

/-- What any call of a transfer obeys. -/
def TransferRule (before : List Transaction) (w : Transaction) : Prop :=
  CanFollow before w ∨ BestEffort before w

theorem Strategy.obeys {s : Strategy} {c : Connection} {image : Bytes} {tolerant : Bool}
    (h : Transacts (s.download c image tolerant) ws o) : Obeys TransferRule ws o := by
  cases s with
  | plain => exact (keeps_writeBlocks (fun _ _ => .inl) (fun _ _ _ => .inr) _ _).obeys h
  | dfuse t => exact (keeps_dfuseDownload (fun _ _ => .inl) t image).obeys h

/-- The calls of a session before its transfer make no difference to what was reported last. -/
theorem lastReported?_append {before : List Transaction} {s : Status}
    (h : .status (.ok s) ∈ ws) : lastReported? (before ++ ws) = lastReported? ws := by
  have hne : ws.filterMap Transaction.reported? ≠ [] :=
    List.ne_nil_of_mem (List.mem_filterMap.2 ⟨_, h, rfl⟩)
  rw [lastReported?, lastReported?, List.filterMap_append, List.getLast?_append,
    List.getLast?_eq_some_getLast hne, Option.some_or]

/-- Each block after the first one is sent to a device that is done with those before it and was not
reported busy last. -/
theorem Obeys.later {before pre post : List Transaction} {w : Transaction}
    (h : Obeys TransferRule ws o) (hfirst : BeginsWithBlock ws) (hws : ws = pre ++ w :: post)
    (hw : w.isDownload = true) (hpre : pre ≠ []) :
    AllTakenIn pre ∧ lastReported? (before ++ pre) ≠ some .dnBusy := by
  have hfollow : CanFollow pre w := by
    rcases h.1 pre w post hws with hf | ⟨hreset, -⟩
    · exact hf
    · cases w with
      | reset => cases hw
      | _ => cases hreset
  have htaken := hfollow.takenIn hw
  obtain ⟨v, rest, rfl⟩ := List.exists_cons_of_ne_nil hpre
  obtain ⟨block, data, reply, _, hfirst⟩ := hfirst
  obtain ⟨rfl, -⟩ := List.cons.inj (hfirst.symm.trans hws)
  -- the status after the first block is what was reported last, or something after it is
  obtain ⟨s, hs, -⟩ := htaken [] block data reply rest rfl
  refine ⟨htaken, fun hbusy => ?_⟩
  rw [lastReported?_append (List.mem_cons_of_mem _ hs)] at hbusy
  have hquiet := (hfollow.quiet hbusy).1
  rw [hw] at hquiet
  cases hquiet

end Transfer

/-! ## A flash as a whole -/

/-- The calls of a flash that was not refused: those it opens with, and those of its transfer. -/
structure FlashCalls (s : Session) (image : Bytes) (before sent : List Transaction)
    (o : Outcome Empty (Except Failure Unit × Session)) : Prop where
  opening : Opening before
  /-- The transfer is the same whatever the device was found to be. -/
  transfer : ∃ r, Transacts
    (s.strategy.download s.connection image s.functional.manifestationTolerant) sent r
  /-- There is nothing between the opening and the first block, which is sent unless the host knows
  that the image does not fit. -/
  first : BeginsWithBlock sent ∨ sent = [] ∧ ∃ e s', o = .done (.error (.configuration e), s')
  /-- Each block after the first one is sent to a device that is done with those before it and was
  not reported busy last. -/
  later : ∀ pre w post, sent = pre ++ w :: post → w.isDownload = true → pre ≠ [] →
    AllTakenIn pre ∧ lastReported? (before ++ pre) ≠ some .dnBusy
  /-- A flash that ended did not leave its transfer while the device was busy. -/
  ended : o ≠ .exhausted → ¬ LeftBusy sent

namespace Session

variable {s : Session} {image : Bytes} {ws : List Transaction}
  {o : Outcome Empty (Except Failure Unit × Session)}

theorem refused_of_afterDownload {e : Failure}
    (h : Transacts ({ s with activity := .connected }.afterDownload (.error e)) ws o) :
    ∃ s', o = .done (.error e, s') := by
  have hconnected : { s with activity := .connected }.activity ≠ .disconnected := nofun
  obtain ⟨_, w₁, w₂, h₁, h₂, rfl⟩ := transacts_bind_iff.1 h
  obtain ⟨-, left, rfl⟩ := transacts_pollDepartures hconnected h₁
  exact ⟨_, (transacts_done_iff.1 h₂).2⟩

theorem flashCalls_of_flashConnected (h : Transacts (s.flashConnected image) ws o) :
    ∃ before sent, ws = before ++ sent ∧ FlashCalls s image before sent o := by
  rw [flashConnected_eq] at h
  obtain ⟨_, before, w₁, h₁, h₂, rfl⟩ := transacts_bind_iff.1 h
  obtain ⟨cleared, hcleared, rfl⟩ := transacts_attempt h₁
  obtain ⟨hopening, hends⟩ := opening_leaveError hcleared
  -- whether the error was left or not only shows in the log
  have hdownload : Transacts
      ((s.strategy.download s.connection image s.functional.manifestationTolerant).attempt >>=
        { s with activity := .connected }.afterDownload) w₁ o := by
    cases cleared with
    | done u => exact transacts_say_bind.1 h₂
    | failed e => exact transacts_say_bind.1 (transacts_say_bind.1 h₂)
    | exhausted => exact absurd rfl hends
  obtain ⟨_, sent, w₂, h₃, h₄, rfl⟩ := transacts_bind_iff.1 hdownload
  obtain ⟨r, hr, rfl⟩ := transacts_attempt h₃
  have hnil : w₂ = [] ∧ (r = .exhausted → o = .exhausted) := by
    cases r with
    | done u => exact ⟨(callsNothing_afterDownload _ (.ok u)).eq_nil h₄, nofun⟩
    | failed e => exact ⟨(callsNothing_afterDownload _ (.error e)).eq_nil h₄, nofun⟩
    | exhausted =>
      obtain ⟨rfl, rfl⟩ := transacts_exhausted_iff.1 h₄
      exact ⟨rfl, fun _ => rfl⟩
  obtain ⟨rfl, hexhausted⟩ := hnil
  have hobeys := s.strategy.obeys hr
  refine ⟨before, sent, by rw [List.append_nil], hopening, ⟨r, hr⟩, ?_, ?_, fun ho => ?_⟩
  · rcases s.strategy.beginsWithBlock hr with hfirst | ⟨rfl, e, rfl⟩
    · exact .inl hfirst
    · exact .inr ⟨rfl, e, refused_of_afterDownload h₄⟩
  · intro pre w post hws hw hpre
    rcases s.strategy.beginsWithBlock hr with hfirst | ⟨rfl, -⟩
    · exact hobeys.later hfirst hws hw hpre
    · simp at hws
  · exact hobeys.2 fun hr => ho (hexhausted hr)

/-- A session flashes, or refuses for what it knows. -/
theorem Settled.flashCalls (hs : s.Settled) {ts : List (Turn Query.Answer)}
    (h : Trace (s.flash image) ts o) :
    (transactions ts = [] ∧ ∃ e s', o = .done (.error (.configuration e), s')) ∨
      ∃ before sent, transactions ts = before ++ sent ∧ FlashCalls s image before sent o := by
  rcases hs with hs | hs
  · rcases flash_cases hs ⟨ts, h, rfl⟩ with ⟨hnil, s', rfl⟩ | ⟨hnil, rfl⟩ | hflash
    · exact .inl ⟨hnil, _, _, rfl⟩
    · exact .inl ⟨hnil, _, _, rfl⟩
    · exact .inr (flashCalls_of_flashConnected hflash)
  · obtain ⟨r, hperform, hrefused⟩ := perform_of_gone (.inr hs) hs.1 (.flash image)
    rw [show s.flash image = _ from hperform] at h
    obtain ⟨rfl, rfl⟩ := trace_done_iff.1 h
    obtain rfl : r = .error (.configuration .disconnected) := hrefused trivial
    exact .inl ⟨rfl, _, _, rfl⟩

end Session

/-- Whatever was done with a session before, a flash that is not refused begins with one GETSTATUS,
and one CLRSTATUS exactly if that reports an error; then comes its first block, whatever state was
reported and whether the error could be cleared or not, unless the image is known not to fit. Each
block after that is sent to a device that is done with those before it and was not reported busy
last. -/
theorem flash_takes_device_as_found {id : DeviceId} {device : Device} {options : SessionOptions}
    {ts₀ ts : List (Turn Query.Answer)} {s₀ : Session} {sub : Subscription} {queue : List DeviceId}
    {w : World} {image : Bytes} {o : Outcome Empty (Except Failure Unit × Session)}
    (hconnect : Trace (Session.connect id device options) ts₀ (.done s₀))
    (hlife : Relation.ReflTransGen (World.Step sub) ⟨s₀, queue, queue, ts₀⟩ w)
    (h : Trace (w.session.flash image) ts o) :
    (transactions ts = [] ∧ ∃ e s, o = .done (.error (.configuration e), s)) ∨
      ∃ before sent, transactions ts = before ++ sent ∧
        FlashCalls w.session image before sent o :=
  ((World.sound_connect hconnect).run hlife).settled.flashCalls h

/-- Nothing that concerns the subscription is in the turn. -/
def Quiet (sub : Subscription) : Turn Query.Answer → Prop
  | ⟨.news sub', ids⟩ => sub' ≠ sub ∨ (show List DeviceId from ids) = []
  | ⟨.departure sub' _ _, _⟩ => sub' ≠ sub
  | _ => True

instance (sub : Subscription) : DecidablePred (Quiet sub)
  | ⟨.news _, ids⟩ =>
    inferInstanceAs (Decidable (_ ∨ (show List DeviceId from ids) = []))
  | ⟨.departure _ _ _, _⟩ => inferInstanceAs (Decidable (¬ _))
  | ⟨.call _, _⟩ | ⟨.report _, _⟩ | ⟨.log _, _⟩ | ⟨.logTakes _, _⟩ => isTrue trivial

theorem fed_of_quiet {sub : Subscription} {ts : List (Turn Query.Answer)}
    (h : ∀ t ∈ ts, Quiet sub t) : Fed sub [] [] ts [] := by
  induction ts with
  | nil => exact .nil []
  | cons t ts ih =>
    rw [List.forall_mem_cons] at h
    obtain ⟨q, answer⟩ := t
    cases q with
    | news sub' =>
      by_cases hsub : sub' = sub
      · obtain rfl : answer = [] := h.1.resolve_left (fun hne => hne hsub)
        subst hsub
        exact .news (ih h.2)
      · exact .aside hsub (ih h.2)
    | departure sub' id timeout => exact .aside h.1 (ih h.2)
    | call | report | log | logTakes => exact .aside id (ih h.2)

/-- A device that takes one byte of a first block, and whose status is lost after a second one. It is
busy then, refuses a block, and in the end refuses to leave the error state. -/
def midwayBoard : Bench.Board where
  model := .script
    { id := 7
      queues :=
        [(.getStatus,
          [.data [0, 0, 0, 0, 2, 0] false, .data [0, 0, 0, 0, 5, 0] false,
            .data [0, 0, 0, 0, 5, 0] false, .fail .stall, .data [0, 0, 0, 0, 4, 0] false,
            .data [0, 0, 0, 0, 10, 0] false, .data [0, 0, 0, 0, 5, 0] false,
            .data [0, 0, 0, 0, 2, 0] false]),
          (.download, [.count 1, .nothing, .fail .stall, .nothing]),
          (.clearStatus, [.fail .stall])] }
  budget := none

namespace Midway

/-- The board once it is connected and so many flashes have ended. -/
def board : Nat → Bench.SingleBoard
  | 0 => (Bench.SingleBoard.run (Session.connect 7 bareDevice (.usual 8)) (.ofBoard midwayBoard)).2
  | n + 1 => (Bench.SingleBoard.run (bareSession.flash [1, 2]) (board n)).2

/-- The next flash on it. -/
def flash (n : Nat) : List (Turn Query.Answer) × Outcome Empty (Except Failure Unit × Session) :=
  transcript Bench.SingleBoard.serve (bareSession.flash [1, 2]) (board n)

/-- All turns until then. -/
def turns : Nat → List (Turn Query.Answer)
  | 0 => (transcript Bench.SingleBoard.serve (Session.connect 7 bareDevice (.usual 8))
      (.ofBoard midwayBoard)).1
  | n + 1 => turns n ++ (flash n).1

theorem trace_connect : Trace (Session.connect 7 bareDevice (.usual 8)) (turns 0)
    (.done bareSession) := by
  have h := trace_transcript Bench.SingleBoard.serve (Session.connect 7 bareDevice (.usual 8))
    (.ofBoard midwayBoard)
  rwa [show (transcript Bench.SingleBoard.serve _ _).2 = .done bareSession by decide +kernel] at h

theorem trace_flash (n : Nat) : Trace (bareSession.flash [1, 2]) (flash n).1 (flash n).2 :=
  trace_transcript Bench.SingleBoard.serve _ _

/-- The session outlives three flashes that fail, each in its way. -/
theorem life {n : Nat} (hn : n ≤ 3) : Relation.ReflTransGen (World.Step 0)
    ⟨bareSession, [], [], turns 0⟩ ⟨bareSession, [], [], turns n⟩ := by
  induction n with
  | zero => exact .refl
  | succ n ih =>
    have hend : ∃ r, (flash n).2 = .done (r, bareSession) := by
      match n with
      | 0 => exact ⟨.error (.protocol (.shortWrite 1 2)), by with_unfolding_all rfl⟩
      | 1 => exact ⟨.error (.transport .stall), by with_unfolding_all rfl⟩
      | 2 => exact ⟨.error (.transport .stall), by with_unfolding_all rfl⟩
    have hquiet : ∀ n < 3, ∀ t ∈ (flash n).1, Quiet 0 t := by decide +kernel
    obtain ⟨r, hr⟩ := hend
    have htrace := trace_flash n
    rw [hr] at htrace
    exact .tail (ih (by omega)) (.operation (a := .flash [1, 2]) htrace (fed_of_quiet (hquiet n hn)))

end Midway

/-- A status that reports the state. -/
def reporting (state : State) : Status where
  code := .ok
  pollTimeout := 0
  state := state

/-- The last flash on the board sends its block although the error was not cleared. -/
theorem flash_takes_device_as_found_midway : ∃ before sent,
    transactions (Midway.flash 3).1 = before ++ sent ∧
    FlashCalls bareSession [1, 2] before sent (Midway.flash 3).2 ∧
    downloads (transactions (Midway.flash 3).1) = [(0, [1, 2]), (1, [])] := by
  have hsent : downloads (transactions (Midway.flash 3).1) = [(0, [1, 2]), (1, [])] := by
    with_unfolding_all rfl
  rcases flash_takes_device_as_found Midway.trace_connect (Midway.life (Nat.le_refl 3))
    (Midway.trace_flash 3) with ⟨hnil, -⟩ | ⟨before, sent, heq, hcalls⟩
  · rw [hnil] at hsent
    cases hsent
  · exact ⟨before, sent, heq, hcalls, hsent⟩

/-! ## Flashes that do not start from idle -/

/-- The device was at rest when the first block was sent: it said so, or an error was cleared, or a
transfer was aborted. -/
def StartsFromIdle (ws : List Transaction) : Prop :=
  ∀ s pre block data reply post, ws = .status (.ok s) :: (pre ++ .download block data reply :: post) →
    downloads pre = [] → s.state = .dfuIdle ∨
      (s.state = .error ∧ ∃ n, .clearStatus (.ok n) ∈ pre) ∨ ∃ n, .abort (.ok n) ∈ pre

/-- A flash ends as its first block is taken in part. The next one finds the device in the middle of
that download, the one after it finds it busy, and the last one cannot clear an error: each of them
sends its first block all the same, and the last one goes well. -/
theorem flash_starts_midway :
    Trace (Session.connect 7 bareDevice (.usual 8)) (Midway.turns 0) (.done bareSession) ∧
    (∀ n ≤ 3, Relation.ReflTransGen (World.Step 0) ⟨bareSession, [], [], Midway.turns 0⟩
        ⟨bareSession, [], [], Midway.turns n⟩ ∧
      Trace (bareSession.flash [1, 2]) (Midway.flash n).1 (Midway.flash n).2) ∧
    (∃ rest, transactions (Midway.flash 1).1 =
      .status (.ok (reporting .dnloadIdle)) :: .download 0 [1, 2] (.ok 2) :: rest) ∧
    (∃ rest, transactions (Midway.flash 2).1 =
      .status (.ok (reporting .dnBusy)) :: .download 0 [1, 2] (.error .stall) :: rest) ∧
    (∃ rest, transactions (Midway.flash 3).1 = .status (.ok (reporting .error)) ::
      .clearStatus (.error .stall) :: .download 0 [1, 2] (.ok 2) :: rest) ∧
    (Midway.flash 3).2 = .done (.ok (), bareSession) ∧
    ∀ n, 1 ≤ n → n ≤ 3 → ¬ StartsFromIdle (transactions (Midway.flash n).1) := by
  have h₁ : transactions (Midway.flash 1).1 = [.status (.ok (reporting .dnloadIdle)),
      .download 0 [1, 2] (.ok 2), .status (.error (.transport .stall))] := by
    with_unfolding_all rfl
  have h₂ : transactions (Midway.flash 2).1 =
      [.status (.ok (reporting .dnBusy)), .download 0 [1, 2] (.error .stall)] := by
    with_unfolding_all rfl
  have h₃ : transactions (Midway.flash 3).1 = [.status (.ok (reporting .error)),
      .clearStatus (.error .stall), .download 0 [1, 2] (.ok 2),
      .status (.ok (reporting .dnloadIdle)), .download 1 [] (.ok 0),
      .status (.ok (reporting .dfuIdle)), .reset (.ok ())] := by
    with_unfolding_all rfl
  refine ⟨Midway.trace_connect, fun n hn => ⟨Midway.life hn, Midway.trace_flash n⟩, ⟨_, h₁⟩, ⟨_, h₂⟩,
    ⟨_, h₃⟩, by with_unfolding_all rfl, fun n hlo hhi h => ?_⟩
  match n with
  | 1 =>
    rw [h₁] at h
    simpa [reporting] using h _ [] 0 [1, 2] _ _ rfl rfl
  | 2 =>
    rw [h₂] at h
    simpa [reporting] using h _ [] 0 [1, 2] _ _ rfl rfl
  | 3 =>
    rw [h₃] at h
    simpa [reporting] using h _ [.clearStatus (.error .stall)] 0 [1, 2] _ _ rfl rfl

end UsbDfu
