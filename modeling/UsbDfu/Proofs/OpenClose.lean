import UsbDfu.Bench.Terminal
import UsbDfu.Proofs.FlashStart
import UsbDfu.Proofs.Visits

/-!
# What is opened is closed

A device that is left open cannot be opened by the next program that wants it, and there are many ways
to end early: a descriptor that cannot be read, a claim that fails, a second device on the bus, a file
that cannot be written. Whatever happens, a device that was opened is closed once before the work is
over, and nothing is asked of it after that.

- `KeepsOpen d`: whatever it is answered, the exchange neither opens the device nor closes it. All
  operations of a session are such.
- `leaves_discover`, `Session.leaves_connect`: discovery closes what it opens; a session's device
  remains open, and a device that could not be claimed is closed.
- `Host.leaves_findDevices`, `Tool.Job.leaves_work`: the same for a host that looks at one device after
  another, and for the jobs of the tool.
- `opened_is_closed`: what all of that says of each opening.
-/

namespace UsbDfu

open Dialogue
open Exchange (say)

/-! ## Exchanges with an open device -/

/-- The question neither opens the device nor closes it. -/
def Query.LeavesOpen : Query → Prop
  | .call .openDevice | .call .close => False
  | _ => True

/-- Whatever it is answered, the exchange neither opens the device nor closes it. -/
def KeepsOpen {ε α : Type} (d : Dialogue Query.Answer ε α) : Prop :=
  d.Within Query.LeavesOpen fun _ => True

section KeepsOpen

variable {P ε ε' α β : Type} {p : P}

theorem Query.LeavesOpen.step {q : Query} (h : q.LeavesOpen) (answer : q.Answer) :
    Contact.Step (Contact.ofTurn? p ⟨q, answer⟩) (some p) (some p) := by
  cases q with
  | call c =>
    cases c with
    | openDevice | close => exact h.elim
    | selectConfiguration | claimInterface | selectAlternate | controlOut | controlIn | reset
    | watch => exact .work p
  | report | log | logTakes | news | departure => rfl

theorem KeepsOpen.leaves {d : Dialogue Query.Answer ε α} (hd : KeepsOpen d) :
    d.Leaves (Contact.ofTurn? p) (fun _ held => held = some p) (some p) :=
  Within.leaves hd fun _ => Query.LeavesOpen.step

theorem KeepsOpen.bind {d : Dialogue Query.Answer ε α} {f : α → Dialogue Query.Answer ε β}
    (hd : KeepsOpen d) (hf : ∀ a, KeepsOpen (f a)) : KeepsOpen (d >>= f) :=
  Within.bind hd fun a _ => hf a

theorem keepsOpen_done (a : α) : KeepsOpen (.done a : Dialogue Query.Answer ε α) := trivial

theorem Works.keepsOpen {d : Dialogue Query.Answer ε α} (hd : Works d) : KeepsOpen d := by
  refine Within.mono hd (fun q hq => ?_) fun _ _ => trivial
  cases q with
  | call c =>
    cases c with
    | openDevice | close => exact hq.elim
    | selectConfiguration | claimInterface | selectAlternate | controlOut | controlIn | reset
    | watch => trivial
  | report | log | logTakes | news | departure => trivial

theorem CallsNothing.keepsOpen {d : Dialogue Query.Answer ε α} (hd : CallsNothing d) :
    KeepsOpen d := by
  refine Within.mono hd (fun q hq => ?_) fun _ _ => trivial
  cases q with
  | call => cases hq
  | report | log | logTakes | news | departure => trivial

end KeepsOpen

namespace Session

theorem keepsOpen_whileConnected {α : Type} (s : Session)
    {operation : Session → Talk (Except Failure α × Session)}
    (h : ∀ s, KeepsOpen (operation s)) : KeepsOpen (s.whileConnected operation) := by
  refine s.callsNothing_pollDepartures.keepsOpen.bind fun s => ?_
  split
  · exact keepsOpen_done _
  · exact h s

theorem keepsOpen_flash (s : Session) (image : Bytes) : KeepsOpen (s.flash image) := by
  refine s.keepsOpen_whileConnected fun s => ?_
  split
  · rw [flashConnected_eq]
    refine (works_leaveError _).attempt.keepsOpen.bind fun cleared => ?_
    have hsaid : KeepsOpen (sayCleared cleared) := by
      cases cleared with
      | ok u => exact keepsOpen_done ()
      | error e => exact (callsNothing_say _ _).keepsOpen
    exact hsaid.bind fun _ => (callsNothing_say _ _).keepsOpen.bind fun _ =>
      (works_download _ _ _ _).attempt.keepsOpen.bind fun r =>
      (callsNothing_afterDownload _ r).keepsOpen
  · exact keepsOpen_done _

theorem keepsOpen_read (s : Session) (limit : Option Nat) : KeepsOpen (s.read limit) := by
  refine s.keepsOpen_whileConnected fun s => ?_
  dsimp only
  split
  · exact (works_upload _ _ _).attempt.keepsOpen.bind fun _ =>
      (callsNothing_pollDepartures _).keepsOpen.bind fun _ => keepsOpen_done _
  · exact keepsOpen_done _

theorem keepsOpen_detach (s : Session) : KeepsOpen s.detach := by
  refine s.keepsOpen_whileConnected fun s => ?_
  refine s.works_requestDetach.attempt.keepsOpen.bind fun r => ?_
  cases r with
  | error e => exact keepsOpen_done _
  | ok u =>
    refine (s.callsNothing_awaitDeparture _).keepsOpen.bind fun left => ?_
    dsimp only
    split
    · exact (callsNothing_say _ _).keepsOpen.bind fun _ => keepsOpen_done _
    · exact (callsNothing_say _ _).keepsOpen.bind fun _ => keepsOpen_done _

end Session

/-! ## Opening and closing -/

section Exchanges

variable {P ε α : Type} (p : P)

/-- A device that is opened is held, unless it could not be opened. -/
theorem leaves_openDevice : Exchange.openDevice.Leaves (Contact.ofTurn? p)
    (fun r held => held = if r.isOk then some p else none) none := by
  intro answer
  cases answer with
  | error e => exact ⟨none, .refused p, rfl⟩
  | ok u => exact ⟨some p, .opened p, rfl⟩

/-- A device that is held can be closed. -/
theorem leaves_close_bind {f : Unit → Dialogue Query.Answer ε α}
    {R : Except ε α → Option P → Prop} (hf : (f ()).Leaves (Contact.ofTurn? p) R none) :
    (Exchange.close >>= f).Leaves (Contact.ofTurn? p) R (some p) :=
  fun _ => ⟨none, .closed p, hf⟩

theorem leaves_discover :
    Device.discover.Leaves (Contact.ofTurn? p) (fun _ held => held = none) none := by
  refine (leaves_openDevice p).bind ?_ fun e held => id
  rintro ⟨⟩ _ rfl
  refine Device.errand_read.works.keepsOpen.leaves.attempt_bind ?_
  rintro r _ rfl
  refine leaves_close_bind p ?_
  cases r with
  | error e => rfl
  | ok device => rfl

/-- A claim that fails is given up with the device. -/
theorem Session.leaves_openAndClaim (setting : AltSetting) :
    (openAndClaim setting).Leaves (Contact.ofTurn? p)
      (fun r held => held = if r.isOk then some p else none) none := by
  refine (leaves_openDevice p).bind ?_ fun e held => id
  rintro ⟨⟩ _ rfl
  refine (works_claim setting).keepsOpen.leaves.attempt_bind ?_
  rintro r _ rfl
  cases r with
  | ok u => rfl
  | error e => exact leaves_close_bind p rfl

/-! ### After the claim

Nothing that comes after the claim can fail, so no session is lost with its device open. -/

theorem stays_say (level : Level) (text : String) :
    (say level text : Dialogue Query.Answer ε Unit).Stays (Contact.ofTurn? p) (some p) :=
  stays_question fun _ => rfl

theorem stays_note (level : Level) (text : String) :
    (Exchange.note level text : Dialogue Query.Answer ε Unit).Stays (Contact.ofTurn? p) (some p) :=
  stays_question fun _ => rfl

theorem stays_noteComputed (level : Level) (text : Checked Empty String) :
    (Exchange.noteComputed level text : Dialogue Query.Answer ε Unit).Stays (Contact.ofTurn? p)
      (some p) := by
  have htaken : Dialogue.Stays (Contact.ofTurn? p) (some p)
      (Dialogue.question (Query.logTakes level) : Dialogue Query.Answer ε Bool) := stays_question fun _ => rfl
  refine htaken.bind fun taken => ?_
  cases taken with
  | false => exact stays_done ()
  | true => exact (stays_compute text).bind fun line => stays_note p level line

namespace Session

theorem stays_agreeOn (functional? : Option Functional) :
    (agreeOn functional?).Stays (Contact.ofTurn? p) (some p) := by
  cases functional? with
  | some f => exact (stays_note p _ _).bind fun _ => stays_done f
  | none => exact (stays_say p _ _).bind fun _ => stays_done _

theorem stays_subscribe : subscribe.Stays (Contact.ofTurn? p) (some p) := by
  have hwatch : Dialogue.Stays (Contact.ofTurn? p) (some p)
      (Exchange.perform .watch : Exchange (Except TransportError Subscription)) :=
    stays_question fun _ => .work p
  refine hwatch.bind fun r => ?_
  cases r with
  | ok s => exact stays_done _
  | error e => exact (stays_note p _ _).bind fun _ => stays_done _

theorem stays_readMemory (setting : AltSetting) :
    (readMemory setting).Stays (Contact.ofTurn? p) (some p) := by
  unfold readMemory
  split
  · exact stays_done _
  · exact (stays_say p _ _).bind fun _ => stays_done _
  · exact stays_done _

theorem stays_describeMemory (m : MemoryMap) :
    (describeMemory m).Stays (Contact.ofTurn? p) (some p) := by
  refine (stays_say p _ _).bind fun _ => ?_
  induction m.segments with
  | nil => exact stays_done ()
  | cons s rest ih =>
    exact ((stays_compute s.describe).bind fun line => stays_say p .debug line).bind fun _ => ih

theorem stays_chooseStart (options : SessionOptions) (m : MemoryMap) :
    (chooseStart options m).Stays (Contact.ofTurn? p) (some p) := by
  unfold chooseStart
  split
  · exact stays_done _
  · exact stays_done _
  · split
    · exact (stays_note p _ _).bind fun _ => stays_done _
    · exact stays_done _

theorem stays_dfuseTransfer (setting : AltSetting) (options : SessionOptions) :
    (dfuseTransfer setting options).Stays (Contact.ofTurn? p) (some p) := by
  refine (stays_readMemory p setting).bind fun memory? => ?_
  cases memory? with
  | none => exact stays_done _
  | some m =>
    refine (stays_describeMemory p m).bind fun _ => ?_
    refine (stays_chooseStart p options m).bind fun start? => ?_
    cases start? with
    | some address => exact (stays_noteComputed p _ _).bind fun _ => stays_done _
    | none => exact stays_done _

/-- The device of a session is open; without a session it is closed. -/
theorem leaves_connect (id : DeviceId) (device : Device) (options : SessionOptions) :
    (connect id device options).Leaves (Contact.ofTurn? p)
      (fun r held => held = if r.isOk then some p else none) none := by
  unfold connect
  cases device.select options.token with
  | error e => rfl
  | ok setting =>
    rw [Exchange.ofConfiguration_ok, done_bind]
    refine (leaves_openAndClaim p setting).bind ?_ fun _ _ h => h
    rintro ⟨⟩ _ rfl
    refine (stays_agreeOn p _).bind_leaves fun functional => ?_
    refine (stays_subscribe p).bind_leaves fun watching => ?_
    have hend : ∀ s : Strategy, Dialogue.Leaves (Contact.ofTurn? p)
        (fun r held => held = if r.isOk then some p else none) (some p) (do
          say .debug s!"Claimed {setting.describe}"
          say .info "The selected device has been connected."
          pure
            { connection := .new setting.interface
                (options.transferSize.getD functional.transferSize) options.patience
              deviceId := id
              setting := setting
              functional := functional
              strategy := s
              watching := watching
              activity := .connected
              disconnectTimeout := options.disconnectTimeout } : Exchange Session) :=
      fun s => (stays_say p _ _).bind_leaves fun _ => (stays_say p _ _).bind_leaves fun _ => rfl
    dsimp only
    split
    · refine ((stays_dfuseTransfer p setting options).bind fun t =>
        stays_done (Strategy.dfuse t)).bind_leaves fun s => ?_
      exact hend s
    · exact hend .plain

end Session

end Exchanges

/-! ## Hosts -/

namespace Host

variable {ε : Type}

theorem stays_log (line : LogLine) : (Dialogue.question (Query.log line) :
    Dialogue Query.Answer ε Unit).Stays contact? none :=
  stays_question fun _ => rfl

theorem leaves_discoverAll (infos : List DeviceInfo) :
    (discoverAll infos : Dialogue Query.Answer ε (List Found)).Stays contact? none := by
  induction infos with
  | nil => exact stays_done []
  | cons info rest ih =>
    refine Stays.bind_leaves (stays_question fun _ => rfl) fun p => ?_
    refine (leaves_onChannel (leaves_discover p)).attempt_bind ?_
    rintro r _ rfl
    match r with
    | .ok (some device) => exact ih.bind fun _ => stays_done _
    | .ok none => exact ih
    | .error e => exact (stays_log _).bind fun _ => ih

theorem leaves_findDevices (filter : DeviceFilter) :
    (findDevices filter).Leaves contact? (fun _ held => held = none) none := by
  refine Stays.bind_leaves (stays_question fun _ => rfl) fun infos => ?_
  cases infos with
  | error e => rfl
  | ok infos => exact Leaves.mono (leaves_discoverAll _) fun _ _ => And.right

/-- A host that is connected holds the device of the session. -/
theorem leaves_connectOnly (filter : DeviceFilter) (options : SessionOptions) :
    (connectOnly filter options).Leaves contact?
      (fun r held => held = (r.toOption.map Connected.channel)) none := by
  refine (leaves_findDevices filter).bind ?_ ?_
  · rintro found _ rfl
    match found with
    | [] => rfl
    | [only] =>
      refine Leaves.bind (leaves_onChannel (Session.leaves_connect _ _ _ _)) ?_ ?_
      · rintro s _ rfl
        rfl
      · rintro e _ rfl
        rfl
    | _ :: _ :: _ => rfl
  · rintro e _ rfl
    rfl

end Host

/-! ## Jobs -/

namespace Tool

theorem leaves_connect (label : String) (filter : DeviceFilter) (options : SessionOptions) :
    (connect label filter options).Leaves contact?
      (fun r held => held = (r.toOption.map fun d => d.connected.channel)) none := by
  refine leaves_relay_bind (Host.leaves_connectOnly filter options) ?_
  rintro r c _ rfl
  cases r with
  | ok connected => rfl
  | error e => rfl

namespace Desk

variable {α : Type}

/-- What is said to the device of a desk. -/
theorem leaves_converse_bind {β : Type} {d : Desk} {talk : Talk α} {f : α × Desk → Work β}
    {R : Except Empty α → Option Host.ChannelId → Prop}
    {S : Except ToolError β → Option Host.ChannelId → Prop} {held : Option Host.ChannelId}
    (h : talk.Leaves (Contact.ofTurn? d.connected.channel) R held)
    (hf : ∀ a console held, R (.ok a) held →
      (f (a, { d with console := console })).Leaves contact? S held) :
    (d.converse talk >>= f).Leaves contact? S held := by
  unfold converse
  rw [bind_bind]
  refine leaves_relay_bind (leaves_onChannel h) ?_
  rintro r console held hr
  cases r with
  | ok a => exact hf a console held hr
  | error e => exact e.elim

/-- A desk that is closed holds nothing. -/
theorem leaves_close_bind {β : Type} {d : Desk} {f : Unit → Work β}
    {S : Except ToolError β → Option Host.ChannelId → Prop}
    (hf : (f ()).Leaves contact? S none) :
    (d.close >>= f).Leaves contact? S (some d.connected.channel) := by
  unfold close
  rw [bind_bind]
  have hclose : (d.connected.session.close : Talk Unit).Leaves
      (Contact.ofTurn? d.connected.channel) (fun _ held => held = none)
      (some d.connected.channel) :=
    fun _ => ⟨none, .closed _, rfl⟩
  refine leaves_converse_bind hclose ?_
  rintro _ console _ rfl
  exact (stays_print _).bind_leaves fun _ => hf

/-- Whatever comes of an operation, the desk is closed after it. -/
theorem leaves_finish {d : Desk} {operation : Session → Talk (Except Failure α × Session)}
    (h : ∀ s, KeepsOpen (operation s)) :
    (d.finish operation).Leaves contact? (fun _ held => held = none)
      (some d.connected.channel) := by
  unfold finish
  refine leaves_converse_bind (h d.connected.session).leaves ?_
  rintro r console _ rfl
  refine leaves_close_bind (d := { d with console := console }) ?_
  exact leaves_ofExcept rfl

end Desk

theorem leaves_writeFile (file : String) (data : Bytes) :
    (writeFile file data).Leaves contact? (fun _ held => held = none) none := by
  refine Stays.bind_leaves (stays_question fun _ => rfl) fun r => ?_
  cases r <;> rfl

theorem leaves_readFile (file : String) :
    (readFile file).Leaves contact? (fun _ held => held = none) none := by
  refine Stays.bind_leaves (stays_question fun _ => rfl) fun r => ?_
  cases r <;> rfl

theorem leaves_list (filter : DeviceFilter) :
    (list filter).Leaves contact? (fun _ held => held = none) none := by
  refine (leaves_onHost (Host.leaves_findDevices filter)).bind ?_ ?_
  · rintro found _ ⟨_, -, rfl⟩
    exact Leaves.mono (stays_out _) fun _ _ => And.right
  · rintro e _ ⟨_, -, rfl⟩
    rfl

/-- What is done with the desk of a connection, which closes it. -/
theorem leaves_connect_bind {α : Type} {label : String} {filter : DeviceFilter}
    {options : SessionOptions} {f : Desk → Work α}
    (hf : ∀ d, (f d).Leaves contact? (fun _ held => held = none) (some d.connected.channel)) :
    (connect label filter options >>= f).Leaves contact? (fun _ held => held = none) none := by
  refine (leaves_connect label filter options).bind ?_ ?_
  · rintro d _ rfl
    exact hf d
  · rintro e _ rfl
    rfl

theorem leaves_read (file : String) (filter : DeviceFilter) (options : SessionOptions)
    (length : Option Nat) :
    (read file filter options length).Leaves contact? (fun _ held => held = none) none := by
  refine leaves_connect_bind fun desk => (stays_compute _).bind_leaves fun limit => ?_
  refine (Desk.leaves_finish fun s => s.keepsOpen_read limit).bind ?_ fun _ _ => id
  rintro data _ rfl
  refine (leaves_writeFile file data).bind ?_ fun _ _ => id
  rintro u _ rfl
  exact Leaves.mono (stays_out _) fun _ _ => And.right

theorem leaves_write (file : String) (filter : DeviceFilter) (options : SessionOptions) :
    (write file filter options).Leaves contact? (fun _ held => held = none) none := by
  refine (leaves_readFile file).bind ?_ fun _ _ => id
  rintro image _ rfl
  exact leaves_connect_bind fun desk => Desk.leaves_finish fun s => s.keepsOpen_flash image

/-- One look at the bus for a boot loader, and what is done without one. -/
theorem leaves_look {filter : DeviceFilter} {rest : Work Unit}
    (hrest : rest.Leaves contact? (fun _ held => held = none) none) :
    Dialogue.Leaves contact? (fun _ held => held = none) none (do
      let found ← onHost (Host.findDevices filter)
      if found.any isLoader then
        let time : String ← .question Query.readTimer
        out s!"Reconnected in DFU mode after {time}\n"
      else rest : Work Unit) := by
  refine (leaves_onHost (Host.leaves_findDevices filter)).bind ?_ ?_
  · rintro found _ ⟨_, -, rfl⟩
    split
    · refine Stays.bind_leaves (stays_question fun _ => rfl) fun time => ?_
      exact Leaves.mono (stays_out _) fun _ _ => And.right
    · exact hrest
  · rintro e _ ⟨_, -, rfl⟩
    rfl

theorem leaves_awaitLoader (filter : DeviceFilter) (scans : Nat) :
    (awaitLoader filter scans).Leaves contact? (fun _ held => held = none) none := by
  induction scans with
  | zero => exact leaves_look rfl
  | succ scans ih =>
    refine leaves_look (Stays.bind_leaves (stays_question fun _ => rfl) fun late => ?_)
    cases late with
    | true => rfl
    | false => exact Stays.bind_leaves (stays_question fun _ => rfl) fun _ => ih

theorem leaves_detach (filter : DeviceFilter) (options : SessionOptions) :
    (detach filter options).Leaves contact? (fun _ held => held = none) none := by
  refine leaves_connect_bind fun desk => ?_
  dsimp only
  split
  · refine (stays_out _).bind_leaves fun _ => ?_
    rw [← bind_done desk.close]
    exact Desk.leaves_close_bind rfl
  · refine (Desk.leaves_finish Session.keepsOpen_detach).bind ?_ fun _ _ => id
    rintro u _ rfl
    refine (stays_out _).bind_leaves fun _ => ?_
    exact Stays.bind_leaves (stays_question fun _ => rfl) fun _ => leaves_awaitLoader _ _

namespace Job

/-- Every job closes what it opens, whether it is done or not. -/
theorem leaves_work (patience : Nat) (job : Job) :
    (job.work patience).Leaves contact? (fun _ held => held = none) none := by
  cases job with
  | list filter => exact leaves_list filter
  | read file filter start length => exact leaves_read file filter _ length
  | write file filter start fixups transferSize => exact leaves_write file filter _
  | detach filter => exact leaves_detach filter _

theorem leaves_run (patience : Nat) (job : Job) :
    (job.run patience).Leaves contact? (fun _ held => held = none) none := by
  refine (job.leaves_work patience).attempt_bind ?_
  rintro r _ rfl
  cases r with
  | ok u => rfl
  | error e => exact (stays_err _).bind_leaves fun _ => rfl

end Job

end Tool

/-! ## What is opened is closed -/

theorem Dialogue.Leaves.bracketed {Q P ε α : Type} {A : Q → Type}
    {mark : Turn A → Option (Contact P)} {d : Dialogue A ε α} {ts : List (Turn A)} {o : Outcome ε α}
    (hd : d.Leaves mark (fun _ held => held = none) none) (h : Trace d ts o) :
    ∃ held, Bracketed (ts.filterMap mark) held ∧ (o ≠ .exhausted → held = none) := by
  obtain ⟨held, hvisits, hdone, hfailed⟩ := hd.visits h
  refine ⟨held, hvisits.bracketed, fun ho => ?_⟩
  cases o with
  | done a => exact hdone a rfl
  | failed e => exact hfailed e rfl
  | exhausted => exact absurd rfl ho

/-- Whatever the devices, the bus and the files answer, every opening that was granted is followed by
work on that device only and then by its closing, and nothing is asked of the device from there to its
next opening. That holds of discovery, of a host that looks for devices, and of each job of the tool:
no device is held when they have ended. Connecting closes the device exactly if it fails. (Where the
host gave up waiting, the device it waited for is still held.) -/
theorem opened_is_closed :
    (∀ ts o, Trace Device.discover ts o →
      ∃ held, Bracketed (ts.filterMap (Contact.ofTurn? ())) held ∧
        (o ≠ .exhausted → held = none)) ∧
    (∀ id device options ts o, Trace (Session.connect id device options) ts o →
      ∃ held, Bracketed (ts.filterMap (Contact.ofTurn? ())) held ∧
        (∀ e, o = .failed e → held = none) ∧ ∀ s, o = .done s → held = some ()) ∧
    (∀ filter ts o, Trace (Host.findDevices filter) ts o →
      ∃ held, Bracketed (ts.filterMap Host.contact?) held ∧ (o ≠ .exhausted → held = none)) ∧
    ∀ patience job ts o, Trace (Tool.Job.run patience job) ts o →
      ∃ held, Bracketed (ts.filterMap Tool.contact?) held ∧ (o ≠ .exhausted → held = none) := by
  refine ⟨fun _ _ => (leaves_discover ()).bracketed, fun id device options ts o h => ?_,
    fun filter _ _ => (Host.leaves_findDevices filter).bracketed,
    fun patience job _ _ => (job.leaves_run patience).bracketed⟩
  obtain ⟨held, hvisits, hdone, hfailed⟩ := (Session.leaves_connect () id device options).visits h
  exact ⟨held, hvisits.bracketed, hfailed, hdone⟩

/-- A bus with one device, which cannot be read. -/
def unreadableBus : Bench.Bus :=
  .new [.new ⟨7, 0x0483, 0xdf11, "1", 1, none, none, [(0xfe, 1)]⟩ (some 1)
    { model := .simulator (.plain 5 64), budget := none }] [] none

/-- A read of it fails, and has opened the device twice: to look at it, and to connect. -/
theorem opened_is_closed_unreadable :
    let conversation := transcript Bench.Terminal.serve
      (Tool.Job.run 8 (.read "image" .any none (some 4))) (.new unreadableBus ⟨[]⟩)
    conversation.2 = .done 1 ∧
    conversation.1.filterMap Tool.contact? =
      [.opening 0 true, .work 0, .work 0, .work 0, .work 0, .work 0, .closing 0,
        .opening 0 true, .work 0, .work 0, .work 0, .work 0, .closing 0] ∧
    Bracketed (conversation.1.filterMap Tool.contact?) none := by
  intro conversation
  have hend : conversation.2 = .done 1 := by decide +kernel
  obtain ⟨held, hbracketed, hheld⟩ := opened_is_closed.2.2.2 8
    (.read "image" .any none (some 4)) conversation.1 conversation.2 (trace_transcript _ _ _)
  obtain rfl := hheld (by simp [hend])
  exact ⟨hend, by decide +kernel, hbracketed⟩

end UsbDfu
