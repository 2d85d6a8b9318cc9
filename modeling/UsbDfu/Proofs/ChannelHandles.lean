import UsbDfu.Proofs.History
import UsbDfu.Proofs.Machines
import UsbDfu.Usb.Channel

/-!
# The handles of a channel

A channel keeps two handles, and the calls on it come in any order. Each of them looks at one handle or at
both; some have nothing to do because what they ask for is held already, and each may be refused by the
stack.

- `Handles.Step c t h h'`: the turn `t` with the stack is one that the call `c` may have while `h` is held,
  and `h'` is held after it. `Channel.keeps_serve` says that each call has only such turns, and knows in
  the end what is held.
- `Channel.Life info before h`: a channel that served the calls `before` and holds `h` now.
- `Channel.Opened`, `Channel.LastClaimed`: what the calls alone tell of the handles, and
  `Channel.Life.agrees` says that they tell it right.
- `handles_follow_calls`: the rules for every life of a channel, and for the call that comes next.
-/

namespace UsbDfu

open Dialogue

/-! ## What the stack holds -/

namespace Handles

/-- An interface is held only while its device is. -/
def Nested (h : Handles) : Prop :=
  h.interface.isSome = true → h.device = true

/-- What is held after a turn with the stack. -/
def turn (h : Handles) : Turn Operation.Result → Handles
  | ⟨.openDevice, .ok ()⟩ => { h with device := true }
  | ⟨.claimInterface number, .ok ()⟩ => { h with interface := some number }
  | ⟨.releaseInterface number, _⟩ =>
    if h.interface = some number then { h with interface := .none } else h
  | ⟨.closeDevice, _⟩ => { h with device := false }
  | _ => h

/-- The stack can be asked for the operation while these handles are held. -/
def Permit (h : Handles) : Operation → Prop
  | .openDevice => h.device = false
  | .activeConfiguration | .setConfiguration _ | .claimInterface _ | .getDescriptor _ _ _ | .reset
  | .releaseInterface _ => h.device = true
  | .setAlternate number _ | .controlOut number _ _ | .controlIn number _ _ =>
    h.device = true ∧ h.interface = some number
  | .closeDevice => h.device = true ∧ h.interface = .none
  | .log _ | .watch => True

theorem Nested.turn {h : Handles} {t : Turn Operation.Result} (hn : h.Nested)
    (ht : h.Permit t.question) : (h.turn t).Nested := by
  obtain ⟨q, answer⟩ := t
  cases q with
  | openDevice =>
    cases answer with
    | ok u => exact fun _ => rfl
    | error e => exact hn
  | claimInterface number =>
    cases answer with
    | ok u => exact fun _ => ht
    | error e => exact hn
  | releaseInterface number =>
    rw [Handles.turn]
    split
    · exact nofun
    · exact hn
  | closeDevice =>
    intro hsome
    rw [Handles.turn, ht.2] at hsome
    cases hsome
  | _ => exact hn

end Handles

/-! ## Calls -/

/-- The request reads a descriptor of the device, which needs no interface. -/
def Request.ReadsDescriptor (r : Request) : Prop :=
  r.type = .standard ∧ r.recipient = .device ∧ r.request = Request.getDescriptor

namespace Call

/-- Why the call failed. -/
def failure? : (c : Call) → c.Reply → Option TransportError
  | .openDevice, .error e | .selectConfiguration _, .error e | .claimInterface _, .error e
  | .selectAlternate _ _, .error e | .controlOut _ _, .error e | .controlIn _ _, .error e
  | .reset, .error e | .watch, .error e => some e
  | _, _ => none

/-- Why the call fails on a device that is not open. Opening, closing and watching do not. -/
def refusal? : Call → Option TransportError
  | .selectConfiguration _ | .claimInterface _ | .controlOut _ _ | .controlIn _ _ | .reset =>
    some .notOpen
  | .selectAlternate _ _ => some .notClaimed
  | .openDevice | .close | .watch => none

/-- The call works on an interface. -/
def NeedsInterface : Call → Prop
  | .selectAlternate _ _ | .controlOut _ _ => True
  | .controlIn r _ => ¬ r.ReadsDescriptor
  | .openDevice | .selectConfiguration _ | .claimInterface _ | .reset | .close | .watch => False

/-- The call may ask the stack for this. -/
def Uses : Call → Operation → Prop
  | .openDevice, .openDevice => True
  | .selectConfiguration _, .activeConfiguration => True
  | .selectConfiguration value, .setConfiguration value' => value' = value
  | .claimInterface number, .claimInterface number' => number' = number
  | .claimInterface _, .releaseInterface _ => True
  | .selectAlternate number alternate, .setAlternate number' alternate' =>
    number' = number ∧ alternate' = alternate
  | .controlOut r data, .controlOut _ r' data' => r' = r ∧ data' = data
  | .controlIn r length, .controlIn _ r' length' =>
    ¬ r.ReadsDescriptor ∧ r' = r ∧ length' = length
  | .controlIn r _, .getDescriptor _ _ _ => r.ReadsDescriptor
  | .reset, .reset => True
  | .close, .releaseInterface _ | .close, .closeDevice => True
  | .watch, .watch => True
  | _, .log _ => True
  | _, _ => False

end Call

/-- The operation only writes to the log. -/
def Operation.IsLog : Operation → Prop
  | .log _ => True
  | _ => False

/-- The interface through whose handle the operation goes. -/
def Operation.through? : Operation → Option UInt8
  | .setAlternate number _ | .controlOut number _ _ | .controlIn number _ _ => some number
  | _ => none

namespace Handles

/-- What is held after the call. -/
def after (h : Handles) : (c : Call) → c.Reply → Handles
  | .openDevice, .ok () => { h with device := true }
  | .claimInterface number, .ok () => { h with interface := some number }
  | .close, _ => .none
  | _, _ => h

/-- The turn is one that the call may have while the first handles are held, and the second ones are held
after it. -/
structure Step (c : Call) (t : Turn Operation.Result) (h h' : Handles) : Prop where
  uses : c.Uses t.question
  permit : h.Permit t.question
  eq : h' = h.turn t

theorem Step.nested {c : Call} {t : Turn Operation.Result} {h h' : Handles} (hs : Step c t h h')
    (hn : h.Nested) : h'.Nested :=
  hs.eq ▸ hn.turn hs.permit

end Handles

namespace Channel

variable {h : Handles} {info : DeviceInfo} {c : Call} {α : Type}

/-! ## What each call does -/

/-- The dialogue has only turns that the call may have, and ends with a reply and the handles that are held
then. -/
def Keeps (h : Handles) (c : Call) (d : StackTalk (c.Reply × Handles)) : Prop :=
  d.Drives (Handles.Step c) (fun o held => ∃ reply, o = .done (reply, held) ∧ held = h.after c reply) h

theorem keeps_openDevice : Keeps h .openDevice (openDevice info h) := by
  rw [openDevice]
  split
  · rename_i hopen
    refine ⟨.ok (), rfl, ?_⟩
    rw [Handles.after, ← hopen]
  · rename_i hopen
    have hshut : h.device = false := by simpa using hopen
    refine fun _ => ⟨h, ⟨trivial, trivial, rfl⟩, fun answer => ⟨_, ⟨trivial, hshut, rfl⟩, ?_⟩⟩
    cases answer with
    | ok u => exact ⟨.ok (), rfl, rfl⟩
    | error e => exact ⟨.error (.ofUsb e), rfl, rfl⟩

/-- When another interface has been claimed, the one before it is given up. -/
theorem turn_releaseInterface {number old : UInt8} (hother : number ≠ old) :
    Handles.turn { h with interface := some number } ⟨.releaseInterface old, ()⟩ =
      { h with interface := some number } := by
  simp [Handles.turn, hother]

theorem keeps_claimInterface (number : UInt8) :
    Keeps h (.claimInterface number) (claimInterface h number) := by
  rw [claimInterface]
  split
  · rename_i hclaimed
    refine ⟨.ok (), rfl, ?_⟩
    rw [Handles.after, ← hclaimed]
  · rename_i hclaimed
    split
    · rename_i hopen
      refine fun answer => ⟨_, ⟨rfl, hopen, rfl⟩, ?_⟩
      cases answer with
      | ok u =>
        cases hold : h.interface with
        | none => exact ⟨.ok (), rfl, rfl⟩
        | some old =>
          -- The old handle is dropped when the new one is held, so giving it up takes nothing away.
          have hother : number ≠ old := by
            rintro rfl
            exact hclaimed hold
          exact fun _ => ⟨_, ⟨trivial, hopen, (turn_releaseInterface hother).symm⟩, .ok (), rfl, rfl⟩
      | error e => exact ⟨.error (.ofUsb e), rfl, rfl⟩
    · exact ⟨.error .notOpen, rfl, rfl⟩

/-- The interface goes first, then the device. -/
theorem keeps_close (hn : h.Nested) :
    Keeps h .close (close info h >>= fun _ => pure ((), .none)) := by
  have hdevice : Keeps ⟨h.device, .none⟩ .close (close info ⟨h.device, .none⟩ >>= fun _ =>
      pure ((), .none)) := by
    cases h.device with
    | false => exact ⟨(), rfl, rfl⟩
    | true =>
      exact fun _ => ⟨.none, ⟨trivial, ⟨rfl, rfl⟩, rfl⟩, fun _ => ⟨.none, ⟨trivial, trivial, rfl⟩, (),
        rfl, rfl⟩⟩
  obtain ⟨device, interface⟩ := h
  cases interface with
  | none => exact hdevice
  | some number =>
    have hreleased : (Handles.mk device (some number)).turn ⟨.releaseInterface number, ()⟩ =
        ⟨device, .none⟩ :=
      if_pos rfl
    exact fun _ => ⟨⟨device, .none⟩, ⟨trivial, hn rfl, hreleased.symm⟩, hdevice⟩

/-- The dialogue has only turns that the call may have, comes to a value, and leaves the handles as they
are. -/
def Stays (h : Handles) (c : Call) (d : StackTalk α) : Prop :=
  d.Drives (Handles.Step c) (fun o held => held = h ∧ ∃ a, o = .done a) h

theorem stays_pure (a : α) : Stays h c (pure a) :=
  ⟨rfl, a, rfl⟩

/-- An operation that leaves the handles as they are. -/
theorem stays_operate_bind {o : Operation} {f : o.Result → StackTalk α} (huses : c.Uses o)
    (hpermit : h.Permit o) (hkeep : ∀ answer, h.turn ⟨o, answer⟩ = h)
    (hf : ∀ answer, Stays h c (f answer)) : Stays h c (operate o >>= f) :=
  fun answer => ⟨h, ⟨huses, hpermit, (hkeep answer).symm⟩, hf answer⟩

theorem Stays.keeps {d : StackTalk c.Reply} (hd : Stays h c d) (hafter : ∀ reply, h.after c reply = h) :
    Keeps h c (d >>= fun reply => pure (reply, h)) := by
  refine Drives.bind hd ?_ (fun e => e.elim) ?_
  · rintro reply _ ⟨rfl, -⟩
    exact ⟨reply, rfl, (hafter reply).symm⟩
  · rintro _ ⟨-, _, ho⟩
    cases ho

theorem claimed_eq_ok_iff {number : UInt8} :
    claimed h = .ok number ↔ h.device = true ∧ h.interface = some number := by
  obtain ⟨device, interface⟩ := h
  cases device <;> cases interface <;> simp [claimed]

theorem stays_selectConfiguration (value : UInt8) :
    Stays h (.selectConfiguration value) (selectConfiguration h value) := by
  rw [selectConfiguration]
  split
  · rename_i hopen
    refine stays_operate_bind trivial hopen (fun _ => rfl) fun active => ?_
    split
    · exact stays_pure _
    · refine stays_operate_bind trivial trivial (fun _ => rfl) fun _ => ?_
      exact stays_operate_bind rfl hopen (fun _ => rfl) fun _ => stays_pure _
  · exact stays_pure _

theorem stays_selectAlternate (hn : h.Nested) (number alternate : UInt8) :
    Stays h (.selectAlternate number alternate) (selectAlternate h number alternate) := by
  rw [selectAlternate]
  split
  · rename_i hclaimed
    have hopen : h.device = true := hn (by rw [hclaimed]; rfl)
    exact stays_operate_bind ⟨rfl, rfl⟩ ⟨hopen, hclaimed⟩ (fun _ => rfl) fun _ => stays_pure _
  · exact stays_pure _

theorem stays_controlOut (r : Request) (data : Bytes) :
    Stays h (.controlOut r data) (controlOut h r data) := by
  rw [controlOut]
  split
  · exact stays_pure _
  · rename_i number hclaimed
    refine stays_operate_bind ⟨rfl, rfl⟩ (claimed_eq_ok_iff.1 hclaimed) (fun _ => rfl) fun answer => ?_
    cases answer <;> exact stays_pure _

theorem exists_descriptorRequest_iff {r : Request} :
    (∃ x, descriptorRequest? r = some x) ↔ r.ReadsDescriptor := by
  rw [descriptorRequest?]
  split
  · rename_i hreads
    exact iff_of_true ⟨_, rfl⟩ hreads
  · rename_i hreads
    exact iff_of_false nofun hreads

theorem stays_controlIn (r : Request) (length : UInt16) :
    Stays h (.controlIn r length) (controlIn h r length) := by
  rw [controlIn]
  split
  · rename_i heq
    have hreads : r.ReadsDescriptor := exists_descriptorRequest_iff.1 ⟨_, heq⟩
    split
    · rename_i hopen
      refine stays_operate_bind hreads hopen (fun _ => rfl) fun answer => ?_
      cases answer <;> exact stays_pure _
    · exact stays_pure _
  · rename_i heq
    have hother : ¬ r.ReadsDescriptor := by
      rw [← exists_descriptorRequest_iff, heq]
      exact nofun
    split
    · exact stays_pure _
    · rename_i number hclaimed
      exact stays_operate_bind ⟨hother, rfl, rfl⟩ (claimed_eq_ok_iff.1 hclaimed) (fun _ => rfl)
        fun _ => stays_pure _

theorem stays_reset : Stays h .reset (reset h) := by
  refine stays_operate_bind trivial trivial (fun _ => rfl) fun _ => ?_
  split
  · rename_i hopen
    exact stays_operate_bind trivial hopen (fun _ => rfl) fun _ => stays_pure _
  · exact stays_pure _

theorem stays_watch : Stays h .watch watch :=
  stays_operate_bind trivial trivial (fun _ => rfl) fun _ => stays_pure _

theorem keeps_serve (hn : h.Nested) (c : Call) : Keeps h c (serve info h c) := by
  cases c with
  | openDevice => exact keeps_openDevice
  | selectConfiguration value => exact (stays_selectConfiguration value).keeps fun _ => rfl
  | claimInterface number => exact keeps_claimInterface number
  | selectAlternate number alternate =>
    exact (stays_selectAlternate hn number alternate).keeps fun _ => rfl
  | controlOut r data => exact (stays_controlOut r data).keeps fun _ => rfl
  | controlIn r length => exact (stays_controlIn r length).keeps fun _ => rfl
  | reset => exact stays_reset.keeps fun _ => rfl
  | close => exact keeps_close hn
  | watch => exact stays_watch.keeps fun _ => rfl

theorem controlIn_none (r : Request) (length : UInt16) :
    controlIn .none r length = .done (.error .notOpen) := by
  rw [controlIn]
  split <;> rfl

/-- Without a device the stack is asked for nothing. -/
theorem within_serve_none {e : TransportError} (hc : c.refusal? = some e) :
    (serve info .none c).Within Operation.IsLog fun r => c.failure? r.1 = some e := by
  cases c with
  | openDevice | close | watch => cases hc
  | selectConfiguration | claimInterface | selectAlternate | controlOut =>
    cases hc
    rfl
  | controlIn r length =>
    cases hc
    rw [serve, controlIn_none]
    rfl
  | reset =>
    cases hc
    exact ⟨trivial, fun _ => rfl⟩

/-! ## The life of a channel -/

/-- A call that was served: what the stack was asked for it, and its reply. -/
structure Service where
  call : Call
  operations : List (Turn Operation.Result)
  reply : call.Reply

namespace Service

/-- The failure that the call met. -/
def failure? (v : Service) : Option TransportError :=
  v.call.failure? v.reply

/-- The device was opened, or was found open. -/
def Opens (v : Service) : Prop :=
  v.call = .openDevice ∧ v.failure? = none

/-- The call claimed the interface. -/
def Claims (v : Service) (number : UInt8) : Prop :=
  v.call = .claimInterface number ∧ v.failure? = none

/-- The call closed the channel. -/
def Closes (v : Service) : Prop :=
  v.call = .close

end Service

/-- The channel served these calls, one after another, and holds these handles now. -/
inductive Life (info : DeviceInfo) : List Service → Handles → Prop where
  | new : Life info [] .none
  | serve {before : List Service} {h h' : Handles} {v : Service} (life : Life info before h)
      (talk : Trace (serve info h v.call) v.operations (.done (v.reply, h'))) :
      Life info (before ++ [v]) h'

/-- The device was opened, and not closed since. -/
def Opened (before : List Service) : Prop :=
  Since (·.Opens) (¬ ·.Closes) before

/-- No claim succeeded after that of this interface, and there was no closing. -/
def LastClaimed (before : List Service) (number : UInt8) : Prop :=
  Since (·.Claims number) (fun v => ¬ v.Closes ∧ ∀ other, ¬ v.Claims other) before

theorem opened_concat_iff {before : List Service} {v : Service} :
    Opened (before ++ [v]) ↔ v.Opens ∨ (¬ v.Closes ∧ Opened before) :=
  since_concat_iff

theorem lastClaimed_concat_iff {before : List Service} {v : Service} {number : UInt8} :
    LastClaimed (before ++ [v]) number ↔
      v.Claims number ∨ ((¬ v.Closes ∧ ∀ other, ¬ v.Claims other) ∧ LastClaimed before number) :=
  since_concat_iff

theorem device_after (v : Service) : (h.after v.call v.reply).device = true ↔
    v.Opens ∨ (¬ v.Closes ∧ h.device = true) := by
  obtain ⟨c, operations, reply⟩ := v
  cases c with
  | openDevice | claimInterface =>
    cases reply <;> simp [Handles.after, Service.Opens, Service.Closes, Service.failure?, Call.failure?]
  | close => simp [Handles.after, Handles.none, Service.Opens, Service.Closes]
  | _ => simp [Handles.after, Service.Opens, Service.Closes]

theorem interface_after (v : Service) (number : UInt8) :
    (h.after v.call v.reply).interface = some number ↔
      v.Claims number ∨ ((¬ v.Closes ∧ ∀ other, ¬ v.Claims other) ∧ h.interface = some number) := by
  obtain ⟨c, operations, reply⟩ := v
  cases c with
  | openDevice | claimInterface =>
    cases reply <;> simp [Handles.after, Service.Claims, Service.Closes, Service.failure?, Call.failure?]
  | close => simp [Handles.after, Handles.none, Service.Claims, Service.Closes]
  | _ => simp [Handles.after, Service.Claims, Service.Closes]

/-- What is held is what the calls tell, and an interface only with its device. -/
structure Agrees (before : List Service) (h : Handles) : Prop where
  nested : h.Nested
  device_iff : h.device = true ↔ Opened before
  interface_iff : ∀ number, h.interface = some number ↔ LastClaimed before number

theorem agrees_new : Agrees [] .none where
  nested := nofun
  device_iff := iff_of_false nofun not_since_nil
  interface_iff _ := iff_of_false nofun not_since_nil

/-- The call has turns that it may have, one after another, and ends with the handles that they lead to. -/
theorem moves_of_trace {operations : List (Turn Operation.Result)} {o : Outcome Empty (c.Reply × Handles)}
    (hn : h.Nested) (talk : Trace (serve info h c) operations o) : ∃ reply,
      o = .done (reply, h.after c reply) ∧ Moves (Handles.Step c) h operations (h.after c reply) := by
  obtain ⟨held, hmoves, reply, rfl, rfl⟩ := (keeps_serve hn c).moves talk
  exact ⟨reply, rfl, hmoves⟩

theorem Agrees.serve {before : List Service} {h' : Handles} {v : Service} (ha : Agrees before h)
    (talk : Trace (serve info h v.call) v.operations (.done (v.reply, h'))) :
    Agrees (before ++ [v]) h' := by
  obtain ⟨reply, ho, hmoves⟩ := moves_of_trace ha.nested talk
  obtain ⟨rfl, rfl⟩ : v.reply = reply ∧ h' = h.after v.call reply := by simpa using ho
  refine ⟨hmoves.keeps (fun _ _ _ hs => hs.nested) ha.nested, ?_, fun number => ?_⟩
  · rw [device_after, ha.device_iff, opened_concat_iff]
  · rw [interface_after, ha.interface_iff, lastClaimed_concat_iff]

theorem Life.agrees {before : List Service} (hlife : Life info before h) : Agrees before h := by
  induction hlife with
  | new => exact agrees_new
  | serve _ talk ih => exact ih.serve talk

/-- Nothing is held on a device that is not open. -/
theorem Agrees.eq_none {before : List Service} (ha : Agrees before h) (hshut : ¬ Opened before) :
    h = .none := by
  obtain ⟨device, interface⟩ := h
  obtain rfl : device = false := by simpa [hshut] using ha.device_iff
  cases interface with
  | none => rfl
  | some number => cases ha.nested rfl

end Channel

/-! ## The rules -/

namespace Handles

variable {c : Call} {h h' : Handles} {t : Turn Operation.Result} {ts : List (Turn Operation.Result)}

theorem foldl_turn_of_moves (hmoves : Moves (Step c) h ts h') : ts.foldl turn h = h' := by
  induction hmoves with
  | nil => rfl
  | cons hstep _ ih => rwa [List.foldl_cons, ← hstep.eq]

/-- At each moment of the call an interface is held only while its device is. -/
theorem nested_of_moves (hmoves : Moves (Step c) h ts h') (hn : h.Nested)
    {asked : List (Turn Operation.Result)} (hasked : asked <+: ts) : (asked.foldl turn h).Nested := by
  obtain ⟨rest, rfl⟩ := hasked
  obtain ⟨held, hfirst, -⟩ := moves_append_iff.1 hmoves
  rw [foldl_turn_of_moves hfirst]
  exact hfirst.keeps (fun _ _ _ hs => hs.nested) hn

/-- A call that works on an interface leaves the handles alone, and goes through the one that is held. -/
theorem Step.through (hc : c.NeedsInterface) (hs : Step c t h h') : h' = h ∧
    (t.question.IsLog ∨ ∃ number, t.question.through? = some number ∧ h.interface = some number) := by
  obtain ⟨huses, hpermit, rfl⟩ := hs
  obtain ⟨q, answer⟩ := t
  cases q with
  | setAlternate | controlOut | controlIn => exact ⟨rfl, .inr ⟨_, rfl, hpermit.2⟩⟩
  | log line => exact ⟨rfl, .inl trivial⟩
  | getDescriptor =>
    cases c with
    | controlIn => exact absurd huses hc
    | _ => cases huses
  | _ => cases c <;> first | exact False.elim hc | exact False.elim huses

theorem after_of_failed {reply : c.Reply} (hfailed : c.failure? reply ≠ Option.none) :
    h.after c reply = h := by
  cases c with
  | openDevice | claimInterface =>
    cases reply with
    | ok u => cases hfailed rfl
    | error e => rfl
  | close => cases hfailed rfl
  | _ => rfl

end Handles

/-- Whatever calls are made on a channel and whatever the stack answers: an interface is held only while
its device is, and the handles are those that the calls before tell of. The next call comes to a reply and
to the handles that the stack was asked for, and at each moment of it an interface is held only while its
device is. If it fails, nothing changes; a closing gives up both. On a device that is not open all but
opening, closing and watching fail without a word to the stack, and every operation of a call that works
on an interface goes through the one that was claimed last. -/
theorem handles_follow_calls {info : DeviceInfo} {before : List Channel.Service} {h : Handles}
    (hlife : Channel.Life info before h) :
    (h.Nested ∧ (h.device = true ↔ Channel.Opened before) ∧
      (∀ number, h.interface = some number ↔ Channel.LastClaimed before number) ∧
      (¬ Channel.Opened before → h = .none)) ∧
    ∀ (c : Call) (operations : List (Turn Operation.Result)) (o : Outcome Empty (c.Reply × Handles)),
      Trace (Channel.serve info h c) operations o → ∃ reply h', o = .done (reply, h') ∧
        operations.foldl Handles.turn h = h' ∧
        (∀ asked, asked <+: operations → (asked.foldl Handles.turn h).Nested) ∧
        (c.failure? reply ≠ none → h' = h) ∧
        (c = .close → h' = .none) ∧
        (¬ Channel.Opened before → ∀ e, c.refusal? = some e →
          c.failure? reply = some e ∧ ∀ t ∈ operations, t.question.IsLog) ∧
        (c.NeedsInterface → ∀ t ∈ operations, t.question.IsLog ∨
          ∃ number, t.question.through? = some number ∧ Channel.LastClaimed before number) := by
  have ha := hlife.agrees
  refine ⟨⟨ha.nested, ha.device_iff, ha.interface_iff, ha.eq_none⟩, fun c operations o talk => ?_⟩
  obtain ⟨reply, rfl, hmoves⟩ := Channel.moves_of_trace ha.nested talk
  refine ⟨reply, _, rfl, Handles.foldl_turn_of_moves hmoves,
    fun _ => Handles.nested_of_moves hmoves ha.nested, Handles.after_of_failed, ?_, ?_, ?_⟩
  · rintro rfl
    rfl
  · intro hshut e he
    obtain rfl := ha.eq_none hshut
    obtain ⟨hlogs, hfails⟩ := (Channel.within_serve_none he).of_trace talk
    exact ⟨hfails _ rfl, hlogs⟩
  · intro hc t ht
    -- no step of this call takes or gives up the interface, so it is the one that was held at first
    have hstep := hmoves.step_of_stays (fun _ _ hs => (hs.through hc).1) t ht
    rcases (hstep.through hc).2 with hlog | ⟨number, hthrough, hclaimed⟩
    · exact .inl hlog
    · exact .inr ⟨number, hthrough, (ha.interface_iff number).1 hclaimed⟩

/-- A loader with more than one interface, as the bus tells of it. -/
def wideLoader : DeviceInfo :=
  ⟨7, 0x0483, 0xdf11, "1", 1, none, none, [(0x0a, 0), (0xfe, 1), (0xfe, 1)]⟩

/-- One interface is claimed, and then another. -/
def reclaiming : List Channel.Service :=
  [⟨.openDevice,
      [⟨.log ⟨.debug, s!"Opening {wideLoader.describe}"⟩, ()⟩, ⟨.openDevice, .ok ()⟩], .ok ()⟩,
    ⟨.claimInterface 1, [⟨.claimInterface 1, .ok ()⟩], .ok ()⟩,
    ⟨.claimInterface 2, [⟨.claimInterface 2, .ok ()⟩, ⟨.releaseInterface 1, ()⟩], .ok ()⟩]

/-- The channel is closed. -/
def closing : Channel.Service :=
  ⟨.close,
    [⟨.releaseInterface 2, ()⟩, ⟨.closeDevice, ()⟩,
      ⟨.log ⟨.debug, s!"Closed {wideLoader.describe}"⟩, ()⟩], ()⟩

theorem life_reclaiming : Channel.Life wideLoader reclaiming ⟨true, some 2⟩ := by
  have hopened : Channel.Life wideLoader (reclaiming.take 1) ⟨true, none⟩ :=
    .serve .new (.ask _ (.ask _ (.done _)))
  have hclaimed : Channel.Life wideLoader (reclaiming.take 2) ⟨true, some 1⟩ :=
    .serve hopened (.ask _ (.done _))
  exact .serve hclaimed (.ask _ (.ask _ (.done _)))

theorem life_closing : Channel.Life wideLoader (reclaiming ++ [closing]) .none :=
  .serve life_reclaiming (.ask _ (.ask _ (.ask _ (.done _))))

/-- While the second interface is claimed every transfer goes through it; after the closing none reaches
the stack. -/
theorem handles_follow_calls_reclaimed :
    Channel.LastClaimed reclaiming 2 ∧ ¬ Channel.Opened (reclaiming ++ [closing]) ∧
    ∀ r data operations o,
      (Trace (Channel.serve wideLoader ⟨true, some 2⟩ (.controlOut r data)) operations o →
        ∀ t ∈ operations, t.question.IsLog ∨
          ∃ number, t.question.through? = some number ∧ Channel.LastClaimed reclaiming number) ∧
      (Trace (Channel.serve wideLoader .none (.controlOut r data)) operations o →
        o = .done (.error .notOpen, .none)) := by
  obtain ⟨⟨-, -, hlast, -⟩, hopen⟩ := handles_follow_calls life_reclaiming
  obtain ⟨⟨-, hdevice, -, -⟩, hclosed⟩ := handles_follow_calls life_closing
  have hshut : ¬ Channel.Opened (reclaiming ++ [closing]) := fun h => nomatch hdevice.2 h
  refine ⟨(hlast 2).1 rfl, hshut, fun r data operations o => ⟨fun talk => ?_, fun talk => ?_⟩⟩
  · obtain ⟨_, _, -, -, -, -, -, -, hthrough⟩ := hopen _ operations o talk
    exact hthrough trivial
  · obtain ⟨reply, _, rfl, -, -, hkeeps, -, hrefused, -⟩ := hclosed _ operations o talk
    obtain ⟨hfailed, -⟩ := hrefused hshut _ rfl
    obtain rfl := hkeeps (by rw [hfailed]; exact nofun)
    cases reply with
    | ok n => cases hfailed
    | error e =>
      cases hfailed
      rfl

end UsbDfu
