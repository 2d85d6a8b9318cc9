import UsbDfu.Proofs.Departures
import UsbDfu.Proofs.Transaction

/-!
# Dialogues run on a simulated device

What a dialogue does on a board with a simulated device that takes any number of transfers.

- `Scene`: the device, the news of it, and how often the user was told that it is gone; all else that
  happened on the board makes no difference.
- `Runs d a o b`: run in the scene `a`, the dialogue `d` ends with `o` and leaves the scene `b`.
  `Runs.bind` and `Runs.attempt` put dialogues together; reports and log lines change nothing
  (`runs_say_bind` and its like).
- `runs_perform`: a call is one step of the device, and word of it spreads if that takes the device
  off the bus (`Scene.step`). `runs_send` and `runs_fetch` are that for a request of DFU, `runs_download`
  and its like for each of them.
- `runs_allowed`: a call that an open device allows; with `runs_openDevice`, `runs_claimAlternate` and
  `runs_close` for those that work on it begins and ends with.
-/

namespace UsbDfu

open Dialogue
open Bench (SingleBoard Simulator News Event)

namespace Dialogue

variable {Q : Type} {A : Q → Type} {ε ε' α β σ : Type}

theorem run_bind (serve : (q : Q) → σ → A q × σ) (d : Dialogue A ε α) (f : α → Dialogue A ε β)
    (s : σ) :
    (d >>= f).run serve s = ((d.run serve s).1.silent >>= f).run serve (d.run serve s).2 := by
  induction d generalizing s with
  | done a | fail e | exhausted => rfl
  | ask q next ih => exact ih _ _

theorem run_attempt (serve : (q : Q) → σ → A q × σ) (d : Dialogue A ε α) (s : σ) :
    (d.attempt : Dialogue A ε' (Except ε α)).run serve s =
      ((d.run serve s).1.attempt, (d.run serve s).2) := by
  induction d generalizing s with
  | done a | fail e | exhausted => rfl
  | ask q next ih => exact ih _ _

end Dialogue

/-! ## Scenes -/

/-- The user is told that the device is gone. -/
def Bench.Event.isFarewell : Event → Bool
  | .report .disconnected => true
  | _ => false

/-- What matters of a board with a simulated device. -/
structure Scene where
  device : Simulator
  news : News
  /-- How often the user was told that the device is gone. -/
  farewells : Nat

namespace Scene

/-- The board is in this scene. -/
structure On (a : Scene) (w : SingleBoard) : Prop where
  board : w.board = { model := .simulator a.device, budget := none }
  news : w.news = a.news
  farewells : w.events.countP Event.isFarewell = a.farewells

/-- The scene of a board with this device. -/
def ofBoard (s : Simulator) (w : SingleBoard) : Scene where
  device := s
  news := w.news
  farewells := w.events.countP Event.isFarewell

theorem on_ofBoard {s : Simulator} {w : SingleBoard}
    (h : w.board = { model := .simulator s, budget := none }) : (ofBoard s w).On w :=
  ⟨h, rfl, rfl⟩

theorem On.ofBoard_eq {a : Scene} {w : SingleBoard} (h : a.On w) : ofBoard a.device w = a := by
  rw [ofBoard, h.news, h.farewells]

/-- The scene after a step of the device; word spreads if it left the bus. -/
def step (a : Scene) (s : Simulator) : Scene where
  device := s
  news := if a.device.connected && !s.connected then a.news.deliver a.device.id else a.news
  farewells := a.farewells

theorem step_of_connected {a : Scene} {s : Simulator} (h : s.connected = a.device.connected) :
    a.step s = { a with device := s } := by
  rw [step, h, Bool.and_not_self]
  rfl

theorem On.record {a : Scene} {w : SingleBoard} {e : Event} (h : a.On w)
    (he : e.isFarewell = false) : a.On (w.record e) where
  board := h.board
  news := h.news
  farewells := by
    rw [SingleBoard.record, List.countP_append, h.farewells, List.countP_singleton, he]
    rfl

end Scene

/-! ## Runs -/

/-- Run on a board in the scene `a`, the dialogue ends with `o` and leaves the board in the scene
`b`. -/
def Runs {ε α : Type} (d : Dialogue Query.Answer ε α) (a : Scene) (o : Outcome ε α) (b : Scene) :
    Prop :=
  ∀ w, a.On w → ∃ w', SingleBoard.run d w = (o, w') ∧ b.On w'

section Rules

variable {ε ε' α β : Type} {a b c : Scene}

theorem runs_done (x : α) : Runs (.done x : Dialogue Query.Answer ε α) a (.done x) a :=
  fun w hw => ⟨w, rfl, hw⟩

theorem runs_fail (e : ε) : Runs (.fail e : Dialogue Query.Answer ε α) a (.failed e) a :=
  fun w hw => ⟨w, rfl, hw⟩

theorem runs_ofExcept (r : Except ε α) : Runs (Dialogue.ofExcept r) a (.ofExcept r) a := by
  cases r with
  | ok x => exact runs_done x
  | error e => exact runs_fail e

theorem Runs.bind_silent {d : Dialogue Query.Answer ε α} {f : α → Dialogue Query.Answer ε β}
    {r : Outcome ε α} {o : Outcome ε β} (hd : Runs d a r b) (hf : Runs (r.silent >>= f) b o c) :
    Runs (d >>= f) a o c := by
  intro w hw
  obtain ⟨w₁, h₁, hw₁⟩ := hd w hw
  obtain ⟨w₂, h₂, hw₂⟩ := hf w₁ hw₁
  refine ⟨w₂, ?_, hw₂⟩
  rw [SingleBoard.run] at h₁ h₂ ⊢
  rw [run_bind, h₁, h₂]

theorem Runs.bind {d : Dialogue Query.Answer ε α} {f : α → Dialogue Query.Answer ε β} {x : α}
    {o : Outcome ε β} (hd : Runs d a (.done x) b) (hf : Runs (f x) b o c) : Runs (d >>= f) a o c :=
  hd.bind_silent hf

theorem Runs.bind_failed {d : Dialogue Query.Answer ε α} {e : ε} (hd : Runs d a (.failed e) b)
    (f : α → Dialogue Query.Answer ε β) : Runs (d >>= f) a (.failed e) b :=
  hd.bind_silent (runs_fail e)

/-- A failure that is turned into a value. -/
theorem Runs.attempt {d : Dialogue Query.Answer ε α} {r : Outcome ε α} (hd : Runs d a r b) :
    Runs (d.attempt : Dialogue Query.Answer ε' (Except ε α)) a r.attempt b := by
  intro w hw
  obtain ⟨w', h, hw'⟩ := hd w hw
  refine ⟨w', ?_, hw'⟩
  rw [SingleBoard.run] at h ⊢
  rw [run_attempt, h]

/-! ## Reports and log lines -/

theorem runs_ask {q : Query} {next : q.Answer → Dialogue Query.Answer ε α} {o : Outcome ε α}
    (h : ∀ w, a.On w → b.On (SingleBoard.serve q w).2 ∧
      Runs (next (SingleBoard.serve q w).1) b o c) : Runs (.ask q next) a o c := by
  intro w hw
  obtain ⟨hb, hnext⟩ := h w hw
  exact hnext _ hb

theorem runs_report_bind {r : Report} {f : Unit → Dialogue Query.Answer ε β} {o : Outcome ε β}
    (hr : r ≠ .disconnected) (h : Runs (f ()) a o b) : Runs (Exchange.report r >>= f) a o b := by
  refine runs_ask fun w hw => ⟨hw.record ?_, h⟩
  cases r with
  | disconnected => exact absurd rfl hr
  | log | progress => rfl

theorem runs_say_bind {level : Level} {text : String} {f : Unit → Dialogue Query.Answer ε β}
    {o : Outcome ε β} (h : Runs (f ()) a o b) : Runs (Exchange.say level text >>= f) a o b :=
  runs_report_bind nofun h

theorem runs_say {level : Level} {text : String} :
    Runs (Exchange.say level text : Dialogue Query.Answer ε Unit) a (.done ()) a := by
  rw [← bind_done (Exchange.say level text)]
  exact runs_say_bind (runs_done ())

theorem runs_progress_bind {done : Nat} {total : Option Nat}
    {f : Unit → Dialogue Query.Answer ε β} {o : Outcome ε β} (h : Runs (f ()) a o b) :
    Runs (Exchange.progress done total >>= f) a o b :=
  runs_report_bind nofun h

theorem runs_note_bind {level : Level} {text : String} {f : Unit → Dialogue Query.Answer ε β}
    {o : Outcome ε β} (h : Runs (f ()) a o b) : Runs (Exchange.note level text >>= f) a o b :=
  runs_ask fun _ hw => ⟨hw.record rfl, h⟩

/-! ## News -/

/-- The words to the user when the device leaves. -/
theorem runs_bidFarewell_bind {f : Unit → Talk β} {o : Outcome Empty β}
    (h : Runs (f ()) { a with farewells := a.farewells + 1 } o b) :
    Runs (Session.bidFarewell >>= f) a o b := by
  refine runs_say_bind (runs_ask (b := { a with farewells := a.farewells + 1 }) fun w hw =>
    ⟨⟨hw.board, hw.news, ?_⟩, h⟩)
  show (w.events ++ [_]).countP Event.isFarewell = a.farewells + 1
  rw [List.countP_append, hw.farewells]
  rfl

theorem runs_news_bind {sub : Subscription} {f : List DeviceId → Dialogue Query.Answer ε β}
    {o : Outcome ε β} (h : Runs (f (a.news.takeAll sub).1)
      { a with news := (a.news.takeAll sub).2 } o b) :
    Runs (question (Query.news sub) >>= f) a o b := by
  refine runs_ask (b := { a with news := (a.news.takeAll sub).2 }) fun w hw => ?_
  simp only [SingleBoard.serve, hw.news]
  exact ⟨⟨hw.board, rfl, hw.farewells⟩, h⟩

theorem runs_departure_bind {sub : Subscription} {id : DeviceId} {timeout : Nat}
    {f : Bool → Dialogue Query.Answer ε β} {o : Outcome ε β}
    (h : Runs (f (a.news.takeUntil sub id).1)
      { a with news := (a.news.takeUntil sub id).2 } o b) :
    Runs (question (Query.departure sub id timeout) >>= f) a o b := by
  refine runs_ask (b := { a with news := (a.news.takeUntil sub id).2 }) fun w hw => ?_
  simp only [SingleBoard.serve, hw.news]
  exact ⟨⟨hw.board, rfl, hw.farewells⟩, h⟩

end Rules

/-! ## Calls -/

/-- What the device answers to a call, and how it leaves it. A subscription is not its matter. -/
def Bench.Simulator.call (s : Simulator) : (c : Call) → c.Reply × Simulator
  | .openDevice => s.openDevice
  | .selectConfiguration _ => s.selectConfiguration
  | .claimInterface number => s.claimInterface number
  | .selectAlternate number _ => s.selectAlternate number
  | .controlOut r data => s.controlOut r data
  | .controlIn r length => s.controlIn r length
  | .reset => s.reset
  | .close => ((), s.close)
  | .watch => (.ok 0, s)

section Calls

variable {ε α : Type} {a : Scene} {c : Connection}

theorem runs_perform {call : Call} (h : call ≠ .watch) :
    Runs (Exchange.perform call : Dialogue Query.Answer ε call.Reply) a (.done (a.device.call call).1)
      (a.step (a.device.call call).2) := by
  rintro ⟨board, news, events⟩ ⟨rfl, rfl, hfarewells⟩
  have hcount : ∀ e : Event, e.isFarewell = false →
      (events ++ [e]).countP Event.isFarewell = a.farewells := by
    intro e he
    rw [List.countP_append, hfarewells, List.countP_singleton, he]
    rfl
  cases call with
  | watch => exact absurd rfl h
  | close =>
    have hnews : (a.step a.device.close).news = a.news := by
      rw [Scene.step_of_connected (s := a.device.close) rfl]
    exact ⟨_, rfl, ⟨rfl, hnews.symm, hcount _ rfl⟩⟩
  | _ => exact ⟨_, rfl, ⟨rfl, rfl, hcount _ rfl⟩⟩

/-- A request that the device answers while it is open. -/
theorem whenOpen_eq {s : Simulator} (h : s.checkOpen = .ok ())
    (step : Simulator → Except TransportError α × Simulator) : s.whenOpen step = step s := by
  rw [Simulator.whenOpen, h]

/-- A request with data, and what the device makes of it. -/
theorem runs_send {request : UInt8} {value : UInt16} {data : Bytes} {x : Except TransportError Nat}
    {s : Simulator} (h : a.device.controlOut (.ofClass request value c.interface) data = (x, s)) :
    Runs (c.send request value data) a (.ofExcept (x.mapError .transport)) (a.step s) := by
  have hcall : a.device.call (.controlOut (.ofClass request value c.interface) data) = (x, s) := h
  refine (runs_perform (by nofun)).bind ?_
  rw [hcall]
  exact runs_ofExcept _

/-- A request for data. -/
theorem runs_fetch {request : UInt8} {value length : UInt16} {x : Except TransportError Bytes}
    {s : Simulator} (h : a.device.controlIn (.ofClass request value c.interface) length = (x, s)) :
    Runs (c.fetch request value length) a (.ofExcept (x.mapError .transport)) (a.step s) := by
  have hcall : a.device.call (.controlIn (.ofClass request value c.interface) length) = (x, s) := h
  refine (runs_perform (by nofun)).bind ?_
  rw [hcall]
  exact runs_ofExcept _

theorem runs_download (h : a.device.checkOpen = .ok ()) (block : UInt16) (data : Bytes) :
    Runs (c.download block data) a
      (.ofExcept ((a.device.download block data).1.mapError .transport))
      (a.step (a.device.download block data).2) :=
  runs_send (whenOpen_eq h _)

theorem runs_upload (h : a.device.checkOpen = .ok ()) (block length : UInt16) :
    Runs (c.upload block length) a
      (.ofExcept ((a.device.upload block length).1.mapError .transport))
      (a.step (a.device.upload block length).2) :=
  runs_fetch (whenOpen_eq h _)

theorem runs_clearStatus (h : a.device.checkOpen = .ok ()) :
    Runs c.clearStatus a (.done ()) (a.step a.device.clearStatus) := by
  have hcall : a.device.controlOut (.ofClass Connection.clearStatusRequest 0 c.interface) [] =
      (.ok 0, a.device.clearStatus) := by
    rw [Simulator.controlOut, whenOpen_eq h]
    rfl
  exact (runs_send hcall).bind (runs_done ())

theorem runs_abort (h : a.device.checkOpen = .ok ()) :
    Runs c.abort a (.done ()) (a.step a.device.abort) := by
  have hcall : a.device.controlOut (.ofClass Connection.abortRequest 0 c.interface) [] =
      (.ok 0, a.device.abort) := by
    rw [Simulator.controlOut, whenOpen_eq h]
    rfl
  exact (runs_send hcall).bind (runs_done ())

theorem runs_getState (h : a.device.checkOpen = .ok ()) :
    Runs c.getState a (.done (.ofCode a.device.state.code)) a := by
  have hcall : a.device.controlIn (.ofClass Connection.getStateRequest 0 c.interface) 1 =
      (.ok [a.device.state.code], a.device) := by
    rw [Simulator.controlIn, whenOpen_eq h]
    rfl
  have hfetch := runs_fetch hcall
  rw [Scene.step_of_connected rfl] at hfetch
  exact hfetch.bind (runs_done _)

theorem runs_getStatus (h : a.device.checkOpen = .ok ()) :
    Runs c.getStatus a (.ofExcept (Status.read a.device.getStatus.1))
      (a.step a.device.getStatus.2) := by
  have hcall : a.device.call (.controlIn (.ofClass Connection.getStatusRequest 0 c.interface)
      (UInt16.ofNat Status.size)) = a.device.getStatus := by
    rw [Simulator.call, Simulator.controlIn, whenOpen_eq h]
    rfl
  rw [getStatus_eq, ← hcall]
  exact (runs_perform (by nofun)).bind (runs_ofExcept _)

theorem runs_reset : Runs Exchange.reset a (.ofExcept (a.device.reset.1.mapError .transport))
    (a.step a.device.reset.2) :=
  (runs_perform (by nofun)).bind (runs_ofExcept _)

end Calls

/-! ## Opening and claiming -/

namespace Bench.Simulator

/-- The device with its channel open. -/
def opened (s : Simulator) : Simulator :=
  { s with isOpen := true }

/-- The device once an interface of it is claimed. -/
def claimedAs (s : Simulator) (number : UInt8) : Simulator :=
  { s with claimed := some number }

theorem checkOpen_eq {s : Simulator} (hc : s.connected = true) (ho : s.isOpen = true) :
    s.checkOpen = .ok () := by
  rw [checkOpen, hc, ho]
  rfl

end Bench.Simulator

section Opening

variable {a : Scene}

/-- A call that the device allows, and that leaves it on the bus. -/
theorem runs_allowed {call : Call} {d : Simulator} {x : call.Reply}
    (hd : a.device.call call = (x, d)) (hc : d.connected = a.device.connected)
    (h : call ≠ .watch) :
    Runs (Exchange.perform call : Exchange call.Reply) a (.done x) { a with device := d } := by
  have hrun := runs_perform (ε := Failure) (a := a) h
  rw [hd, Scene.step_of_connected hc] at hrun
  exact hrun

theorem runs_openDevice (hc : a.device.connected = true) :
    Runs Exchange.openDevice a (.done ()) { a with device := a.device.opened } := by
  have hopen : a.device.call .openDevice = (.ok (), a.device.opened) := by
    rw [Simulator.call, Simulator.openDevice, if_pos hc]
    rfl
  exact (runs_allowed hopen rfl (by simp)).bind (runs_done ())

theorem runs_close :
    Runs (Exchange.close : Exchange Unit) a (.done ()) { a with device := a.device.close } :=
  @runs_allowed a .close _ _ rfl rfl (by simp)

/-- An open device lets every interface be claimed, with any of its settings. -/
theorem runs_claimAlternate (hopen : a.device.checkOpen = .ok ())
    (configuration number alternate : UInt8) :
    Runs (do
      Exchange.selectConfiguration configuration
      Exchange.claimInterface number
      Exchange.selectAlternate number alternate) a (.done ())
      { a with device := a.device.claimedAs number } := by
  have hselect : a.device.call (.selectConfiguration configuration) = (.ok (), a.device) :=
    whenOpen_eq hopen _
  have hclaim : a.device.call (.claimInterface number) = (.ok (), a.device.claimedAs number) := by
    rw [Simulator.call, Simulator.claimInterface, whenOpen_eq hopen]
    rfl
  have hclaimed : (a.device.claimedAs number).checkOpen = .ok () := hopen
  have halternate : (a.device.claimedAs number).call (.selectAlternate number alternate) =
      (.ok (), a.device.claimedAs number) := by
    rw [Simulator.call, Simulator.selectAlternate, whenOpen_eq hclaimed]
    exact if_pos rfl
  refine ((runs_allowed hselect rfl (by simp)).bind (runs_done ())).bind ?_
  refine ((runs_allowed hclaim rfl (by simp)).bind (runs_done ())).bind ?_
  exact (@runs_allowed { a with device := a.device.claimedAs number } _ _ _ halternate rfl
    (by simp)).bind (runs_done ())

end Opening

end UsbDfu
