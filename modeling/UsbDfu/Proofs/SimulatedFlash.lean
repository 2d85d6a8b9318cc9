import Mathlib.Data.List.TakeWhile
import UsbDfu.Proofs.Preflight
import UsbDfu.Proofs.SimulatedImage

/-!
# Flashing a simulated device

A session flashes an image onto a simulated device of plain DFU 1.1: it clears an error the device is
in, sends the image, has the device take it over, resets it, and waits for it to leave.

- `Session.runs_pollDepartures`, `Session.runs_awaitReboot`: a session hears of its device if word of
  it has arrived, and the user is told then.
- `Session.runs_leaveError`: an error is cleared before the image.
- `Session.Attached`: the session has the device, and will hear of it when it leaves;
  `Session.attached_of_connect` says that connecting makes it so.
- `flash_simulator`: what a flash leaves of the device, the session and the user.
-/

namespace UsbDfu

open Dialogue
open Bench (SingleBoard Simulator News Event)

/-! ## News of the device -/

namespace Bench.News

variable {n : News} {sub : Subscription} {id : DeviceId}

/-- The subscription takes news in. -/
def IsOpen (n : News) (sub : Subscription) : Prop :=
  ∃ queue, n.feeds[sub]? = some { arrived := queue, ended := false }

theorem takeUntil_fst (n : News) (sub : Subscription) (id : DeviceId) :
    (n.takeUntil sub id).1 = decide (id ∈ n.arrived sub) := by
  have hnil : (n.arrived sub).dropWhile (· ≠ id) = [] ↔ id ∉ n.arrived sub := by
    rw [List.dropWhile_eq_nil_iff]
    constructor
    · intro h hmem
      simpa using h id hmem
    · intro h id' hmem
      simpa using ne_of_mem_of_not_mem hmem h
  rw [takeUntil]
  cases hd : (n.arrived sub).dropWhile (· ≠ id) with
  | nil => simp [hnil.1 hd]
  | cons id' rest =>
    rw [hd] at hnil
    simpa using hnil

theorem IsOpen.arrived_deliver (h : n.IsOpen sub) (id : DeviceId) :
    (n.deliver id).arrived sub = n.arrived sub ++ [id] := by
  obtain ⟨queue, hq⟩ := h
  simp [deliver, arrived, hq]

theorem IsOpen.takeAll (h : n.IsOpen sub) :
    (n.takeAll sub).2.IsOpen sub ∧ (n.takeAll sub).2.arrived sub = [] := by
  obtain ⟨queue, hq⟩ := h
  have hnew : (n.takeAll sub).2.feeds[sub]? = some { arrived := [], ended := false } := by
    simp [News.takeAll, setArrived, hq]
  exact ⟨⟨[], hnew⟩, by rw [arrived, hnew]⟩

end Bench.News

namespace Session

variable {s : Session} {sub : Subscription} {a : Scene}

/-- A session hears at once what has arrived, and the user with it. -/
theorem runs_pollDepartures (hs : s.activity ≠ .disconnected) (hw : s.watching = some sub) :
    Runs s.pollDepartures a (.done (s.after (decide (s.deviceId ∈ a.news.arrived sub))))
      { a with
        news := (a.news.takeAll sub).2
        farewells := a.farewells + (decide (s.deviceId ∈ a.news.arrived sub)).toNat } := by
  rw [pollDepartures, hw]
  refine runs_news_bind ?_
  rw [handleDepartures_eq hs]
  show Runs (if s.deviceId ∈ a.news.arrived sub then _ else _) _ _ _
  by_cases hmem : s.deviceId ∈ a.news.arrived sub
  · rw [if_pos hmem, decide_eq_true hmem]
    exact runs_bidFarewell_bind (runs_done _)
  · rw [if_neg hmem, decide_eq_false hmem]
    exact runs_done _

/-- A wait ends with the device gone if word of it has arrived. -/
theorem runs_awaitDeparture (hs : s.activity ≠ .disconnected) (hw : s.watching = some sub)
    (timeout : Nat) :
    Runs (s.awaitDeparture timeout) a
      (.done (decide (s.deviceId ∈ a.news.arrived sub),
        s.after (decide (s.deviceId ∈ a.news.arrived sub))))
      { a with
        news := (a.news.takeUntil sub s.deviceId).2
        farewells := a.farewells + (decide (s.deviceId ∈ a.news.arrived sub)).toNat } := by
  rw [awaitDeparture, if_neg hs, hw]
  refine runs_departure_bind ?_
  rw [Bench.News.takeUntil_fst]
  by_cases hmem : s.deviceId ∈ a.news.arrived sub
  · rw [decide_eq_true hmem, if_pos rfl, handleDeparture_self hs, bind_bind]
    exact runs_bidFarewell_bind (runs_done _)
  · rw [decide_eq_false hmem]
    exact runs_done _

theorem runs_awaitReboot (hs : s.activity = .connected) (hw : s.watching = some sub) :
    Runs s.awaitReboot a (.done (s.after (decide (s.deviceId ∈ a.news.arrived sub))))
      { a with
        news := (a.news.takeUntil sub s.deviceId).2
        farewells := a.farewells + (decide (s.deviceId ∈ a.news.arrived sub)).toNat } := by
  have hwait := @runs_awaitDeparture { s with activity := .manifesting } sub a nofun hw
    s.disconnectTimeout
  rw [awaitReboot]
  refine hwait.bind ?_
  by_cases hmem : s.deviceId ∈ a.news.arrived sub
  · rw [decide_eq_true hmem]
    exact runs_say_bind (runs_done _)
  · rw [decide_eq_false hmem]
    refine runs_say_bind ?_
    have hagain : { s with activity := .connected } = s := with_connected hs
    show Runs (pure { s with activity := .connected }) _ (.done s) _
    rw [hagain]
    exact runs_done _

/-- The end of a flash whose download went well: the session has lost its device if word of that has
arrived. -/
theorem runs_afterDownload (hs : s.activity = .connected) (hw : s.watching = some sub) :
    ∃ news, Runs (s.afterDownload (.ok ())) a
      (.done (.ok (), s.after (decide (s.deviceId ∈ a.news.arrived sub))))
      { a with
        news := news
        farewells := a.farewells + (decide (s.deviceId ∈ a.news.arrived sub)).toNat } := by
  have hthere : s.activity ≠ .disconnected := by
    rw [hs]
    nofun
  cases ht : s.functional.manifestationTolerant with
  | true =>
    refine ⟨(a.news.takeAll sub).2, runs_say_bind ?_⟩
    simp only [ht, if_true]
    exact (runs_pollDepartures hthere hw).bind (runs_done _)
  | false =>
    refine ⟨(a.news.takeUntil sub s.deviceId).2, runs_say_bind ?_⟩
    simp only [ht, Bool.false_eq_true, if_false]
    exact (runs_awaitReboot hs hw).bind (runs_done _)

end Session

/-! ## Before the image -/

namespace Bench.Simulator

variable {s : Simulator} {patience : Nat}

/-- The device is open and takes an image from the start on, if need be after an error is cleared.
The host is patient enough for it, and it does not refuse the reset at the end. -/
structure ReadyToFlash (patience : Nat) (s : Simulator) : Prop where
  connected : s.connected = true
  isOpen : s.isOpen = true
  dfuse : s.dfuse = false
  start : s.state = .dfuIdle ∧ s.status = .ok ∨ s.state = .error
  failBlock : s.failBlock = none
  pendingError : s.pendingError = none
  busyPolls : s.busyPolls ≤ patience
  /-- A device that stays is asked once more while it takes the image over. -/
  patient : 1 ≤ patience
  reset : s.resetBehavior ≠ .failStall

/-- The device after an error was cleared. -/
def recovered (s : Simulator) : Simulator :=
  { s with state := .dfuIdle, status := .ok }

theorem recovered_eq_self (hs : s.state = .dfuIdle) (hok : s.status = .ok) : s.recovered = s := by
  rw [recovered, ← hs, ← hok]

theorem ReadyToFlash.recovered (h : s.ReadyToFlash patience) :
    s.recovered.TakesImage patience where
  connected := h.connected
  isOpen := h.isOpen
  state := .inl rfl
  status := rfl
  failBlock := h.failBlock
  pendingError := h.pendingError
  busyPolls := h.busyPolls
  dfuse := h.dfuse

end Bench.Simulator

namespace Session

variable {s : Session} {sub : Subscription} {a : Scene}

/-- A status question outside of a transfer changes nothing. -/
theorem runs_getStatus_calm {c : Connection} (hopen : a.device.checkOpen = .ok ())
    (hs : a.device.state = .dfuIdle ∨ a.device.state = .error) :
    Runs c.getStatus a (.done a.device.seen) a := by
  refine runs_getStatus_of_stays hopen ?_ rfl
  rcases hs with hs | hs
  · simp [Simulator.getStatus, hs]
  · simp [Simulator.getStatus, hs]

theorem runs_leaveError {c : Connection} (hopen : a.device.checkOpen = .ok ())
    (hs : a.device.state = .dfuIdle ∧ a.device.status = .ok ∨ a.device.state = .error) :
    Runs (leaveError c) a (.done ()) { a with device := a.device.recovered } := by
  refine (runs_getStatus_calm hopen (hs.imp_left And.left)).bind ?_
  rcases hs with ⟨hidle, hok⟩ | herror
  · have hstate : a.device.seen.state ≠ .error := by
      rw [Simulator.seen, hidle]
      rintro ⟨⟩
    rw [if_neg hstate, Simulator.recovered_eq_self hidle hok]
    exact runs_done ()
  · have hstate : a.device.seen.state = .error := by
      rw [Simulator.seen, herror]
      rfl
    have hcleared : a.device.clearStatus = a.device.recovered := if_pos herror
    have hclear := runs_clearStatus (c := c) hopen
    rw [hcleared, Scene.step_of_connected (s := a.device.recovered) rfl] at hclear
    rw [if_pos hstate]
    exact hclear

end Session

/-! ## Connecting -/

namespace Bench

theorem News.isOpen_subscribe (n : News) :
    n.subscribe.2.IsOpen n.feeds.length ∧ n.subscribe.2.arrived n.feeds.length = [] := by
  have hnew : n.subscribe.2.feeds[n.feeds.length]? = some { arrived := [], ended := false } :=
    List.getElem?_concat_length
  exact ⟨⟨[], hnew⟩, by rw [arrived, hnew]⟩

end Bench

namespace Session

variable {s : Session} {sub : Subscription} {a : Scene}

/-- The session has the device of the scene, and will hear of it when it leaves. -/
structure Attached (s : Session) (sub : Subscription) (a : Scene) : Prop where
  activity : s.activity = .connected
  deviceId : s.deviceId = a.device.id
  watching : s.watching = some sub
  isOpen : a.news.IsOpen sub
  notGone : s.deviceId ∉ a.news.arrived sub

theorem runs_claim (hopen : a.device.checkOpen = .ok ()) (setting : AltSetting) :
    Runs (claim setting) a (.done ())
      { a with device := a.device.claimedAs setting.interface } :=
  runs_claimAlternate hopen _ _ _

theorem runs_openAndClaim (hc : a.device.connected = true) (setting : AltSetting) :
    Runs (openAndClaim setting) a (.done ())
      { a with device := a.device.opened.claimedAs setting.interface } := by
  have hclaim := @runs_claim { a with device := a.device.opened } (Simulator.checkOpen_eq hc rfl)
    setting
  exact (runs_openDevice hc).bind (hclaim.attempt.bind_silent (runs_done ()))

theorem runs_agreeOn (functional? : Option Functional) :
    Runs (agreeOn functional?) a (.done (functional?.getD Functional.assumed)) a := by
  cases functional? with
  | none => exact runs_say_bind (runs_done _)
  | some f => exact runs_note_bind (runs_done f)

theorem runs_subscribe :
    Runs subscribe a (.done (some a.news.feeds.length)) { a with news := a.news.subscribe.2 } := by
  refine runs_ask (b := { a with news := a.news.subscribe.2 }) fun w hw => ?_
  have hcall : w.call .watch = (.ok a.news.feeds.length,
      SingleBoard.record { w with news := a.news.subscribe.2 }
        (.call none .watch (.ok a.news.feeds.length))) := by
    obtain ⟨board, news, events⟩ := w
    obtain ⟨rfl, rfl, -⟩ := hw
    simp [SingleBoard.call, Bench.Board.serve, Bench.Board.watch, Bench.Board.answer,
      Bench.Board.advance]
    rfl
  simp only [SingleBoard.serve, hcall]
  exact ⟨Scene.On.record ⟨hw.board, rfl, hw.farewells⟩ rfl, runs_done _⟩

/-- Connecting to a simulated device of plain DFU 1.1. -/
theorem attached_of_connect {device : Device} {options : SessionOptions} {setting : AltSetting}
    (hc : a.device.connected = true) (hselect : device.select options.token = .ok setting)
    (hplain : device.isDfuse setting = false) :
    ∃ s b, Runs (connect a.device.id device options) a (.done s) b ∧
      b.device = a.device.opened.claimedAs setting.interface ∧ b.farewells = a.farewells ∧
      s.Attached a.news.feeds.length b ∧ s.strategy = .plain ∧
      s.functional = (device.functional? setting).getD Functional.assumed ∧
      s.connection.patience = options.patience := by
  obtain ⟨hfeed, hempty⟩ := a.news.isOpen_subscribe
  let functional := (device.functional? setting).getD Functional.assumed
  let session : Session :=
    { connection := .new setting.interface
        (options.transferSize.getD functional.transferSize) options.patience
      deviceId := a.device.id
      setting := setting
      functional := functional
      strategy := .plain
      watching := some a.news.feeds.length
      activity := .connected
      disconnectTimeout := options.disconnectTimeout }
  refine ⟨session, { a with
    device := a.device.opened.claimedAs setting.interface
    news := a.news.subscribe.2 }, ?_, rfl, rfl, ?_, rfl, rfl, rfl⟩
  · rw [connect, hselect]
    refine (runs_done setting).bind ((runs_openAndClaim hc setting).bind ?_)
    refine (runs_agreeOn (device.functional? setting)).bind (runs_subscribe.bind ?_)
    rw [if_neg (by simp [hplain])]
    exact (runs_done Strategy.plain).bind (runs_say_bind (runs_say_bind (runs_done session)))
  · exact ⟨rfl, rfl, rfl, hfeed, hempty ▸ List.not_mem_nil⟩

end Session

/-! ## A flash as a whole -/

namespace Session

variable {s : Session} {sub : Subscription} {a : Scene} {image : Bytes}

theorem Attached.takeAll (h : s.Attached sub a) :
    s.Attached sub { a with news := (a.news.takeAll sub).2 } where
  activity := h.activity
  deviceId := h.deviceId
  watching := h.watching
  isOpen := h.isOpen.takeAll.1
  notGone := by
    show s.deviceId ∉ (a.news.takeAll sub).2.arrived sub
    rw [h.isOpen.takeAll.2]
    exact List.not_mem_nil

/-- Word of the device arrives exactly if it leaves. -/
theorem Attached.mem_arrived_step {d : Simulator} (h : s.Attached sub a)
    (hc : a.device.connected = true) :
    decide (s.deviceId ∈ (a.step d).news.arrived sub) = !d.connected := by
  rw [Scene.step, hc, Bool.true_and]
  cases hd : d.connected with
  | true =>
    rw [Bool.not_true, if_neg Bool.false_ne_true]
    exact decide_eq_false h.notGone
  | false =>
    rw [Bool.not_false, if_pos rfl, h.isOpen.arrived_deliver, h.deviceId]
    exact decide_eq_true List.mem_concat_self

/-- What the session has heard before the operation is not about its device. -/
theorem Attached.runs_whileConnected {α : Type}
    {operation : Session → Talk (Except Failure α × Session)}
    {o : Outcome Empty (Except Failure α × Session)} {b : Scene} (h : s.Attached sub a)
    (hrun : Runs (operation s) { a with news := (a.news.takeAll sub).2 } o b) :
    Runs (s.whileConnected operation) a o b := by
  have hthere : s.activity ≠ .disconnected := by
    rw [h.activity]
    nofun
  have hpoll := @runs_pollDepartures s sub a hthere h.watching
  rw [decide_eq_false h.notGone] at hpoll
  refine hpoll.bind ?_
  rw [after_false, if_neg hthere]
  exact hrun

/-- A flash of a device that does all it should. -/
theorem Attached.runs_flashConnected (h : s.Attached sub a) (hplain : s.strategy = .plain)
    (hdevice : a.device.ReadyToFlash s.connection.patience) (hne : image ≠ []) :
    ∃ b, Runs (s.flashConnected image) a (.done (.ok (), s.after !b.device.connected)) b ∧
      b.farewells = a.farewells + (!b.device.connected).toNat ∧
      b.device.downloaded = a.device.downloaded ++ image ∧
      b.device.violations = a.device.violations ∧
      b.device.connected =
        (!a.device.disconnectOnManifest && a.device.resetBehavior = .ignore) := by
  have hopen := Simulator.checkOpen_eq hdevice.connected hdevice.isOpen
  obtain ⟨d, hwrite, hdownloaded, hviolations, -, hconnected⟩ :=
    @runs_writeBlocks s.connection { a with device := a.device.recovered } image
      s.connection.transferSize s.functional.manifestationTolerant hne hdevice.recovered
      hdevice.patient hdevice.reset
  have hstep : Scene.step { a with device := a.device.recovered } d = a.step d := rfl
  rw [hstep] at hwrite
  obtain ⟨news, hend⟩ := @runs_afterDownload s sub (a.step d) h.activity h.watching
  rw [h.mem_arrived_step hdevice.connected] at hend
  refine ⟨{ a.step d with
    news := news
    farewells := a.farewells + (!d.connected).toNat }, ?_, rfl, hdownloaded, hviolations, hconnected⟩
  rw [flashConnected_eq]
  refine (runs_leaveError hopen hdevice.start).attempt.bind_silent ?_
  refine runs_say_bind ?_
  rw [with_connected h.activity, hplain]
  exact hwrite.attempt.bind_silent hend

end Session

/-- A flash of any image that is not empty, on a simulated device of plain DFU 1.1 that is at rest or
in error, and does not refuse the reset, goes well: the device has the image once, as a whole, and
no block came while it was busy. The session has lost its device, and the user was told so once,
exactly if the device left, when it took the image over or by the reset. -/
theorem flash_simulator {session : Session} {sub : Subscription} {s : Simulator} {w : SingleBoard}
    {image : Bytes} (hw : w.board = { model := .simulator s, budget := none })
    (hattached : session.Attached sub (Scene.ofBoard s w)) (hplain : session.strategy = .plain)
    (hdown : session.functional.canDownload = true)
    (hs : s.ReadyToFlash session.connection.patience) (hne : image ≠ []) :
    ∃ s' session' w', SingleBoard.run (session.flash image) w = (.done (.ok (), session'), w') ∧
      w'.board = { model := .simulator s', budget := none } ∧
      s'.downloaded = s.downloaded ++ image ∧ s'.violations = s.violations ∧
      s'.connected = (!s.disconnectOnManifest && s.resetBehavior = .ignore) ∧
      session'.activity = (if s'.connected then .connected else .disconnected) ∧
      w'.events.countP Event.isFarewell =
        w.events.countP Event.isFarewell + if s'.connected then 0 else 1 := by
  -- whatever news waits for the session, none of it is of its own device
  obtain ⟨b, hflash, hfarewells, hdownloaded, hviolations, hconnected⟩ :=
    hattached.takeAll.runs_flashConnected hplain hs hne
  have hrun : Runs (session.flash image) (Scene.ofBoard s w)
      (.done (.ok (), session.after !b.device.connected)) b := by
    refine hattached.runs_whileConnected ?_
    rw [if_pos hdown]
    exact hflash
  obtain ⟨w', hdone, hw'⟩ := hrun w (Scene.on_ofBoard hw)
  refine ⟨b.device, _, w', hdone, hw'.board, hdownloaded, hviolations, hconnected, ?_, ?_⟩
  · cases b.device.connected with
    | true => exact hattached.activity
    | false => rfl
  · rw [hw'.farewells, hfarewells]
    cases b.device.connected with
    | true => rfl
    | false => rfl

/-- A boot loader that does not stay on the bus. -/
def smallLoader : Device where
  descriptor := Simulator.descriptor
  configurations := [Simulator.configuration 2 ["DFU"] (some ⟨0x03, 1000, 4, 0x0110⟩)]
  settings := [⟨1, 0, 0, .upgrade, 4, some "DFU"⟩]

/-- It is simulated in the error state; it is busy twice after each block, and fails its reset as it
leaves. -/
def erringLoader : Simulator :=
  { Simulator.plain 0x03 4 with
    state := .error, status := .errStalledPkt, busyPolls := 2, resetBehavior := .failDisconnected }

/-- Ten bytes in three blocks. -/
theorem flash_simulator_erringLoader : ∃ session w₁ s' session' w₂,
    SingleBoard.run (Session.connect 7 smallLoader (.usual 8))
      (.ofBoard { model := .simulator erringLoader, budget := none }) = (.done session, w₁) ∧
    SingleBoard.run (session.flash [1, 2, 3, 4, 5, 6, 7, 8, 9, 10]) w₁ =
      (.done (.ok (), session'), w₂) ∧
    w₂.board = { model := .simulator s', budget := none } ∧
    s'.downloaded = [1, 2, 3, 4, 5, 6, 7, 8, 9, 10] ∧ s'.violations = [] ∧ s'.connected = false ∧
    session'.activity = .disconnected ∧ w₂.events.countP Event.isFarewell = 1 := by
  obtain ⟨session, b, hconnect, hdevice, hfarewells, hattached, hplain, hfunctional, hpatience⟩ :=
    @Session.attached_of_connect (Scene.ofBoard erringLoader (.ofBoard
      { model := .simulator erringLoader, budget := none })) smallLoader (.usual 8)
      ⟨1, 0, 0, .upgrade, 4, some "DFU"⟩ rfl rfl (by decide +kernel)
  obtain ⟨w₁, hrun₁, hw₁⟩ := hconnect _ (Scene.on_ofBoard rfl)
  have hready : b.device.ReadyToFlash session.connection.patience := by
    rw [hdevice, hpatience]
    constructor
    all_goals decide
  have hdown : session.functional.canDownload = true := by
    rw [hfunctional]
    decide +kernel
  rw [← hw₁.ofBoard_eq] at hattached
  obtain ⟨s', session', w₂, hrun₂, hboard, hdownloaded, hviolations, hconnected, hactivity, hcount⟩ :=
    flash_simulator hw₁.board hattached hplain hdown hready
      (List.cons_ne_nil 1 [2, 3, 4, 5, 6, 7, 8, 9, 10])
  have hgone : s'.connected = false := by
    rw [hconnected, hdevice]
    rfl
  rw [hgone] at hactivity hcount
  rw [hw₁.farewells, hfarewells] at hcount
  rw [hdevice] at hdownloaded hviolations
  exact ⟨session, w₁, s', session', w₂, hrun₁, hrun₂, hboard, hdownloaded, hviolations, hgone,
    hactivity, hcount⟩

end UsbDfu
