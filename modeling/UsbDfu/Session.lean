import UsbDfu.Discovery
import UsbDfu.Fixup
import UsbDfu.Transfer.Dfuse

/-!
# Sessions

A session is one device opened for flashing and reading, with all that was agreed on when it was
connected. Every operation takes the session and gives it back, so two transfers never mix. The
session follows the device's life on the bus: once it has seen the device leave it does nothing
more with it.
-/

namespace UsbDfu

open Exchange (say note)

/-! ## Options -/

/-- How a session is connected and what its transfers start from. -/
structure SessionOptions where
  /-- Where a DfuSe transfer starts; otherwise at the first writable segment. -/
  startAddress : Option Nat
  /-- Tells the setting to work on from others. -/
  token : String
  fixups : List Fixup
  /-- In place of the transfer size that the device gives. -/
  transferSize : Option UInt16
  /-- Milliseconds a device that does not stay on the bus gets to leave it. -/
  disconnectTimeout : Nat
  /-- How many rounds an unbounded wait or read may take. -/
  patience : Nat
  deriving DecidableEq, Repr

/-- The usual options: flash at the usual address, five seconds to leave the bus. -/
def SessionOptions.usual (patience : Nat) : SessionOptions where
  startAddress := none
  token := "0x08000000"
  fixups := []
  transferSize := none
  disconnectTimeout := 5000
  patience := patience

/-! ## Sessions -/

/-- What a session is doing. -/
inductive Activity where
  | connected
  | programming
  | reading
  | manifesting
  | disconnected
  deriving DecidableEq, Repr

/-- One opened device, how transfers with it are made, and what is known of it on the bus. -/
structure Session where
  connection : Connection
  deviceId : DeviceId
  setting : AltSetting
  functional : Functional
  strategy : Strategy
  /-- The news of devices that leave, as long as it matters. -/
  watching : Option Subscription
  activity : Activity
  disconnectTimeout : Nat
  deriving DecidableEq, Repr

/-! ## Connecting -/

/-- A size in the largest binary unit of which it has one. -/
def niceSize (n : Nat) : String :=
  if 1024 * 1024 * 1024 ≤ n then s!"{n / (1024 * 1024 * 1024)}GiB"
  else if 1024 * 1024 ≤ n then s!"{n / (1024 * 1024)}MiB"
  else if 1024 ≤ n then s!"{n / 1024}KiB"
  else s!"{n}B"

namespace Session

/-- Claims the setting's interface and selects the setting. -/
def claim (s : AltSetting) : Exchange Unit := do
  Exchange.selectConfiguration s.configuration
  Exchange.claimInterface s.interface
  Exchange.selectAlternate s.interface s.alternate

/-- Says what the functional descriptor tells, or assumes one. -/
def agreeOn (functional? : Option Functional) : Exchange Functional := do
  match functional? with
  | some f =>
    let (detaches, tolerant) := (f.willDetach, f.manifestationTolerant)
    let (up, down) := (f.canUpload, f.canDownload)
    let (size, timeout) := (f.transferSize.toNat, f.detachTimeout.toNat)
    let version := Text.hex 4 f.dfuVersion.toNat
    note .debug
      (s!"WillDetach={detaches}, ManifestationTolerant={tolerant}, CanUpload={up}, "
        ++ s!"CanDnload={down}, TransferSize={size}, DetachTimeOut={timeout}, Version={version}")
    pure f
  | none =>
    say .warn "No DFU functional descriptor found, using defaults"
    pure Functional.assumed

/-- Subscribes to the news of devices that leave; a session does without it if it has to. -/
def subscribe : Exchange (Option Subscription) := do
  match ← Exchange.perform .watch with
  | .ok s => pure (some s)
  | .error e =>
    note .warn s!"Unable to watch for disconnects: {e.message}"
    pure none

/-- Reads the memory map in the setting's name; one that cannot be read is reported. -/
def readMemory (setting : AltSetting) : Exchange (Option MemoryMap) := do
  match setting.memory? with
  | some (.ok m) => pure (some m)
  | some (.error e) =>
    say .warn e.message
    pure none
  | none => pure none

/-- Says what memory there is. -/
def describeMemory (m : MemoryMap) : Exchange Unit := do
  say .info s!"Selected memory region: {m.name} ({niceSize m.totalSize})"
  m.segments.forM fun s => do say .debug (← .compute s.describe)

/-- Where transfers start: at the chosen address, or at the first writable segment, moved by the
first fixup for its address. -/
def chooseStart (options : SessionOptions) (m : MemoryMap) : Exchange (Option Nat) := do
  match options.startAddress, m.firstWritable? with
  | some start, _ => pure (some start)
  | none, none => pure none
  | none, some s =>
    match options.fixups.findSome? (·.move? s.start) with
    | some moved =>
      note .debug s!"Start address 0x{Text.hex 8 s.start} moved to 0x{Text.hex 8 moved}"
      pure (some moved)
    | none => pure (some s.start)

/-- Notes the start, and how much can be read from it on. -/
def noteStart (m : MemoryMap) (start : Nat) : Exchange Unit :=
  Exchange.noteComputed .debug do
    let count ← m.maxRead start
    pure s!"Start address 0x{Text.hex 8 start}, up to {count} bytes readable"

/-- What a DfuSe transfer needs to know. -/
def dfuseTransfer (setting : AltSetting) (options : SessionOptions) : Exchange DfuseTransfer := do
  match ← readMemory setting with
  | none => pure ⟨none, options.startAddress⟩
  | some m =>
    describeMemory m
    let start ← chooseStart options m
    match start with
    | some address => noteStart m address
    | none => pure ()
    pure ⟨some m, start⟩

/-- Opens the device and claims the setting; a device that cannot be claimed is given up. -/
def openAndClaim (setting : AltSetting) : Exchange Unit := do
  Exchange.openDevice
  match ← (claim setting).attempt with
  | .ok () => pure ()
  | .error e =>
    Exchange.close
    throw e

/-- Opens the device, claims the setting to work on, and settles how to transfer. -/
def connect (id : DeviceId) (device : Device) (options : SessionOptions) : Exchange Session := do
  let setting ← Exchange.ofConfiguration (device.select options.token)
  openAndClaim setting
  let functional ← agreeOn (device.functional? setting)
  -- from here on no departure is missed
  let watching ← subscribe
  let connection := Connection.new setting.interface
    (options.transferSize.getD functional.transferSize) options.patience
  let strategy ←
    if device.isDfuse setting then Strategy.dfuse <$> dfuseTransfer setting options
    else pure Strategy.plain
  say .debug s!"Claimed {setting.describe}"
  say .info "The selected device has been connected."
  pure
    { connection := connection
      deviceId := id
      setting := setting
      functional := functional
      strategy := strategy
      watching := watching
      activity := .connected
      disconnectTimeout := options.disconnectTimeout }

/-! ## The device's life on the bus -/

/-- Takes note that a device left. True only the first time it is the session's own. -/
def handleDeparture (s : Session) (id : DeviceId) : Talk (Bool × Session) := do
  if id ≠ s.deviceId ∨ s.activity = .disconnected then pure (false, s)
  else do
    say .info "Device disconnected."
    Exchange.report .disconnected
    pure (true, { s with activity := .disconnected, watching := none })

/-- Takes note of several devices that left, in order. -/
def handleDepartures : List DeviceId → Session → Talk Session
  | [], s => pure s
  | id :: rest, s => do
    let (_, s) ← s.handleDeparture id
    handleDepartures rest s

/-- Takes note of all news that has arrived. -/
def pollDepartures (s : Session) : Talk Session := do
  match s.watching with
  | none => pure s
  | some subscription =>
    let ids ← Dialogue.question (Query.news subscription)
    handleDepartures ids s

/-- Waits at most so many milliseconds for the device to leave; true if it has left. -/
def awaitDeparture (s : Session) (timeout : Nat) : Talk (Bool × Session) := do
  if s.activity = .disconnected then pure (true, s)
  else
    match s.watching with
    | none =>
      note .debug "Not watching for disconnects"
      pure (false, s)
    | some subscription =>
      -- the answer takes all news before it along, also that of other devices
      let left : Bool ← Dialogue.question (Query.departure subscription s.deviceId timeout)
      if left then do
        let (_, s) ← s.handleDeparture s.deviceId
        pure (true, s)
      else pure (false, s)

/-! ## Operations -/

/-- Leaves the error state if the device is in it. -/
def leaveError (c : Connection) : Exchange Unit := do
  if (← c.getStatus).state = .error then c.clearStatus

/-- After the image has gone out to a device that does not stay on the bus: waits for it to leave.
One that stays is only reported. -/
def awaitReboot (s : Session) : Talk Session := do
  let (left, s) ← { s with activity := .manifesting }.awaitDeparture s.disconnectTimeout
  if left then do
    say .info "Flashing and disconnection completed."
    pure s
  else do
    say .warn "Device unexpectedly tolerated manifestation (no reset and disconnect)."
    pure { s with activity := .connected }

/-- Clears a pending error, as far as that works, sends the image, and follows the device. -/
def flashConnected (s : Session) (image : Bytes) : Talk (Except Failure Unit × Session) := do
  match ← (leaveError s.connection).attempt with
  | .ok () => pure ()
  -- an error that cannot be cleared is no reason not to try
  | .error e => say .warn s!"Failed to clear status: {e.message}"
  say .info "Flashing... do not disconnect."
  let tolerant := s.functional.manifestationTolerant
  let s := { s with activity := .programming }
  let result ← (s.strategy.download s.connection image tolerant).attempt
  -- that the device left meanwhile is news, which is taken after this
  let s := { s with activity := .connected }
  match result with
  | .error e =>
    let s ← s.pollDepartures
    pure (.error e, s)
  | .ok () =>
    say .info "Flashing done!"
    let s ← if tolerant then s.pollDepartures else s.awaitReboot
    pure (.ok (), s)

/-- Runs an operation that needs the device on the bus. -/
def whileConnected {α : Type} (s : Session)
    (operation : Session → Talk (Except Failure α × Session)) :
    Talk (Except Failure α × Session) := do
  let s ← s.pollDepartures
  if s.activity = .disconnected then pure (.error (.configuration .disconnected), s)
  else operation s

/-- Programs an image. -/
def flash (s : Session) (image : Bytes) : Talk (Except Failure Unit × Session) :=
  s.whileConnected fun s =>
    if s.functional.canDownload then s.flashConnected image
    else pure (.error (.configuration .downloadNotSupported), s)

/-- Reads at most `limit` bytes, or until the device ends the upload. -/
def read (s : Session) (limit : Option Nat) : Talk (Except Failure Bytes × Session) :=
  s.whileConnected fun s => do
    if s.functional.canUpload then do
      let s := { s with activity := .reading }
      let result ← (s.strategy.upload s.connection limit).attempt
      let s ← { s with activity := .connected }.pollDepartures
      pure (result, s)
    else pure (.error (.configuration .uploadNotSupported), s)

/-- Sends the detach request, and resets a device that does not do so itself. That it is gone
already is no failure. -/
def requestDetach (s : Session) : Exchange Unit := do
  say .info "Sending DFU detach request"
  s.connection.detach
  if s.functional.willDetach then pure ()
  else
    match ← Exchange.reset.attempt with
    | .ok () => pure ()
    | .error e => if e.isDisconnect then pure () else throw e

/-- Asks running firmware to come back as a boot loader, and waits for it to leave. -/
def detach (s : Session) : Talk (Except Failure Unit × Session) :=
  s.whileConnected fun s => do
    match ← (requestDetach s).attempt with
    | .error e => pure (.error e, s)
    | .ok () =>
      let timeout := max s.disconnectTimeout s.functional.detachTimeout.toNat
      let (left, s) ← s.awaitDeparture timeout
      if left then say .info "Detached" else say .warn "Device did not disconnect after detach"
      pure (.ok (), s)

/-- Gives the device up. -/
def close {ε : Type} (_ : Session) : Dialogue Query.Answer ε Unit :=
  Exchange.close

/-- The bytes that can be read from the start on, where there is a start and a memory map. -/
def maxRead? (s : Session) : Option (Except ConfigurationError (Checked Empty Nat)) :=
  match s.strategy with
  | .plain => none
  | .dfuse t => t.start?.map t.maxRead

end Session
end UsbDfu
