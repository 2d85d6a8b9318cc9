import UsbDfu.Descriptor.Configuration
import UsbDfu.Descriptor.Text
import UsbDfu.Exchange
import UsbDfu.Word

/-!
# A simulated device

A boot loader, or running firmware, that answers every call as DFU 1.1 and DfuSe lay down, and can
be set to misbehave in known ways. It keeps what was erased and written, so that the outcome of a
transfer can be compared with its plan, and notes every block that came while it was busy.
-/

namespace UsbDfu
namespace Bench

/-- What a simulated device does when it is reset. -/
inductive ResetBehavior where
  | reenumerate
  | ignore
  /-- The device leaves the bus and the reset fails for it. -/
  | failDisconnected
  | failStall
  deriving DecidableEq, Repr

/-- A block that came while the device was busy. -/
inductive Violation where
  | download (block : UInt16)
  | upload (block : UInt16)
  deriving DecidableEq, Repr

/-- The violation in words. -/
def Violation.message : Violation → String
  | .download block => s!"DNLOAD block {block.toNat} while dfuDNBUSY"
  | .upload block => s!"UPLOAD block {block.toNat} while dfuDNBUSY"

/-- A device: what it is, how it was set to behave, and where it is in the protocol. -/
structure Simulator where
  id : DeviceId
  connected : Bool
  isOpen : Bool
  claimed : Option UInt8
  state : State
  status : StatusCode
  pollTimeout : Nat
  deviceDescriptor : Bytes
  configurations : List Bytes
  strings : List (UInt8 × String)
  stringsNeedClaim : Bool
  dfuse : Bool
  transferSize : UInt16
  manifestationTolerant : Bool
  waitResetWhenTolerant : Bool
  /-- How often the device says it is busy after a block. -/
  busyPolls : Nat
  busyRemaining : Nat
  failBlock : Option (UInt16 × StatusCode)
  failCommand : Option UInt8
  /-- The error that the device will report when it is no longer busy. -/
  pendingError : Option StatusCode
  disconnectOnManifest : Bool
  resetBehavior : ResetBehavior
  abortIgnored : Bool
  downloaded : Bytes
  addressPointer : Nat
  erased : List Nat
  written : List (Nat × Bytes)
  uploadData : Bytes
  uploadBase : Nat
  uploadPosition : Nat
  shortBlockAt : Option UInt16
  violations : List Violation
  /-- The device had an address to compute that is no word. -/
  brokenDown : Bool
  deriving Repr

namespace Simulator

/-! ## Devices to begin with -/

/-- The index of the first setting's name; the next settings follow. -/
def firstNameIndex : Nat := 4

/-- Where the data of a device begins. -/
def flashBase : Nat := 0x08000000

/-- What every simulated device says of itself. -/
def descriptor : DeviceDescriptor where
  usbVersion := 0x0200
  deviceClass := 0
  deviceSubclass := 0
  deviceProtocol := 0
  maxPacketSize := 64
  vendorId := 0x0483
  productId := 0xdf11
  deviceVersion := 0x2200
  manufacturerIndex := 1
  productIndex := 2
  serialNumberIndex := 3
  numConfigurations := 1

/-- One alternate setting. -/
def interfaceDescriptor (protocol : UInt8) (alternate : Nat) : InterfaceDescriptor where
  interfaceNumber := 0
  alternateSetting := UInt8.ofNat alternate
  numEndpoints := 0
  interfaceClass := Descriptor.dfuClass
  interfaceSubclass := Descriptor.dfuSubclass
  interfaceProtocol := protocol
  nameIndex := UInt8.ofNat (firstNameIndex + alternate)

/-- The only configuration: an interface with a setting for each name, and what it can do. -/
def configuration (protocol : UInt8) (names : List String) (functional : Option Functional) :
    Configuration where
  numInterfaces := 1
  value := 1
  nameIndex := 0
  attributes := 0x80
  maxPower := 50
  records :=
    (List.range names.length).map (fun alternate => .interface (interfaceDescriptor protocol alternate))
      ++ functional.toList.map .functional

/-- The string under an index, in place of one that was there. -/
def putString (index : UInt8) (text : String) (strings : List (UInt8 × String)) :
    List (UInt8 × String) :=
  (index, text) :: strings.filter (·.1 ≠ index)

/-- A device with one alternate setting for each name. -/
def build (protocol : UInt8) (names : List String) (functional : Option Functional) :
    Simulator where
  id := 7
  connected := true
  isOpen := false
  claimed := none
  state := if protocol = 1 then .appIdle else .dfuIdle
  status := .ok
  pollTimeout := 0
  deviceDescriptor := descriptor.encode
  configurations := [(configuration protocol names functional).encode]
  strings :=
    (names.zipIdx firstNameIndex).foldl (fun strings (name, index) =>
      putString (UInt8.ofNat index) name strings)
      [(1, "STMicroelectronics"), (2, "STM32 BOOTLOADER"), (3, "3574364C3034")]
  stringsNeedClaim := false
  dfuse := (functional.getD Functional.assumed).dfuVersion = Functional.dfuseVersion
  transferSize := (functional.getD Functional.assumed).transferSize
  manifestationTolerant := (functional.getD Functional.assumed).manifestationTolerant
  waitResetWhenTolerant := false
  busyPolls := 0
  busyRemaining := 0
  failBlock := none
  failCommand := none
  pendingError := none
  disconnectOnManifest := false
  resetBehavior := .reenumerate
  abortIgnored := false
  downloaded := []
  addressPointer := 0
  erased := []
  written := []
  uploadData := []
  uploadBase := flashBase
  uploadPosition := 0
  shortBlockAt := none
  violations := []
  brokenDown := false

/-- A boot loader of plain DFU 1.1. -/
def plain (attributes : UInt8) (transferSize : UInt16) : Simulator :=
  build 2 ["DFU"] (some ⟨attributes, 1000, transferSize, 0x0110⟩)

/-- A boot loader with the DfuSe extension. -/
def dfuseLoader (names : List String) (attributes : UInt8) : Simulator :=
  build 2 names (some ⟨attributes, 255, 2048, Functional.dfuseVersion⟩)

/-- Running firmware. -/
def runtime (attributes : UInt8) : Simulator :=
  build 1 ["Runtime"] (some ⟨attributes, 500, 1024, 0x0110⟩)

/-- A boot loader without a functional descriptor. -/
def withoutFunctional : Simulator :=
  build 2 ["DFU"] none

/-! ## On and off the bus -/

/-- What a call on a device that is gone or not open fails with. -/
def checkOpen (s : Simulator) : Except TransportError Unit :=
  if !s.connected then .error .disconnected
  else if !s.isOpen then .error .notOpen
  else .ok ()

/-- The device leaves the bus. -/
def leave (s : Simulator) : Simulator :=
  { s with connected := false, isOpen := false, claimed := none }

/-- The device refuses a request and goes to the error state. -/
def stalled (s : Simulator) : Simulator :=
  { s with state := .error, status := .errStalledPkt }

/-- Reply and next state of a request that the device refuses. -/
def stall {α : Type} (s : Simulator) : Except TransportError α × Simulator :=
  (.error .stall, s.stalled)

/-- Notes a block that came while the device was busy. -/
def noteViolation (s : Simulator) (v : Violation) : Simulator :=
  { s with violations := s.violations ++ [v] }

/-- The device had to add up an address that is no word. It is gone for good; nothing that it answers
after that means anything. -/
def breakDown {α : Type} (s : Simulator) : Except TransportError α × Simulator :=
  (.error .disconnected, { s.leave with brokenDown := true })

/-- Reply and next state of a request that came to nothing. -/
def fail {α : Type} (s : Simulator) : UsbDfu.Fault Unit → Except TransportError α × Simulator
  | .refused () => s.stall
  | .outside | .endless => s.breakDown

/-- Does the step if the device is open. -/
def whenOpen {α : Type} (s : Simulator)
    (step : Simulator → Except TransportError α × Simulator) : Except TransportError α × Simulator :=
  match s.checkOpen with
  | .error e => (.error e, s)
  | .ok () => step s

/-! ## Download -/

/-- A DfuSe command, which the device refuses if it does not know it. -/
def execute (s : Simulator) (data : Bytes) : Checked Unit Simulator :=
  match data with
  | [] => throw (.refused ())
  | command :: arguments =>
    -- the command is accepted; that it fails is only seen in the status
    if s.failCommand = some command then pure { s with pendingError := some .errTarget }
    else
      match command.toNat, arguments with
      | 0x00, [] => pure s
      | 0x21, [a, b, c, d] => pure { s with addressPointer := Bytes.ofLe32 a b c d }
      | 0x41, [a, b, c, d] => pure { s with erased := s.erased ++ [Bytes.ofLe32 a b c d] }
      | _, _ => throw (.refused ())

/-- The address that a DfuSe data block stands for. -/
def blockAddress (s : Simulator) (block : UInt16) : Checked Unit Nat :=
  -- the offset of the last block is a word, as both factors are below 65536
  Word.add s.addressPointer ((block.toNat - 2) * s.transferSize.toNat)

/-- Takes the bytes of a block in, unless the device refuses it. -/
def take (s : Simulator) (block : UInt16) (data : Bytes) : Checked Unit Simulator :=
  if s.dfuse then
    if block = 0 then s.execute data
    else if block = 1 then throw (.refused ())
    else do
      let address ← s.blockAddress block
      pure { s with written := s.written ++ [(address, data)] }
  else pure { s with downloaded := s.downloaded ++ data }

/-- The block is one that was set to fail. -/
def noteFailure (s : Simulator) (block : UInt16) : Simulator :=
  match s.failBlock with
  | some (failing, status) =>
    if failing = block ∧ (!s.dfuse ∨ 2 ≤ block) then { s with pendingError := some status } else s
  | none => s

/-- The state admits the block. -/
def admits (s : Simulator) (data : Bytes) : Bool :=
  s.state = .dnloadIdle || s.state = .dfuIdle && !data.isEmpty

/-- A block of an image, or a command. An empty one has the device take the image over. -/
def download (s : Simulator) (block : UInt16) (data : Bytes) :
    Except TransportError Nat × Simulator :=
  if s.state = .dnBusy then
    (s.noteViolation (.download block)).stall
  else if !s.admits data then s.stall
  else if data.isEmpty then (.ok 0, { s with state := .manifestSync })
  else
    match s.take block data with
    | .error e => s.fail e
    | .ok s =>
      let s := s.noteFailure block
      (.ok data.length, { s with state := .dnloadSync, busyRemaining := s.busyPolls })

/-! ## Upload -/

/-- Where in the data the block starts, unless the device refuses it. -/
def uploadStart (s : Simulator) (block : UInt16) : Checked Unit Nat :=
  if s.dfuse then
    if block < 2 then throw (.refused ())
    else do
      let address ← s.blockAddress block
      -- what lies before the data reads as its beginning
      pure (address - s.uploadBase)
  else pure s.uploadPosition

/-- A block of the data, as much of it as there is. A block that is not full ends the upload. -/
def upload (s : Simulator) (block length : UInt16) : Except TransportError Bytes × Simulator :=
  if s.state = .dnBusy then
    (s.noteViolation (.upload block)).stall
  else if s.state ≠ .dfuIdle ∧ s.state ≠ .uploadIdle then s.stall
  else
    match s.uploadStart block with
    | .error e => s.fail e
    | .ok start =>
      let length := if s.shortBlockAt = some block then length.toNat / 2 else length.toNat
      let chunk := (s.uploadData.drop start).take length
      (.ok chunk,
        { s with
          uploadPosition := start + chunk.length
          state := if chunk.length < length then .dfuIdle else .uploadIdle })

/-! ## Status -/

/-- The status answer. -/
def statusBytes (s : Simulator) : Bytes :=
  [s.status.code, UInt8.ofNat s.pollTimeout, UInt8.ofNat (s.pollTimeout / 0x100),
    UInt8.ofNat (s.pollTimeout / 0x10000), s.state.code, 0]

/-- After a block: busy for a while, then done or in error. -/
def settle (s : Simulator) : Simulator :=
  if 0 < s.busyRemaining then { s with busyRemaining := s.busyRemaining - 1, state := .dnBusy }
  else
    match s.pendingError with
    | some status => { s with status := status, pendingError := none, state := .error }
    | none => { s with state := .dnloadIdle }

/-- The status. To ask for it is what moves a busy or manifesting device on. -/
def getStatus (s : Simulator) : Except TransportError Bytes × Simulator :=
  if s.state = .manifestSync ∧ s.disconnectOnManifest then (.error .disconnected, s.leave)
  else
    let s :=
      match s.state with
      | .dnloadSync | .dnBusy => s.settle
      | .manifestSync => { s with state := .manifest }
      | .manifest =>
        if s.manifestationTolerant && !s.waitResetWhenTolerant then { s with state := .dfuIdle }
        else { s with state := .manifestWaitReset }
      | _ => s
    (.ok s.statusBytes, s)

/-! ## Other requests -/

/-- A request to come back as a boot loader, which only running firmware knows. -/
def detach (s : Simulator) : Except TransportError Nat × Simulator :=
  if s.state = .appIdle then (.ok 0, { s with state := .appDetach }) else s.stall

/-- Leaves the error state. -/
def clearStatus (s : Simulator) : Simulator :=
  if s.state = .error then { s with state := .dfuIdle, status := .ok } else s

/-- The states that an abort ends. -/
def abortable (state : State) : Bool :=
  state = .dfuIdle || state = .dnloadSync || state = .dnloadIdle || state = .manifestSync
    || state = .uploadIdle

/-- Ends what is going on, unless the device was set to ignore that. -/
def abort (s : Simulator) : Simulator :=
  if abortable s.state && !s.abortIgnored then { s with state := .dfuIdle } else s

/-- The string descriptor under an index. -/
def textDescriptor (s : Simulator) (index : UInt8) (language : UInt16) :
    Except TransportError Bytes :=
  if s.stringsNeedClaim && s.claimed.isNone then .error .stall
  else if language ≠ TextDescriptor.english then .error .stall
  else
    match s.strings.lookup index with
    | some text => .ok (TextDescriptor.encode text)
    | none => .error .stall

/-- The descriptor of a type and index, whole. -/
def descriptorBytes (s : Simulator) (type index : UInt8) (language : UInt16) :
    Except TransportError Bytes :=
  if type = Descriptor.deviceType then .ok s.deviceDescriptor
  else if type = Descriptor.configurationType then
    match s.configurations[index.toNat]? with
    | some bytes => .ok bytes
    | none => .error .stall
  else if type = Descriptor.textType then
    if index = 0 then .ok [4, Descriptor.textType, 0x09, 0x04] else s.textDescriptor index language
  else .error .stall

/-- At most `length` bytes of the descriptor that the request asks for. -/
def getDescriptor (s : Simulator) (r : Request) (length : UInt16) : Except TransportError Bytes :=
  (s.descriptorBytes (UInt8.ofNat (r.value.toNat / 256)) r.value.toUInt8 r.index).map
    (·.take length.toNat)

/-! ## Calls -/

/-- Opens the device, if it is on the bus. -/
def openDevice (s : Simulator) : Except TransportError Unit × Simulator :=
  if s.connected then (.ok (), { s with isOpen := true }) else (.error .disconnected, s)

/-- Selects a configuration; every one is taken. -/
def selectConfiguration (s : Simulator) : Except TransportError Unit × Simulator :=
  s.whenOpen fun s => (.ok (), s)

/-- Claims an interface in place of another one. -/
def claimInterface (s : Simulator) (number : UInt8) : Except TransportError Unit × Simulator :=
  s.whenOpen fun s => (.ok (), { s with claimed := some number })

/-- Selects an alternate setting of the interface that is claimed. -/
def selectAlternate (s : Simulator) (number : UInt8) : Except TransportError Unit × Simulator :=
  s.whenOpen fun s => if s.claimed = some number then (.ok (), s) else (.error .notClaimed, s)

/-- A request with data for the device, by its number. -/
def controlOut (s : Simulator) (r : Request) (data : Bytes) :
    Except TransportError Nat × Simulator :=
  s.whenOpen fun s =>
    match r.type, r.request.toNat with
    | .standard, _ => (.error .stall, s)
    | .classSpecific, 0 => s.detach
    | .classSpecific, 1 => s.download r.value data
    | .classSpecific, 4 => (.ok 0, s.clearStatus)
    | .classSpecific, 6 => (.ok 0, s.abort)
    | .classSpecific, _ => s.stall

/-- A request for data of the device, by its number. -/
def controlIn (s : Simulator) (r : Request) (length : UInt16) :
    Except TransportError Bytes × Simulator :=
  s.whenOpen fun s =>
    match r.type, r.request.toNat with
    | .standard, 6 => (s.getDescriptor r length, s)
    | .classSpecific, 2 => s.upload r.value length
    | .classSpecific, 3 => s.getStatus
    | .classSpecific, 5 => (.ok [s.state.code], s)
    | _, _ => (.error .stall, s)

/-- A reset, as the device was set to take it. -/
def reset (s : Simulator) : Except TransportError Unit × Simulator :=
  if !s.connected then (.error .disconnected, s)
  else
    match s.resetBehavior with
    | .reenumerate => (.ok (), s.leave)
    | .ignore => (.ok (), s)
    | .failDisconnected => (.error .disconnected, s.leave)
    | .failStall => (.error .stall, s)

/-- Gives the device up, with the interface that was claimed. -/
def close (s : Simulator) : Simulator :=
  { s with isOpen := false, claimed := none }

end Simulator
end Bench
end UsbDfu
