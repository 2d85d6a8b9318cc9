import UsbDfu.Exchange

/-!
# Channels

A channel is one device of the bus as the host's USB stack serves it, with two handles that are held
or not: the opened device, and one claimed interface of it. `Channel.serve` carries out a call of an
exchange by operations of the stack; it opens and claims nothing twice and gives nothing to the
stack that a missing handle forbids.
-/

namespace UsbDfu

/-! ## Failures of the stack -/

/-- Why a transfer failed. -/
inductive TransferError where
  | disconnected
  | stall
  | fault (fault : TransferFault)
  deriving DecidableEq, Repr

/-- The failure of a transfer, as the channel reports it. -/
def TransportError.ofTransfer : TransferError → TransportError
  | .disconnected => .disconnected
  | .stall => .stall
  | .fault f => .transfer f

/-- Why a descriptor could not be read. -/
inductive DescriptorReadError where
  | invalidDescriptor
  | transfer (e : TransferError)
  deriving DecidableEq, Repr

/-- The failure to read a descriptor, as the channel reports it. -/
def TransportError.ofDescriptorRead : DescriptorReadError → TransportError
  | .invalidDescriptor => .invalidDescriptor
  | .transfer e => .ofTransfer e

/-! ## Operations of the stack -/

/-- An operation on one device. A transfer to an interface goes through its handle, which the
number stands for. -/
inductive Operation where
  | openDevice
  | activeConfiguration
  | setConfiguration (value : UInt8)
  | claimInterface (number : UInt8)
  | setAlternate (number alternate : UInt8)
  | controlOut (interface : UInt8) (r : Request) (data : Bytes)
  | controlIn (interface : UInt8) (r : Request) (length : UInt16)
  | getDescriptor (type index : UInt8) (language : UInt16)
  | reset
  /-- The handle of an interface is given up. -/
  | releaseInterface (number : UInt8)
  /-- The handle of the device is given up. -/
  | closeDevice
  | watch
  | log (line : LogLine)
  deriving DecidableEq, Repr

/-- What the stack answers to an operation. -/
def Operation.Result : Operation → Type
  | .openDevice | .setConfiguration _ | .claimInterface _ | .setAlternate _ _ | .reset =>
    Except UsbError Unit
  | .activeConfiguration => Option UInt8
  | .controlOut _ _ _ => Except TransferError Unit
  | .controlIn _ _ _ => Except TransferError Bytes
  | .getDescriptor _ _ _ => Except DescriptorReadError Bytes
  | .releaseInterface _ | .closeDevice | .log _ => Unit
  | .watch => Except UsbError Subscription

/-- A dialogue with the stack, which cannot fail. -/
abbrev StackTalk := Dialogue Operation.Result Empty

/-! ## Channels -/

/-- What the bus tells of a device that has not been opened. -/
structure DeviceInfo where
  id : DeviceId
  vendorId : UInt16
  productId : UInt16
  busId : String
  address : UInt8
  serialNumber : Option String
  productString : Option String
  /-- Class and subclass of every interface. -/
  interfaces : List (UInt8 × UInt8)
  deriving DecidableEq, Repr

/-- The device by its numbers, for the log. -/
def DeviceInfo.describe (info : DeviceInfo) : String :=
  s!"{Text.hex 4 info.vendorId.toNat}:{Text.hex 4 info.productId.toNat}"

/-- Which handles are held. -/
structure Handles where
  device : Bool
  interface : Option UInt8
  deriving DecidableEq, Repr

/-- Nothing is open. -/
def Handles.none : Handles := ⟨false, .none⟩

namespace Channel

/-- Does an operation of the stack. -/
def operate (o : Operation) : StackTalk o.Result :=
  .question o

/-- Writes a line to the log, for those who look for faults. -/
def note (text : String) : StackTalk Unit :=
  .question (Operation.log ⟨.debug, text⟩)

/-- The type, index and language of a request for a descriptor of the device. Such a request needs
no interface. -/
def descriptorRequest? (r : Request) : Option (UInt8 × UInt8 × UInt16) :=
  if r.type = .standard ∧ r.recipient = .device ∧ r.request = Request.getDescriptor then
    some (UInt8.ofNat (r.value.toNat / 256), r.value.toUInt8, r.index)
  else none

/-- The interface whose handle a transfer goes through. -/
def claimed (h : Handles) : Except TransportError UInt8 :=
  if h.device then
    match h.interface with
    | some number => .ok number
    | none => .error .notClaimed
  else .error .notOpen

/-- Opens the device, unless it is open. -/
def openDevice (info : DeviceInfo) (h : Handles) :
    StackTalk (Except TransportError Unit × Handles) := do
  if h.device then pure (.ok (), h)
  else do
    note s!"Opening {info.describe}"
    match ← operate .openDevice with
    | .ok () => pure (.ok (), { h with device := true })
    | .error e => pure (.error (.ofUsb e), h)

/-- A configuration that is active already is not set again. -/
def selectConfiguration (h : Handles) (value : UInt8) : StackTalk (Except TransportError Unit) := do
  if h.device then do
    let active : Option UInt8 ← operate .activeConfiguration
    if active = some value then pure (.ok ())
    else do
      note s!"Selecting configuration {value.toNat}"
      let result : Except UsbError Unit ← operate (.setConfiguration value)
      pure (result.mapError .ofUsb)
  else pure (.error .notOpen)

/-- An interface that was claimed before is given up once the new one is claimed. -/
def claimInterface (h : Handles) (number : UInt8) :
    StackTalk (Except TransportError Unit × Handles) := do
  if h.interface = some number then pure (.ok (), h)
  else if h.device then
    match ← operate (.claimInterface number) with
    | .ok () =>
      match h.interface with
      | some old => operate (.releaseInterface old)
      | none => pure ()
      pure (.ok (), { h with interface := some number })
    | .error e => pure (.error (.ofUsb e), h)
  else pure (.error .notOpen, h)

/-- Selects an alternate setting of the interface that is claimed. -/
def selectAlternate (h : Handles) (number alternate : UInt8) :
    StackTalk (Except TransportError Unit) := do
  if h.interface = some number then do
    let result : Except UsbError Unit ← operate (.setAlternate number alternate)
    pure (result.mapError .ofUsb)
  else pure (.error .notClaimed)

/-- The stack does not tell how many bytes were taken; a success stands for all. -/
def controlOut (h : Handles) (r : Request) (data : Bytes) :
    StackTalk (Except TransportError Nat) := do
  match claimed h with
  | .error e => pure (.error e)
  | .ok interface =>
    match ← operate (.controlOut interface r data) with
    | .ok () => pure (.ok data.length)
    | .error e => pure (.error (.ofTransfer e))

/-- Descriptors of the device are read whole and cut to the length. -/
def controlIn (h : Handles) (r : Request) (length : UInt16) :
    StackTalk (Except TransportError Bytes) := do
  match descriptorRequest? r with
  | some (type, index, language) =>
    if h.device then
      match ← operate (.getDescriptor type index language) with
      | .ok bytes => pure (.ok (bytes.take length.toNat))
      | .error e => pure (.error (.ofDescriptorRead e))
    else pure (.error .notOpen)
  | none =>
    match claimed h with
    | .error e => pure (.error e)
    | .ok interface =>
      let result : Except TransferError Bytes ← operate (.controlIn interface r length)
      pure (result.mapError .ofTransfer)

/-- Resets the device, which must be open. -/
def reset (h : Handles) : StackTalk (Except TransportError Unit) := do
  note "Resetting device"
  if h.device then do
    let result : Except UsbError Unit ← operate .reset
    pure (result.mapError .ofUsb)
  else pure (.error .notOpen)

/-- Gives up the interface, then the device. -/
def close (info : DeviceInfo) (h : Handles) : StackTalk Unit := do
  match h.interface with
  | some number => operate (.releaseInterface number)
  | none => pure ()
  if h.device then do
    operate .closeDevice
    note s!"Closed {info.describe}"

/-- Subscribes to the news of departures. -/
def watch : StackTalk (Except TransportError Subscription) := do
  let result : Except UsbError Subscription ← operate .watch
  pure (result.mapError .ofUsb)

/-- Carries out one call; the handles may change. -/
def serve (info : DeviceInfo) (h : Handles) : (c : Call) → StackTalk (c.Reply × Handles)
  | .openDevice => openDevice info h
  | .selectConfiguration value => do
    pure (← selectConfiguration h value, h)
  | .claimInterface number => claimInterface h number
  | .selectAlternate number alternate => do
    pure (← selectAlternate h number alternate, h)
  | .controlOut r data => do
    pure (← controlOut h r data, h)
  | .controlIn r length => do
    pure (← controlIn h r length, h)
  | .reset => do
    pure (← reset h, h)
  | .close => do
    close info h
    pure ((), .none)
  | .watch => do
    pure (← watch, h)

/-- Lets go of a channel that was not closed: the device goes first. -/
def abandon (h : Handles) : StackTalk Unit := do
  if h.device then operate .closeDevice
  match h.interface with
  | some number => operate (.releaseInterface number)
  | none => pure ()

end Channel
end UsbDfu
