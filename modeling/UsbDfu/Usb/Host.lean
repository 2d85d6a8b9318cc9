import UsbDfu.DeviceFilter
import UsbDfu.Session
import UsbDfu.Usb.Channel

/-!
# The host and its bus

A host asks for the devices of the bus, attaches a channel to one, and then works on it through that
channel. `findDevices` gives the devices for firmware upgrades that a filter admits, each opened and
closed once; `connectOnly` connects to the one there is.
-/

namespace UsbDfu
namespace Host

/-- A device that a host works on. -/
abbrev ChannelId := Nat

/-- What a host can ask for. -/
inductive Query where
  | devices
  | attach (info : DeviceInfo)
  /-- Lets go of a channel, closed or not. -/
  | abandon (p : ChannelId)
  | on (p : ChannelId) (q : UsbDfu.Query)
  | log (line : LogLine)

/-- The answers that a question can have. -/
def Query.Answer : Query → Type
  | .devices => Except UsbError (List DeviceInfo)
  | .attach _ => ChannelId
  | .abandon _ => Unit
  | .on _ q => q.Answer
  | .log _ => Unit

/-- A host's dialogue with its bus. -/
abbrev Exchange := Dialogue Query.Answer Failure

variable {ε α : Type}

/-- Works on the device of a channel. -/
def onChannel (p : ChannelId) : Dialogue UsbDfu.Query.Answer ε α → Dialogue Query.Answer ε α
  | .done a => .done a
  | .fail e => .fail e
  | .exhausted => .exhausted
  | .ask q next => .ask (.on p q) fun answer => onChannel p (next answer)

/-! ## Devices for firmware upgrades -/

/-- A device that was found, with the channel to work on it. -/
structure Found where
  channel : ChannelId
  info : DeviceInfo
  device : Device

/-- The bus reports an interface of the DFU class. -/
def isDfuDevice (info : DeviceInfo) : Bool :=
  info.interfaces.any fun (cls, sub) =>
    cls = Descriptor.dfuClass && sub = Descriptor.dfuSubclass

/-- The devices to look at. -/
def candidates (filter : DeviceFilter) (infos : List DeviceInfo) : List DeviceInfo :=
  infos.filter fun info =>
    filter.admits info.vendorId info.productId info.serialNumber && isDfuDevice info

/-- Looks at each device; one that cannot be read is skipped. -/
def discoverAll : List DeviceInfo → Dialogue Query.Answer ε (List Found)
  | [] => pure []
  | info :: rest => do
    let p : ChannelId ← .question (Query.attach info)
    match ← (onChannel p Device.discover).attempt with
    | .ok (some device) =>
      let found ← discoverAll rest
      pure (⟨p, info, device⟩ :: found)
    | .ok none => discoverAll rest
    | .error e =>
      .question (Query.log ⟨.warn, s!"Skipping {info.describe}: {e.message}"⟩)
      discoverAll rest

/-- The devices that the filter admits and that have a setting for upgrades, in bus order. -/
def findDevices (filter : DeviceFilter) : Exchange (List Found) := do
  let infos ← .question Query.devices
  match infos with
  | .error e => throw (.transport (.ofUsb e))
  | .ok infos => discoverAll (candidates filter infos)

/-- A session, and the channel it works on. -/
structure Connected where
  channel : ChannelId
  info : DeviceInfo
  session : Session

/-- Connects to the only device that the filter admits. -/
def connectOnly (filter : DeviceFilter) (options : SessionOptions) : Exchange Connected := do
  match ← findDevices filter with
  | [] => throw (.configuration .noDevice)
  | [found] =>
    let session ← onChannel found.channel (Session.connect found.info.id found.device options)
    pure ⟨found.channel, found.info, session⟩
  | many => throw (.configuration (.manyDevices many.length))

end Host
end UsbDfu
