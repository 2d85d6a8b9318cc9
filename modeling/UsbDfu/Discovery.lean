import UsbDfu.AltSetting
import UsbDfu.Connection
import UsbDfu.Descriptor.Text
import UsbDfu.Text.Search

/-!
# Discovery

Reading a device's descriptors and names. The device is opened for it and given up again, whatever
comes of it. Some devices answer for their names only when an interface is claimed; for them the
missing names are read again with the first setting's interface claimed.
-/

namespace UsbDfu

/-! ## Descriptors -/

/-- Reads at most `length` bytes of a descriptor. -/
def readDescriptor (type index : UInt8) (language length : UInt16) : Exchange Bytes :=
  Exchange.controlIn (.ofStandard Request.getDescriptor (Bytes.word index type) language) length

/-- Fetches the device descriptor. -/
def readDeviceDescriptor : Exchange DeviceDescriptor := do
  let data ← readDescriptor Descriptor.deviceType 0 0 (UInt16.ofNat DeviceDescriptor.size)
  Exchange.ofDescriptor (DeviceDescriptor.decode data)

/-- Reads the first four bytes for the total length, then all. -/
def readConfiguration (index : UInt8) : Exchange Configuration := do
  let header ← readDescriptor Descriptor.configurationType index 0 4
  match header with
  | _ :: _ :: l0 :: l1 :: _ =>
    let data ← readDescriptor Descriptor.configurationType index 0 (Bytes.word l0 l1)
    Exchange.ofDescriptor (Configuration.decode data)
  | _ => throw (.descriptor (.truncated .configuration header.length 4))

/-- Reads the first byte for the length, then all. -/
def readText (index : UInt8) (language : UInt16) : Exchange TextDescriptor := do
  let header ← readDescriptor Descriptor.textType index language 1
  match header with
  | length :: _ =>
    let data ← readDescriptor Descriptor.textType index language length.toUInt16
    Exchange.ofDescriptor (TextDescriptor.decode data language)
  | [] => throw (.descriptor (.truncated .text 0 1))

/-! ## Names -/

/-- The name under an index; none if it cannot be read. -/
def readName {ε : Type} (index : UInt8) : Dialogue Query.Answer ε (Option String) := do
  match ← (readText index TextDescriptor.english).attempt with
  | .ok (.text name) => pure (some name)
  | .ok (.languages _) => pure none
  | .error e =>
    Exchange.note .debug s!"Unable to read string descriptor {index.toNat}: {e.message}"
    pure none

/-- The configuration, interface and alternate setting that a name belongs to. -/
abbrev SettingKey := UInt8 × UInt8 × UInt8

/-- The names of settings; a setting is listed once. -/
abbrev Names := List (SettingKey × Option String)

/-- The setting's name, in place of one it had. -/
def Names.insert (names : Names) (key : SettingKey) (name : Option String) : Names :=
  names.filter (·.1 ≠ key) ++ [(key, name)]

/-- What is known of the name of a setting: nothing, or that it has none, or its text. -/
def Names.get? (names : Names) (key : SettingKey) : Option (Option String) :=
  names.lookup key

/-- Adds the names of a configuration's interfaces. -/
def readInterfaceNames {ε : Type} (configuration : UInt8) :
    List InterfaceDescriptor → Names → Dialogue Query.Answer ε Names
  | [], names => pure names
  | i :: rest, names => do
    let name ← if i.nameIndex = 0 then pure none else readName i.nameIndex
    readInterfaceNames configuration rest
      (names.insert (configuration, i.interfaceNumber, i.alternateSetting) name)

/-- Adds the names of the configurations with the given indices. -/
def readNamesOf {ε : Type} : List UInt8 → Names → Dialogue Query.Answer ε Names
  | [], names => pure names
  | index :: rest, names => do
    match ← (readConfiguration index).attempt with
    | .ok c => readNamesOf rest (← readInterfaceNames c.value (c.interfaces.map Prod.fst) names)
    | .error e =>
      Exchange.note .warn s!"Unable to read configuration {index.toNat}: {e.message}"
      readNamesOf rest names

/-- The indices of so many configurations. -/
def configurationIndices (count : UInt8) : List UInt8 :=
  (List.range count.toNat).map UInt8.ofNat

/-- The names of all settings of all configurations; none for a name that cannot be read. -/
def readNames {ε : Type} (count : UInt8) : Dialogue Query.Answer ε Names :=
  readNamesOf (configurationIndices count) []

/-- Claims the interface with its first alternate setting. -/
def claimFirstSetting (configuration number : UInt8) : Exchange Unit := do
  Exchange.selectConfiguration configuration
  Exchange.claimInterface number
  Exchange.selectAlternate number 0

/-- The settings with the names filled in where one is missing and known. -/
def fillNames (names : Names) (settings : List AltSetting) : List AltSetting :=
  settings.map fun s =>
    if s.needsName then
      match names.get? (s.configuration, s.interface, s.alternate) with
      | some name => { s with name? := name }
      | none => s
    else s

/-- Reads missing names again with an interface claimed. -/
def completeNames (count : UInt8) (settings : List AltSetting) : Exchange (List AltSetting) := do
  match settings with
  | [] => pure settings
  | first :: _ =>
    if settings.any AltSetting.needsName then
      match ← (claimFirstSetting first.configuration first.interface).attempt with
      | .ok () => pure (fillNames (← readNames count) settings)
      | .error e =>
        let number := first.interface.toNat
        Exchange.note .warn s!"Unable to claim interface {number} to read its name: {e.message}"
        pure settings
    else pure settings

/-! ## Devices -/

/-- What a device says of itself. -/
structure Device where
  descriptor : DeviceDescriptor
  configurations : List Configuration
  settings : List AltSetting
  deriving DecidableEq, Repr

/-- Reads the configurations with the given indices. -/
def readConfigurations : List UInt8 → Exchange (List Configuration)
  | [] => pure []
  | index :: rest => do
    let c ← readConfiguration index
    let cs ← readConfigurations rest
    pure (c :: cs)

/-- Reads the name of every setting that has one. -/
def nameSettings : List AltSetting → Exchange (List AltSetting)
  | [] => pure []
  | s :: rest => do
    let name ← if s.nameIndex = 0 then pure none else readName s.nameIndex
    let named ← nameSettings rest
    pure ({ s with name? := name } :: named)

namespace Device

/-- Reads an opened device. -/
def read : Exchange Device := do
  let descriptor ← readDeviceDescriptor
  let configurations ← readConfigurations (configurationIndices descriptor.numConfigurations)
  let settings ← nameSettings (AltSetting.ofConfigurations configurations)
  let settings ← completeNames descriptor.numConfigurations settings
  pure
    { descriptor := descriptor
      configurations := configurations
      settings := settings }

/-- Opens, reads and closes a device. A device without a setting for upgrades is none. -/
def discover : Exchange (Option Device) := do
  Exchange.openDevice
  let result ← read.attempt
  Exchange.close
  let device ← Dialogue.ofExcept result
  pure (if device.settings.isEmpty then none else some device)

/-- The setting to work on: the only one, or of several the first whose name has the token. -/
def select (d : Device) (token : String) : Except ConfigurationError AltSetting :=
  match d.settings with
  | [] => .error .noDfuInterfaces
  | [only] => .ok only
  | many =>
    match many.find? fun s => s.name?.any fun name => Text.occursIn token.toList name.toList with
    | some s => .ok s
    | none => .error (.noFlashInterface token)

/-- The functional descriptor of the setting, looked up in its configuration. -/
def functional? (d : Device) (s : AltSetting) : Option Functional :=
  (d.configurations.find? (·.value = s.configuration)).bind fun c =>
    c.functional? s.interface s.alternate

/-- The setting belongs to a boot loader with the DfuSe extension. -/
def isDfuse (d : Device) (s : AltSetting) : Bool :=
  s.mode = .upgrade && (d.functional? s).any (·.dfuVersion = Functional.dfuseVersion)

end Device
end UsbDfu
