import UsbDfu.Descriptor.Configuration
import UsbDfu.MemoryMap.Reader

/-!
# Alternate settings for firmware upgrades

One alternate setting of an interface of the DFU class is one thing that can be flashed or read.
`AltSetting.ofConfigurations` finds them in a device's descriptors; their names are read later.
-/

namespace UsbDfu

/-- Which side of a detach request the setting belongs to. -/
inductive Mode where
  /-- Running firmware, which only takes a detach request. -/
  | runtime
  /-- The boot loader. -/
  | upgrade
  deriving DecidableEq, Repr

namespace Mode

/-- The mode that the protocol of an interface for upgrades stands for, 1 and 2 being the two of the
class. -/
def ofProtocol? : UInt8 → Option Mode
  | 1 => some .runtime
  | 2 => some .upgrade
  | _ => none

/-- The mode in the words of a listing. -/
def name : Mode → String
  | .runtime => "Runtime"
  | .upgrade => "DFU"

end Mode

/-- An alternate setting of an interface for upgrades, with the values that select it. -/
structure AltSetting where
  configuration : UInt8
  interface : UInt8
  alternate : UInt8
  mode : Mode
  /-- The string descriptor of the name, 0 for no name. -/
  nameIndex : UInt8
  name? : Option String
  deriving DecidableEq, Repr

namespace AltSetting

/-- The setting that an interface descriptor describes, its name not yet read. -/
def ofInterface? (configuration : UInt8) (i : InterfaceDescriptor) : Option AltSetting :=
  if i.isDfu then
    (Mode.ofProtocol? i.interfaceProtocol).map fun mode =>
      { configuration := configuration
        interface := i.interfaceNumber
        alternate := i.alternateSetting
        mode := mode
        nameIndex := i.nameIndex
        name? := none }
  else none

/-- The settings of the interfaces for upgrades, in the order of the descriptor. -/
def ofConfiguration (c : Configuration) : List AltSetting :=
  c.interfaces.filterMap fun (i, _) => ofInterface? c.value i

/-- The settings of all configurations, in the order of their descriptors. -/
def ofConfigurations (cs : List Configuration) : List AltSetting :=
  cs.flatMap ofConfiguration

/-- The setting has a name that could not be read. -/
def needsName (s : AltSetting) : Bool :=
  s.nameIndex != 0 && s.name?.isNone

/-- The memory map in the name. -/
def memory? (s : AltSetting) : Option (Except DescriptorError MemoryMap) :=
  s.name?.map MemoryMap.parse

/-- The setting's line in a listing. -/
def describe (s : AltSetting) : String :=
  let label := s.name?.getD "UNKNOWN"
  let (cfg, intf, alt) := (s.configuration.toNat, s.interface.toNat, s.alternate.toNat)
  s!"{s.mode.name}: cfg={cfg}, intf={intf}, alt={alt}, name=\"{label}\""

end AltSetting
end UsbDfu
