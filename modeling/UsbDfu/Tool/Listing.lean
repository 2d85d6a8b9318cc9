import UsbDfu.Usb.Host

/-!
# Listing

What is printed for the devices that were found: where each is on the bus, its settings, and the
memory that a setting's name tells of.
-/

namespace UsbDfu.Tool

/-- A size in units of 1024 from there on. -/
def sectorSizeText (size : Nat) : String :=
  if 1024 ≤ size then s!"{Text.decimalRight 4 (size / 1024)}K" else s!"{Text.decimalRight 4 size} "

/-- What can be done with memory: read, write, erase. -/
def accessText (a : Access) : String :=
  (if a.readable then "r" else "") ++ (if a.writable then "w" else "")
    ++ (if a.erasable then "e" else "")

/-- The line of a segment. -/
def segmentLine (s : Segment) : String :=
  let size := sectorSizeText s.sectorSize
  s!"    0x{Text.hexUpper 8 s.start} {Text.decimalRight 3 s.sectors} sectors of {size} bytes "
    ++ s!"({accessText s.access})\n"

/-- The memory of a setting. That a name tells of none matters only to a DfuSe boot loader. -/
def memoryLines (d : Device) (s : AltSetting) : String :=
  match s.memory? with
  | some (.ok m) => String.join (m.segments.map segmentLine)
  | some (.error e) => if d.isDfuse s then s!"    {e.message}\n" else ""
  | none => ""

/-- The lines of an alternate setting, with its memory if it has one. -/
def settingLines (d : Device) (s : AltSetting) : String :=
  let mark := if d.isDfuse s then " (dfuse)" else ""
  s!"  {s.describe}{mark}\n" ++ memoryLines d s

/-- The line of a device. -/
def deviceLine (f : Host.Found) : String :=
  let vendor := Text.hex 4 f.device.descriptor.vendorId.toNat
  let product := Text.hex 4 f.device.descriptor.productId.toNat
  let address := Text.decimal 3 f.info.address.toNat
  let name := f.info.productString.getD ""
  s!"Bus {f.info.busId} Device {address}: ID {vendor}:{product} {name}\n"

/-- All that is printed for the devices. -/
def listing : List Host.Found → String
  | [] => "No DFU device found\n"
  | found =>
    String.join (found.map fun f =>
      deviceLine f ++ String.join (f.device.settings.map (settingLines f.device)))

end UsbDfu.Tool
