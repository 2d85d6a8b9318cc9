import UsbDfu.Status
import UsbDfu.Text.Numeral

/-!
# Failures

The causes for which an exchange with a device ends, in four families: the transport failed, a
descriptor could not be read, the device broke the protocol, or the request cannot be carried
out. Each family has one function to words, `message`.
-/

namespace UsbDfu

/-! ## Transport -/

/-- A USB transfer failed in the host's stack. -/
inductive TransferFault where
  | cancelled
  | hardware
  | invalidArgument
  | unknown (errno : Nat)
  deriving DecidableEq, Repr

/-- The fault in words. -/
def TransferFault.message : TransferFault → String
  | .cancelled => "transfer was cancelled"
  | .hardware => "hardware fault or protocol violation"
  | .invalidArgument => "invalid or unsupported argument"
  | .unknown errno => s!"unknown (errno {errno})"

/-- Why the operating system refused an operation on a device. -/
inductive UsbError where
  | disconnected
  | busy
  | permissionDenied
  | notFound
  | other
  deriving DecidableEq, Repr

/-- The error in words, with the number that the operating system gives it. -/
def UsbError.message : UsbError → String
  | .disconnected => "device disconnected (errno 19)"
  | .busy => "device is busy (errno 16)"
  | .permissionDenied => "permission denied (errno 13)"
  | .notFound => "interface not found (errno 22)"
  | .other => "operation failed (errno 5)"

/-- A control transfer or another operation on the device failed. -/
inductive TransportError where
  | notOpen
  | notClaimed
  | disconnected
  | stall
  | invalidDescriptor
  | transfer (fault : TransferFault)
  | usb (error : UsbError)
  deriving DecidableEq, Repr

namespace TransportError

/-- The error in words. -/
def message : TransportError → String
  | .notOpen => "device is not open"
  | .notClaimed => "no interface claimed"
  | .disconnected => "device disconnected"
  | .stall => "control transfer stalled"
  | .invalidDescriptor => "device returned an invalid descriptor"
  | .transfer fault => s!"transfer error: {fault.message}"
  | .usb error => s!"USB error: {error.message}"

/-- The device has left the bus. -/
def isDisconnect (e : TransportError) : Bool :=
  e == .disconnected

/-- A refusal of the operating system; that the device is gone keeps its own cause. -/
def ofUsb : UsbError → TransportError
  | .disconnected => .disconnected
  | error => .usb error

end TransportError

/-! ## Descriptors -/

/-- The descriptors that have a least length. -/
inductive DescriptorKind where
  | device
  | configuration
  | interface
  | functional
  | text
  deriving DecidableEq, Repr

/-- The kind in the words of an error. -/
def DescriptorKind.name : DescriptorKind → String
  | .device => "device"
  | .configuration => "configuration"
  | .interface => "interface"
  | .functional => "DFU functional"
  | .text => "string"

/-- A descriptor could not be read. -/
inductive DescriptorError where
  | truncated (kind : DescriptorKind) (length expected : Nat)
  | invalidLength (offset : Nat) (length : UInt8)
  | unexpectedType (expected found : UInt8)
  | notMemoryMap (text : String)
  deriving DecidableEq, Repr

/-- The error in words. -/
def DescriptorError.message : DescriptorError → String
  | .truncated kind length expected =>
    s!"{kind.name} descriptor truncated: {length} bytes, expected {expected}"
  | .invalidLength offset length => s!"invalid descriptor length {length.toNat} at offset {offset}"
  | .unexpectedType expected found =>
    s!"unexpected descriptor type 0x{Text.hex 2 found.toNat}, expected 0x{Text.hex 2 expected.toNat}"
  | .notMemoryMap text => s!"not a DfuSe memory descriptor: \"{text}\""

/-! ## Protocol -/

/-- The phases of a download whose status is checked. -/
inductive Phase where
  | download
  | manifest
  deriving DecidableEq, Repr

/-- The phase in the words of an error. -/
def Phase.name : Phase → String
  | .download => "DFU DOWNLOAD"
  | .manifest => "DFU MANIFEST"

/-- The requests whose answer has a least length. -/
inductive Inquiry where
  | status
  | state
  deriving DecidableEq, Repr

/-- The name of the request. -/
def Inquiry.name : Inquiry → String
  | .status => "GETSTATUS"
  | .state => "GETSTATE"

/-- The commands of the DfuSe extension. -/
inductive CommandKind where
  | getCommands
  | setAddress
  | eraseSector
  deriving DecidableEq, Repr

/-- The name of the command. -/
def CommandKind.name : CommandKind → String
  | .getCommands => "GET_COMMANDS"
  | .setAddress => "SET_ADDRESS"
  | .eraseSector => "ERASE_SECTOR"

/-- The device answered, but not as the exchange requires. -/
inductive ProtocolError where
  | unexpectedStatus (phase : Phase) (state : State) (status : StatusCode)
  | notIdle (state : State)
  | shortResponse (inquiry : Inquiry) (length : Nat)
  | shortWrite (written expected : Nat)
  | commandFailed (command : CommandKind) (state : State) (status : StatusCode)
  deriving DecidableEq, Repr

/-- The error in words. -/
def ProtocolError.message : ProtocolError → String
  | .unexpectedStatus phase state status =>
    s!"{phase.name} failed state={state.name}, status={status.name}"
  | .notIdle state => s!"failed to return to idle state after abort: state {state.name}"
  | .shortResponse inquiry length => s!"short {inquiry.name} response: {length} bytes"
  | .shortWrite written expected => s!"short write: {written} of {expected} bytes accepted"
  | .commandFailed command state status =>
    s!"special DfuSe command {command.name} failed state={state.name}, status={status.name}"

/-! ## Configuration -/

/-- The request cannot be carried out with the selected device or interface. -/
inductive ConfigurationError where
  | noDevice
  | manyDevices (count : Nat)
  | noDfuInterfaces
  | noFlashInterface (token : String)
  | noMemoryMap
  | addressOutOfRange (address : Nat)
  | downloadNotSupported
  | uploadNotSupported
  | disconnected
  | invalidFixup (text : String)
  deriving DecidableEq, Repr

/-- The error in words. -/
def ConfigurationError.message : ConfigurationError → String
  | .noDevice => "no DFU device found"
  | .manyDevices count => s!"{count} DFU devices match, narrow the selection"
  | .noDfuInterfaces => "the selected device does not have any USB DFU interfaces"
  | .noFlashInterface token => s!"no interface with flash address {token} found"
  | .noMemoryMap => "no memory map available"
  | .addressOutOfRange address => s!"address 0x{Text.hex 8 address} outside of memory map"
  | .downloadNotSupported => "device does not support download"
  | .uploadNotSupported => "device does not support upload"
  | .disconnected => "device is disconnected"
  | .invalidFixup text => s!"invalid address fixup \"{text}\", expected REPORTED+OFFSET"

/-! ## All of them -/

/-- Why an exchange with a device ended. -/
inductive Failure where
  | transport (e : TransportError)
  | descriptor (e : DescriptorError)
  | protocol (e : ProtocolError)
  | configuration (e : ConfigurationError)
  deriving DecidableEq, Repr

namespace Failure

/-- The error in words; each kind of failure has its own. -/
def message : Failure → String
  | .transport e => e.message
  | .descriptor e => e.message
  | .protocol e => e.message
  | .configuration e => e.message

/-- The device has left the bus. -/
def isDisconnect : Failure → Bool
  | .transport e => e.isDisconnect
  | _ => false

theorem isDisconnect_iff {f : Failure} : f.isDisconnect = true ↔ f = .transport .disconnected := by
  cases f with
  | transport e => simp [isDisconnect, TransportError.isDisconnect]
  | descriptor e | protocol e | configuration e => simp [isDisconnect]

end Failure

/-! ## Results -/

/-- A sequence of two steps succeeds only if both do. -/
theorem bind_eq_ok {ε α β : Type} {x : Except ε α} {f : α → Except ε β} {b : β}
    (h : x >>= f = .ok b) : ∃ a, x = .ok a ∧ f a = .ok b := by
  cases x with
  | error e => cases h
  | ok a => exact ⟨a, rfl, h⟩

theorem map_eq_ok {ε α β : Type} {x : Except ε α} {f : α → β} {b : β} (h : x.map f = .ok b) :
    ∃ a, x = .ok a ∧ f a = b := by
  cases x with
  | error e => cases h
  | ok a => exact ⟨a, rfl, Except.ok.inj h⟩

end UsbDfu
