import UsbDfu.Dialogue
import UsbDfu.Failure

/-!
# Exchanges with one device

What a host can ask for while it works on one device: the calls of a transport, a word to the
user, a line for the log, and news of devices that left the bus. An `Exchange` is a dialogue of
such questions that ends with a value or a `Failure`.
-/

namespace UsbDfu

/-! ## Calls on a device -/

/-- Who defines a control request. -/
inductive RequestType where
  | standard
  | classSpecific
  deriving DecidableEq, Repr

/-- To whom a control request is addressed. -/
inductive Recipient where
  | device
  | interface
  deriving DecidableEq, Repr

/-- The setup packet of a control transfer, but for the length. -/
structure Request where
  type : RequestType
  recipient : Recipient
  request : UInt8
  value : UInt16
  index : UInt16
  deriving DecidableEq, Repr

namespace Request

/-- A class request to an interface. -/
def ofClass (request : UInt8) (value : UInt16) (interface : UInt8) : Request :=
  ⟨.classSpecific, .interface, request, value, interface.toUInt16⟩

/-- A standard request to the device. -/
def ofStandard (request : UInt8) (value index : UInt16) : Request :=
  ⟨.standard, .device, request, value, index⟩

/-- The number of the standard request that reads a descriptor. -/
def getDescriptor : UInt8 := 6

end Request

/-- What tells one device from another on the bus. -/
abbrev DeviceId := Nat

/-- A subscription to the news of devices that leave the bus. -/
abbrev Subscription := Nat

/-- One call on the transport of a device. -/
inductive Call where
  | openDevice
  | selectConfiguration (value : UInt8)
  | claimInterface (number : UInt8)
  | selectAlternate (number alternate : UInt8)
  | controlOut (r : Request) (data : Bytes)
  | controlIn (r : Request) (length : UInt16)
  | reset
  | close
  | watch
  deriving DecidableEq, Repr

/-- What a call returns. A control transfer to the device returns the number of bytes taken. -/
def Call.Reply : Call → Type
  | .openDevice | .selectConfiguration _ | .claimInterface _ | .selectAlternate _ _ | .reset =>
    Except TransportError Unit
  | .controlOut _ _ => Except TransportError Nat
  | .controlIn _ _ => Except TransportError Bytes
  | .close => Unit
  | .watch => Except TransportError Subscription

/-! ## Words to the user and the log -/

/-- How much a line matters, the most first. -/
inductive Level where
  | error
  | warn
  | info
  | debug
  | trace
  deriving DecidableEq, Repr

/-- The level as it is printed. -/
def Level.name : Level → String
  | .error => "ERROR"
  | .warn => "WARN"
  | .info => "INFO"
  | .debug => "DEBUG"
  | .trace => "TRACE"

/-- What the user of an exchange is told. -/
inductive Report where
  | log (level : Level) (text : String)
  /-- The total is unknown where the amount of data is. -/
  | progress (done : Nat) (total : Option Nat)
  | disconnected
  deriving DecidableEq, Repr

/-- A line of the log. -/
structure LogLine where
  level : Level
  text : String
  deriving DecidableEq, Repr

/-- What a report says where it is only written to the log. -/
def Report.toLogLine : Report → LogLine
  | .log level text => ⟨level, text⟩
  | .progress done (some total) => ⟨.debug, s!"Progress: {done}/{total}"⟩
  | .progress done none => ⟨.debug, s!"Progress: {done}"⟩
  | .disconnected => ⟨.info, "Device disconnected"⟩

/-! ## Questions and answers -/

/-- What a dialogue about one device can ask for. -/
inductive Query where
  | call (c : Call)
  | report (r : Report)
  | log (line : LogLine)
  /-- Whether the log takes lines of the level. -/
  | logTakes (level : Level)
  /-- Takes all the news that has arrived: the devices that left, in order. -/
  | news (s : Subscription)
  /-- Waits at most so many milliseconds for news of the device; news of others before it is
  dropped. -/
  | departure (s : Subscription) (id : DeviceId) (timeout : Nat)
  deriving DecidableEq, Repr

/-- What is answered. Words to the user and the log always get through. -/
def Query.Answer : Query → Type
  | .call c => c.Reply
  | .report _ => Unit
  | .log _ => Unit
  | .logTakes _ => Bool
  | .news _ => List DeviceId
  | .departure _ _ _ => Bool

/-- A dialogue about one device that cannot fail. -/
abbrev Talk := Dialogue Query.Answer Empty

/-- A dialogue about one device. -/
abbrev Exchange := Dialogue Query.Answer Failure

namespace Exchange

variable {ε α : Type}

/-- Makes one call, whatever it returns. -/
def perform (c : Call) : Dialogue Query.Answer ε c.Reply :=
  .question (Query.call c)

/-- Tells the user. -/
def report (r : Report) : Dialogue Query.Answer ε Unit :=
  .question (Query.report r)

/-- Tells the user something in words. -/
def say (level : Level) (text : String) : Dialogue Query.Answer ε Unit :=
  report (.log level text)

/-- Tells the user how far a transfer is. -/
def progress (done : Nat) (total : Option Nat) : Dialogue Query.Answer ε Unit :=
  report (.progress done total)

/-- Writes a line to the log. -/
def note (level : Level) (text : String) : Dialogue Query.Answer ε Unit :=
  .question (Query.log ⟨level, text⟩)

/-- Writes a line whose text has to be computed. A log that does not take the line never asks for it. -/
def noteComputed (level : Level) (text : Checked Empty String) : Dialogue Query.Answer ε Unit := do
  let taken : Bool ← .question (Query.logTakes level)
  if taken then note level (← .compute text) else pure ()

/-! ## Results of the four families -/

/-- Ends with what a call returned. -/
def ofTransport (r : Except TransportError α) : Exchange α :=
  .ofExcept (r.mapError .transport)

/-- Ends with what was read of a descriptor. -/
def ofDescriptor (r : Except DescriptorError α) : Exchange α :=
  .ofExcept (r.mapError .descriptor)

/-- Ends with what a device said of itself. -/
def ofProtocol (r : Except ProtocolError α) : Exchange α :=
  .ofExcept (r.mapError .protocol)

/-- Ends with what was settled before a call is made. -/
def ofConfiguration (r : Except ConfigurationError α) : Exchange α :=
  .ofExcept (r.mapError .configuration)

/-! ## Calls that have to succeed -/

/-- Opens the device. -/
def openDevice : Exchange Unit := do
  ofTransport (← perform .openDevice)

/-- Selects a configuration. -/
def selectConfiguration (value : UInt8) : Exchange Unit := do
  ofTransport (← perform (.selectConfiguration value))

/-- Claims an interface. -/
def claimInterface (number : UInt8) : Exchange Unit := do
  ofTransport (← perform (.claimInterface number))

/-- Selects an alternate setting of a claimed interface. -/
def selectAlternate (number alternate : UInt8) : Exchange Unit := do
  ofTransport (← perform (.selectAlternate number alternate))

/-- Sends data; the result is how many bytes the device took. -/
def controlOut (r : Request) (data : Bytes) : Exchange Nat := do
  ofTransport (← perform (.controlOut r data))

/-- Fetches data, of which the device may give less than was asked for. -/
def controlIn (r : Request) (length : UInt16) : Exchange Bytes := do
  ofTransport (← perform (.controlIn r length))

/-- Resets the device. -/
def reset : Exchange Unit := do
  ofTransport (← perform .reset)

/-- Gives the device up; that cannot fail. -/
def close : Dialogue Query.Answer ε Unit :=
  perform .close

end Exchange
end UsbDfu
