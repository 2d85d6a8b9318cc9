import UsbDfu.Descriptor.Basic
import UsbDfu.Exchange

/-!
# DFU requests

The seven class requests of DFU 1.1 on one claimed interface, and the waits built on GETSTATUS:
`pollUntil` asks until a state is accepted or the device is in error, `abortToIdle` brings it back
to rest.
-/

namespace UsbDfu

/-- One claimed interface. -/
structure Connection where
  interface : UInt8
  /-- The most bytes of one transfer. -/
  transferSize : UInt16
  /-- How many rounds an unbounded wait or read may take. -/
  patience : Nat
  deriving DecidableEq, Repr

namespace Connection

/-- A device that gives no transfer size is served with the default one. -/
def new (interface : UInt8) (transferSize : UInt16) (patience : Nat) : Connection where
  interface := interface
  transferSize := if transferSize = 0 then Functional.defaultTransferSize else transferSize
  patience := patience

/-! ## Request numbers -/

/-- Leaves the running firmware for the boot loader. -/
def detachRequest : UInt8 := 0
/-- Brings a block to the device. -/
def downloadRequest : UInt8 := 1
/-- Fetches a block. -/
def uploadRequest : UInt8 := 2
/-- Asks for status, state and the time to wait; the device may change its state by it. -/
def getStatusRequest : UInt8 := 3
/-- Leaves the error state. -/
def clearStatusRequest : UInt8 := 4
/-- Asks for the state and changes nothing. -/
def getStateRequest : UInt8 := 5
/-- Breaks off a transfer. -/
def abortRequest : UInt8 := 6

/-- Milliseconds the device may wait for a reset after a detach request. -/
def detachTimeout : UInt16 := 1000

/-! ## Requests -/

/-- A request of the class to the interface, with data for the device. -/
def send (c : Connection) (request : UInt8) (value : UInt16) (data : Bytes) : Exchange Nat :=
  Exchange.controlOut (.ofClass request value c.interface) data

/-- A request of the class to the interface, for data from the device. -/
def fetch (c : Connection) (request : UInt8) (value length : UInt16) : Exchange Bytes :=
  Exchange.controlIn (.ofClass request value c.interface) length

/-- Asks running firmware to come back as a boot loader. -/
def detach (c : Connection) : Exchange Unit := do
  let _ ← c.send detachRequest detachTimeout []

/-- Sends one block; the result is how much of it the device took. -/
def download (c : Connection) (block : UInt16) (data : Bytes) : Exchange Nat :=
  c.send downloadRequest block data

/-- Fetches one block. -/
def upload (c : Connection) (block length : UInt16) : Exchange Bytes :=
  c.fetch uploadRequest block length

/-- The status, if the answer has all of its bytes. -/
def getStatus (c : Connection) : Exchange Status := do
  let data ← c.fetch getStatusRequest 0 (UInt16.ofNat Status.size)
  match Status.ofBytes? data with
  | some s => pure s
  | none => throw (.protocol (.shortResponse .status data.length))

/-- Leaves the error state. -/
def clearStatus (c : Connection) : Exchange Unit := do
  let _ ← c.send clearStatusRequest 0 []

/-- The state; an answer may be longer than the one byte. -/
def getState (c : Connection) : Exchange State := do
  let data ← c.fetch getStateRequest 0 1
  match data with
  | code :: _ => pure (State.ofCode code)
  | [] => throw (.protocol (.shortResponse .state 0))

/-- Breaks off what the device is doing. -/
def abort (c : Connection) : Exchange Unit := do
  let _ ← c.send abortRequest 0 []

/-! ## Waits -/

/-- Aborts, and clears a pending error; the device has to be idle then. -/
def abortToIdle (c : Connection) : Exchange Unit := do
  c.abort
  let state ← c.getState
  -- an abort does not clear an error
  let state ← if state = .error then do c.clearStatus; c.getState else pure state
  if state = .dfuIdle then pure () else throw (.protocol (.notIdle state))

/-- Asks again, after the delay the device wants, while the state is neither accepted nor the
error state. -/
def pollFrom (c : Connection) (accept : State → Bool) : Nat → Status → Exchange Status
  | rounds, status =>
    if accept status.state || status.state = .error then pure status
    else
      match rounds with
      -- a device that stays busy would be asked for ever
      | 0 => .exhausted
      | rounds + 1 => do
        Exchange.note .trace s!"{status.state.name}: sleeping for {status.pollTimeout}ms"
        c.pollFrom accept rounds (← c.getStatus)

/-- Asks for the status until the state is accepted or the device is in the error state. -/
def pollUntil (c : Connection) (accept : State → Bool) : Exchange Status := do
  c.pollFrom accept c.patience (← c.getStatus)

end Connection

/-! ## Checks -/

/-- The device reports no error in the phase. -/
def Status.check (s : Status) (phase : Phase) : Except ProtocolError Unit :=
  if s.isOk then .ok () else .error (.unexpectedStatus phase s.state s.code)

end UsbDfu
