import UsbDfu.Exchange

/-!
# A scripted device

A device that answers from lists written beforehand, one list for each kind of call. The last
answer of a list is given again and again.
-/

namespace UsbDfu
namespace Bench

/-- A failure that can be written into a script. -/
inductive Fault where
  | notOpen
  | notClaimed
  | invalidDescriptor
  | stall
  | disconnected
  | transfer (fault : TransferFault)
  /-- A stall while a descriptor is read. -/
  | descriptorStall
  deriving DecidableEq, Repr

/-- The failure that the host sees. -/
def Fault.transportError : Fault → TransportError
  | .notOpen => .notOpen
  | .notClaimed => .notClaimed
  | .invalidDescriptor => .invalidDescriptor
  | .stall | .descriptorStall => .stall
  | .disconnected => .disconnected
  | .transfer fault => .transfer fault

/-- One answer of a script. -/
inductive Response where
  | nothing
  | fail (f : Fault)
  /-- Lets the device leave the bus first, as far as the news goes. -/
  | emit (id : DeviceId) (next : Response)
  /-- Ends the news of the present subscribers first. -/
  | endNews (next : Response)
  /-- The number of bytes taken. -/
  | count (n : Nat)
  /-- Data, which a standard request cuts to the length asked for unless it is `whole`. -/
  | data (bytes : Bytes) (whole : Bool)
  deriving DecidableEq, Repr, Inhabited

/-- The kinds of calls that have lists of their own. -/
inductive Cue where
  | openDevice
  | selectConfiguration
  | claimInterface
  | selectAlternate
  | reset
  | watch
  | detach
  | download
  | clearStatus
  | abort
  | otherOut
  | descriptor (type index : UInt8)
  | upload
  | getStatus
  | getState
  | otherIn
  deriving DecidableEq, Repr

namespace Cue

/-- The queue that answers a request to the device. -/
def ofOut (r : Request) : Cue :=
  match r.request.toNat with
  | 0 => .detach
  | 1 => .download
  | 4 => .clearStatus
  | 6 => .abort
  | _ => .otherOut

/-- The queue that answers a request for data. A descriptor has one for each type and index. -/
def ofIn (r : Request) : Cue :=
  match r.type, r.request.toNat with
  | .standard, _ => .descriptor (UInt8.ofNat (r.value.toNat / 256)) r.value.toUInt8
  | .classSpecific, 2 => .upload
  | .classSpecific, 3 => .getStatus
  | .classSpecific, 5 => .getState
  | .classSpecific, _ => .otherIn

end Cue

/-- A device that answers from queues, one for each kind of request. -/
structure Script where
  id : DeviceId
  queues : List (Cue × List Response)
  deriving DecidableEq, Repr

namespace Script

/-- The next element of a list of which the last is given again and again. -/
def advance {α : Type} : List α → Option α × List α
  | [] => (none, [])
  | [last] => (some last, [last])
  | a :: rest => (some a, rest)

/-- The next answer to a kind of call. -/
def next (s : Script) (cue : Cue) : Response × Script :=
  match s.queues.lookup cue with
  | none => (.nothing, s)
  | some queue =>
    let (r, rest) := advance queue
    (r.getD .nothing, { s with queues := (cue, rest) :: s.queues.filter (·.1 ≠ cue) })

end Script

namespace Response

/-- The reply to a call that only succeeds or fails. -/
def plain : Response → Except TransportError Unit
  | .fail f => .error f.transportError
  | _ => .ok ()

/-- The reply to a transfer of so many bytes to the device. -/
def out (length : Nat) : Response → Except TransportError Nat
  | .fail f => .error f.transportError
  | .count n => .ok n
  | _ => .ok length

/-- The reply to a request for at most `length` bytes from the device. -/
def input (type : RequestType) (length : Nat) : Response → Except TransportError Bytes
  | .fail f => .error f.transportError
  | .data bytes whole => .ok (if type = .standard ∧ !whole then bytes.take length else bytes)
  | _ => .ok []

/-- The same response, but the news goes on. -/
def lasting : Response → Response
  | .emit id next => .emit id next.lasting
  | .endNews next => next.lasting
  | r => r

end Response

/-- The same script, but the news goes on. -/
def Script.lasting (s : Script) : Script :=
  { s with queues := s.queues.map fun (cue, queue) => (cue, queue.map Response.lasting) }

end Bench
end UsbDfu
