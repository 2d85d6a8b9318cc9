import UsbDfu.Bench.Board
import UsbDfu.Usb.Host

/-!
# A bus of boards

A whole bus on the bench: its devices, what an enumeration lists, and the stack's operations on
each device, answered by the board behind it. `Bus.operate` answers one operation; `Bus.serve`
answers a host's questions, carrying out calls on a channel through `Channel.serve`.
-/

namespace UsbDfu
namespace Bench

/-! ## Failures as the stack tells them -/

/-- What becomes of a failed operation other than a transfer. -/
def usbError : TransportError → UsbError
  | .disconnected => .disconnected
  | .stall => .busy
  | .notOpen => .permissionDenied
  | .notClaimed => .notFound
  | .invalidDescriptor | .transfer _ => .other
  | .usb e => e

/-- What becomes of a failed transfer. -/
def transferError : TransportError → TransferError
  | .disconnected => .disconnected
  | .stall => .stall
  | .transfer f => .fault f
  | .notOpen | .notClaimed | .invalidDescriptor | .usb _ => .fault .hardware

/-- What becomes of a failed read of a descriptor. -/
def descriptorReadError : TransportError → DescriptorReadError
  | .invalidDescriptor => .invalidDescriptor
  | e => .transfer (transferError e)

/-- What becomes of a failed enumeration or subscription. -/
def Fault.usbError : Fault → UsbError
  | .descriptorStall => .other
  | f => Bench.usbError f.transportError

/-! ## The bus -/

/-- A device of the bus, and the board behind it. -/
structure Entry where
  info : DeviceInfo
  /-- None while the device is not configured. -/
  activeConfiguration : Option UInt8
  board : Board
  deriving Repr

/-- What an enumeration gives. -/
inductive Listing where
  | devices (ids : List DeviceId)
  | fail (f : Fault)
  deriving DecidableEq, Repr

/-- A device as a host works on it. -/
structure ChannelState where
  info : DeviceInfo
  handles : Handles
  deriving DecidableEq, Repr

/-- A bus: the devices that are in reach, what was opened on it, and a record of all that
happened. -/
structure Bus where
  entries : List Entry
  /-- What the enumerations give, the last again and again. Without any, all devices are listed. -/
  listings : List Listing
  /-- Why nobody can subscribe to the news. -/
  watchFault : Option Fault
  /-- Every channel there ever was; a `ChannelId` is a place in the list. -/
  channels : List ChannelState
  news : News
  events : List Event

/-- A call on a device that is not there. -/
def goneReply : (c : Call) → c.Reply
  | .openDevice | .selectConfiguration _ | .claimInterface _ | .selectAlternate _ _ | .reset
  | .controlOut _ _ | .controlIn _ _ | .watch => .error .disconnected
  | .close => ()

/-- The longest descriptor that the stack asks for. -/
def longestDescriptor : UInt16 := 4096

/-- A device of the bus. The news of the bus goes on whatever its script says. -/
def Entry.new (info : DeviceInfo) (activeConfiguration : Option UInt8) (board : Board) : Entry where
  info := info
  activeConfiguration := activeConfiguration
  board :=
    match board.model with
    | .script s => { board with model := .script s.lasting }
    | .simulator _ => board

namespace Bus

/-- A bus on which nothing has happened. -/
def new (entries : List Entry) (listings : List Listing) (watchFault : Option Fault) : Bus where
  entries := entries
  listings := listings
  watchFault := watchFault
  channels := []
  news := .empty
  events := []

/-- A bound on the rounds of any wait or read on the bus, if its boards have budgets. -/
def patience (b : Bus) : Nat :=
  b.entries.foldr (·.board.patience + ·) 1

/-- Adds an event at the end of the record. -/
def record (b : Bus) (e : Event) : Bus :=
  { b with events := b.events ++ [e] }

/-- Forgets what happened. -/
def forget (b : Bus) : Bus :=
  { b with events := [] }

/-- The device of this identity. -/
def entry? (b : Bus) (id : DeviceId) : Option Entry :=
  b.entries.find? (·.info.id = id)

/-- Changes the device of this identity and leaves the others as they are. -/
def updateEntry (b : Bus) (id : DeviceId) (f : Entry → Entry) : Bus :=
  { b with entries := b.entries.map fun e => if e.info.id = id then f e else e }

/-- Changes the state of a simulated device. -/
def adjust (b : Bus) (id : DeviceId) (f : Simulator → Simulator) : Bus :=
  b.updateEntry id fun e => { e with board := e.board.adjust f }

/-- Every subscriber learns that a device left. -/
def deliver (b : Bus) (id : DeviceId) : Bus :=
  { b with news := b.news.deliver id }

/-- The device says itself that it left. -/
def emit (b : Bus) (id : DeviceId) : Bus :=
  match b.entry? id with
  | some e => b.deliver e.board.id
  | none => b

/-! ## Operations of the stack -/

/-- Passes a call on to the board. -/
def call (b : Bus) (id : DeviceId) (c : Call) : c.Reply × Bus :=
  match b.entry? id with
  | none => (goneReply c, b)
  | some e =>
    let served := e.board.serve b.news c
    let event := if served.reached then Event.call (some id) c served.reply else .limit (some id)
    let b := b.updateEntry id fun e => { e with board := served.board }
    (served.reply, { b with news := served.news, events := b.events ++ [event] })

/-- Tells of a failure of a call as the stack does. -/
def retell {ε ε' α : Type} (f : ε → ε') : Except ε α × Bus → Except ε' α × Bus
  | (reply, b) => (reply.mapError f, b)

/-- A configuration that could be set becomes the active one. -/
def setConfiguration (b : Bus) (id : DeviceId) (value : UInt8) : Except UsbError Unit × Bus :=
  match retell usbError (b.call id (.selectConfiguration value)) with
  | (.ok (), b) => (.ok (), b.updateEntry id fun e => { e with activeConfiguration := some value })
  | (.error e, b) => (.error e, b)

/-- The device no longer holds the interface. -/
def release (b : Bus) (id : DeviceId) (number : UInt8) : Bus :=
  (b.adjust id fun s => if s.claimed = some number then { s with claimed := none } else s).record
    (.released number id)

/-- The device is no longer open. -/
def closeDevice (b : Bus) (id : DeviceId) : Bus :=
  (b.adjust id fun s => { s with isOpen := false }).record (.closed id)

/-- Subscribes to the news of departures, unless the bus refuses that. -/
def watch (b : Bus) : Except UsbError Subscription × Bus :=
  let b := b.record (.watch b.watchFault)
  match b.watchFault with
  | some f => (.error f.usbError, b)
  | none =>
    let (subscription, n) := b.news.subscribe
    (.ok subscription, { b with news := n })

/-- The request that reads a descriptor. -/
def descriptorCall (type index : UInt8) (language : UInt16) : Call :=
  .controlIn (.ofStandard Request.getDescriptor (Bytes.word index type) language) longestDescriptor

/-- That the device took the data, not how much of it. -/
def controlOut (b : Bus) (id : DeviceId) (r : Request) (data : Bytes) :
    Except TransferError Unit × Bus :=
  match retell transferError (b.call id (.controlOut r data)) with
  | (.ok _, b) => (.ok (), b)
  | (.error e, b) => (.error e, b)

/-- Answers one operation on a device. -/
def operate (id : DeviceId) : (o : Operation) → Bus → o.Result × Bus
  | .openDevice, b => retell usbError (b.call id .openDevice)
  | .activeConfiguration, b => ((b.entry? id).bind (·.activeConfiguration), b)
  | .setConfiguration value, b => b.setConfiguration id value
  | .claimInterface number, b => retell usbError (b.call id (.claimInterface number))
  | .setAlternate number alternate, b =>
    retell usbError (b.call id (.selectAlternate number alternate))
  | .controlOut _ r data, b => b.controlOut id r data
  | .controlIn _ r length, b => retell transferError (b.call id (.controlIn r length))
  | .getDescriptor type index language, b =>
    retell descriptorReadError (b.call id (descriptorCall type index language))
  | .reset, b => retell usbError (b.call id .reset)
  | .releaseInterface number, b => ((), b.release id number)
  | .closeDevice, b => ((), b.closeDevice id)
  | .watch, b => b.watch
  | .log line, b => ((), b.record (.log line))

/-- Answers a dialogue with the stack about one device. A dialogue that gave up has no value. -/
def carryOut {α : Type} (b : Bus) (id : DeviceId) (d : StackTalk α) : Option α × Bus :=
  match d.run (operate id) b with
  | (.done a, b) => (some a, b)
  | (.failed _, b) => (none, b)
  | (.exhausted, b) => (none, b)

/-! ## Questions of a host -/

/-- The devices with the given ids, in the order of the ids. -/
def infosOf (b : Bus) (ids : List DeviceId) : List DeviceInfo :=
  ids.filterMap fun id => (b.entry? id).map (·.info)

/-- Lists the devices. -/
def enumerate (b : Bus) : Except UsbError (List DeviceInfo) × Bus :=
  let (listing, rest) := Script.advance b.listings
  let b := { b with listings := rest }
  match listing.getD (.devices (b.entries.map (·.info.id))) with
  | .devices ids => (.ok (b.infosOf ids), b.record (.list (some ids)))
  | .fail f => (.error f.usbError, b.record (.list none))

/-- Attaches a new channel, which holds no handles. -/
def attach (b : Bus) (info : DeviceInfo) : Host.ChannelId × Bus :=
  (b.channels.length, { b with channels := b.channels ++ [⟨info, .none⟩] })

/-- Sets what is open on one channel. -/
def setHandles (b : Bus) (p : Host.ChannelId) (h : Handles) : Bus :=
  { b with channels := b.channels.modify p fun channel => { channel with handles := h } }

/-- Lets go of a channel. -/
def abandon (b : Bus) (p : Host.ChannelId) : Bus :=
  match b.channels[p]? with
  | none => b
  | some channel =>
    let (_, b) := b.carryOut channel.info.id (Channel.abandon channel.handles)
    b.setHandles p .none

/-- Carries out a call on a channel. -/
def callChannel (b : Bus) (p : Host.ChannelId) (c : Call) : c.Reply × Bus :=
  match b.channels[p]? with
  | none => (goneReply c, b)
  | some channel =>
    match b.carryOut channel.info.id (Channel.serve channel.info channel.handles c) with
    | (some (reply, h), b) => (reply, b.setHandles p h)
    | (none, b) => (goneReply c, b)

/-- Answers a question about one device. -/
def serveOn (p : Host.ChannelId) : (q : UsbDfu.Query) → Bus → q.Answer × Bus
  | .call c, b => b.callChannel p c
  | .report r, b => ((), b.record (.report r))
  | .log line, b => ((), b.record (.log line))
  | .logTakes _, b => (true, b)
  | .news s, b =>
    let (ids, n) := b.news.takeAll s
    (ids, { b with news := n })
  | .departure s id _, b =>
    let (left, n) := b.news.takeUntil s id
    (left, { b with news := n })

/-- Answers a question of a host. -/
def serve : (q : Host.Query) → Bus → q.Answer × Bus
  | .devices, b => b.enumerate
  | .attach info, b => b.attach info
  | .abandon p, b => ((), b.abandon p)
  | .on p q, b => serveOn p q b
  | .log line, b => ((), b.record (.log line))

/-- Lets the bus answer a dialogue. -/
def run {ε α : Type} (d : Dialogue Host.Query.Answer ε α) (b : Bus) : Outcome ε α × Bus :=
  d.run serve b

end Bus
end Bench
end UsbDfu
