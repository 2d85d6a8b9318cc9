import UsbDfu.MemoryMap.Erasure
import UsbDfu.Transfer.Plain

/-!
# Transfers of the DfuSe extension

A DfuSe device takes commands as block 0 and data as blocks from 2 on, at an address that a
command sets. A download erases the sectors of its range, then sets the address and sends a block
for every chunk, and ends with the start address and an empty block. An upload only sets the
address.
-/

namespace UsbDfu

/-! ## Commands -/

/-- A special command, with the address it works on. -/
inductive Command where
  | getCommands
  | setAddress (address : Nat)
  | eraseSector (address : Nat)
  deriving DecidableEq, Repr

namespace Command

/-- The command without its address, as errors name it. -/
def kind : Command → CommandKind
  | .getCommands => .getCommands
  | .setAddress _ => .setAddress
  | .eraseSector _ => .eraseSector

/-- The number of the command, and the address in four bytes. -/
def payload : Command → Bytes
  | .getCommands => [0x00]
  | .setAddress address => 0x21 :: Bytes.le32 address
  | .eraseSector address => 0x41 :: Bytes.le32 address

end Command

namespace Connection

open Exchange (say progress)

/-- The number of the block that carries a command. -/
def commandBlock : UInt16 := 0

/-- The number of the first data block. -/
def firstDataBlock : UInt16 := 2

/-- Sends a command and waits until the device is no longer busy with it. -/
def command (c : Connection) (cmd : Command) : Exchange Unit := do
  let _ ← c.download commandBlock cmd.payload
  let status ← c.pollUntil (· ≠ .dnBusy)
  if status.isOk then pure ()
  else throw (.protocol (.commandFailed cmd.kind status.state status.code))

/-- Carries out an erase plan, `erased` of `total` bytes being done. -/
def eraseSteps (c : Connection) (total : Nat) : Nat → List EraseStep → Exchange Unit
  | _, [] => pure ()
  | erased, step :: rest => do
    match step with
    | .erase address size =>
      say .debug s!"Erasing {size}B at 0x{Text.hex 8 address}"
      c.command (.eraseSector address)
    | .skip _ _ => pure ()
    let erased := min (erased + step.length) total
    progress erased (some total)
    c.eraseSteps total erased rest

/-- Sends one chunk to an address and waits until the device has taken it in. -/
def sendChunkAt (c : Connection) (address : Nat) (chunk : Bytes) : Exchange Unit := do
  c.command (.setAddress address)
  say .debug s!"Set address to 0x{Text.hex 8 address}"
  c.sendChunk firstDataBlock chunk

/-- Sends the chunks from an address on, `sent` bytes having gone before. -/
def sendChunksAt (c : Connection) (total : Nat) : Nat → Nat → List Bytes → Exchange Unit
  | _, _, [] => pure ()
  | address, sent, chunk :: rest => do
    c.sendChunkAt address chunk
    progress (sent + chunk.length) (some total)
    -- an image that has a plan ends below the top, so this does not wrap
    c.sendChunksAt total (wrapAddress (address + chunk.length)) (sent + chunk.length) rest

/-- Has the device take the image over. It usually leaves the bus right then, so whatever comes of
it is only reported. -/
def manifestAt (c : Connection) (start : Nat) : Exchange Unit := do
  c.command (.setAddress start)
  let _ ← c.download commandBlock []
  match ← (c.pollUntil (· = .manifest)).attempt with
  | .ok status =>
    if status.state = .manifest then say .debug "Device is manifesting"
    else
      let (state, code) := (status.state.name, status.code.name)
      say .error s!"DfuSe manifestation failed state={state}, status={code}"
  | .error e => say .error e.message

end Connection

/-! ## Transfers -/

/-- What is known of the memory of a DfuSe device. -/
structure DfuseTransfer where
  memory? : Option MemoryMap
  start? : Option Nat
  deriving DecidableEq, Repr

namespace DfuseTransfer

open Exchange (say progress)

/-- The memory map, without which nothing can be done. -/
def memory (t : DfuseTransfer) : Except ConfigurationError MemoryMap :=
  match t.memory? with
  | some m => .ok m
  | none => .error .noMemoryMap

/-- The bytes that can be read from the address on. Without a map that cannot be told. -/
def maxRead (t : DfuseTransfer) (address : Nat) :
    Except ConfigurationError (Checked Empty Nat) := do
  let m ← t.memory
  pure (m.maxRead address)

/-- Where the transfer starts: at the chosen address, or at the start of the map. An address
outside of the map is a failure if `strict`, otherwise only reported. -/
def resolveStart (t : DfuseTransfer) (strict : Bool) : Exchange Nat := do
  let m ← Exchange.ofConfiguration t.memory
  match t.start? with
  | none =>
    say .warn s!"Using inferred start address 0x{Text.hex 8 m.first.start}"
    pure m.first.start
  | some address =>
    if (m.segmentAt? address).isSome then pure address
    else if strict then throw (.configuration (.addressOutOfRange address))
    else do
      say .warn s!"Start address 0x{Text.hex 8 address} outside of memory map bounds"
      pure address

/-- Erases every sector that has a byte of the range. -/
def erase (t : DfuseTransfer) (c : Connection) (start length : Nat) : Exchange Unit := do
  let m ← Exchange.ofConfiguration t.memory
  let plan ← Exchange.ofConfiguration (m.erasePlan start length)
  let total := plan.foldr (·.length + ·) 0
  if 0 < total then progress 0 (some total)
  c.eraseSteps total 0 plan

/-- Erases, programs and manifests the image. -/
def download (t : DfuseTransfer) (c : Connection) (image : Bytes) : Exchange Unit := do
  let _ ← Exchange.ofConfiguration t.memory
  say .info "Erasing DFU device memory"
  let start ← t.resolveStart true
  -- a longer image has no length that is a word
  if addressSpace ≤ image.length then throw (.configuration (.addressOutOfRange start))
  t.erase c start image.length
  say .info "Copying data to DFU device"
  progress 0 (some image.length)
  c.sendChunksAt image.length start 0 (Bytes.chunks c.transferSize.toNat image)
  say .info s!"Wrote {image.length} bytes"
  say .info "Manifesting new firmware"
  c.manifestAt start

/-- Reads at most `limit` bytes, or until the device ends the upload. -/
def upload (t : DfuseTransfer) (c : Connection) (limit : Option Nat) : Exchange Bytes := do
  let start ← t.resolveStart false
  match limit with
  | some m => say .info s!"Reading up to 0x{Text.hex 1 m} bytes starting at 0x{Text.hex 8 start}"
  | none => say .info s!"Reading from 0x{Text.hex 8 start}"
  if (← c.getState) ≠ .dfuIdle then c.abortToIdle
  c.command (.setAddress start)
  -- a command is a download, which a device does not leave for an upload by itself
  c.abortToIdle
  c.readBlocks c.transferSize limit Connection.firstDataBlock

end DfuseTransfer

/-! ## Both families -/

/-- How a device is flashed and read. -/
inductive Strategy where
  | plain
  | dfuse (t : DfuseTransfer)
  deriving DecidableEq, Repr

namespace Strategy

/-- The device takes the commands of the extension. -/
def isDfuse : Strategy → Bool
  | .plain => false
  | .dfuse _ => true

/-- The memory map, which only the extension has. -/
def memory? : Strategy → Option MemoryMap
  | .plain => none
  | .dfuse t => t.memory?

/-- The start that was settled, which only the extension needs. -/
def start? : Strategy → Option Nat
  | .plain => none
  | .dfuse t => t.start?

/-- Programs an image. Only a plain transfer follows a device that stays on the bus. -/
def download (s : Strategy) (c : Connection) (image : Bytes) (tolerant : Bool) : Exchange Unit :=
  match s with
  | .plain => c.writeBlocks c.transferSize image tolerant
  | .dfuse t => t.download c image

/-- Reads at most `limit` bytes, or until the device ends the upload. -/
def upload (s : Strategy) (c : Connection) (limit : Option Nat) : Exchange Bytes :=
  match s with
  | .plain => c.readBlocks c.transferSize limit 0
  | .dfuse t => t.upload c limit

end Strategy
end UsbDfu
