import UsbDfu.Connection

/-!
# Transfers of plain DFU 1.1

An image goes out, or memory comes in, as blocks numbered one after another modulo 65536. A
download ends with an empty block, on which the device takes the image over, and a reset; an
upload ends with the first block shorter than asked for.
-/

namespace UsbDfu
namespace Connection

open Exchange (say progress)

/-! ## Upload -/

/-- The bytes to ask for next, of `collected` bytes so far and at most `limit` in all. -/
def nextLength (size collected : Nat) (limit : Option Nat) : Nat :=
  match limit with
  | some m => min (m - collected) size
  | none => size

/-- Fetches blocks after the data collected so far. -/
def uploadFrom (c : Connection) (size : Nat) (limit : Option Nat) :
    Nat → UInt16 → Bytes → Exchange Bytes
  | 0, _, _ => .exhausted
  | rounds + 1, block, data => do
    let wanted := nextLength size data.length limit
    let got ← c.upload block (UInt16.ofNat wanted)
    say .debug s!"Read {got.length} bytes"
    -- a device may answer with more than it was asked for
    let data := data ++ got.take wanted
    progress data.length limit
    if got.length < wanted || limit.any (· ≤ data.length) then pure data
    else c.uploadFrom size limit rounds (block + 1) data

/-- Reads at most `limit` bytes, or until the device ends the upload, in blocks of `size` bytes
numbered from `first`. A device that gave all it was asked for may still want to go on; it is
brought back to rest. -/
def readBlocks (c : Connection) (size : UInt16) (limit : Option Nat) (first : UInt16) :
    Exchange Bytes := do
  say .info "Copying data from DFU device"
  progress 0 limit
  if limit = some 0 then pure []
  else do
    -- with a limit every round brings a byte at least, so that many rounds are enough
    let data ← c.uploadFrom (max size.toNat 1) limit (limit.getD c.patience) first []
    if limit = some data.length then c.abortToIdle
    say .info s!"Read {data.length} bytes"
    pure data

/-! ## Download -/

/-- Sends one chunk and waits until the device has taken it in. -/
def sendChunk (c : Connection) (block : UInt16) (chunk : Bytes) : Exchange Unit := do
  let written ← c.download block chunk
  say .debug s!"Sent {written} bytes"
  let status ← c.pollUntil (· = .dnloadIdle)
  Exchange.ofProtocol (status.check .download)
  if written = chunk.length then pure ()
  else throw (.protocol (.shortWrite written chunk.length))

/-- Sends the chunks, `sent` bytes having gone before; the result is the number of the block after
them. -/
def sendChunks (c : Connection) (total : Nat) : UInt16 → Nat → List Bytes → Exchange UInt16
  | block, _, [] => pure block
  | block, sent, chunk :: rest => do
    c.sendChunk block chunk
    progress (sent + chunk.length) (some total)
    c.sendChunks total (block + 1) (sent + chunk.length) rest

/-- Follows the device while it takes the image over and stays on the bus. That it leaves after
all is no failure. -/
def awaitManifested (c : Connection) : Exchange Unit := do
  match ← (c.pollUntil fun s => s = .dfuIdle || s = .manifestWaitReset).attempt with
  | .ok status =>
    if status.state = .manifestWaitReset then
      say .debug
        "Device transitioned to MANIFEST_WAIT_RESET even though it is manifestation tolerant"
    Exchange.ofProtocol (status.check .manifest)
  | .error e =>
    if e.isDisconnect then say .warn "Unable to poll final manifestation status" else throw e

/-- Asks once, which makes the device take the image over; it may be resetting already. -/
def triggerManifestation (c : Connection) : Exchange Unit := do
  match ← c.getStatus.attempt with
  | .ok status =>
    say .debug s!"Final DFU status: state={status.state.name}, status={status.code.name}"
  | .error e => say .debug s!"Manifest GET_STATUS poll error: {e.message}"

/-- Resets the device; that it is gone already is no failure. -/
def resetAfterDownload : Exchange Unit := do
  match ← Exchange.reset.attempt with
  | .ok () => pure ()
  | .error e => if e.isDisconnect then say .debug "Ignored reset error" else throw e

/-- Sends the image in chunks of `size` bytes, has the device take it over, and resets it. -/
def writeBlocks (c : Connection) (size : UInt16) (image : Bytes) (tolerant : Bool) :
    Exchange Unit := do
  say .info "Copying data to DFU device"
  progress 0 (some image.length)
  let block ← c.sendChunks image.length 0 0 (Bytes.chunks size.toNat image)
  say .debug "Sending empty block"
  let _ ← c.download block []
  say .info s!"Wrote {image.length} bytes"
  say .info "Manifesting new firmware"
  if tolerant then c.awaitManifested else c.triggerManifestation
  resetAfterDownload

end Connection
end UsbDfu
