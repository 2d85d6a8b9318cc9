import UsbDfu.Tool.Console
import UsbDfu.Tool.Folder
import UsbDfu.Tool.Line
import UsbDfu.Tool.Listing

/-!
# Work

Each job as a dialogue of everything the tool can ask for: questions of a host, text on the
terminal, files, and time. A job ends with nothing to tell or with a `ToolError`; `Job.run` tells
the user of it and gives the exit code.
-/

namespace UsbDfu.Tool

/-! ## Errors -/

/-- Why a job was not done. -/
inductive ToolError where
  | file (reason : String)
  | device (e : Failure)
  /-- A device that was detached did not come back. -/
  | timeout
  deriving DecidableEq, Repr

/-- That there is not exactly one device has words of its own. -/
def ToolError.message : ToolError → String
  | .file reason => s!"IO error: {reason}"
  | .device (.configuration .noDevice) => "No DFU device"
  | .device (.configuration (.manyDevices count)) =>
    s!"More than one DFU devices ({count}), use -v/-p/-s"
  | .device e => s!"DFU error: {e.message}"
  | .timeout => "Device did not come back in DFU mode"

/-! ## Questions -/

/-- What a job can ask for. -/
inductive Query where
  | host (q : Host.Query)
  | out (text : String)
  | err (text : String)
  | readFile (path : String)
  | writeFile (path : String) (data : Bytes)
  | startTimer
  /-- The time since the timer was started, in words. -/
  | readTimer
  /-- Whether so many milliseconds have gone by since the timer was started. -/
  | timeIsUp (millis : Nat)
  /-- Waits for half a second. -/
  | pause

/-- What is answered. -/
def Query.Answer : Query → Type
  | .host q => q.Answer
  | .out _ | .err _ | .startTimer | .pause => Unit
  | .readFile _ => Except FileError Bytes
  | .writeFile _ _ => Except FileError Unit
  | .readTimer => String
  | .timeIsUp _ => Bool

/-- The log of the tool takes nothing but errors, of which the jobs write none. -/
def isLogged (level : Level) : Bool :=
  level = .error

/-- A dialogue of everything a job can ask for. -/
abbrev Work := Dialogue Query.Answer ToolError

variable {ε α : Type}

/-- Prints text. -/
def out (text : String) : Dialogue Query.Answer ε Unit :=
  .question (Query.out text)

/-- Prints text where errors go. -/
def err (text : String) : Dialogue Query.Answer ε Unit :=
  .question (Query.err text)

/-- The bytes of a file. -/
def readFile (path : String) : Work Bytes := do
  match ← Dialogue.question (Query.readFile path) with
  | .ok data => pure data
  | .error e => throw (.file e.message)

/-- Makes a file of the bytes. -/
def writeFile (path : String) (data : Bytes) : Work Unit := do
  match ← Dialogue.question (Query.writeFile path data) with
  | .ok () => pure ()
  | .error e => throw (.file e.message)

/-! ## Work with a host -/

/-- Passes a host's questions on. -/
def onHost : Host.Exchange α → Work α
  | .done a => .done a
  | .fail e => .fail (.device e)
  | .exhausted => .exhausted
  | .ask q next => .ask (.host q) fun answer => onHost (next answer)

/-- Prints what a console made of a report, and logs what it did not print. -/
def print (p : Printed) : Dialogue Query.Answer ε Unit := do
  if p.out.isEmpty then pure () else out p.out
  if p.err.isEmpty then pure () else err p.err
  match p.log with
  | some line => .question (Query.host (.log line))
  | none => pure ()

/-- Prints what is reported, and passes other questions on. -/
def listen : (q : Host.Query) → Console → Dialogue Query.Answer ε (q.Answer × Console)
  | .on _ (.report r), c => do
    let (printed, c) := c.report r
    print printed
    pure ((), c)
  | q, c => do
    let answer ← .question (Query.host q)
    pure (answer, c)

/-- A session, and the console that its reports go to. -/
structure Desk where
  connected : Host.Connected
  console : Console

/-- Connects to the only device that the filter admits. -/
def connect (label : String) (filter : DeviceFilter) (options : SessionOptions) : Work Desk := do
  match ← (Host.connectOnly filter options).relay listen (.new label) with
  | (.ok connected, console) => pure ⟨connected, console⟩
  | (.error e, _) => throw (.device e)

namespace Desk

/-- Works on the session's device. -/
def converse (d : Desk) (talk : Talk α) : Work (α × Desk) := do
  match ← (Host.onChannel d.connected.channel talk).relay listen d.console with
  | (.ok a, console) => pure (a, { d with console := console })
  | (.error e, _) => nomatch e

/-- Gives the device up; what comes next starts on a line of its own. -/
def close (d : Desk) : Work Unit := do
  let ((), d) ← d.converse d.connected.session.close
  print d.console.endProgress.1

/-- Does one operation and gives the device up, whatever comes of it. -/
def finish (d : Desk) (operation : Session → Talk (Except Failure α × Session)) : Work α := do
  let ((result, _), d) ← d.converse (operation d.connected.session)
  d.close
  .ofExcept (result.mapError .device)

end Desk

/-! ## Jobs -/

/-- Prints what devices there are. -/
def list (filter : DeviceFilter) : Work Unit := do
  let found ← onHost (Host.findDevices filter)
  out (listing found)

/-- How much to read: what was asked for, otherwise what a memory map tells can be read. -/
def readLimit (length : Option Nat) (s : Session) : Checked Empty (Option Nat) :=
  match length, s.maxRead? with
  | some length, _ => pure (some length)
  | none, some (.ok count) => some <$> count
  -- neither a length, nor a start in a map
  | none, _ => pure none

/-- Reads from the device, then writes the file. -/
def read (file : String) (filter : DeviceFilter) (options : SessionOptions)
    (length : Option Nat) : Work Unit := do
  let desk ← connect "Reading" filter options
  let limit ← .compute (readLimit length desk.connected.session)
  let data ← desk.finish fun s => s.read limit
  writeFile file data
  out s!"Read {data.length} bytes into {file}\n"

/-- Reads the file, then writes to the device. -/
def write (file : String) (filter : DeviceFilter) (options : SessionOptions) : Work Unit := do
  let image ← readFile file
  let desk ← connect "Flashing" filter options
  desk.finish fun s => s.flash image

/-- Milliseconds of a pause. -/
def pauseTime : Nat := 500

/-- Milliseconds a device gets to come back. -/
def returnTimeout : Nat := 30000

/-- How often the bus is looked at again at the most: that many pauses take as long as a device gets. -/
def rescans : Nat := returnTimeout / pauseTime

/-- The device is a boot loader. -/
def isLoader (f : Host.Found) : Bool :=
  f.device.settings.any (·.mode = .upgrade)

/-- Waits for a boot loader to come up, looking at the bus again so many times at the most. Listing the
devices and asking them takes time as well, so the time can be up before. -/
def awaitLoader (filter : DeviceFilter) (scans : Nat) : Work Unit := do
  let found ← onHost (Host.findDevices filter)
  if found.any isLoader then
    let time : String ← .question Query.readTimer
    out s!"Reconnected in DFU mode after {time}\n"
  else
    match scans with
    | 0 => throw .timeout
    | scans + 1 =>
      let late : Bool ← .question (Query.timeIsUp returnTimeout)
      if late then throw .timeout
      else
        .question Query.pause
        awaitLoader filter scans

/-- Asks running firmware to come back as a boot loader, and waits for one of the same vendor. -/
def detach (filter : DeviceFilter) (options : SessionOptions) : Work Unit := do
  let desk ← connect "Detaching" filter options
  if desk.connected.session.setting.mode = .upgrade then
    out "Device is already in DFU mode\n"
    desk.close
  else
    desk.finish Session.detach
    out "Waiting for device to reconnect...\n"
    .question Query.startTimer
    awaitLoader { DeviceFilter.any with vendorId := some desk.connected.info.vendorId } rescans

namespace Job

/-- The work of a job. Waits and reads without an end of their own take `patience` rounds. -/
def work (patience : Nat) : Job → Work Unit
  | .list filter => Tool.list filter
  | .read file filter start length =>
    Tool.read file filter { SessionOptions.usual patience with startAddress := start } length
  | .write file filter start fixups transferSize =>
    Tool.write file filter
      { SessionOptions.usual patience with
        startAddress := start
        fixups := fixups
        transferSize := transferSize }
  | .detach filter => Tool.detach filter (.usual patience)

/-- Does a job, tells why it was not done, and gives the exit code. -/
def run (patience : Nat) (job : Job) : Dialogue Query.Answer Empty UInt32 := do
  match ← (job.work patience).attempt with
  | .ok () => pure 0
  | .error e => do
    err s!"Error: {e.message}\n"
    pure 1

end Job
end UsbDfu.Tool
