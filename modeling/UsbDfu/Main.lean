import UsbDfu.Bench.Bus
import UsbDfu.Tool.Work

/-!
# The program

Does the job that its arguments give: text goes to the terminal, files are those of the file
system, time is real. The USB bus is a bench; `main` puts nothing on it, so it has a host without
devices.
-/

namespace UsbDfu.Program

/-- What the program keeps between two questions. -/
structure Desk where
  bus : Bench.Bus
  /-- When the timer was started. -/
  started : Nat

/-- The code of an error is the wanted one; some calls give it negated. -/
def hasCode (code wanted : UInt32) : Bool :=
  code = wanted || code = 0 - wanted

/-- What an error of the file system is to a job. -/
def fileError : IO.Error → Tool.FileError
  | .inappropriateType _ code _ => if hasCode code 20 then .notDirectory else .isDirectory
  | .invalidArgument _ code _ => if hasCode code 36 then .nameTooLong else .notFound
  | .permissionDenied .. => .permissionDenied
  | _ => .notFound

/-- The time in words. -/
def describeMillis (millis : Nat) : String :=
  s!"{millis / 1000}.{Text.decimal 3 (millis % 1000)}s"

/-- Does something with files, and tells why it did not work. -/
def attempt {α : Type} (action : IO α) : IO (Except Tool.FileError α) := do
  match ← action.toBaseIO with
  | .ok a => pure (.ok a)
  | .error e => pure (.error (fileError e))

/-- Answers a question. -/
def serve : (q : Tool.Query) → Desk → IO (q.Answer × Desk)
  | .host (.on _ (.logTakes level)), d => pure (Tool.isLogged level, d)
  | .host q, d =>
    let (answer, bus) := Bench.Bus.serve q d.bus
    pure (answer, { d with bus := bus.forget })
  | .out text, d => do
    let stdout ← IO.getStdout
    stdout.putStr text
    stdout.flush
    pure ((), d)
  | .err text, d => do
    IO.eprint text
    pure ((), d)
  | .readFile path, d => do
    let data ← attempt (IO.FS.readBinFile path)
    pure (data.map (·.toList), d)
  | .writeFile path data, d => do
    let written ← attempt (IO.FS.writeBinFile path ⟨data.toArray⟩)
    pure (written, d)
  | .startTimer, d => do
    pure ((), { d with started := ← IO.monoMsNow })
  | .readTimer, d => do
    pure (describeMillis ((← IO.monoMsNow) - d.started), d)
  | .timeIsUp millis, d => do
    pure (decide (d.started + millis ≤ (← IO.monoMsNow)), d)
  | .pause, d => do
    IO.sleep (.ofNat Tool.pauseTime)
    pure ((), d)

/-- Answers all questions of a job; one that cannot go on has failed. -/
def converse (d : Desk) : Dialogue Tool.Query.Answer Empty UInt32 → IO UInt32
  | .done code => pure code
  | .fail e => nomatch e
  | .exhausted => pure 1
  | .ask q next => do
    let (answer, d) ← serve q d
    converse d (next answer)

/-- What the user is told of a line that gives no job. -/
def explain : Tool.LineError → String
  | .help => "Usage: list | read FILE | write FILE | detach\n"
  | .version => "0.1.0\n"
  | .unknownJob => "error: unrecognized subcommand\n"
  | .unknownArgument => "error: unexpected argument\n"
  | .missingValue => "error: a value is required\n"
  | .unwantedValue => "error: unexpected value\n"
  | .badValue e => s!"error: invalid value: {e.message}\n"
  | .repeated => "error: an argument cannot be used multiple times\n"
  | .missingFile => "error: the following required arguments were not provided: <FILE>\n"

/-- How many rounds a wait or a read without an end of its own may take. -/
def patience : Nat := 0x100000000

/-- Does the job that the arguments give on the devices of a bus. -/
def run (bus : Bench.Bus) (arguments : List String) : IO UInt32 :=
  match Tool.Job.ofArguments arguments with
  | .ok job => converse ⟨bus, 0⟩ (job.run patience)
  | .error e => do
    match e with
    | .help | .version =>
      IO.print (explain e)
      pure 0
    | _ =>
      IO.eprint (explain e)
      pure 2

end UsbDfu.Program

/-- The program on a host without devices. -/
def main (arguments : List String) : IO UInt32 :=
  UsbDfu.Program.run (.new [] [] none) arguments
