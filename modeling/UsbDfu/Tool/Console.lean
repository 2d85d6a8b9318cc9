import UsbDfu.Exchange
import UsbDfu.Text.Numeral

/-!
# A console

Prints reports for a user: lines as they come, and progress as a bar that is drawn over itself.
What comes after a bar starts on a line of its own.
-/

namespace UsbDfu.Tool

/-- What a report prints, and what it only writes to the log. -/
structure Printed where
  out : String
  err : String
  log : Option LogLine
  deriving DecidableEq, Repr

/-- The text on the standard output, and nothing else. -/
def Printed.toOut (text : String) : Printed := ⟨text, "", none⟩

/-- The console of one job. -/
structure Console where
  /-- What is being done. -/
  label : String
  /-- The progress that stands on the current line. -/
  shown : Option Nat
  deriving DecidableEq, Repr

namespace Console

/-- No progress is shown yet. -/
def new (label : String) : Console := ⟨label, none⟩

/-- How many cells a full bar has. -/
def barWidth : Nat := 60

/-- A bar of which so much is filled. -/
def bar (done total : Nat) : String :=
  let filled := barWidth * done / total
  String.ofList (List.replicate filled '#' ++ List.replicate (barWidth - filled) ' ')

/-- The line that progress draws over the current one. Progress beyond the total counts as the
total; without a total the bytes are told. -/
def progressText (label : String) (done : Nat) (total : Option Nat) : String :=
  match total with
  | some (total + 1) =>
    let done := min done (total + 1)
    s!"\r  {label} {Text.decimalRight 3 (100 * done / (total + 1))}% [{bar done (total + 1)}]"
  | _ => s!"\r  {label} {done} bytes"

/-- What has to be printed before anything else can be. -/
def lineBreak (c : Console) : String :=
  if c.shown.isSome then "\n" else ""

/-- Leaves the line with the bar. -/
def endProgress (c : Console) : Printed × Console :=
  (.toOut c.lineBreak, { c with shown := none })

/-- Progress that goes back starts a new bar. -/
def progress (c : Console) (done : Nat) (total : Option Nat) : Printed × Console :=
  let start := if c.shown.any (done < ·) then "\n" else ""
  (.toOut (start ++ progressText c.label done total), { c with shown := some done })

/-- Prints a line for the user, or only writes it to the log. -/
def log (c : Console) (level : Level) (text : String) : Printed × Console :=
  match level with
  | .error | .warn => (⟨c.lineBreak, s!"{level.name}: {text}\n", none⟩, { c with shown := none })
  | .info => (.toOut s!"{c.lineBreak}{text}\n", { c with shown := none })
  | .debug | .trace => (⟨"", "", some ⟨level, text⟩⟩, c)

/-- Prints a report. -/
def report (c : Console) : Report → Printed × Console
  | .log level text => c.log level text
  | .progress done total => c.progress done total
  | .disconnected => c.endProgress

end Console
end UsbDfu.Tool
