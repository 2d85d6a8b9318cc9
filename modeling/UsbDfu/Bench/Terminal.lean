import UsbDfu.Bench.Bus
import UsbDfu.Tool.Work

/-!
# A terminal

The bench for a job: a bus, a folder of files, and all that was printed. Time goes by in pauses only.
-/

namespace UsbDfu
namespace Bench

/-- What a job works on, and what it printed. -/
structure Terminal where
  bus : Bus
  folder : Tool.Folder
  out : String
  err : String
  /-- Milliseconds since the timer was started. -/
  elapsed : Nat

namespace Terminal

/-- A terminal on which nothing was printed yet. -/
def new (bus : Bus) (folder : Tool.Folder) : Terminal := ⟨bus, folder, "", "", 0⟩

/-- What a timer shows. -/
def timerText : String := "<elapsed>"

/-- Answers a question of a job. -/
def serve : (q : Tool.Query) → Terminal → q.Answer × Terminal
  | .host (.on _ (.logTakes level)), t => (Tool.isLogged level, t)
  | .host q, t =>
    let (answer, bus) := Bus.serve q t.bus
    (answer, { t with bus := bus })
  | .out text, t => ((), { t with out := t.out ++ text })
  | .err text, t => ((), { t with err := t.err ++ text })
  | .readFile path, t => (t.folder.read path, t)
  | .writeFile path data, t =>
    match t.folder.write path data with
    | .ok folder => (.ok (), { t with folder := folder })
    | .error e => (.error e, t)
  | .startTimer, t => ((), { t with elapsed := 0 })
  | .readTimer, t => (timerText, t)
  | .timeIsUp millis, t => (decide (millis ≤ t.elapsed), t)
  | .pause, t => ((), { t with elapsed := t.elapsed + Tool.pauseTime })

/-- Does a job; none if it gave up. -/
def run (t : Terminal) (job : Tool.Job) : Outcome Empty UInt32 × Terminal :=
  (job.run t.bus.patience).run serve t

end Terminal
end Bench
end UsbDfu
