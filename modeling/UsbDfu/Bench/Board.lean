import UsbDfu.Bench.News
import UsbDfu.Bench.Script
import UsbDfu.Bench.Simulator

/-!
# Boards

A board is a device on the bench, scripted or simulated. It may take a limited number of control
transfers only; after them every transfer is cancelled without reaching it. `Board.serve` answers
one call, and says whether the call reached the device.
-/

namespace UsbDfu
namespace Bench

/-- What stands behind a device on the bench: answers laid down beforehand, or a boot loader that
keeps state. -/
inductive Model where
  | script (s : Script)
  | simulator (s : Simulator)
  deriving Repr

/-- A device on the bench. -/
structure Board where
  model : Model
  /-- How many control transfers it still takes; without a budget it takes any number. -/
  budget : Option Nat
  deriving Repr

/-- What became of a call on a board. -/
structure Served (α : Type) where
  reply : α
  /-- The call reached the device. -/
  reached : Bool
  board : Board
  news : News

namespace Board

/-- How many control transfers a board takes unless it is told otherwise. -/
def usualBudget : Nat := 120

/-- The device's own identity, by which its departure is told. -/
def id (b : Board) : DeviceId :=
  match b.model with
  | .script s => s.id
  | .simulator s => s.id

/-- A bound on the rounds of any wait or read on a board with a budget: past it every transfer
fails, which ends them. -/
def patience (b : Board) : Nat :=
  b.budget.getD 0 + 1

/-- Changes the state of a simulated device. -/
def adjust (b : Board) (f : Simulator → Simulator) : Board :=
  match b.model with
  | .script _ => b
  | .simulator s => { b with model := .simulator (f s) }

/-- The news that a response brings, and the response itself. -/
def spread : Response → News → Response × News
  | .emit id next, n => spread next (n.deliver id)
  | .endNews next, n => spread next n.endAll
  | r, n => (r, n)

/-- Takes the next scripted answer to a kind of call. -/
def follow {α : Type} (b : Board) (s : Script) (cue : Cue) (read : Response → α) (n : News) :
    Served α :=
  let (r, s) := s.next cue
  let (r, n) := spread r n
  { reply := read r
    reached := true
    board := { b with model := .script s }
    news := n }

/-- Lets the simulated device do a step; the news spreads if it left the bus. -/
def advance {α : Type} (b : Board) (s : Simulator) (step : Simulator → α × Simulator) (n : News) :
    Served α :=
  let (reply, s') := step s
  { reply := reply
    reached := true
    board := { b with model := .simulator s' }
    news := if s.connected && !s'.connected then n.deliver s.id else n }

/-- Answers from the script or by the simulator. -/
def answer {α : Type} (b : Board) (cue : Cue) (read : Response → α)
    (step : Simulator → α × Simulator) (n : News) : Served α :=
  match b.model with
  | .script s => b.follow s cue read n
  | .simulator s => b.advance s step n

/-- Answers a control transfer as long as the budget lasts. -/
def answerTransfer {α : Type} (b : Board) (cue : Cue) (read : Response → Except TransportError α)
    (step : Simulator → Except TransportError α × Simulator) (n : News) :
    Served (Except TransportError α) :=
  match b.budget with
  | none => b.answer cue read step n
  | some 0 => { reply := .error (.transfer .cancelled), reached := false, board := b, news := n }
  | some (budget + 1) => { b with budget := some budget }.answer cue read step n

/-- Subscribes the caller if the device lets it. -/
def watch (b : Board) (n : News) : Served (Except TransportError Subscription) :=
  let served := b.answer .watch Response.plain (fun s => (.ok (), s)) n
  match served.reply with
  | .error e => { served with reply := .error e }
  | .ok () =>
    let (subscription, n) := served.news.subscribe
    { served with reply := .ok subscription, news := n }

/-- The device is given up. -/
def close (b : Board) : Board :=
  b.adjust Simulator.close

/-- Answers one call. -/
def serve (b : Board) (n : News) : (c : Call) → Served c.Reply
  | .openDevice => b.answer .openDevice Response.plain Simulator.openDevice n
  | .selectConfiguration _ =>
    b.answer .selectConfiguration Response.plain Simulator.selectConfiguration n
  | .claimInterface number =>
    b.answer .claimInterface Response.plain (·.claimInterface number) n
  | .selectAlternate number _ =>
    b.answer .selectAlternate Response.plain (·.selectAlternate number) n
  | .controlOut r data =>
    b.answerTransfer (.ofOut r) (Response.out data.length) (·.controlOut r data) n
  | .controlIn r length =>
    b.answerTransfer (.ofIn r) (Response.input r.type length.toNat) (·.controlIn r length) n
  | .reset => b.answer .reset Response.plain Simulator.reset n
  | .close => { reply := (), reached := true, board := b.close, news := n }
  | .watch => b.watch n

end Board

/-! ## What can be seen -/

/-- Something that happened on the bench, `device` being left out where there is only one. -/
inductive Event where
  | call (device : Option DeviceId) (c : Call) (reply : c.Reply)
  /-- A control transfer beyond the budget. -/
  | limit (device : Option DeviceId)
  | report (r : Report)
  | log (line : LogLine)
  /-- The devices of the bus were listed, or that failed. -/
  | list (ids : Option (List DeviceId))
  /-- A subscription to the bus was asked for. -/
  | watch (fault : Option Fault)
  | released (number : UInt8) (device : DeviceId)
  | closed (device : DeviceId)

/-- One board, its news, and all that happened to it. -/
structure SingleBoard where
  board : Board
  news : News
  events : List Event

namespace SingleBoard

/-- The board, with no news and nothing recorded. -/
def ofBoard (b : Board) : SingleBoard := ⟨b, .empty, []⟩

/-- Adds an event at the end of the record. -/
def record (w : SingleBoard) (e : Event) : SingleBoard :=
  { w with events := w.events ++ [e] }

/-- Forgets what happened. -/
def forget (w : SingleBoard) : SingleBoard :=
  { w with events := [] }

/-- Serves a call and records it; a call that met the budget is recorded as that. -/
def call (w : SingleBoard) (c : Call) : c.Reply × SingleBoard :=
  let served := w.board.serve w.news c
  let event := if served.reached then Event.call none c served.reply else .limit none
  (served.reply, { board := served.board, news := served.news, events := w.events ++ [event] })

/-- Answers a question of an exchange. -/
def serve : (q : Query) → SingleBoard → q.Answer × SingleBoard
  | .call c, w => w.call c
  | .report r, w => ((), w.record (.report r))
  | .log line, w => ((), w.record (.log line))
  | .logTakes _, w => (true, w)
  | .news s, w =>
    let (ids, n) := w.news.takeAll s
    (ids, { w with news := n })
  | .departure s id _, w =>
    let (left, n) := w.news.takeUntil s id
    (left, { w with news := n })

/-- The news that the device left, or that another one did. -/
def emit (w : SingleBoard) (id : DeviceId) : SingleBoard :=
  { w with news := w.news.deliver id }

/-- Lets the board answer a dialogue. -/
def run {ε α : Type} (d : Dialogue Query.Answer ε α) (w : SingleBoard) :
    Outcome ε α × SingleBoard :=
  d.run serve w

end SingleBoard
end Bench
end UsbDfu
