import UsbDfu.Bench.Terminal
import UsbDfu.Proofs.Machines
import UsbDfu.Proofs.Transaction

/-!
# The lines of a console

A console prints on two streams that share one terminal. A bar is drawn over itself and has no end of its
own, so everything else must first leave the line that it stands on. The console knows of that line only by
the progress that it drew last.

- `AtLineStart`: what comes next begins a line.
- `Writes`: what a turn adds to the two streams. The error stream is written to only where the standard
  output is at the start of a line.
- `Shows label before r printed`: what is to be printed for a report, one case for each kind of report;
  `Tells` is about one report after another.
- `Console.Rests`: what ties a console to the line on the terminal. `Console.Rests.shows_report` is about
  one report and `Console.drives_hear` about those of a whole session.
- `console_keeps_lines`: what a console prints from its beginning to its end.
-/

namespace UsbDfu

/-- The bar for the report can be computed in words of the machine. -/
def Report.FitsWords : Report → Prop
  | .progress done (some total) => total < USize.size ∧ 100 * min done total < USize.size
  | _ => True

namespace Tool

open Dialogue (Turn Trace Drives transcript trace_transcript)

/-! ## Streams -/

/-- The text is empty or ends with a line break. -/
def AtLineStart (text : String) : Prop :=
  text = "" ∨ ∃ lines, text = lines ++ "\n"

theorem atLineStart_append_break (text : String) : AtLineStart (text ++ "\n") :=
  .inr ⟨text, rfl⟩

/-- What was written to the standard output and to the error stream. -/
structure Streams where
  out : String
  err : String

namespace Streams

/-- Nothing was written. -/
def empty : Streams := ⟨"", ""⟩

/-- Something was printed. -/
def after (s : Streams) (printed : Printed) : Streams :=
  ⟨s.out ++ printed.out, s.err ++ printed.err⟩

end Streams

/-- What the turn adds to the streams. A console has turns of no other kind. -/
inductive Writes : Turn Query.Answer → Streams → Streams → Prop where
  | out (text : String) (answer : (Query.out text).Answer) (s : Streams) :
      Writes ⟨.out text, answer⟩ s ⟨s.out ++ text, s.err⟩
  | err (text : String) (answer : (Query.err text).Answer) {s : Streams} (h : AtLineStart s.out) :
      Writes ⟨.err text, answer⟩ s ⟨s.out, s.err ++ text⟩
  | log (line : LogLine) (answer : (Query.host (.log line)).Answer) (s : Streams) :
      Writes ⟨.host (.log line), answer⟩ s s

section Printing

variable {ε : Type} {s : Streams} {R : Outcome ε Unit → Streams → Prop} {text : String}
  {f : Unit → Dialogue Query.Answer ε Unit}

theorem drives_out_bind (hf : (f ()).Drives Writes R ⟨s.out ++ text, s.err⟩) :
    (if text.isEmpty then f () else out text >>= f).Drives Writes R s := by
  split
  · rename_i hempty
    rwa [String.isEmpty_iff.1 hempty, String.append_empty] at hf
  · exact fun answer => ⟨_, .out text answer s, hf⟩

theorem drives_err_bind (h : text ≠ "" → AtLineStart s.out)
    (hf : (f ()).Drives Writes R ⟨s.out, s.err ++ text⟩) :
    (if text.isEmpty then f () else err text >>= f).Drives Writes R s := by
  split
  · rename_i hempty
    rwa [String.isEmpty_iff.1 hempty, String.append_empty] at hf
  · rename_i hne
    exact fun answer => ⟨_, .err text answer (h fun ht => hne (String.isEmpty_iff.2 ht)), hf⟩

/-- The standard output comes first, and whatever goes to the error stream must find it at the start of a
line. -/
theorem drives_print {printed : Printed}
    (h : printed.err ≠ "" → AtLineStart (s.out ++ printed.out)) :
    (print printed : Dialogue Query.Answer ε Unit).Drives Writes
      (fun o s' => ∃ u, o = .done u ∧ s' = s.after printed) s := by
  refine drives_out_bind (drives_err_bind h ?_)
  cases printed.log with
  | none => exact ⟨(), rfl, rfl⟩
  | some line => exact fun answer => ⟨_, .log line answer _, (), rfl, rfl⟩

end Printing

/-! ## What is printed for a report -/

/-- Nothing, or the end of a line. -/
def IsBreak (lead : String) : Prop :=
  lead = "" ∨ lead = "\n"

theorem isBreak_ite (p : Prop) [Decidable p] : IsBreak (if p then "\n" else "") := by
  split
  · exact .inr rfl
  · exact .inl rfl

/-- So much of `whole` as `done` is of `total`, computed in words of the machine. -/
def wordShare (whole done total : Nat) : Nat :=
  (USize.ofNat whole * USize.ofNat done / USize.ofNat total).toNat

/-- A bar of cells, the filled ones first, after a percentage. -/
def barText (label : String) (percent filled empty : Nat) : String :=
  let cells := String.ofList (List.replicate filled '#' ++ List.replicate empty ' ')
  s!"\r  {label} {Text.decimalRight 3 percent}% [{cells}]"

/-- What is printed for a report, after what stands on the standard output. -/
inductive Shows (label before : String) : Report → Printed → Prop where
  | info {text lead : String} (hlead : IsBreak lead) (hstart : AtLineStart (before ++ lead)) :
      Shows label before (.log .info text) ⟨lead ++ text ++ "\n", "", none⟩
  | warning {level : Level} {text lead : String} (hlevel : level = .warn ∨ level = .error)
      (hlead : IsBreak lead) (hstart : AtLineStart (before ++ lead)) :
      Shows label before (.log level text) ⟨lead, s!"{level.name}: {text}\n", none⟩
  | quiet {level : Level} {text : String} (hlevel : level = .debug ∨ level = .trace) :
      Shows label before (.log level text) ⟨"", "", some ⟨level, text⟩⟩
  | bar {done total percent filled empty : Nat} {lead : String} (htotal : 0 < total)
      (hpercent : percent = wordShare 100 (min done total) total) (hle : percent ≤ 100)
      (hfilled : filled = wordShare 60 (min done total) total) (hcells : filled + empty = 60)
      (hlead : IsBreak lead) :
      Shows label before (.progress done (some total))
        ⟨lead ++ barText label percent filled empty, "", none⟩
  | count {done : Nat} {total : Option Nat} {lead : String} (htotal : total = none ∨ total = some 0)
      (hlead : IsBreak lead) :
      Shows label before (.progress done total) ⟨lead ++ s!"\r  {label} {done} bytes", "", none⟩
  | disconnected {lead : String} (hlead : IsBreak lead) (hstart : AtLineStart (before ++ lead)) :
      Shows label before .disconnected ⟨lead, "", none⟩

/-- The reports are shown one after another. -/
inductive Tells (label : String) : Streams → List Report → Streams → Prop where
  | nil (s : Streams) : Tells label s [] s
  | cons {s s' : Streams} {r : Report} {rs : List Report} {printed : Printed}
      (h : Shows label s.out r printed) (rest : Tells label (s.after printed) rs s') :
      Tells label s (r :: rs) s'

/-- Where the product is a word, the words make no difference. -/
theorem wordShare_eq {whole done total : Nat} (hwhole : whole < 0x100000000) (hdone : done < USize.size)
    (htotal : total < USize.size) (hproduct : whole * done < USize.size) :
    wordShare whole done total = whole * done / total := by
  have hsize := USize.le_size
  have hword : ∀ {n : Nat}, n < USize.size → (USize.ofNat n).toNat = n := USize.toNat_ofNat_of_lt
  rw [wordShare, USize.toNat_div, USize.toNat_mul, hword htotal, hword hdone, hword (by omega),
    Nat.mod_eq_of_lt hproduct]

theorem progressText_eq_barText (label : String) {done total : Nat} (htotal : 0 < total)
    (hsmall : total < USize.size) (hproduct : 100 * min done total < USize.size) :
    ∃ percent filled empty, Console.progressText label done (some total) =
        barText label percent filled empty ∧
      percent = wordShare 100 (min done total) total ∧ percent ≤ 100 ∧
      filled = wordShare 60 (min done total) total ∧ filled + empty = 60 := by
  have hdone : min done total ≤ total := Nat.min_le_right done total
  have hpercent : wordShare 100 (min done total) total = 100 * min done total / total :=
    wordShare_eq (by decide) (by omega) hsmall hproduct
  -- The product for the cells is a word because the larger one for the percentage is.
  have hfilled : wordShare 60 (min done total) total = 60 * min done total / total :=
    wordShare_eq (by decide) (by omega) hsmall (by omega)
  have hshare : ∀ whole, whole * min done total / total ≤ whole := fun whole =>
    Nat.div_le_of_le_mul (by rw [Nat.mul_comm total]; exact Nat.mul_le_mul_left whole hdone)
  refine ⟨100 * min done total / total, 60 * min done total / total, 60 - 60 * min done total / total,
    ?_, hpercent.symm, hshare 100, hfilled.symm, Nat.add_sub_of_le (hshare 60)⟩
  cases total with
  | zero => cases htotal
  | succ total => rfl

/-! ## The line that the console is on -/

namespace Console

variable {label : String} {c : Console} {s : Streams} {r : Report}

/-- The console has its label, and a line on which it has drawn nothing is a new one. -/
structure Rests (label : String) (c : Console) (s : Streams) : Prop where
  label_eq : c.label = label
  fresh : c.shown = none → AtLineStart s.out

theorem rests_new (label : String) : Rests label (.new label) .empty :=
  ⟨rfl, fun _ => .inl rfl⟩

theorem isBreak_lineBreak (c : Console) : IsBreak c.lineBreak :=
  isBreak_ite _

/-- Whatever the line is, its break leads to a new one. -/
theorem Rests.atLineStart (h : Rests label c s) : AtLineStart (s.out ++ c.lineBreak) := by
  rw [lineBreak]
  cases hshown : c.shown with
  | none => simpa using h.fresh hshown
  | some done => exact atLineStart_append_break s.out

/-- A console that has come to a new line may forget what it drew. -/
theorem Rests.leave (h : Rests label c s) {printed : Printed}
    (hout : AtLineStart (s.out ++ printed.out)) :
    Rests label { c with shown := none } (s.after printed) :=
  ⟨h.label_eq, fun _ => hout⟩

theorem Rests.shows_log (h : Rests label c s) (level : Level) (text : String) :
    Shows label s.out (.log level text) (c.log level text).1 ∧
      Rests label (c.log level text).2 (s.after (c.log level text).1) := by
  have hlead := c.isBreak_lineBreak
  have hstart := h.atLineStart
  have hsilent : Rests label c (s.after ⟨"", "", some ⟨level, text⟩⟩) := by
    simpa [Streams.after] using h
  cases level with
  | error => exact ⟨.warning (.inr rfl) hlead hstart, h.leave hstart⟩
  | warn => exact ⟨.warning (.inl rfl) hlead hstart, h.leave hstart⟩
  | info =>
    refine ⟨.info hlead hstart, h.leave ?_⟩
    have hline := atLineStart_append_break (s.out ++ (c.lineBreak ++ text))
    rwa [String.append_assoc] at hline
  | debug => exact ⟨.quiet (.inl rfl), hsilent⟩
  | trace => exact ⟨.quiet (.inr rfl), hsilent⟩

theorem Rests.shows_progress (h : Rests label c s) {done : Nat} {total : Option Nat}
    (hwords : (Report.progress done total).FitsWords) :
    Shows label s.out (.progress done total) (c.progress done total).1 := by
  have hlead : IsBreak (if c.shown.any (done < ·) then "\n" else "") := isBreak_ite _
  rw [progress, h.label_eq]
  match total with
  | none => exact .count (.inl rfl) hlead
  | some 0 => exact .count (.inr rfl) hlead
  | some (total + 1) =>
    obtain ⟨percent, filled, empty, htext, hpercent, hle, hfilled, hcells⟩ :=
      progressText_eq_barText label (Nat.succ_pos total) hwords.1 hwords.2
    rw [htext]
    exact .bar (Nat.succ_pos total) hpercent hle hfilled hcells hlead

/-- Every report is shown as it should be, and the console knows the line that it has come to. -/
theorem Rests.shows_report (h : Rests label c s) (hwords : r.FitsWords) :
    Shows label s.out r (c.report r).1 ∧ Rests label (c.report r).2 (s.after (c.report r).1) := by
  cases r with
  | log level text => exact h.shows_log level text
  | progress done total => exact ⟨h.shows_progress hwords, h.label_eq, nofun⟩
  | disconnected => exact ⟨.disconnected c.isBreak_lineBreak h.atLineStart, h.leave h.atLineStart⟩

end Console

/-- Only warnings and errors go to the error stream, each from the start of a line. -/
theorem Shows.atLineStart_of_err {label before : String} {r : Report} {printed : Printed}
    (h : Shows label before r printed) (herr : printed.err ≠ "") :
    AtLineStart (before ++ printed.out) := by
  cases h with
  | warning _ _ hstart => exact hstart
  | info | quiet | bar | count | disconnected => exact absurd rfl herr

/-! ## From the beginning to the end -/

namespace Console

variable {ε : Type} {label : String} {c : Console} {s : Streams} {r : Report}

/-- A session makes these reports on its channel, and the console prints them. -/
def hear (p : Host.ChannelId) (c : Console) (reports : List Report) :
    Dialogue Query.Answer ε (Except Empty Unit × Console) :=
  (Host.onChannel p (reports.forM Exchange.report : Talk Unit)).relay listen c

/-- A console from its beginning to its end. -/
def life (label : String) (p : Host.ChannelId) (reports : List Report) :
    Dialogue Query.Answer ε Unit := do
  let (_, c) ← hear p (.new label) reports
  print c.endProgress.1

theorem hear_cons (p : Host.ChannelId) (c : Console) (r : Report) (rs : List Report) :
    (hear p c (r :: rs) : Dialogue Query.Answer ε _) =
      listen (.on p (.report r)) c >>= fun (_, c) => hear p c rs := rfl

theorem drives_listen (h : Rests label c s) (hwords : r.FitsWords) (p : Host.ChannelId) :
    (listen (.on p (.report r)) c : Dialogue Query.Answer ε _).Drives Writes
      (fun o s' => ∃ a, o = .done a ∧ ∃ printed, s' = s.after printed ∧
        Shows label s.out r printed ∧ Rests label a.2 s') s := by
  obtain ⟨hshows, hrests⟩ := h.shows_report hwords
  refine (drives_print hshows.atLineStart_of_err).bind_done ?_
  rintro _ _ rfl
  exact ⟨_, rfl, _, rfl, hshows, hrests⟩

theorem drives_hear (p : Host.ChannelId) {rs : List Report} (h : Rests label c s)
    (hwords : ∀ r ∈ rs, r.FitsWords) :
    (hear p c rs : Dialogue Query.Answer ε _).Drives Writes
      (fun o s' => ∃ a, o = .done a ∧ Tells label s rs s' ∧ Rests label a.2 s') s := by
  -- Each report finds the console at rest, wherever the reports before it have left the line.
  induction rs generalizing c s with
  | nil => exact ⟨_, rfl, .nil s, h⟩
  | cons r rs ih =>
    obtain ⟨hr, hrs⟩ := List.forall_mem_cons.1 hwords
    rw [hear_cons]
    refine (drives_listen h hr p).bind_done ?_
    rintro ⟨_, c'⟩ _ ⟨printed, rfl, hshows, hrests⟩
    refine (ih hrests hrs).mono ?_
    rintro o s' ⟨a, ho, htells, hrests'⟩
    exact ⟨a, ho, .cons hshows htells, hrests'⟩

theorem drives_life (label : String) (p : Host.ChannelId) {reports : List Report}
    (hwords : ∀ r ∈ reports, r.FitsWords) :
    (life label p reports : Dialogue Query.Answer ε Unit).Drives Writes
      (fun o s' => o = .done () ∧ ∃ told lead, Tells label .empty reports told ∧ IsBreak lead ∧
        s' = ⟨told.out ++ lead, told.err⟩ ∧ AtLineStart s'.out) .empty := by
  refine (drives_hear p (rests_new label) hwords).bind_done ?_
  rintro ⟨_, c⟩ told ⟨htells, hrests⟩
  refine (drives_print fun herr => absurd rfl herr).mono ?_
  rintro _ s' ⟨_, rfl, rfl⟩
  refine ⟨rfl, told, c.lineBreak, htells, c.isBreak_lineBreak, ?_, hrests.atLineStart⟩
  simp [Streams.after, endProgress, Printed.toOut]

end Console

/-- Whatever a console is told, as long as its bars can be computed in words of the machine. What stands on
the standard output is what was to be shown for each report in order: a line of its own for an info, a bar
of sixty cells for progress of a known total. When it is given up, the output is empty or ends with a line
break; and so it is whenever a warning or an error goes to the error stream. -/
theorem console_keeps_lines {ε : Type} (label : String) (p : Host.ChannelId) (reports : List Report)
    (hwords : ∀ r ∈ reports, r.FitsWords) {ts : List (Turn Query.Answer)} {o : Outcome ε Unit}
    (h : Trace (Console.life label p reports) ts o) :
    o = .done () ∧ ∃ told lead, Tells label .empty reports told ∧ IsBreak lead ∧
      Moves Writes .empty ts ⟨told.out ++ lead, told.err⟩ ∧ AtLineStart (told.out ++ lead) := by
  obtain ⟨s', hmoves, rfl, told, lead, htells, hlead, rfl, hstart⟩ :=
    (Console.drives_life label p hwords).moves h
  exact ⟨rfl, told, lead, htells, hlead, hmoves, hstart⟩

/-- Two phases, the second one without a total at first and then beyond it, with a word to the user after
each. -/
def twoPhases : List Report :=
  [.progress 0 (some 3), .log .debug "Poll", .progress 2 (some 3), .log .info "Erased",
    .progress 5 none, .progress 4 (some 0), .progress 7 (some 5), .log .warn "Slow", .disconnected]

theorem console_keeps_lines_twoPhases :
    let life : Dialogue Query.Answer Empty Unit := Console.life "Flashing" 0 twoPhases
    let terminal := Bench.Terminal.new (.new [] [] none) ⟨[]⟩
    (∀ r ∈ twoPhases, r.FitsWords) ∧
    (life.run Bench.Terminal.serve terminal).2.out =
      barText "Flashing" 0 0 60 ++ barText "Flashing" 66 40 20 ++ "\nErased\n" ++
      "\r  Flashing 5 bytes" ++ "\n\r  Flashing 4 bytes" ++ barText "Flashing" 100 60 0 ++ "\n" ∧
    (life.run Bench.Terminal.serve terminal).2.err = "WARN: Slow\n" ∧
    ∃ told lead, Tells "Flashing" .empty twoPhases told ∧ IsBreak lead ∧
      Moves Writes .empty (life.transcript Bench.Terminal.serve terminal).1
        ⟨told.out ++ lead, told.err⟩ ∧ AtLineStart (told.out ++ lead) := by
  intro life terminal
  have hwords : ∀ r ∈ twoPhases, r.FitsWords := by
    have hsize := USize.le_size
    simp [twoPhases, Report.FitsWords]
    omega
  exact ⟨hwords, by decide +kernel, by decide +kernel,
    (console_keeps_lines "Flashing" 0 twoPhases hwords (trace_transcript _ life terminal)).2⟩

end Tool
end UsbDfu
