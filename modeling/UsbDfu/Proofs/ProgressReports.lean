import Mathlib.Algebra.Ring.Nat
import UsbDfu.Proofs.Machines
import UsbDfu.Proofs.SectorBounds
import UsbDfu.Proofs.Transaction

/-!
# Reports of progress

Each loop of a transfer counts for itself and tells the user how far it is. A console knows a new phase by
a report that is behind the one before it, so within a phase they must not go back, whatever the device
does and whenever the phase fails.

- `progressOf ts`: the reports of a conversation. `Steady total` is what those of a phase keep to.
- `Counts total t n n'`: a turn that leaves a steady count in order, `n` done before it and `n'` after it.
  Every other turn leaves the count where it is (`Uncounted.bind_reports`).
- `Reports total final n d`: from `n` on the dialogue counts steadily and ends, if it has a value, at the
  count that belongs to it; one lemma for each loop.
- `Announces total final d`: a whole phase, from nothing done (`Connection.announces_writeBlocks`,
  `Connection.announces_readBlocks`, `Connection.announces_programFrom`); `DfuseTransfer.countsErase` is
  about an erase, which has nothing to report without a plan.
- `Tiles.add_sum`: what a tiling counts is the span from its first sector to its last one.
- `progress_steady`: all of them together.
-/

namespace UsbDfu

open Dialogue (Turn Trace Drives Within trace_done_iff trace_fail_iff trace_ask_iff
  trace_bind_iff bind_done transcript trace_transcript)
open Exchange (say progress)

/-! ## Reports of a conversation -/

/-- So much is done, of a total if it is known. -/
structure Progress where
  done : Nat
  total : Option Nat
  deriving DecidableEq, Repr

/-- The report that the turn is, if it is one of progress. -/
def Progress.ofTurn? : Turn Query.Answer → Option Progress
  | ⟨.report (.progress done total), _⟩ => some ⟨done, total⟩
  | _ => none

/-- The reports of progress among the questions, in order. -/
def progressOf (ts : List (Turn Query.Answer)) : List Progress :=
  ts.filterMap Progress.ofTurn?

theorem progressOf_report (done : Nat) (total : Option Nat)
    (answer : (Query.report (.progress done total)).Answer) (ts : List (Turn Query.Answer)) :
    progressOf (⟨.report (.progress done total), answer⟩ :: ts) = ⟨done, total⟩ :: progressOf ts :=
  List.filterMap_cons_some rfl

/-- The reports begin with nothing done, keep to one total, and neither go back nor beyond it. -/
structure Steady (total : Option Nat) (reports : List Progress) : Prop where
  begins : reports.head? = some ⟨0, total⟩
  total_eq : ∀ r ∈ reports, r.total = total
  climbs : reports.Pairwise fun r r' => r.done ≤ r'.done
  bounded : ∀ r ∈ reports, ∀ n, total = some n → r.done ≤ n

/-! ## Counting -/

section Counting

variable {ε ε' α β : Type} {total : Option Nat} {n n' : Nat}

/-- The turn is no report of progress, or one that goes on from the count before it. -/
inductive Counts (total : Option Nat) : Turn Query.Answer → Nat → Nat → Prop where
  | report {n done : Nat} (answer : (Query.report (.progress done total)).Answer) (climbs : n ≤ done)
      (bounded : ∀ m, total = some m → done ≤ m) :
      Counts total ⟨.report (.progress done total), answer⟩ n done
  | other {t : Turn Query.Answer} (h : Progress.ofTurn? t = none) (n : Nat) : Counts total t n n

/-- The reports of turns that count go on from the count before them to the last one. -/
theorem progressOf_of_moves {ts : List (Turn Query.Answer)} (h : Moves (Counts total) n ts n') :
    (∀ r ∈ progressOf ts, r.total = total ∧ n ≤ r.done ∧ ∀ m, total = some m → r.done ≤ m) ∧
      (progressOf ts).Pairwise (fun r r' => r.done ≤ r'.done) ∧
      (⟨n, total⟩ :: progressOf ts).getLast? = some ⟨n', total⟩ := by
  induction h with
  | nil n => exact ⟨List.forall_mem_nil _, .nil, rfl⟩
  | cons hstep _ ih =>
    obtain ⟨hall, hpairwise, hlast⟩ := ih
    cases hstep with
    | other hnone =>
      rw [progressOf, List.filterMap_cons_none hnone]
      exact ⟨hall, hpairwise, hlast⟩
    | report answer hclimbs hbounded =>
      rw [progressOf_report]
      refine ⟨List.forall_mem_cons.2 ⟨⟨rfl, hclimbs, hbounded⟩, fun r hr => ?_⟩,
        List.pairwise_cons.2 ⟨fun r hr => (hall r hr).2.1, hpairwise⟩, ?_⟩
      · obtain ⟨htotal, hle, hbound⟩ := hall r hr
        exact ⟨htotal, Nat.le_trans hclimbs hle, hbound⟩
      · rw [List.getLast?_cons_cons, hlast]

/-- From so much on the dialogue counts steadily, and a value that it ends with belongs to the count. -/
def Reports (total : Option Nat) (final : α → Nat) (n : Nat) (d : Dialogue Query.Answer ε α) : Prop :=
  d.Drives (Counts total) (fun o n' => ∀ a, o = .done a → n' = final a) n

theorem Query.IsUncounted.ofTurn?_eq {q : Query} (h : q.IsUncounted) (answer : q.Answer) :
    Progress.ofTurn? ⟨q, answer⟩ = none := by
  cases q with
  | report r =>
    cases r with
    | progress => cases h
    | log | disconnected => rfl
  | call | log | logTakes | news | departure => rfl

variable {final : α → Nat}

theorem reports_done {a : α} (h : n = final a) :
    Reports total final n (.done a : Dialogue Query.Answer ε α) := by
  rintro _ ⟨⟩
  exact h

theorem Reports.bind {final' : β → Nat} {d : Dialogue Query.Answer ε α}
    {f : α → Dialogue Query.Answer ε β} (hd : Reports total final n d)
    (hf : ∀ a, Reports total final' (final a) (f a)) : Reports total final' n (d >>= f) := by
  refine Drives.bind hd (fun a s hs => ?_) (fun _ _ _ => nofun) (fun _ _ => nofun)
  obtain rfl := hs a rfl
  exact hf a

theorem Uncounted.bind_reports {final' : β → Nat} {d : Dialogue Query.Answer ε α}
    {f : α → Dialogue Query.Answer ε β} (hd : Uncounted d) (hf : ∀ a, Reports total final' n (f a)) :
    Reports total final' n (d >>= f) := by
  have hstay : d.Drives (Counts total) (fun _ s => s = n) n :=
    Within.drives hd fun q hq answer => .other (hq.ofTurn?_eq answer) n
  refine hstay.bind (fun a s hs => ?_) (fun _ _ _ => nofun) (fun _ _ => nofun)
  obtain rfl := hs
  exact hf a

theorem Uncounted.reports {d : Dialogue Query.Answer ε α} (hd : Uncounted d) (h : ∀ a, n = final a) :
    Reports total final n d := by
  rw [← bind_done d]
  exact hd.bind_reports fun a => reports_done (h a)

theorem reports_progress_bind {final : β → Nat} {done : Nat} {f : Unit → Dialogue Query.Answer ε β}
    (hclimbs : n ≤ done) (hbounded : ∀ m, total = some m → done ≤ m)
    (hf : Reports total final done (f ())) : Reports total final n (progress done total >>= f) :=
  fun answer => ⟨done, .report answer hclimbs hbounded, hf⟩

/-! ## Whole phases -/

/-- The reports of each conversation are steady, and the last one before a value is the count that belongs
to it. -/
def Announces (total : Option Nat) (final : α → Nat) (d : Dialogue Query.Answer ε α) : Prop :=
  ∀ ts o, Trace d ts o → Steady total (progressOf ts) ∧
    ∀ a, o = .done a → (progressOf ts).getLast? = some ⟨final a, total⟩

theorem Announces.say_bind {level : Level} {text : String} {f : Unit → Dialogue Query.Answer ε α}
    (hf : Announces total final (f ())) : Announces total final (say level text >>= f) := by
  intro ts o h
  obtain ⟨_, rest, rfl, hrest⟩ := trace_ask_iff.1 h
  exact hf rest o hrest

/-- A phase begins with a report that nothing is done. -/
theorem Reports.announces {f : Unit → Dialogue Query.Answer ε α} (hf : Reports total final 0 (f ())) :
    Announces total final (progress 0 total >>= f) := by
  intro ts o h
  obtain ⟨_, rest, rfl, hrest⟩ := trace_ask_iff.1 h
  obtain ⟨n, hmoves, hfinal⟩ := Drives.moves hf hrest
  obtain ⟨hall, hpairwise, hlast⟩ := progressOf_of_moves hmoves
  rw [progressOf_report]
  refine ⟨⟨rfl, ?_, ?_, ?_⟩, ?_⟩
  · exact List.forall_mem_cons.2 ⟨rfl, fun r hr => (hall r hr).1⟩
  · exact List.pairwise_cons.2 ⟨fun r _ => Nat.zero_le _, hpairwise⟩
  · exact List.forall_mem_cons.2 ⟨fun m _ => Nat.zero_le m, fun r hr => (hall r hr).2.2⟩
  · intro a ha
    rw [hlast, hfinal a ha]

/-- Before a phase there is nothing to report. -/
theorem Uncounted.progressOf_eq {d : Dialogue Query.Answer ε α} (hd : Uncounted d)
    {ts : List (Turn Query.Answer)} {o : Outcome ε α} (h : Trace d ts o) : progressOf ts = [] := by
  rw [progressOf, List.filterMap_eq_nil_iff]
  intro t ht
  exact ((Within.of_trace hd h).1 t ht).ofTurn?_eq t.answer

end Counting

/-! ## Loops -/

/-- The bytes that the steps count. -/
def EraseStep.sum (steps : List EraseStep) : Nat :=
  (steps.map EraseStep.length).sum

theorem EraseStep.sum_cons (step : EraseStep) (steps : List EraseStep) :
    sum (step :: steps) = step.length + sum steps := by
  rw [sum, List.map_cons, List.sum_cons, sum]

namespace Connection

variable (c : Connection)

theorem reports_sendChunks (total : Nat) (block : UInt16) (sent : Nat) (chunks : List Bytes)
    (h : sent + chunks.flatten.length ≤ total) :
    Reports (some total) (fun _ => sent + chunks.flatten.length) sent
      (c.sendChunks total block sent chunks) := by
  induction chunks generalizing block sent with
  | nil => exact reports_done rfl
  | cons chunk rest ih =>
    rw [List.flatten_cons, List.length_append, ← Nat.add_assoc] at h ⊢
    refine (uncounted_sendChunk c block chunk).bind_reports fun _ =>
      reports_progress_bind (Nat.le_add_right _ _) ?_ (ih _ _ h)
    rintro _ ⟨⟩
    omega

theorem reports_sendChunksAt (total : Nat) (address : Nat) (sent : Nat) (chunks : List Bytes)
    (h : sent + chunks.flatten.length ≤ total) :
    Reports (some total) (fun _ => sent + chunks.flatten.length) sent
      (c.sendChunksAt total address sent chunks) := by
  induction chunks generalizing address sent with
  | nil => exact reports_done rfl
  | cons chunk rest ih =>
    rw [List.flatten_cons, List.length_append, ← Nat.add_assoc] at h ⊢
    refine (uncounted_sendChunkAt c address chunk).bind_reports fun _ =>
      reports_progress_bind (Nat.le_add_right _ _) ?_ (ih _ _ h)
    rintro _ ⟨⟩
    omega

/-- A step counts whether it erases or leaves out. -/
theorem reports_eraseSteps (total erased : Nat) (steps : List EraseStep)
    (h : erased + EraseStep.sum steps ≤ total) :
    Reports (some total) (fun _ => erased + EraseStep.sum steps) erased
      (c.eraseSteps total erased steps) := by
  induction steps generalizing erased with
  | nil => exact reports_done rfl
  | cons step rest ih =>
    rw [EraseStep.sum_cons, ← Nat.add_assoc] at h ⊢
    -- The steps together do not go beyond the total, so nothing is cut off.
    have hmin : min (erased + step.length) total = erased + step.length := by omega
    have hcount : Reports (some total) (fun _ => erased + step.length + EraseStep.sum rest) erased (do
          progress (min (erased + step.length) total) (some total)
          c.eraseSteps total (min (erased + step.length) total) rest : Exchange Unit) := by
      rw [hmin]
      refine reports_progress_bind (Nat.le_add_right _ _) ?_ (ih _ h)
      rintro _ ⟨⟩
      omega
    cases step with
    | erase address size =>
      exact (uncounted_say _ _).bind_reports fun _ => (uncounted_command c _).bind_reports fun _ => hcount
    | skip start stop => exact hcount

/-- What is kept of an answer does not go beyond the limit. -/
theorem length_kept_le {size : Nat} {limit : Option Nat} {data got : Bytes}
    (h : ∀ m, limit = some m → data.length ≤ m) (m : Nat) (hm : limit = some m) :
    (data ++ got.take (nextLength size data.length limit)).length ≤ m := by
  have := h m hm
  subst hm
  rw [List.length_append, List.length_take, nextLength]
  omega

theorem reports_uploadFrom (size : Nat) {limit : Option Nat} (rounds : Nat) (block : UInt16) (data : Bytes)
    (h : ∀ m, limit = some m → data.length ≤ m) :
    Reports limit List.length data.length (c.uploadFrom size limit rounds block data) := by
  induction rounds generalizing block data with
  | zero => exact nofun
  | succ rounds ih =>
    refine (uncounted_fetch c _ _ _).bind_reports fun got => (uncounted_say _ _).bind_reports fun _ =>
      reports_progress_bind ?_ (length_kept_le h) ?_
    · rw [List.length_append]
      exact Nat.le_add_right _ _
    · split
      · exact reports_done rfl
      · exact ih _ _ (length_kept_le h)

/-! ## Transfers -/

theorem announces_writeBlocks (size : UInt16) (image : Bytes) (tolerant : Bool) :
    Announces (some image.length) (fun _ => image.length) (c.writeBlocks size image tolerant) := by
  have hchunks : Reports (some image.length) (fun _ => image.length) 0
      (c.sendChunks image.length 0 0 (Bytes.chunks size.toNat image)) := by
    have h := c.reports_sendChunks image.length 0 0 (Bytes.chunks size.toNat image)
    rw [Bytes.flatten_chunks, Nat.zero_add] at h
    exact h (Nat.le_refl _)
  have hreset : Uncounted resetAfterDownload := uncounted_resetAfterDownload
  refine .say_bind (Reports.announces (hchunks.bind fun block =>
    (uncounted_say _ _).bind_reports fun _ => (uncounted_send c _ _ _).bind_reports fun _ =>
    (uncounted_say _ _).bind_reports fun _ => (uncounted_say _ _).bind_reports fun _ => ?_))
  cases tolerant with
  | true =>
    exact (uncounted_awaitManifested c).bind_reports fun _ => hreset.reports fun _ => rfl
  | false =>
    exact (uncounted_triggerManifestation c).bind_reports fun _ => hreset.reports fun _ => rfl

theorem announces_readBlocks (size : UInt16) (limit : Option Nat) (first : UInt16) :
    Announces limit List.length (c.readBlocks size limit first) := by
  refine .say_bind (Reports.announces ?_)
  split
  · exact reports_done rfl
  · refine (c.reports_uploadFrom _ _ first [] fun m _ => Nat.zero_le m).bind fun data => ?_
    have hend : Reports limit List.length data.length (do
        say .info s!"Read {data.length} bytes"
        pure data : Exchange Bytes) :=
      (uncounted_say _ _).bind_reports fun _ => reports_done rfl
    split
    · exact (uncounted_abortToIdle c).bind_reports fun _ => hend
    · exact hend

/-- What a download does once the memory is erased. -/
def programFrom (start : Nat) (image : Bytes) : Exchange Unit := do
  say .info "Copying data to DFU device"
  progress 0 (some image.length)
  c.sendChunksAt image.length start 0 (Bytes.chunks c.transferSize.toNat image)
  say .info s!"Wrote {image.length} bytes"
  say .info "Manifesting new firmware"
  c.manifestAt start

theorem announces_programFrom (start : Nat) (image : Bytes) :
    Announces (some image.length) (fun _ => image.length) (c.programFrom start image) := by
  have hchunks : Reports (some image.length) (fun _ => image.length) 0
      (c.sendChunksAt image.length start 0 (Bytes.chunks c.transferSize.toNat image)) := by
    have h := c.reports_sendChunksAt image.length start 0 (Bytes.chunks c.transferSize.toNat image)
    rw [Bytes.flatten_chunks, Nat.zero_add] at h
    exact h (Nat.le_refl _)
  exact .say_bind (Reports.announces (hchunks.bind fun _ =>
    (uncounted_say _ _).bind_reports fun _ => (uncounted_say _ _).bind_reports fun _ =>
    (uncounted_manifestAt c start).reports fun _ => rfl))

end Connection

/-! ## The span of a plan -/

theorem EraseStep.start_add_length {step : EraseStep} (h : step.start < step.stop) :
    step.start + step.length = step.stop := by
  cases step with
  | erase address size => rfl
  | skip start stop => exact Nat.add_sub_of_le (Nat.le_of_lt h)

/-- A tiling counts what lies between its ends. -/
theorem Tiles.add_sum {steps : List EraseStep} {a b : Nat} (h : Tiles steps a b) :
    a + EraseStep.sum steps = b := by
  induction steps generalizing a with
  | nil => exact h
  | cons step rest ih =>
    obtain ⟨rfl, hlt, hrest⟩ := h
    rw [EraseStep.sum_cons, ← Nat.add_assoc, EraseStep.start_add_length hlt]
    exact ih hrest

/-- Over disjoint segments a plan counts the whole sectors of its range. -/
theorem MemoryMap.Disjoint.sum_of_erasePlan {m : MemoryMap} {start length : Nat}
    {steps : List EraseStep} (hd : m.Disjoint) (h : m.erasePlan start length = .ok steps)
    (hne : steps ≠ []) : ∃ first stop, m.sectorStart start = .ok first ∧
      m.sectorEnd (start + length - 1) = .ok stop ∧ EraseStep.sum steps = stop - first := by
  have hlen : 0 < length := by
    refine Nat.pos_of_ne_zero ?_
    rintro rfl
    exact hne (Except.ok.inj h).symm
  obtain ⟨s, e, hs, he, htiles, -⟩ := hd.tiles_of_erasePlan hlen h
  exact ⟨_, _, MemoryMap.sectorStart_of_segmentAt? hs, MemoryMap.sectorEnd_of_segmentAt? he,
    (Nat.sub_eq_of_eq_add' htiles.add_sum.symm).symm⟩

theorem EraseStep.sum_pos {m : MemoryMap} {start length : Nat} {steps : List EraseStep}
    (h : m.erasePlan start length = .ok steps) (hne : steps ≠ []) : 0 < EraseStep.sum steps := by
  cases steps with
  | nil => exact absurd rfl hne
  | cons step rest =>
    have hlt := (MemoryMap.bounds_of_erasePlan h step List.mem_cons_self).1
    have hlength := EraseStep.start_add_length hlt
    rw [EraseStep.sum_cons]
    omega

/-! ## The DfuSe extension -/

namespace DfuseTransfer

variable {t : DfuseTransfer} {c : Connection} {start length : Nat}

/-- What is to be erased for a range, if there is a map that has it. -/
def plan (t : DfuseTransfer) (start length : Nat) : Except ConfigurationError (List EraseStep) := do
  (← t.memory).erasePlan start length

/-- Carries out a plan, and says first that nothing is done of it. -/
def carryOut (c : Connection) (steps : List EraseStep) : Exchange Unit :=
  if 0 < EraseStep.sum steps then do
    progress 0 (some (EraseStep.sum steps))
    c.eraseSteps (EraseStep.sum steps) 0 steps
  else c.eraseSteps (EraseStep.sum steps) 0 steps

theorem erase_eq (t : DfuseTransfer) (c : Connection) (start length : Nat) :
    t.erase c start length = Exchange.ofConfiguration (t.plan start length) >>= carryOut c := by
  have hsum : ∀ steps : List EraseStep, steps.foldr (·.length + ·) 0 = EraseStep.sum steps := by
    intro steps
    rw [EraseStep.sum, List.sum, List.foldr_map]
  unfold erase plan
  cases t.memory with
  | error e => rfl
  | ok m =>
    show (Exchange.ofConfiguration (m.erasePlan start length) >>= _) =
      (Exchange.ofConfiguration (m.erasePlan start length) >>= carryOut c)
    refine congrArg (Exchange.ofConfiguration (m.erasePlan start length) >>= ·) (funext fun steps => ?_)
    rw [carryOut, ← hsum]

/-- An erase without a plan fails in silence, and so ends one that has nothing to do. Otherwise the steps
are counted up to all of them. -/
structure CountsErase (t : DfuseTransfer) (start length : Nat) (ts : List (Turn Query.Answer))
    (o : Outcome Failure Unit) : Prop where
  refused : ∀ e, t.plan start length = .error e → progressOf ts = [] ∧ o = .failed (.configuration e)
  empty : t.plan start length = .ok [] → progressOf ts = [] ∧ o = .done ()
  steady : ∀ steps, t.plan start length = .ok steps → steps ≠ [] →
    Steady (some (EraseStep.sum steps)) (progressOf ts) ∧
      (o = .done () →
        (progressOf ts).getLast? = some ⟨EraseStep.sum steps, some (EraseStep.sum steps)⟩)

theorem announces_carryOut {steps : List EraseStep} (hpos : 0 < EraseStep.sum steps) :
    Announces (some (EraseStep.sum steps)) (fun _ => EraseStep.sum steps) (carryOut c steps) := by
  have hsteps : Reports (some (EraseStep.sum steps)) (fun _ => EraseStep.sum steps) 0
      (c.eraseSteps (EraseStep.sum steps) 0 steps) := by
    have h := c.reports_eraseSteps (EraseStep.sum steps) 0 steps
    rw [Nat.zero_add] at h
    exact h (Nat.le_refl _)
  rw [carryOut, if_pos hpos]
  exact hsteps.announces

theorem plan_eq_ok_iff {steps : List EraseStep} : t.plan start length = .ok steps ↔
    ∃ m, t.memory? = some m ∧ m.erasePlan start length = .ok steps := by
  rw [plan, memory]
  cases t.memory? with
  | none => exact iff_of_false nofun (by rintro ⟨_, ⟨⟩, -⟩)
  | some m =>
    constructor
    · exact fun h => ⟨m, rfl, h⟩
    · rintro ⟨_, ⟨⟩, h⟩
      exact h

theorem countsErase {ts : List (Turn Query.Answer)} {o : Outcome Failure Unit}
    (h : Trace (t.erase c start length) ts o) : t.CountsErase start length ts o := by
  rw [erase_eq] at h
  refine ⟨fun e he => ?_, fun hempty => ?_, fun steps hplan hne => ?_⟩
  · rw [he] at h
    obtain ⟨rfl, rfl⟩ := trace_fail_iff.1 h
    exact ⟨rfl, rfl⟩
  · rw [hempty] at h
    obtain ⟨rfl, rfl⟩ := trace_done_iff.1 h
    exact ⟨rfl, rfl⟩
  · obtain ⟨m, -, hm⟩ := plan_eq_ok_iff.1 hplan
    rw [hplan] at h
    obtain ⟨hsteady, hlast⟩ := announces_carryOut (EraseStep.sum_pos hm hne) ts o h
    exact ⟨hsteady, hlast ()⟩

/-- What comes before the first command of a download: where it starts. -/
def settleStart (t : DfuseTransfer) (image : Bytes) : Exchange Nat := do
  let _ ← Exchange.ofConfiguration t.memory
  say .info "Erasing DFU device memory"
  let start ← t.resolveStart true
  if addressSpace ≤ image.length then throw (.configuration (.addressOutOfRange start))
  else pure start

theorem uncounted_settleStart (image : Bytes) : Uncounted (t.settleStart image) := by
  refine (uncounted_ofExcept _).bind fun _ => (uncounted_say _ _).bind fun _ =>
    (uncounted_resolveStart t true).bind fun start => ?_
  split
  · exact uncounted_fail _
  · exact uncounted_done start

/-- A download has two phases that count. -/
theorem download_eq (image : Bytes) : t.download c image = t.settleStart image >>= fun start =>
    t.erase c start image.length >>= fun _ => c.programFrom start image := by
  unfold download settleStart
  simp only [bind_assoc]
  refine congrArg (Exchange.ofConfiguration t.memory >>= ·) (funext fun _ => ?_)
  refine congrArg (say .info _ >>= ·) (funext fun _ => ?_)
  refine congrArg (t.resolveStart true >>= ·) (funext fun start => ?_)
  split <;> rfl

/-- Unless its start cannot be settled, a download erases, and if that has come to its end it programs. -/
theorem phases_of_download {image : Bytes} {ts : List (Turn Query.Answer)} {o : Outcome Failure Unit}
    (h : Trace (t.download c image) ts o) :
    (progressOf ts = [] ∧ o ≠ .done ()) ∨
      ∃ start settling erasing programming result, ts = settling ++ erasing ++ programming ∧
        progressOf settling = [] ∧ Trace (t.erase c start image.length) erasing result ∧
        ((result ≠ .done () ∧ programming = [] ∧ o = result) ∨
          (result = .done () ∧ Trace (c.programFrom start image) programming o)) := by
  have hquiet {ts : List (Turn Query.Answer)} {o : Outcome Failure Nat}
      (h : Trace (t.settleStart image) ts o) : progressOf ts = [] :=
    (uncounted_settleStart image).progressOf_eq h
  rw [download_eq] at h
  rcases trace_bind_iff.1 h with ⟨start, settling, t₁, hsettle, hrest, rfl⟩ | ⟨e, hsettle, rfl⟩ |
    ⟨hsettle, rfl⟩
  · right
    rcases trace_bind_iff.1 hrest with ⟨u, erasing, programming, herase, hprogram, rfl⟩ |
      ⟨e, herase, rfl⟩ | ⟨herase, rfl⟩
    · exact ⟨start, settling, erasing, programming, .done (), (List.append_assoc _ _ _).symm,
        hquiet hsettle, herase, .inr ⟨rfl, hprogram⟩⟩
    · exact ⟨start, settling, t₁, [], .failed e, (List.append_nil _).symm, hquiet hsettle, herase,
        .inl ⟨nofun, rfl, rfl⟩⟩
    · exact ⟨start, settling, t₁, [], .exhausted, (List.append_nil _).symm, hquiet hsettle, herase,
        .inl ⟨nofun, rfl, rfl⟩⟩
  · exact .inl ⟨hquiet hsettle, nofun⟩
  · exact .inl ⟨hquiet hsettle, nofun⟩

end DfuseTransfer

/-! ## All phases -/

/-- Whatever the device answers, and whenever a phase ends. An erase, a download and an upload of blocks,
and each of the two phases of a DfuSe download report a steady count: from nothing on, of one total,
never back and never beyond it. What ends well has counted the steps of the plan, the image, or the bytes
that it returns; an erase that has nothing to do reports nothing. Over disjoint segments an erase counts
the whole sectors of its range. -/
theorem progress_steady (c : Connection) :
    (∀ (t : DfuseTransfer) start length ts o, Trace (t.erase c start length) ts o →
      t.CountsErase start length ts o) ∧
    (∀ size image tolerant ts o, Trace (c.writeBlocks size image tolerant) ts o →
      Steady (some image.length) (progressOf ts) ∧
      (o = .done () → (progressOf ts).getLast? = some ⟨image.length, some image.length⟩)) ∧
    (∀ size limit first ts o, Trace (c.readBlocks size limit first) ts o →
      Steady limit (progressOf ts) ∧
      ∀ data, o = .done data → (progressOf ts).getLast? = some ⟨data.length, limit⟩) ∧
    (∀ (t : DfuseTransfer) image ts o, Trace (t.download c image) ts o →
      (progressOf ts = [] ∧ o ≠ .done ()) ∨
      ∃ start settling erasing programming result, ts = settling ++ erasing ++ programming ∧
        progressOf settling = [] ∧ Trace (t.erase c start image.length) erasing result ∧
        t.CountsErase start image.length erasing result ∧
        ((result ≠ .done () ∧ programming = [] ∧ o = result) ∨
          (result = .done () ∧ Steady (some image.length) (progressOf programming) ∧
            (o = .done () →
              (progressOf programming).getLast? = some ⟨image.length, some image.length⟩)))) ∧
    ∀ (m : MemoryMap) start length steps, m.Disjoint → m.erasePlan start length = .ok steps →
      steps ≠ [] → ∃ first stop, m.sectorStart start = .ok first ∧
        m.sectorEnd (start + length - 1) = .ok stop ∧ EraseStep.sum steps = stop - first := by
  refine ⟨fun t start length ts o => DfuseTransfer.countsErase, fun size image tolerant ts o h => ?_,
    fun size limit first => c.announces_readBlocks size limit first, fun t image ts o h => ?_,
    fun m start length steps hd => hd.sum_of_erasePlan⟩
  · obtain ⟨hsteady, hlast⟩ := c.announces_writeBlocks size image tolerant ts o h
    exact ⟨hsteady, hlast ()⟩
  -- a download that was refused reports nothing, any other one has its phases one after the other
  · rcases DfuseTransfer.phases_of_download h with hnone | ⟨start, settling, erasing, programming, result,
      hts, hsettling, herase, hprogram⟩
    · exact .inl hnone
    · refine .inr ⟨start, settling, erasing, programming, result, hts, hsettling, herase,
        DfuseTransfer.countsErase herase, hprogram.imp_right ?_⟩
      rintro ⟨hdone, hprogram⟩
      obtain ⟨hsteady, hlast⟩ := c.announces_programFrom start image programming o hprogram
      exact ⟨hdone, hsteady, hlast ()⟩

/-- A small sector is erased and a large one is left as it is; both are counted. -/
theorem progress_steady_mixed :
    let t : DfuseTransfer := ⟨some .mixed, none⟩
    let conversation := transcript Bench.SingleBoard.serve (t.erase (.new 0 4 8) 0x118 0x10)
      (.ofSimulator { Bench.Simulator.dfuseLoader ["@Mixed"] 0x0b with busyPolls := 1 })
    progressOf conversation.1 = [⟨0, some 0x30⟩, ⟨0x10, some 0x30⟩, ⟨0x30, some 0x30⟩] ∧
    Steady (some 0x30) (progressOf conversation.1) ∧
    ∃ first stop, MemoryMap.mixed.sectorStart 0x118 = .ok first ∧
      MemoryMap.mixed.sectorEnd (0x118 + 0x10 - 1) = .ok stop ∧ 0x30 = stop - first := by
  intro t conversation
  have hplan : MemoryMap.mixed.erasePlan 0x118 0x10 = .ok [.erase 0x110 0x10, .skip 0x120 0x140] := by
    cbv
  obtain ⟨herase, -, -, -, hspan⟩ := progress_steady (.new 0 4 8)
  have hcounts := herase t 0x118 0x10 conversation.1 conversation.2 (trace_transcript _ _ _)
  exact ⟨by decide +kernel, (hcounts.steady _ hplan (List.cons_ne_nil _ _)).1,
    hspan _ _ _ _ MemoryMap.disjoint_mixed hplan (List.cons_ne_nil _ _)⟩

end UsbDfu
