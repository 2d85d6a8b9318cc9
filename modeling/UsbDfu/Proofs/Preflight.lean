import UsbDfu.Proofs.DfuseDownload
import UsbDfu.Proofs.SessionLife

/-!
# Refusals before the first call

A transfer is refused for what the host knows: there is no memory map, or an address of the image is
in no segment. All of that is looked into before the device gets its first command, so a refused
transfer leaves the device as it was.

- `Failure.FromDevice`: the failures that come of calls and of their answers. Once deliveries have
  begun there are no others (`DeliveredAll.fromDevice`, `DeliveredToReset.fromDevice`).
- `MemoryMap.exists_contains_of_erasePlan`: a range that has an erase plan lies in the segments,
  whether they are disjoint or not.
- `Strategy.eq_nil_of_refused`: a download that is refused calls nothing, in both families.
- `Session.flash_cases`, `Session.download_of_flashConnected`: a flash does not begin, or it ends as
  its download did.
- `Session.Settled.refused`: a session that refuses an image has asked the device for its
  status and cleared an error, at most.
- `refused_before_first_command`: the same from connecting on.
-/

namespace UsbDfu

open Dialogue
open Exchange (say)

/-! ## Failures of the device -/

/-- The failure comes of a call or its answer. -/
def Failure.FromDevice : Failure → Prop
  | .transport _ | .protocol _ => True
  | .descriptor _ | .configuration _ => False

theorem fromDevice_of_read {reply : Except TransportError Bytes} {e : Failure}
    (h : Status.read reply = .error e) : e.FromDevice := by
  unfold Status.read at h
  split at h
  · cases h
    trivial
  · split at h
    · cases h
    · cases h
      trivial

/-- What the host makes of an answer to GETSTATUS is never its own fault. -/
theorem fromDevice_of_mem_transactions {ts : List (Turn Query.Answer)} {e : Failure}
    (h : .status (.error e) ∈ transactions ts) : e.FromDevice := by
  obtain ⟨⟨q, answer⟩, -, ht⟩ := List.mem_filterMap.1 h
  cases q with
  | call call =>
    have hcall : Transaction.ofCall call answer = .status (.error e) := Option.some.inj ht
    -- of all calls only an inquiry of the class is taken for one about the status
    cases call with
    | controlIn r length =>
      simp only [Transaction.ofCall, Transaction.ofIn] at hcall
      split at hcall
      · split at hcall
        · cases hcall
        · split at hcall
          · exact fromDevice_of_read (Transaction.status.inj hcall)
          · split at hcall <;> cases hcall
      · cases hcall
    | controlOut r data =>
      simp only [Transaction.ofCall, Transaction.ofOut] at hcall
      split at hcall
      · split at hcall
        · cases hcall
        · split at hcall
          · cases hcall
          · split at hcall <;> cases hcall
      · cases hcall
    | _ => cases hcall
  | _ => cases ht

/-- The verdict blames the device, and passes on what a wait failed with. -/
structure Delivery.Honest (j : Delivery) : Prop where
  settled : ∀ taken s e, j.verdict taken (.ok s) = .error e → e.FromDevice
  failed : ∀ taken e e', j.verdict taken (.error e) = .error e' → e' = e

namespace Delivery

theorem honest_chunk (block : UInt16) (data : Bytes) : (chunk block data).Honest where
  settled taken s e h := by
    simp only [chunk] at h
    split at h
    · split at h
      · cases h
      · cases h
        trivial
    · cases h
      trivial
  failed _ _ _ h := (Except.error.inj h).symm

theorem honest_terminator (block : UInt16) (tolerant : Bool) :
    (terminator block tolerant).Honest where
  settled taken s e h := by
    simp only [terminator] at h
    split at h
    · cases h
      trivial
    · cases h
  failed taken e e' h := by
    simp only [terminator] at h
    split at h
    · exact (Except.error.inj h).symm
    · cases h

theorem honest_command (cmd : Command) : (command cmd).Honest where
  settled taken s e h := by
    simp only [command] at h
    split at h
    · cases h
    · cases h
      trivial
  failed _ _ _ h := (Except.error.inj h).symm

theorem honest_manifestation : manifestation.Honest where
  settled _ _ _ h := nomatch h
  failed _ _ _ h := nomatch h

/-- A judgement that is a failure has a failed verdict for its cause. -/
theorem exists_verdict_of_judge {j : Delivery} {taken : Nat} {r : Outcome Failure Status}
    {e : Failure} (h : .failed e = j.judge taken r) :
    (∃ s, r = .done s ∧ j.verdict taken (.ok s) = .error e) ∨
      ∃ e', r = .failed e' ∧ j.verdict taken (.error e') = .error e := by
  have hverdict : ∀ v : Except Failure Unit, Outcome.failed e = .ofExcept v → v = .error e := by
    intro v hv
    cases v with
    | ok u => cases hv
    | error e' =>
      cases hv
      rfl
  cases r with
  | done s => exact .inl ⟨s, rfl, hverdict _ h⟩
  | failed e' => exact .inr ⟨e', rfl, hverdict _ h⟩
  | exhausted => cases h

end Delivery

section

variable {j : Delivery} {js : List Delivery} {ws : List Transaction} {e : Failure}

theorem Delivered.fromDevice (hj : j.Honest)
    (hws : ∀ e, .status (.error e) ∈ ws → e.FromDevice) (h : Delivered j ws (.failed e)) :
    e.FromDevice := by
  obtain ⟨reply, polls, rfl, -⟩ := h.eq_cons
  rcases h.judged_of_cons with ⟨e', -, -, ho⟩ | ⟨taken, r, -, hp, ho⟩
  · cases ho
    trivial
  · rcases Delivery.exists_verdict_of_judge ho with ⟨s, -, hv⟩ | ⟨e', rfl, hv⟩
    · exact hj.settled taken s e hv
    · obtain rfl := hj.failed taken e' e hv
      obtain ⟨init, read, rfl, -, hread⟩ := hp.eq_concat
      obtain rfl := hread e rfl
      exact hws e (by simp)

/-- Deliveries fail only through the device. -/
theorem DeliveredAll.fromDevice (hjs : ∀ j ∈ js, j.Honest)
    (hws : ∀ e, .status (.error e) ∈ ws → e.FromDevice) (h : DeliveredAll js ws (.failed e)) :
    e.FromDevice := by
  generalize ho : Outcome.failed e = o at h
  induction h with
  | nil => cases ho
  | stop h _ =>
    subst ho
    exact h.fromDevice (hjs _ List.mem_cons_self) hws
  | next _ _ ih =>
    exact ih (List.forall_mem_cons.1 hjs).2 (fun e he => hws e (List.mem_append_right _ he)) ho

theorem DeliveredToReset.fromDevice (hjs : ∀ j ∈ js, j.Honest)
    (hws : ∀ e, .status (.error e) ∈ ws → e.FromDevice) (h : DeliveredToReset js ws (.failed e)) :
    e.FromDevice := by
  rcases h with ⟨-, h⟩ | ⟨calls, reply, rfl, ho, -⟩
  · exact h.fromDevice hjs hws
  · unfold afterReset at ho
    split at ho
    · cases ho
    · split at ho
      · cases ho
      · cases ho
        trivial

end

/-! ## Ranges that have a plan -/

namespace MemoryMap

variable {m : MemoryMap} {s : Segment} {limit cursor start length a : Nat} {steps : List EraseStep}

/-- A walk does not leave the segments. -/
theorem exists_contains_of_eraseFrom {inside : s.contains cursor = true} {below : cursor < limit}
    (hs : s ∈ m.segments) (h : m.eraseFrom limit cursor s inside below = .ok steps)
    (ha : cursor ≤ a) (hlt : a < limit) : ∃ t ∈ m.segments, t.contains a = true := by
  induction steps generalizing cursor s with
  | nil => rcases eraseFrom_eq_ok h with ⟨-, h⟩ | ⟨_, _, _, _, -, -, h⟩ <;> cases h
  | cons step rest ih =>
    by_cases hstop : a < (s.eraseStep cursor limit).stop
    · have hstart := (Segment.contains_iff.1 inside).1
      have hle : (s.eraseStep cursor limit).stop ≤ s.stop := stop_eraseStep_le_stop inside
      exact ⟨s, hs, Segment.contains_iff.2 (by omega)⟩
    · rcases eraseFrom_eq_ok h with ⟨hend, -⟩ | ⟨next, rest', hc, hn, hnext, hr, heq⟩
      · omega
      · obtain ⟨-, rfl⟩ := List.cons.inj heq
        have hmem : next ∈ m.segments := by
          rcases hnext with rfl | ⟨-, hmem⟩
          · exact hs
          · exact hmem
        exact ih hmem hr (Nat.le_of_not_lt hstop)

/-- Every address of a range that has a plan lies in a segment. -/
theorem exists_contains_of_erasePlan (h : m.erasePlan start length = .ok steps) (ha : start ≤ a)
    (hlt : a < start + length) : ∃ s ∈ m.segments, s.contains a = true := by
  obtain ⟨s, e, hs, hl, inside, below, hw⟩ := erasePlan_eq_ok (by omega) h
  have h₁ := Segment.sectorStart_le (Segment.contains_iff.1 (segmentAt?_contains hs)).1
  have h₂ := Segment.lt_sectorEnd (Segment.contains_iff.1 (segmentAt?_contains hl)).1
  exact exists_contains_of_eraseFrom (segmentAt?_mem hs) hw (by omega) (by omega)

end MemoryMap

/-! ## Transfers -/

theorem Transacts.fromDevice_of_mem {ε α : Type} {d : Dialogue Query.Answer ε α}
    {ws : List Transaction} {o : Outcome ε α} (h : Transacts d ws o) {e : Failure}
    (he : .status (.error e) ∈ ws) : e.FromDevice := by
  obtain ⟨ts, -, rfl⟩ := h
  exact fromDevice_of_mem_transactions he

namespace DfuseTransfer

variable {t : DfuseTransfer} {c : Connection} {image : Bytes} {ws : List Transaction}
  {start length : Nat} {e : ConfigurationError}

/-- The address that a transfer over the map is meant to start at. -/
def firstAddress (t : DfuseTransfer) (m : MemoryMap) : Nat :=
  t.start?.getD m.first.start

theorem Planned.start_eq {m : MemoryMap} {steps : List EraseStep}
    (h : t.Planned length m start steps) : start = t.firstAddress m := by
  have hs := h.startIn
  unfold DfuseTransfer.startIn at hs
  unfold firstAddress
  split at hs
  · rename_i ht
    cases hs
    rw [ht]
    rfl
  · rename_i address ht
    split at hs
    · cases hs
      rw [ht]
      rfl
    · cases hs

/-- A range that is refused is refused before the first erase command. -/
theorem eq_nil_of_erase_refused
    (h : Transacts (t.erase c start length) ws (.failed (.configuration e))) : ws = [] := by
  cases hm : t.memory with
  | error e' =>
    have hf : t.erase c start length = .fail (.configuration e') := by simp [erase, hm]
    rw [hf] at h
    exact (transacts_fail_iff.1 h).1
  | ok m =>
    cases hp : m.erasePlan start length with
    | error e' =>
      have hf : t.erase c start length = .fail (.configuration e') := by simp [erase, hm, hp]
      rw [hf] at h
      exact (transacts_fail_iff.1 h).1
    | ok steps =>
      obtain ⟨o, ho, heq⟩ := delivers_erase hm hp _ _ h
      rw [Outcome.map_unit] at heq
      subst heq
      refine (ho.fromDevice (fun j hj => ?_) fun e he => h.fromDevice_of_mem he).elim
      obtain ⟨address, size, -, rfl⟩ := mem_eraseDeliveries.1 hj
      exact Delivery.honest_command _

theorem honest_deliveries (start : Nat) (steps : List EraseStep) (chunks : List (Nat × Bytes)) :
    ∀ j ∈ deliveries start steps chunks, j.Honest := by
  obtain ⟨js, heq, hkind⟩ := deliveries_eq_concat start steps chunks
  rw [heq]
  intro j hj
  rcases List.mem_append.1 hj with hj | hj
  · rcases hkind j hj with ⟨cmd, rfl⟩ | ⟨chunk, rfl⟩
    · exact Delivery.honest_command cmd
    · exact Delivery.honest_chunk _ chunk
  · obtain rfl := List.mem_singleton.1 hj
    exact Delivery.honest_manifestation

/-- A download that was planned for fails only through the device. -/
theorem Planned.not_refused {m : MemoryMap} {steps : List EraseStep}
    (hp : t.Planned image.length m start steps) :
    ¬ Transacts (t.download c image) ws (.failed (.configuration e)) :=
  fun h => (hp.deliveredAll h).fromDevice (honest_deliveries _ _ _) fun _ he => h.fromDevice_of_mem he

theorem eq_nil_of_download_refused
    (h : Transacts (t.download c image) ws (.failed (.configuration e))) : ws = [] := by
  by_cases hp : ∃ m start steps, t.Planned image.length m start steps
  · obtain ⟨m, start, steps, hp⟩ := hp
    exact absurd h hp.not_refused
  · exact (eq_nil_of_not_planned (by simpa using hp) h).1

/-- An image without a map, or with an address in no segment, cannot be planned for. -/
theorem not_planned_of_outside
    (h : t.memory? = none ∨ ∃ m a, t.memory? = some m ∧ t.firstAddress m ≤ a ∧
      a < t.firstAddress m + length ∧ ∀ s ∈ m.segments, s.contains a = false)
    (m : MemoryMap) (start : Nat) (steps : List EraseStep) : ¬ t.Planned length m start steps := by
  intro hp
  rcases h with hnone | ⟨m', a, hm, ha, hlt, hout⟩
  · rw [hp.memory] at hnone
    cases hnone
  · obtain rfl : m = m' := Option.some.inj (hp.memory.symm.trans hm)
    obtain rfl := hp.start_eq
    obtain ⟨s, hs, hc⟩ := MemoryMap.exists_contains_of_erasePlan hp.erasePlan ha hlt
    rw [hout s hs] at hc
    cases hc

end DfuseTransfer

/-- A download that is refused calls nothing. -/
theorem Strategy.eq_nil_of_refused {s : Strategy} {c : Connection} {image : Bytes} {tolerant : Bool}
    {ws : List Transaction} {e : ConfigurationError}
    (h : Transacts (s.download c image tolerant) ws (.failed (.configuration e))) : ws = [] := by
  cases s with
  | plain =>
    refine ((deliveredToReset_writeBlocks h).fromDevice (fun j hj => ?_)
      fun e he => h.fromDevice_of_mem he).elim
    rcases List.mem_append.1 hj with hj | hj
    · obtain ⟨⟨chunk, i⟩, -, rfl⟩ := List.mem_map.1 hj
      exact Delivery.honest_chunk _ chunk
    · obtain rfl := List.mem_singleton.1 hj
      exact Delivery.honest_terminator _ tolerant
  | dfuse t => exact t.eq_nil_of_download_refused h

/-! ## Sessions -/

theorem transactions_eq_nil {ts : List (Turn Query.Answer)}
    (h : ∀ t ∈ ts, t.question.isCall = false) : transactions ts = [] := by
  refine List.filterMap_eq_nil_iff.2 fun ⟨q, answer⟩ ht => ?_
  have hq := h _ ht
  cases q with
  | call c => cases hq
  | _ => rfl

/-- The device was asked for its status, and an error it was in was cleared. -/
def PreClears (ws : List Transaction) : Prop :=
  (∃ reply, ws = [.status reply]) ∨
    ∃ s reply, s.state = .error ∧ ws = [.status (.ok s), .clearStatus reply]

namespace PreClears

variable {ws : List Transaction}

theorem downloads_eq_nil (h : PreClears ws) : downloads ws = [] := by
  rcases h with ⟨reply, rfl⟩ | ⟨s, reply, -, rfl⟩ <;> rfl

theorem isReset_eq_false (h : PreClears ws) : ∀ w ∈ ws, w.isReset = false := by
  rcases h with ⟨reply, rfl⟩ | ⟨s, reply, -, rfl⟩ <;> simp [Transaction.isReset]

end PreClears

namespace Session

variable {s s' : Session} {image : Bytes} {ws : List Transaction} {e : ConfigurationError}

theorem preClears_leaveError {c : Connection} {o : Outcome Failure Unit}
    (h : Transacts (leaveError c) ws o) : PreClears ws := by
  obtain ⟨_, w₁, w₂, h₁, h₂, rfl⟩ := transacts_bind_iff.1 h
  obtain ⟨reply, rfl, rfl⟩ := transacts_getStatus h₁
  cases reply with
  | error e =>
    obtain ⟨rfl, -⟩ := transacts_fail_iff.1 h₂
    exact .inl ⟨_, rfl⟩
  | ok s =>
    by_cases hs : s.state = .error
    · simp only [Outcome.ofExcept_ok, Outcome.silent, done_bind, hs, if_true] at h₂
      obtain ⟨reply, rfl, -⟩ := transacts_clearStatus h₂
      exact .inr ⟨s, reply, hs, rfl⟩
    · simp only [Outcome.ofExcept_ok, Outcome.silent, done_bind, hs, if_false] at h₂
      obtain ⟨rfl, -⟩ := transacts_done_iff.1 h₂
      exact .inl ⟨_, rfl⟩

theorem transacts_pollDepartures {o : Outcome Empty Session} (hs : s.activity ≠ .disconnected)
    (h : Transacts s.pollDepartures ws o) : ws = [] ∧ ∃ left, o = .done (s.after left) := by
  obtain ⟨ts, ht, rfl⟩ := h
  obtain ⟨left, ho, -, hcalls, -⟩ := trace_pollDepartures hs ht
  exact ⟨transactions_eq_nil hcalls, left, ho⟩

/-- What is left once the download has ended. -/
def afterDownload (s : Session) : Except Failure Unit → Talk (Except Failure Unit × Session)
  | .error e => s.pollDepartures >>= fun s => pure (.error e, s)
  | .ok () => do
    say .info "Flashing done!"
    let s ← if s.functional.manifestationTolerant then s.pollDepartures else s.awaitReboot
    pure (.ok (), s)

/-- What is said of the attempt to clear an error. -/
def sayCleared : Except Failure Unit → Talk Unit
  | .ok () => pure ()
  | .error e => say .warn s!"Failed to clear status: {e.message}"

theorem flashConnected_eq : s.flashConnected image = (do
    sayCleared (← (leaveError s.connection).attempt)
    say .info "Flashing... do not disconnect."
    let tolerant := s.functional.manifestationTolerant
    let result ← (s.strategy.download s.connection image tolerant).attempt
    { s with activity := .connected }.afterDownload result) := by
  refine congrArg _ (funext fun cleared => ?_)
  cases cleared <;> rfl

/-- What is left of a flash gives back what the download ended with. -/
theorem eq_of_afterDownload {r r' : Except Failure Unit}
    (h : Transacts (s.afterDownload r) ws (.done (r', s'))) : r' = r := by
  cases r with
  | error e =>
    obtain ⟨_, -, heq⟩ := transacts_bind_pure h
    exact congrArg Prod.fst heq
  | ok u =>
    have hend := transacts_say_bind.1 h
    dsimp only at hend
    split at hend
    · obtain ⟨_, -, heq⟩ := transacts_bind_pure hend
      exact congrArg Prod.fst heq
    · obtain ⟨_, -, heq⟩ := transacts_bind_pure hend
      exact congrArg Prod.fst heq

/-- A flash that comes to an end has cleared an error, if there was one, and downloaded; it ends as the
download did. -/
theorem download_of_flashConnected {r : Except Failure Unit}
    (h : Transacts (s.flashConnected image) ws (.done (r, s'))) :
    ∃ w₁ w₂ w₃, ws = w₁ ++ (w₂ ++ w₃) ∧ PreClears w₁ ∧
      Transacts (s.strategy.download s.connection image s.functional.manifestationTolerant) w₂
        (.ofExcept r) ∧
      Transacts ({ s with activity := .connected }.afterDownload r) w₃ (.done (r, s')) := by
  rw [flashConnected_eq] at h
  obtain ⟨cleared, w₁, w₂, hcleared, hrest, rfl⟩ := transacts_attempt_bind h
  have hdownload : Transacts
      ((s.strategy.download s.connection image s.functional.manifestationTolerant).attempt >>=
        { s with activity := .connected }.afterDownload) w₂ (.done (r, s')) := by
    cases cleared with
    | ok u => exact transacts_say_bind.1 hrest
    | error e' => exact transacts_say_bind.1 (transacts_say_bind.1 hrest)
  obtain ⟨r', w₃, w₄, hr, hend, rfl⟩ := transacts_attempt_bind hdownload
  obtain rfl := eq_of_afterDownload hend
  exact ⟨w₁, w₃, w₄, rfl, preClears_leaveError hcleared, hr, hend⟩

/-- A session that refuses the image has sent nothing of it. -/
theorem preClears_of_flashConnected
    (h : Transacts (s.flashConnected image) ws (.done (.error (.configuration e), s'))) :
    PreClears ws := by
  obtain ⟨w₁, w₂, w₃, rfl, hpre, hdownload, hend⟩ := download_of_flashConnected h
  obtain rfl := s.strategy.eq_nil_of_refused hdownload
  have hconnected : { s with activity := .connected }.activity ≠ .disconnected := nofun
  obtain ⟨_, hpoll, -⟩ := transacts_bind_pure hend
  obtain ⟨rfl, -⟩ := transacts_pollDepartures hconnected hpoll
  simpa using hpre

/-- A flash on a session that has its device: the news may tell that it has left, or it cannot be
downloaded to; otherwise it is flashed. -/
theorem flash_cases {o : Outcome Empty (Except Failure Unit × Session)} (hs : s.activity = .connected)
    (h : Transacts (s.flash image) ws o) :
    (ws = [] ∧ ∃ s', o = .done (.error (.configuration .disconnected), s')) ∨
      (ws = [] ∧ o = .done (.error (.configuration .downloadNotSupported), s)) ∨
      Transacts (s.flashConnected image) ws o := by
  have hgone : s.activity ≠ .disconnected := by simp [hs]
  obtain ⟨_, w₁, w₂, h₁, h₂, rfl⟩ := transacts_bind_iff.1 h
  obtain ⟨rfl, left, rfl⟩ := transacts_pollDepartures hgone h₁
  rw [List.nil_append]
  cases left with
  | true =>
    obtain ⟨rfl, rfl⟩ := transacts_done_iff.1 h₂
    exact .inl ⟨rfl, _, rfl⟩
  | false =>
    have hoperation : Transacts (if s.functional.canDownload then s.flashConnected image
        else pure (.error (.configuration .downloadNotSupported), s)) w₂ o := by
      simpa [Outcome.silent, hs] using h₂
    split at hoperation
    · exact .inr (.inr hoperation)
    · exact .inr (.inl (transacts_done_iff.1 hoperation))

/-- A session that has its device and refuses an image has only looked whether the device is in
error. -/
theorem preClears_of_flash (hs : s.activity = .connected)
    (h : Transacts (s.flash image) ws (.done (.error (.configuration e), s'))) :
    ws = [] ∨ PreClears ws := by
  rcases flash_cases hs h with ⟨hnil, -⟩ | ⟨hnil, -⟩ | hflash
  · exact .inl hnil
  · exact .inl hnil
  · exact .inr (preClears_of_flashConnected hflash)

/-- A settled session stays settled, and has sent nothing of an image that it refuses. -/
theorem Settled.refused (hs : s.Settled) {ts : List (Turn Query.Answer)}
    (h : Trace (s.flash image) ts (.done (.error (.configuration e), s'))) :
    (transactions ts = [] ∨ PreClears (transactions ts)) ∧
      (s'.activity = .connected ∨ s'.activity = .disconnected) := by
  rcases hs with hs | hs
  · refine ⟨preClears_of_flash hs ⟨ts, h, rfl⟩, ?_⟩
    obtain ⟨-, ⟨ho, -⟩ | ⟨r, left, ho, -⟩⟩ := trace_perform (a := .flash image) hs h
    · cases ho
    · cases ho
      cases left with
      | true => exact .inr rfl
      | false => exact .inl hs
  · obtain ⟨r, hperform, -⟩ := perform_of_gone (.inr hs) hs.1 (.flash image)
    rw [show s.flash image = _ from hperform] at h
    obtain ⟨rfl, ho⟩ := trace_done_iff.1 h
    cases ho
    exact ⟨.inl rfl, .inr hs.1⟩

end Session

/-! ## From connecting on -/

/-- An erase or a download of the extension that is refused calls nothing, and a download is refused
if there is no map or an address of the image is in no segment. A session that refuses an image has
sent no block and no reset; at most it asked for the status and cleared an error. It has its device
then or knows that it is gone. -/
theorem refused_before_first_command :
    (∀ (t : DfuseTransfer) (c : Connection) (start length : Nat) (ws : List Transaction)
      (e : ConfigurationError),
      Transacts (t.erase c start length) ws (.failed (.configuration e)) → ws = []) ∧
    (∀ (t : DfuseTransfer) (c : Connection) (image : Bytes) (ws : List Transaction)
      (e : ConfigurationError),
      Transacts (t.download c image) ws (.failed (.configuration e)) → ws = []) ∧
    (∀ (t : DfuseTransfer) (c : Connection) (image : Bytes) (ws : List Transaction)
      (o : Outcome Failure Unit),
      (t.memory? = none ∨ ∃ m a, t.memory? = some m ∧ t.firstAddress m ≤ a ∧
        a < t.firstAddress m + image.length ∧ ∀ s ∈ m.segments, s.contains a = false) →
      Transacts (t.download c image) ws o → ws = [] ∧ ∃ e, o = .failed (.configuration e)) ∧
    ∀ (id : DeviceId) (device : Device) (options : SessionOptions) (ts₀ : List (Turn Query.Answer))
      (s₀ : Session) (sub : Subscription) (queue : List DeviceId) (w : World) (image : Bytes)
      (ts : List (Turn Query.Answer)) (e : ConfigurationError) (s : Session),
      Trace (Session.connect id device options) ts₀ (.done s₀) →
      Relation.ReflTransGen (World.Step sub) ⟨s₀, queue, queue, ts₀⟩ w →
      Trace (w.session.flash image) ts (.done (.error (.configuration e), s)) →
      downloads (transactions ts) = [] ∧ (∀ w ∈ transactions ts, w.isReset = false) ∧
        (transactions ts = [] ∨ PreClears (transactions ts)) ∧
        (s.activity = .connected ∨ s.activity = .disconnected) := by
  refine ⟨fun t c start length ws e => t.eq_nil_of_erase_refused,
    fun t c image ws e => t.eq_nil_of_download_refused,
    fun t c image ws o hout h =>
      DfuseTransfer.eq_nil_of_not_planned (DfuseTransfer.not_planned_of_outside hout) h,
    fun id device options ts₀ s₀ sub queue w image ts e s hconnect hlife h => ?_⟩
  have hsettled := ((World.sound_connect hconnect).run hlife).settled
  obtain ⟨hcalls, hs⟩ := hsettled.refused h
  rcases hcalls with hnil | hpre
  · exact ⟨by rw [hnil]; rfl, by simp [hnil], .inl hnil, hs⟩
  · exact ⟨hpre.downloads_eq_nil, hpre.isReset_eq_false, .inr hpre, hs⟩

/-- Two small segments with a gap between them. -/
def gappedMap : MemoryMap where
  name := "Gap"
  segments :=
    [⟨0x08000000, 1, 8, .ofBits 7, by decide, by decide, by decide⟩,
      ⟨0x08000010, 1, 8, .ofBits 7, by decide, by decide, by decide⟩]
  segments_ne_nil := nofun

/-- A download to the start of a map with a gap. -/
def gappedTransfer : DfuseTransfer where
  memory? := some gappedMap
  start? := some 0x08000000

/-- A boot loader with that memory. -/
def gappedDevice : Device where
  descriptor := ⟨0x0200, 0, 0, 0, 64, 0x0483, 0xdf11, 0x0100, 0, 0, 0, 1⟩
  configurations := [⟨1, 1, 0, 0, 0, [.functional ⟨0x0b, 255, 16, 0x011a⟩]⟩]
  settings := [⟨1, 0, 0, .upgrade, 4, some "@Gap /0x08000000/1*8Bg/0x08000010/1*8Bg"⟩]

/-- The session on it. -/
def gappedSession : Session where
  connection := .new 0 16 8
  deviceId := 7
  setting := ⟨1, 0, 0, .upgrade, 4, some "@Gap /0x08000000/1*8Bg/0x08000010/1*8Bg"⟩
  functional := ⟨0x0b, 255, 16, 0x011a⟩
  strategy := .dfuse gappedTransfer
  watching := some 0
  activity := .connected
  disconnectTimeout := 5000

/-- It is in the error state. -/
def gappedBoard : Bench.Board where
  model := .script { id := 7, queues := [(.getStatus, [.data [0, 0, 0, 0, 10, 0] false])] }
  budget := none

/-- An image goes over the gap. Its erase and its download call nothing, and the session has cleared
the error before it refuses the image. -/
theorem refused_before_first_command_gapped :
    (∃ ws, Transacts (gappedTransfer.erase (.new 0 16 8) 0x08000000 24) ws
      (.failed (.configuration (.addressOutOfRange 0x08000008))) ∧ ws = []) ∧
    (∃ ws, Transacts (gappedTransfer.download (.new 0 16 8) (.replicate 24 0)) ws
      (.failed (.configuration (.addressOutOfRange 0x08000008))) ∧ ws = [] ∧
      (∀ s ∈ gappedMap.segments, s.contains 0x08000008 = false) ∧
      ∃ e, Outcome.failed (.configuration (.addressOutOfRange 0x08000008)) =
        (.failed (.configuration e) : Outcome Failure Unit)) ∧
    ∃ ts₀ ts, Trace (Session.connect 7 gappedDevice (.usual 8)) ts₀ (.done gappedSession) ∧
      Trace (gappedSession.flash (.replicate 24 0)) ts
        (.done (.error (.configuration (.addressOutOfRange 0x08000008)), gappedSession)) ∧
      transactions ts =
        [.status (.ok { code := .ok, pollTimeout := 0, state := .error }), .clearStatus (.ok 0)] ∧
      downloads (transactions ts) = [] ∧ ∀ w ∈ transactions ts, w.isReset = false := by
  obtain ⟨herase, hdownload, houtside, hsession⟩ := refused_before_first_command
  have h₁ := transacts_transcript Bench.SingleBoard.serve
    (gappedTransfer.erase (.new 0 16 8) 0x08000000 24) (.ofBoard gappedBoard)
  rw [show (transcript Bench.SingleBoard.serve _ _).2 =
    (.failed (.configuration (.addressOutOfRange 0x08000008)) : Outcome Failure Unit) by
      decide +kernel] at h₁
  have h₂ := transacts_transcript Bench.SingleBoard.serve
    (gappedTransfer.download (.new 0 16 8) (.replicate 24 0)) (.ofBoard gappedBoard)
  rw [show (transcript Bench.SingleBoard.serve _ _).2 =
    (.failed (.configuration (.addressOutOfRange 0x08000008)) : Outcome Failure Unit) by
      decide +kernel] at h₂
  have hconnect := trace_transcript Bench.SingleBoard.serve
    (Session.connect 7 gappedDevice (.usual 8)) (.ofBoard gappedBoard)
  rw [show (transcript Bench.SingleBoard.serve _ _).2 = .done gappedSession by decide +kernel]
    at hconnect
  have hflash := trace_transcript Bench.SingleBoard.serve
    (gappedSession.flash (.replicate 24 0)) (.ofBoard gappedBoard)
  rw [show (transcript Bench.SingleBoard.serve (gappedSession.flash (.replicate 24 0))
    (.ofBoard gappedBoard)).2 = .done
      (.error (.configuration (.addressOutOfRange 0x08000008)), gappedSession) by
      with_unfolding_all rfl] at hflash
  have hcalls : transactions (transcript Bench.SingleBoard.serve
      (gappedSession.flash (.replicate 24 0)) (.ofBoard gappedBoard)).1 =
      [.status (.ok { code := .ok, pollTimeout := 0, state := .error }), .clearStatus (.ok 0)] := by
    with_unfolding_all rfl
  have hgap : ∀ s ∈ gappedMap.segments, s.contains 0x08000008 = false := by decide
  have he := (houtside gappedTransfer _ _ _ _
    (.inr ⟨gappedMap, 0x08000008, rfl, by decide, by decide, hgap⟩) h₂).2
  obtain ⟨hblocks, hreset, -⟩ := hsession 7 gappedDevice (.usual 8) _ gappedSession 0 [] _ _ _ _ _
    hconnect .refl hflash
  exact ⟨⟨_, h₁, herase _ _ _ _ _ _ h₁⟩, ⟨_, h₂, hdownload _ _ _ _ _ h₂, hgap, he⟩,
    _, _, hconnect, hflash, hcalls, hblocks, hreset⟩

end UsbDfu
