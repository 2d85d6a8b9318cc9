import UsbDfu.Proofs.BoardRuns
import UsbDfu.Transfer.Dfuse

/-!
# Blocks that a simulated device takes in

A simulated device that was not set to fail takes every block of a download in, is busy for as many
polls as it was told to be, and is then ready for the next block.

- `Receptive patience s`: the device takes blocks, and the host is patient enough for it.
- `Took s s' erased written image`: what the device took in between two states, all else but its
  place in the protocol being the same. `Took.refl` and `Took.trans` follow a transfer.
- `runs_pollUntil`: a wait for a busy device, by induction on the host's patience.
- `runs_command` and `runs_sendChunk`: a block that is taken in, with the wait after it.
- `TakesIn P d x erased written image Q`: on every device with `P` the exchange `d` ends with `x`, the
  device has taken these things in, and has `Q`. `TakesIn.bind` puts exchanges one after another.
-/

namespace UsbDfu

open Dialogue
open Bench (Simulator)

namespace Bench.Simulator

variable {s s' s'' s₁ : Simulator} {e e' : List Nat} {w w' : List (Nat × Bytes)} {i i' : Bytes}
  {patience : Nat} {block : UInt16} {data : Bytes}

/-! ## What a device took in -/

/-- Between the two states the device erased at these addresses, wrote these bytes at theirs, and
took in these bytes of an image, in this order. Otherwise only its place in the protocol and its
address pointer may differ. -/
def Took (s s' : Simulator) (erased : List Nat) (written : List (Nat × Bytes)) (image : Bytes) :
    Prop :=
  s' = { s with
    state := s'.state
    busyRemaining := s'.busyRemaining
    addressPointer := s'.addressPointer
    erased := s.erased ++ erased
    written := s.written ++ written
    downloaded := s.downloaded ++ image }

theorem Took.refl (s : Simulator) : s.Took s [] [] [] := by
  simp [Took]

theorem Took.trans (h : s.Took s' e w i) (h' : s'.Took s'' e' w' i') :
    s.Took s'' (e ++ e') (w ++ w') (i ++ i') := by
  rw [Took] at h h' ⊢
  rw [h', h]
  simp only [List.append_assoc]

/-- The device at rest between two blocks. -/
def rested (s : Simulator) : Simulator :=
  { s with state := .dnloadIdle, busyRemaining := 0 }

theorem Took.rested (h : s.Took s' e w i) : s.Took s'.rested e w i := by
  rw [Took] at h ⊢
  rw [Simulator.rested, h]

/-! ## Devices that take blocks -/

/-- The device is open and at rest, has no error and will have none, and is not busy for longer than
the host waits. -/
structure Receptive (patience : Nat) (s : Simulator) : Prop where
  connected : s.connected = true
  isOpen : s.isOpen = true
  state : s.state = .dfuIdle ∨ s.state = .dnloadIdle
  status : s.status = .ok
  failBlock : s.failBlock = none
  pendingError : s.pendingError = none
  busyPolls : s.busyPolls ≤ patience

theorem Receptive.of_took (h : s.Receptive patience) (ht : s.Took s' e w i)
    (hs : s'.state = .dfuIdle ∨ s'.state = .dnloadIdle) : s'.Receptive patience where
  connected := by
    rw [ht]
    exact h.connected
  isOpen := by
    rw [ht]
    exact h.isOpen
  state := hs
  status := by
    rw [ht]
    exact h.status
  failBlock := by
    rw [ht]
    exact h.failBlock
  pendingError := by
    rw [ht]
    exact h.pendingError
  busyPolls := by
    rw [ht]
    exact h.busyPolls

/-- The device after it has taken in a block, before it is asked how that went. -/
def syncing (s : Simulator) : Simulator :=
  { s with state := .dnloadSync, busyRemaining := s.busyPolls }

theorem download_eq_of_take (h : s.Receptive patience) (hd : data ≠ [])
    (ht : s.take block data = .ok s₁) (hk : s.Took s₁ e w i) :
    s.download block data = (.ok data.length, s₁.syncing) := by
  have hadmits : s.admits data = true := by
    have hfull : data.isEmpty = false := by simpa using hd
    rcases h.state with hs | hs
    · rw [admits, hs, hfull]
      rfl
    · rw [admits, hs]
      rfl
  have hbusy : s.state ≠ .dnBusy := by
    rcases h.state with hs | hs
    · simp [hs]
    · simp [hs]
  have hfail : s₁.failBlock = none := by
    rw [hk]
    exact h.failBlock
  have hnote : s₁.noteFailure block = s₁ := by
    rw [noteFailure, hfail]
  simp [download, hbusy, hadmits, hd, ht, hnote, syncing]

/-- How the host reads the device's answer to GETSTATUS. -/
def seen (s : Simulator) : Status where
  code := .ofCode s.status.code
  pollTimeout := Bytes.ofLe32 (UInt8.ofNat s.pollTimeout) (UInt8.ofNat (s.pollTimeout / 0x100))
    (UInt8.ofNat (s.pollTimeout / 0x10000)) 0
  state := .ofCode s.state.code

theorem read_statusBytes (s : Simulator) : Status.read (.ok s.statusBytes) = .ok s.seen := rfl

theorem isOk_seen (h : s.status = .ok) : s.seen.isOk = true := by
  rw [Status.isOk, seen, h]
  rfl

/-- A device that has counted its polls down is ready. -/
theorem settle_eq_rested (hb : s.busyRemaining = 0) (he : s.pendingError = none) :
    s.settle = s.rested := by
  simp [settle, rested, hb, he]

/-- The device after it has said once more that it is busy. -/
def busied (s : Simulator) : Simulator :=
  { s with busyRemaining := s.busyRemaining - 1, state := .dnBusy }

theorem settle_eq_busied (hb : s.busyRemaining ≠ 0) : s.settle = s.busied := by
  rw [settle, if_pos (Nat.pos_of_ne_zero hb)]
  rfl

end Bench.Simulator

/-! ## Waiting for a busy device -/

section Wait

variable {c : Connection} {accept : State → Bool} {a : Scene}

/-- A device that stays answers with its status. -/
theorem runs_getStatus_of_stays {s : Simulator} (hopen : a.device.checkOpen = .ok ())
    (hget : a.device.getStatus = (.ok s.statusBytes, s))
    (hconnected : s.connected = a.device.connected) :
    Runs c.getStatus a (.done s.seen) { a with device := s } := by
  have h := runs_getStatus (c := c) hopen
  rw [hget, Simulator.read_statusBytes, Scene.step_of_connected hconnected] at h
  exact h

theorem runs_getStatus_of_syncing {s : Simulator} (hopen : a.device.checkOpen = .ok ())
    (hs : a.device.state = .dnloadSync ∨ a.device.state = .dnBusy) (hsettle : a.device.settle = s)
    (hconnected : s.connected = a.device.connected) :
    Runs c.getStatus a (.done s.seen) { a with device := s } := by
  refine runs_getStatus_of_stays hopen ?_ hconnected
  rcases hs with hs | hs
  · simp [Simulator.getStatus, hs, hsettle]
  · simp [Simulator.getStatus, hs, hsettle]

theorem pollFrom_eq_pure {status : Status}
    (h : accept status.state = true ∨ status.state = .error) (rounds : Nat) :
    c.pollFrom accept rounds status = pure status := by
  have hend : (accept status.state || status.state = .error) = true := by simpa using h
  cases rounds with
  | zero => rw [Connection.pollFrom, if_pos hend]
  | succ rounds => rw [Connection.pollFrom, if_pos hend]

/-- Goes on with a wait whose end was not seen. -/
theorem runs_pollFrom_succ {status : Status} {rounds : Nat} {o : Outcome Failure Status} {b : Scene}
    (haccept : accept status.state = false) (herror : status.state ≠ .error)
    (h : Runs (c.getStatus >>= fun status => c.pollFrom accept rounds status) a o b) :
    Runs (c.pollFrom accept (rounds + 1) status) a o b := by
  have hgoes : ¬ (accept status.state || status.state = .error) = true := by
    simp [haccept, herror]
  rw [Connection.pollFrom, if_neg hgoes]
  exact runs_note_bind h

/-- A device that is no longer busy says that it is ready. -/
theorem runs_getStatus_pollFrom_ready (hidle : accept .dnloadIdle = true)
    (hopen : a.device.checkOpen = .ok ())
    (hs : a.device.state = .dnloadSync ∨ a.device.state = .dnBusy)
    (he : a.device.pendingError = none) (hzero : a.device.busyRemaining = 0) (rounds : Nat) :
    Runs (c.getStatus >>= fun status => c.pollFrom accept rounds status) a
      (.done a.device.rested.seen) { a with device := a.device.rested } := by
  refine (runs_getStatus_of_syncing hopen hs (Simulator.settle_eq_rested hzero he) rfl).bind ?_
  rw [pollFrom_eq_pure (.inl hidle)]
  exact runs_done _

/-- The device says once for every poll left that it is busy, and then that it is ready. -/
theorem runs_getStatus_pollFrom {rounds : Nat} (hbusy : accept .dnBusy = false)
    (hidle : accept .dnloadIdle = true) (hopen : a.device.checkOpen = .ok ())
    (hs : a.device.state = .dnloadSync ∨ a.device.state = .dnBusy)
    (he : a.device.pendingError = none) (hr : a.device.busyRemaining ≤ rounds) :
    Runs (c.getStatus >>= fun status => c.pollFrom accept rounds status) a
      (.done a.device.rested.seen) { a with device := a.device.rested } := by
  induction rounds generalizing a with
  | zero => exact runs_getStatus_pollFrom_ready hidle hopen hs he (Nat.le_zero.1 hr) 0
  | succ rounds ih =>
    -- each answer uses up one of the polls that the device stays busy for
    by_cases hzero : a.device.busyRemaining = 0
    · exact runs_getStatus_pollFrom_ready hidle hopen hs he hzero _
    · refine (runs_getStatus_of_syncing hopen hs (Simulator.settle_eq_busied hzero) rfl).bind ?_
      have hleft : a.device.busied.busyRemaining ≤ rounds := Nat.sub_le_of_le_add hr
      exact runs_pollFrom_succ hbusy nofun
        (ih (a := { a with device := a.device.busied }) hopen (.inr rfl) he hleft)

/-- A wait for a device that has just taken in a block. -/
theorem runs_pollUntil (hbusy : accept .dnBusy = false) (hidle : accept .dnloadIdle = true)
    (hopen : a.device.checkOpen = .ok ()) (he : a.device.pendingError = none)
    (hb : a.device.busyPolls ≤ c.patience) :
    Runs (c.pollUntil accept) { a with device := a.device.syncing } (.done a.device.rested.seen)
      { a with device := a.device.rested } :=
  runs_getStatus_pollFrom hbusy hidle hopen (.inl rfl) he hb

end Wait

/-! ## Blocks -/

section Blocks

variable {c : Connection} {a : Scene} {s : Simulator} {e : List Nat} {w : List (Nat × Bytes)}
  {i data : Bytes} {block : UInt16}

theorem runs_download_of_take (h : a.device.Receptive c.patience) (hd : data ≠ [])
    (ht : a.device.take block data = .ok s) (hk : a.device.Took s e w i) :
    Runs (c.download block data) a (.done data.length) { a with device := s.syncing } := by
  have hrun := runs_download (c := c) (Simulator.checkOpen_eq h.connected h.isOpen) block data
  have hstays : s.syncing.connected = a.device.connected := by
    rw [hk]
    rfl
  rw [Simulator.download_eq_of_take h hd ht hk, Scene.step_of_connected hstays] at hrun
  exact hrun

/-- The wait after a block that was taken in. -/
theorem runs_pollUntil_of_take {accept : State → Bool} (hbusy : accept .dnBusy = false)
    (hidle : accept .dnloadIdle = true) (h : a.device.Receptive c.patience)
    (hk : a.device.Took s e w i) :
    Runs (c.pollUntil accept) { a with device := s.syncing } (.done s.rested.seen)
      { a with device := s.rested } := by
  have hr : s.rested.Receptive c.patience := h.of_took hk.rested (.inr rfl)
  exact @runs_pollUntil c accept { a with device := s } hbusy hidle
    (Simulator.checkOpen_eq hr.connected hr.isOpen) hr.pendingError hr.busyPolls

/-- A command that the device knows. -/
theorem runs_command {cmd : Command} (h : a.device.Receptive c.patience)
    (ht : a.device.take Connection.commandBlock cmd.payload = .ok s)
    (hk : a.device.Took s e w i) :
    Runs (c.command cmd) a (.done ()) { a with device := s.rested } := by
  have hpayload : cmd.payload ≠ [] := by
    cases cmd with
    | getCommands | setAddress | eraseSector => exact List.cons_ne_nil _ _
  have hr : s.rested.Receptive c.patience := h.of_took hk.rested (.inr rfl)
  refine (runs_download_of_take h hpayload ht hk).bind ?_
  refine (runs_pollUntil_of_take rfl rfl h hk).bind ?_
  rw [if_pos (Simulator.isOk_seen hr.status)]
  exact runs_done ()

/-- A chunk of an image. -/
theorem runs_sendChunk (h : a.device.Receptive c.patience) (hd : data ≠ [])
    (ht : a.device.take block data = .ok s) (hk : a.device.Took s e w i) :
    Runs (c.sendChunk block data) a (.done ()) { a with device := s.rested } := by
  have hr : s.rested.Receptive c.patience := h.of_took hk.rested (.inr rfl)
  have hcheck : s.rested.seen.check .download = .ok () := by
    rw [Status.check, if_pos (Simulator.isOk_seen hr.status)]
  refine (runs_download_of_take h hd ht hk).bind (runs_say_bind ?_)
  refine (runs_pollUntil_of_take rfl rfl h hk).bind ?_
  rw [hcheck]
  refine (runs_done ()).bind ?_
  rw [if_pos rfl]
  exact runs_done ()

end Blocks

/-! ## The last block -/

namespace Bench.Simulator

variable {s s' s'' : Simulator}

/-- The device after the empty block that ends an image. -/
def complete (s : Simulator) : Simulator :=
  { s with state := .manifestSync }

/-- The device while it takes the image over. -/
def manifesting (s : Simulator) : Simulator :=
  { s with state := .manifest }

/-- The device when it is asked after the last block: it leaves the bus if it was told to, and
otherwise takes the image over. -/
def handedOver (s : Simulator) : Simulator :=
  if s.disconnectOnManifest then s.complete.leave else s.complete.manifesting

/-- Between the two states the device may have left the bus or gone on in the protocol; what it holds
and how it was set are the same. -/
def Moved (s s' : Simulator) : Prop :=
  s' = { s with
    connected := s'.connected
    isOpen := s'.isOpen
    claimed := s'.claimed
    state := s'.state }

theorem Moved.refl (s : Simulator) : s.Moved s := rfl

theorem Moved.trans (h : s.Moved s') (h' : s'.Moved s'') : s.Moved s'' := by
  rw [Moved] at h h' ⊢
  rw [h', h]

theorem moved_handedOver (s : Simulator) : s.Moved s.handedOver := by
  unfold handedOver
  split
  · rfl
  · rfl

theorem connected_handedOver (h : s.connected = true) :
    s.handedOver.connected = !s.disconnectOnManifest := by
  unfold handedOver
  cases s.disconnectOnManifest with
  | true => rfl
  | false => exact h

end Bench.Simulator

section Manifestation

variable {c : Connection} {a : Scene}

theorem runs_download_nil (hopen : a.device.checkOpen = .ok ()) (hs : a.device.state = .dnloadIdle)
    (block : UInt16) :
    Runs (c.download block []) a (.done 0) { a with device := a.device.complete } := by
  have hdownload : a.device.download block [] = (.ok 0, a.device.complete) := by
    simp [Simulator.download, Simulator.admits, Simulator.complete, hs]
  have h := runs_download (c := c) hopen block []
  rw [hdownload, Scene.step_of_connected (s := a.device.complete) rfl] at h
  exact h

/-- A device that has all of an image is asked how it is: it leaves, or says that it takes the image
over. -/
theorem runs_getStatus_complete (hopen : a.device.checkOpen = .ok ()) :
    Runs c.getStatus { a with device := a.device.complete }
      (if a.device.disconnectOnManifest then .failed (.transport .disconnected)
        else .done a.device.manifesting.seen)
      (a.step a.device.handedOver) := by
  have h := @runs_getStatus { a with device := a.device.complete } c hopen
  cases hd : a.device.disconnectOnManifest with
  | true =>
    have hget : a.device.complete.getStatus = (.error .disconnected, a.device.complete.leave) := by
      simp [Simulator.getStatus, Simulator.complete, hd]
    rw [hget] at h
    rw [if_pos rfl, Simulator.handedOver, if_pos hd]
    exact h
  | false =>
    have hget : a.device.complete.getStatus =
        (.ok a.device.manifesting.statusBytes, a.device.manifesting) := by
      simp [Simulator.getStatus, Simulator.complete, Simulator.manifesting, hd]
    rw [hget] at h
    rw [if_neg Bool.false_ne_true, Simulator.handedOver, if_neg (by simp [hd])]
    exact h

end Manifestation

/-! ## Exchanges that a device takes in -/

/-- On every device with `P` the exchange ends with `x`, and the device has taken these things in and
has `Q`. -/
def TakesIn {α : Type} (P : Simulator → Prop) (d : Exchange α) (x : α) (erased : List Nat)
    (written : List (Nat × Bytes)) (image : Bytes) (Q : Simulator → Prop) : Prop :=
  ∀ a : Scene, P a.device → ∃ s, Runs d a (.done x) { a with device := s } ∧
    a.device.Took s erased written image ∧ Q s

section TakesIn

variable {α β : Type} {P Q R : Simulator → Prop} {x : α} {y : β} {e e' : List Nat}
  {w w' : List (Nat × Bytes)} {i i' : Bytes}

theorem takesIn_done (x : α) : TakesIn P (.done x) x [] [] [] P :=
  fun a ha => ⟨a.device, runs_done x, .refl _, ha⟩

theorem TakesIn.bind {d : Exchange α} {f : α → Exchange β} (hd : TakesIn P d x e w i Q)
    (hf : TakesIn Q (f x) y e' w' i' R) :
    TakesIn P (d >>= f) y (e ++ e') (w ++ w') (i ++ i') R := by
  intro a ha
  obtain ⟨s, hrun, htook, hs⟩ := hd a ha
  obtain ⟨s', hrun', htook', hs'⟩ := hf { a with device := s } hs
  exact ⟨s', hrun.bind hrun', htook.trans htook', hs'⟩

theorem TakesIn.mono {d : Exchange α} {P' Q' : Simulator → Prop} (h : TakesIn P d x e w i Q)
    (hP : ∀ s, P' s → P s) (hQ : ∀ s, Q s → Q' s) : TakesIn P' d x e w i Q' := by
  intro a ha
  obtain ⟨s, hrun, htook, hs⟩ := h a (hP _ ha)
  exact ⟨s, hrun, htook, hQ s hs⟩

theorem TakesIn.say_bind {level : Level} {text : String} {f : Unit → Exchange β}
    (h : TakesIn P (f ()) y e w i Q) :
    TakesIn P (Exchange.say level text >>= f) y e w i Q := by
  intro a ha
  obtain ⟨s, hrun, hs⟩ := h a ha
  exact ⟨s, runs_say_bind hrun, hs⟩

theorem TakesIn.progress_bind {done : Nat} {total : Option Nat} {f : Unit → Exchange β}
    (h : TakesIn P (f ()) y e w i Q) :
    TakesIn P (Exchange.progress done total >>= f) y e w i Q := by
  intro a ha
  obtain ⟨s, hrun, hs⟩ := h a ha
  exact ⟨s, runs_progress_bind hrun, hs⟩

end TakesIn

end UsbDfu
