import UsbDfu.Proofs.PlainDownload
import UsbDfu.Proofs.SimulatedTransfer

/-!
# An image on a simulated device

A simulated device of plain DFU 1.1 takes an image in, takes it over, and is reset, whether it leaves
the bus meanwhile or not.

- `TakesImage` and `AwaitsMore`: the device takes blocks of an image, and rests between two of them.
  `takesIn_sendChunks` is the loop over the chunks.
- `runs_awaitManifested`, `runs_triggerManifestation` and `runs_resetAfterDownload`: what comes after
  the image, for a device that is expected to stay and for one that is not.
- `runs_writeBlocks`: the transfer as a whole.
-/

namespace UsbDfu

open Dialogue
open Bench (Simulator)

/-! ## The image -/

namespace Bench.Simulator

variable {s s' : Simulator} {patience : Nat} {e : List Nat} {w : List (Nat × Bytes)} {i : Bytes}

/-- The device takes blocks, and they are those of an image. -/
structure TakesImage (patience : Nat) (s : Simulator) : Prop extends s.Receptive patience where
  dfuse : s.dfuse = false

/-- The device is at rest between two blocks of an image. -/
structure AwaitsMore (patience : Nat) (s : Simulator) : Prop extends s.TakesImage patience where
  between : s.state = .dnloadIdle

theorem TakesImage.rested (h : s.TakesImage patience) (ht : s.Took s' e w i) :
    s'.rested.AwaitsMore patience where
  toReceptive := h.of_took ht.rested (.inr rfl)
  dfuse := by
    rw [ht]
    exact h.dfuse
  between := rfl

/-- The device with more of an image. -/
def withImage (s : Simulator) (chunk : Bytes) : Simulator :=
  { s with downloaded := s.downloaded ++ chunk }

theorem took_withImage (s : Simulator) (chunk : Bytes) : s.Took (s.withImage chunk) [] [] chunk := by
  simp [Took, withImage]

theorem take_image (h : s.dfuse = false) (block : UInt16) (chunk : Bytes) :
    s.take block chunk = .ok (s.withImage chunk) := by
  rw [take, if_neg (by simp [h]), withImage]
  rfl

end Bench.Simulator

open Bench.Simulator (TakesImage AwaitsMore)

section Image

variable {c : Connection} {chunk : Bytes} {chunks : List Bytes}

theorem takesIn_sendChunk (hne : chunk ≠ []) (block : UInt16) :
    TakesIn (TakesImage c.patience) (c.sendChunk block chunk) () [] [] chunk
      (AwaitsMore c.patience) := by
  intro a ha
  have htook := a.device.took_withImage chunk
  exact ⟨_, runs_sendChunk ha.toReceptive hne (Simulator.take_image ha.dfuse block chunk) htook,
    htook.rested, ha.rested htook⟩

/-- The next chunk, after which the device is between two blocks. -/
theorem takesIn_sendChunks_cons {total : Nat} {block x : UInt16} {image : Bytes} (sent : Nat)
    (hne : chunk ≠ []) (hrest : ∀ sent, TakesIn (AwaitsMore c.patience)
      (c.sendChunks total (block + 1) sent chunks) x [] [] image (AwaitsMore c.patience)) :
    TakesIn (TakesImage c.patience) (c.sendChunks total block sent (chunk :: chunks)) x [] []
      (chunk ++ image) (AwaitsMore c.patience) :=
  (takesIn_sendChunk hne block).bind (.progress_bind (hrest _))

theorem takesIn_sendChunks (c : Connection) (hne : ∀ chunk ∈ chunks, chunk ≠ []) (total : Nat)
    (block : UInt16) :
    ∃ x, ∀ sent, TakesIn (AwaitsMore c.patience) (c.sendChunks total block sent chunks) x [] []
      chunks.flatten (AwaitsMore c.patience) := by
  induction chunks generalizing block with
  | nil => exact ⟨block, fun _ => takesIn_done _⟩
  | cons chunk rest ih =>
    rw [List.forall_mem_cons] at hne
    obtain ⟨x, hrest⟩ := ih hne.2 (block + 1)
    exact ⟨x, fun sent => (takesIn_sendChunks_cons sent hne.1 hrest).mono
      (fun _ h => AwaitsMore.toTakesImage h) fun _ h => h⟩

/-- The chunks of an image that is not empty. -/
theorem takesIn_chunks {image : Bytes} (hne : image ≠ []) (size : Nat) :
    ∃ x, TakesIn (TakesImage c.patience)
      (c.sendChunks image.length 0 0 (Bytes.chunks size image)) x [] [] image
      (AwaitsMore c.patience) := by
  have hmem : ∀ chunk ∈ Bytes.chunks size image, chunk ≠ [] :=
    fun _ => Bytes.ne_nil_of_mem_chunks
  have hflatten := Bytes.flatten_chunks size image
  rw [Bytes.chunks_of_ne_nil hne] at hmem hflatten ⊢
  rw [List.forall_mem_cons] at hmem
  obtain ⟨x, hrest⟩ := takesIn_sendChunks c hmem.2 image.length (0 + 1)
  have hall := takesIn_sendChunks_cons 0 hmem.1 hrest
  rw [← List.flatten_cons, hflatten] at hall
  exact ⟨x, hall⟩

end Image

/-! ## After the image -/

/-- Two steps of which the second does not bring the device back onto the bus. -/
theorem Scene.step_step {a : Scene} {s s' : Simulator} (ha : a.device.connected = true)
    (hid : s.id = a.device.id) (h : s'.connected = true → s.connected = true) :
    (a.step s).step s' = a.step s' := by
  simp only [Scene.step, ha, hid]
  cases hs : s.connected with
  | true => simp
  | false =>
    have hs' : s'.connected = false := by simpa [hs] using h
    simp [hs']

namespace Bench.Simulator

variable {s s' : Simulator}

/-- The device once it has taken the image over, if it is still there. -/
def manifested (s : Simulator) : Simulator :=
  if s.manifestationTolerant && !s.waitResetWhenTolerant then { s with state := .dfuIdle }
  else { s with state := .manifestWaitReset }

theorem moved_manifested (s : Simulator) : s.Moved s.manifested := by
  unfold manifested
  split
  · rfl
  · rfl

theorem connected_manifested (s : Simulator) : s.manifested.connected = s.connected := by
  unfold manifested
  split
  · rfl
  · rfl

theorem state_manifested (s : Simulator) :
    s.manifested.state = .dfuIdle ∨ s.manifested.state = .manifestWaitReset := by
  unfold manifested
  split
  · exact .inl rfl
  · exact .inr rfl

end Bench.Simulator

section Endings

variable {c : Connection} {a : Scene}

theorem runs_getStatus_manifested (hopen : a.device.checkOpen = .ok ())
    (hs : a.device.state = .manifest) :
    Runs c.getStatus a (.done a.device.manifested.seen)
      { a with device := a.device.manifested } := by
  refine runs_getStatus_of_stays hopen ?_ a.device.connected_manifested
  simp [Simulator.getStatus, Simulator.manifested, hs]

/-- The wait for manifestation on a device that stays: it says once that it takes the image over, and
then that it has. -/
theorem runs_pollUntil_manifested (hopen : a.device.checkOpen = .ok ())
    (hd : a.device.disconnectOnManifest = false) (hp : 1 ≤ c.patience) :
    Runs (c.pollUntil fun s => s = .dfuIdle || s = .manifestWaitReset)
      { a with device := a.device.complete } (.done a.device.manifesting.manifested.seen)
      { a with device := a.device.manifesting.manifested } := by
  obtain ⟨rounds, hrounds⟩ : ∃ rounds, c.patience = rounds + 1 := ⟨_, (Nat.sub_add_cancel hp).symm⟩
  have hfirst := runs_getStatus_complete (c := c) hopen
  have hthere : a.step a.device.handedOver = { a with device := a.device.manifesting } := by
    rw [Simulator.handedOver, if_neg (by simp [hd])]
    exact Scene.step_of_connected rfl
  rw [hthere, hd] at hfirst
  have hagain := @runs_getStatus_manifested c { a with device := a.device.manifesting } hopen rfl
  rw [Connection.pollUntil, hrounds]
  refine hfirst.bind (runs_pollFrom_succ rfl (by rintro ⟨⟩) (hagain.bind ?_))
  have hend : a.device.manifesting.manifested.seen.state = .dfuIdle ∨
      a.device.manifesting.manifested.seen.state = .manifestWaitReset := by
    rw [Simulator.seen]
    rcases a.device.manifesting.state_manifested with hs | hs
    · rw [hs]
      exact .inl rfl
    · rw [hs]
      exact .inr rfl
  rw [pollFrom_eq_pure (.inl (by simpa using hend))]
  exact runs_done _

/-- The device takes the image over while it is watched. -/
theorem runs_awaitManifested (hc : a.device.connected = true) (ho : a.device.isOpen = true)
    (hok : a.device.status = .ok) (hp : 1 ≤ c.patience) :
    ∃ s, Runs c.awaitManifested { a with device := a.device.complete } (.done ()) (a.step s) ∧
      a.device.Moved s ∧ s.connected = !a.device.disconnectOnManifest := by
  have hopen := Simulator.checkOpen_eq hc ho
  -- a device that leaves fails the first look, and that is forgiven
  cases hd : a.device.disconnectOnManifest with
  | true =>
    have hget := runs_getStatus_complete (c := c) hopen
    rw [hd] at hget
    refine ⟨a.device.handedOver, (hget.bind_failed _).attempt.bind_silent ?_,
      a.device.moved_handedOver, (Simulator.connected_handedOver hc).trans (by rw [hd])⟩
    exact runs_say
  | false =>
    have hwait := runs_pollUntil_manifested hopen hd hp
    have hmoved : a.device.Moved a.device.manifesting.manifested :=
      (show a.device.Moved a.device.manifesting from rfl).trans (Simulator.moved_manifested _)
    have hconnected : a.device.manifesting.manifested.connected = a.device.connected :=
      Simulator.connected_manifested _
    have hcheck : a.device.manifesting.manifested.seen.check .manifest = .ok () := by
      rw [Status.check, if_pos (Simulator.isOk_seen _)]
      rw [hmoved]
      exact hok
    refine ⟨_, ?_, hmoved, hconnected.trans hc⟩
    rw [Scene.step_of_connected hconnected]
    have hend : Runs (Exchange.ofProtocol (a.device.manifesting.manifested.seen.check .manifest))
        { a with device := a.device.manifesting.manifested } (.done ())
        { a with device := a.device.manifesting.manifested } := by
      rw [hcheck]
      exact runs_done ()
    refine hwait.attempt.bind_silent ?_
    show Runs (if _ then _ else _) _ _ _
    split
    · exact runs_say_bind hend
    · exact hend

/-- The device is asked once, which makes it take the image over. -/
theorem runs_triggerManifestation (hc : a.device.connected = true) (ho : a.device.isOpen = true) :
    Runs c.triggerManifestation { a with device := a.device.complete } (.done ())
      (a.step a.device.handedOver) := by
  refine (runs_getStatus_complete (Simulator.checkOpen_eq hc ho)).attempt.bind_silent ?_
  cases a.device.disconnectOnManifest with
  | true => exact runs_say
  | false => exact runs_say

/-- A reset that the device does not refuse. -/
theorem runs_resetAfterDownload (hreset : a.device.resetBehavior ≠ .failStall) :
    ∃ s, Runs Connection.resetAfterDownload a (.done ()) (a.step s) ∧ a.device.Moved s ∧
      s.connected = (a.device.connected && a.device.resetBehavior = .ignore) := by
  have h := runs_reset (a := a)
  rw [Simulator.reset] at h
  -- gone already, or gone by the reset, or still there: none of them is a failure
  cases hc : a.device.connected with
  | false =>
    rw [hc] at h
    exact ⟨a.device, h.attempt.bind_silent runs_say, .refl _, hc⟩
  | true =>
    rw [hc] at h
    cases hr : a.device.resetBehavior with
    | reenumerate =>
      rw [hr] at h
      exact ⟨a.device.leave, h.attempt.bind_silent (runs_done ()), rfl, rfl⟩
    | ignore =>
      rw [hr] at h
      exact ⟨a.device, h.attempt.bind_silent (runs_done ()), .refl _, hc⟩
    | failDisconnected =>
      rw [hr] at h
      exact ⟨a.device.leave, h.attempt.bind_silent runs_say, rfl, rfl⟩
    | failStall => exact absurd hr hreset

end Endings

/-- The end of a download, from the device that has all of an image on. -/
theorem runs_manifest_reset {c : Connection} {a : Scene} (tolerant : Bool)
    (ha : a.device.AwaitsMore c.patience) (hp : 1 ≤ c.patience)
    (hreset : a.device.resetBehavior ≠ .failStall) :
    ∃ s, Runs ((if tolerant then c.awaitManifested else c.triggerManifestation) >>= fun _ =>
        Connection.resetAfterDownload) { a with device := a.device.complete } (.done ()) (a.step s) ∧
      a.device.Moved s ∧
      s.connected = (!a.device.disconnectOnManifest && a.device.resetBehavior = .ignore) := by
  obtain ⟨s₁, hmanifest, hmoved₁, hconnected₁⟩ : ∃ s,
      Runs (if tolerant then c.awaitManifested else c.triggerManifestation)
        { a with device := a.device.complete } (.done ()) (a.step s) ∧ a.device.Moved s ∧
      s.connected = !a.device.disconnectOnManifest := by
    cases tolerant with
    | true => exact runs_awaitManifested ha.connected ha.isOpen ha.status hp
    | false =>
      exact ⟨_, runs_triggerManifestation ha.connected ha.isOpen, a.device.moved_handedOver,
        Simulator.connected_handedOver ha.connected⟩
  have hbehavior : s₁.resetBehavior = a.device.resetBehavior := by
    rw [hmoved₁]
  obtain ⟨s₂, hdone, hmoved₂, hconnected₂⟩ := @runs_resetAfterDownload (a.step s₁)
    (fun h => hreset (hbehavior.symm.trans h))
  change s₂.connected = (s₁.connected && decide (s₁.resetBehavior = .ignore)) at hconnected₂
  have hid : s₁.id = a.device.id := by
    rw [hmoved₁]
  -- two steps of the scene are one: the device leaves once at most
  have hstep : (a.step s₁).step s₂ = a.step s₂ := by
    refine Scene.step_step ha.connected hid fun hstays => ?_
    rw [hconnected₂, Bool.and_eq_true] at hstays
    exact hstays.1
  rw [hstep] at hdone
  refine ⟨s₂, hmanifest.bind hdone, hmoved₁.trans hmoved₂, ?_⟩
  rw [hconnected₂, hconnected₁, hbehavior]

/-- An image that is not empty, written to a simulated device at rest. -/
theorem runs_writeBlocks {c : Connection} {a : Scene} {image : Bytes} (size : UInt16)
    (tolerant : Bool) (hne : image ≠ []) (ha : a.device.TakesImage c.patience) (hp : 1 ≤ c.patience)
    (hreset : a.device.resetBehavior ≠ .failStall) :
    ∃ s, Runs (c.writeBlocks size image tolerant) a (.done ()) (a.step s) ∧
      s.downloaded = a.device.downloaded ++ image ∧ s.violations = a.device.violations ∧
      s.id = a.device.id ∧
      s.connected = (!a.device.disconnectOnManifest && a.device.resetBehavior = .ignore) := by
  obtain ⟨x, himage⟩ := takesIn_chunks (c := c) hne size.toNat
  obtain ⟨s₁, hchunks, htook, hs₁⟩ := himage a ha
  have hsame : s₁.connected = a.device.connected ∧ s₁.id = a.device.id ∧
      s₁.disconnectOnManifest = a.device.disconnectOnManifest ∧
      s₁.resetBehavior = a.device.resetBehavior ∧ s₁.violations = a.device.violations ∧
      s₁.downloaded = a.device.downloaded ++ image := by
    rw [htook]
    exact ⟨rfl, rfl, rfl, rfl, rfl, rfl⟩
  obtain ⟨hconnected, hid, hleaves, hbehavior, hviolations, hdownloaded⟩ := hsame
  have hnil := @runs_download_nil c { a with device := s₁ }
    (Simulator.checkOpen_eq hs₁.connected hs₁.isOpen) hs₁.between x
  obtain ⟨s₂, hend, hmoved, hconnected₂⟩ := @runs_manifest_reset c { a with device := s₁ } tolerant hs₁
    hp (fun h => hreset (hbehavior.symm.trans h))
  have hstep : Scene.step { a with device := s₁ } s₂ = a.step s₂ := by
    simp only [Scene.step, hconnected, hid]
  rw [hstep] at hend
  refine ⟨s₂, ?_, ?_, ?_, ?_, ?_⟩
  · refine runs_say_bind (runs_progress_bind (hchunks.bind (runs_say_bind (hnil.bind ?_))))
    refine runs_say_bind (runs_say_bind ?_)
    cases tolerant with
    | true => exact hend
    | false => exact hend
  · rw [hmoved]
    exact hdownloaded
  · rw [hmoved]
    exact hviolations
  · rw [hmoved]
    exact hid
  · rw [hconnected₂]
    show (!s₁.disconnectOnManifest && decide (s₁.resetBehavior = .ignore)) = _
    rw [hleaves, hbehavior]

end UsbDfu
