import UsbDfu.Proofs.DfuseDownload
import UsbDfu.Proofs.ErasableRange
import UsbDfu.Proofs.SimulatedTransfer

/-!
# Programming a simulated DfuSe device

A DfuSe download on a simulated device goes through three loops: the erase commands, a command and a
chunk for every address, and the last command with the empty block. The device is busy for a while
after each block, and may leave the bus at the end.

- `TakesCommands`: the device knows the commands and will not refuse one.
- `takesIn_eraseSteps` and `takesIn_sendChunksAt`: the two loops, by induction on what is left of them.
- `runs_manifestAt`: the last command and the empty block, whether the device stays or not.
- `download_programs_simulator`: after a download the device has erased, written and kept what the
  erase plan and the chunks say.
-/

namespace UsbDfu

open Dialogue
open Bench (SingleBoard Simulator)

theorem Bytes.ofLe32_le32 {n : Nat} (h : n < addressSpace) :
    Bytes.ofLe32 (UInt8.ofNat n) (UInt8.ofNat (n / 0x100)) (UInt8.ofNat (n / 0x10000))
      (UInt8.ofNat (n / 0x1000000)) = n := by
  rw [addressSpace] at h
  simp only [Bytes.ofLe32, UInt8.toNat_ofNat']
  omega

/-- The addresses that the steps erase at, in order. -/
def eraseAddresses (steps : List EraseStep) : List Nat :=
  steps.filterMap fun
    | .erase address _ => some address
    | .skip _ _ => none

namespace Bench.Simulator

variable {s s' : Simulator} {patience : Nat} {e : List Nat} {w : List (Nat × Bytes)} {i : Bytes}

/-- The device takes blocks, as a DfuSe device that does not refuse a command. -/
structure TakesCommands (patience : Nat) (s : Simulator) : Prop extends s.Receptive patience where
  dfuse : s.dfuse = true
  failCommand : s.failCommand = none

theorem TakesCommands.rested (h : s.TakesCommands patience) (ht : s.Took s' e w i) :
    s'.rested.TakesCommands patience where
  toReceptive := h.of_took ht.rested (.inr rfl)
  dfuse := by
    rw [ht]
    exact h.dfuse
  failCommand := by
    rw [ht]
    exact h.failCommand

theorem take_command (h : s.TakesCommands patience) (data : Bytes) :
    s.take Connection.commandBlock data = s.execute data := by
  have hblock : Connection.commandBlock = 0 := rfl
  rw [take, if_pos h.dfuse, if_pos hblock]

/-- The device with its address pointer set. -/
def pointedAt (s : Simulator) (address : Nat) : Simulator :=
  { s with addressPointer := address }

theorem took_pointedAt (s : Simulator) (address : Nat) : s.Took (s.pointedAt address) [] [] [] := by
  simp [Took, pointedAt]

theorem take_setAddress (h : s.TakesCommands patience) {address : Nat}
    (hlt : address < addressSpace) :
    s.take Connection.commandBlock (Command.setAddress address).payload =
      .ok (s.pointedAt address) := by
  rw [take_command h]
  simp [execute, Command.payload, Bytes.le32, h.failCommand, Bytes.ofLe32_le32 hlt, pointedAt]
  rfl

/-- The device with one more sector erased. -/
def withErased (s : Simulator) (address : Nat) : Simulator :=
  { s with erased := s.erased ++ [address] }

theorem took_withErased (s : Simulator) (address : Nat) :
    s.Took (s.withErased address) [address] [] [] := by
  simp [Took, withErased]

theorem take_eraseSector (h : s.TakesCommands patience) {address : Nat}
    (hlt : address < addressSpace) :
    s.take Connection.commandBlock (Command.eraseSector address).payload =
      .ok (s.withErased address) := by
  rw [take_command h]
  simp [execute, Command.payload, Bytes.le32, h.failCommand, Bytes.ofLe32_le32 hlt, withErased]
  rfl

/-- The device with one more chunk written where its address pointer is. -/
def withWritten (s : Simulator) (chunk : Bytes) : Simulator :=
  { s with written := s.written ++ [(s.addressPointer, chunk)] }

theorem took_withWritten (s : Simulator) (chunk : Bytes) :
    s.Took (s.withWritten chunk) [] [(s.addressPointer, chunk)] [] := by
  simp [Took, withWritten]

/-- A chunk goes where the address pointer is: it is always sent as the first block there. -/
theorem take_chunk (h : s.TakesCommands patience) (hlt : s.addressPointer < addressSpace)
    (chunk : Bytes) : s.take Connection.firstDataBlock chunk = .ok (s.withWritten chunk) := by
  have haddress : s.blockAddress Connection.firstDataBlock = .ok s.addressPointer := by
    have hfirst : Connection.firstDataBlock.toNat - 2 = 0 := rfl
    rw [blockAddress, hfirst, Nat.zero_mul, Word.add_eq hlt, Nat.add_zero]
  rw [take, if_pos h.dfuse, if_neg (by decide), if_neg (by decide), haddress, withWritten]
  rfl

end Bench.Simulator

open Bench.Simulator (TakesCommands)

/-! ## The two loops -/

section Loops

variable {c : Connection} {a : Scene}

theorem runs_setAddress (h : a.device.TakesCommands c.patience) {address : Nat}
    (hlt : address < addressSpace) :
    Runs (c.command (.setAddress address)) a (.done ())
      { a with device := (a.device.pointedAt address).rested } :=
  runs_command h.toReceptive (Simulator.take_setAddress h hlt) (a.device.took_pointedAt address)

theorem takesIn_eraseSector {address : Nat} (hlt : address < addressSpace) :
    TakesIn (TakesCommands c.patience) (c.command (.eraseSector address)) () [address] [] []
      (TakesCommands c.patience) := by
  intro a ha
  have htook := a.device.took_withErased address
  exact ⟨_, runs_command ha.toReceptive (Simulator.take_eraseSector ha hlt) htook, htook.rested,
    ha.rested htook⟩

theorem takesIn_eraseSteps {steps : List EraseStep}
    (hlt : ∀ address size, .erase address size ∈ steps → address < addressSpace)
    (total erased : Nat) :
    TakesIn (TakesCommands c.patience) (c.eraseSteps total erased steps) () (eraseAddresses steps)
      [] [] (TakesCommands c.patience) := by
  induction steps generalizing erased with
  | nil => exact takesIn_done ()
  | cons step rest ih =>
    have hrest := ih fun address size hmem => hlt address size (List.mem_cons_of_mem _ hmem)
    cases step with
    | erase address size =>
      have hthis := hlt address size List.mem_cons_self
      exact .say_bind ((takesIn_eraseSector hthis).bind (.progress_bind (hrest _)))
    | skip start stop => exact .progress_bind (hrest _)

/-- A chunk is written where its address command points. -/
theorem takesIn_sendChunkAt {address : Nat} {chunk : Bytes} (hlt : address < addressSpace)
    (hne : chunk ≠ []) :
    TakesIn (TakesCommands c.patience) (c.sendChunkAt address chunk) () [] [(address, chunk)] []
      (TakesCommands c.patience) := by
  intro a ha
  have htook := (a.device.took_pointedAt address).rested
  have hpointed := ha.rested (a.device.took_pointedAt address)
  have hwritten := (a.device.pointedAt address).rested.took_withWritten chunk
  have hchunk := @runs_sendChunk c { a with device := (a.device.pointedAt address).rested } _ _ _ _
    chunk Connection.firstDataBlock hpointed.toReceptive hne (Simulator.take_chunk hpointed hlt chunk)
    hwritten
  exact ⟨_, (runs_setAddress ha hlt).bind (runs_say_bind hchunk), htook.trans hwritten.rested,
    hpointed.rested hwritten⟩

theorem takesIn_sendChunksAt {chunks : List Bytes} (hne : ∀ chunk ∈ chunks, chunk ≠ [])
    {address : Nat} (hlt : address < addressSpace) (total sent : Nat) :
    TakesIn (TakesCommands c.patience) (c.sendChunksAt total address sent chunks) () []
      (placedFrom address chunks) [] (TakesCommands c.patience) := by
  induction chunks generalizing address sent with
  | nil => exact takesIn_done ()
  | cons chunk rest ih =>
    rw [List.forall_mem_cons] at hne
    have hwrap : wrapAddress (address + chunk.length) < addressSpace := Nat.mod_lt _ (by decide)
    exact (takesIn_sendChunkAt hlt hne.1).bind (.progress_bind (ih hne.2 hwrap _))

end Loops

/-! ## The end of a download -/

section Manifestation

variable {c : Connection} {a : Scene}

/-- The wait for manifestation on a device that has all of an image. -/
theorem runs_pollUntil_manifest (hopen : a.device.checkOpen = .ok ()) :
    ∃ r, Runs (c.pollUntil (· = .manifest)) { a with device := a.device.complete } r
        (a.step a.device.handedOver) ∧
      (r = .failed (.transport .disconnected) ∨
        ∃ status, r = .done status ∧ status.state = .manifest) := by
  have hget := runs_getStatus_complete (c := c) hopen
  cases hd : a.device.disconnectOnManifest with
  | true =>
    rw [hd] at hget
    exact ⟨_, hget.bind_failed _, .inl rfl⟩
  | false =>
    rw [hd] at hget
    refine ⟨.done a.device.manifesting.seen, hget.bind ?_, .inr ⟨_, rfl, rfl⟩⟩
    rw [pollFrom_eq_pure (.inl rfl)]
    exact runs_done _

theorem runs_manifestAt (h : a.device.TakesCommands c.patience) {start : Nat}
    (hlt : start < addressSpace) :
    ∃ b, Runs (c.manifestAt start) a (.done ()) b ∧
      b.device = (a.device.pointedAt start).rested.handedOver := by
  have hpointed := h.rested (a.device.took_pointedAt start)
  have hopen := Simulator.checkOpen_eq hpointed.connected hpointed.isOpen
  have hcomplete := @runs_download_nil c { a with device := (a.device.pointedAt start).rested } hopen
    rfl Connection.commandBlock
  obtain ⟨r, hwait, hr⟩ := @runs_pollUntil_manifest c
    { a with device := (a.device.pointedAt start).rested } hopen
  refine ⟨Scene.step { a with device := (a.device.pointedAt start).rested } _,
    (runs_setAddress h hlt).bind (hcomplete.bind (hwait.attempt.bind_silent ?_)), rfl⟩
  rcases hr with rfl | ⟨status, rfl, hstatus⟩
  · exact runs_say
  · show Runs (if status.state = .manifest then _ else _) _ _ _
    rw [if_pos hstatus]
    exact runs_say

end Manifestation

/-! ## A download as a whole -/

section Download

variable {t : DfuseTransfer} {c : Connection} {m : MemoryMap} {start length : Nat}
  {steps : List EraseStep} {image : Bytes}

theorem runs_resolveStart (hm : t.memory = .ok m) (hs : t.startIn m true = .ok start) (a : Scene) :
    Runs (t.resolveStart true) a (.done start) a := by
  unfold DfuseTransfer.resolveStart
  unfold DfuseTransfer.startIn at hs
  rw [hm]
  refine (runs_done m).bind ?_
  cases ht : t.start? with
  | none =>
    rw [ht] at hs
    cases hs
    exact runs_say_bind (runs_done _)
  | some address =>
    rw [ht] at hs
    cases hfound : (m.segmentAt? address).isSome with
    | false => simp [hfound] at hs
    | true =>
      obtain rfl : address = start := by simpa [hfound] using hs
      show Runs (if (m.segmentAt? address).isSome then _ else _) a _ a
      rw [if_pos hfound]
      exact runs_done _

theorem takesIn_erase (hm : t.memory = .ok m) (hp : m.erasePlan start length = .ok steps) :
    TakesIn (TakesCommands c.patience) (t.erase c start length) () (eraseAddresses steps) [] []
      (TakesCommands c.patience) := by
  have hlt := MemoryMap.erase_lt_of_erasePlan hp
  unfold DfuseTransfer.erase
  simp only [hm, hp, Exchange.ofConfiguration_ok, done_bind]
  split
  · exact .progress_bind (takesIn_eraseSteps hlt _ _)
  · exact takesIn_eraseSteps hlt _ _

/-- A download with a plan, up to the last command. -/
theorem runs_download_of_planned {a : Scene} (hp : t.Planned image.length m start steps)
    (ha : a.device.TakesCommands c.patience) :
    ∃ s b, a.device.Took s (eraseAddresses steps)
        (placed start (max c.transferSize.toNat 1) (Bytes.chunks c.transferSize.toNat image)) [] ∧
      Runs (t.download c image) a (.done ()) b ∧ b.device = (s.pointedAt start).rested.handedOver := by
  have hm := DfuseTransfer.memory_eq_ok_iff.2 hp.memory
  have hstart := DfuseTransfer.startIn_lt hp.startIn
  have hchunks : TakesIn (TakesCommands c.patience)
      (c.sendChunksAt image.length start 0 (Bytes.chunks c.transferSize.toNat image)) () []
      (placedFrom start (Bytes.chunks c.transferSize.toNat image)) [] (TakesCommands c.patience) :=
    takesIn_sendChunksAt (fun _ => Bytes.ne_nil_of_mem_chunks) hstart _ _
  rw [placedFrom_chunks fun hne =>
    MemoryMap.range_lt_addressSpace (List.length_pos_iff.2 hne) hp.erasePlan] at hchunks
  obtain ⟨s₁, herase, htook₁, hs₁⟩ := takesIn_erase (c := c) hm hp.erasePlan a ha
  obtain ⟨s₂, hprogram, htook₂, hs₂⟩ := hchunks { a with device := s₁ } hs₁
  obtain ⟨b, hmanifest, hb⟩ := @runs_manifestAt c { a with device := s₂ } hs₂ start hstart
  refine ⟨s₂, b, ?_, ?_, hb⟩
  · simpa using htook₁.trans htook₂
  · unfold DfuseTransfer.download
    rw [hm]
    refine (runs_done m).bind (runs_say_bind ((runs_resolveStart hm hp.startIn a).bind ?_))
    rw [if_neg (Nat.not_le_of_lt hp.length_lt)]
    refine herase.bind (runs_say_bind (runs_progress_bind (hprogram.bind ?_)))
    exact runs_say_bind (runs_say_bind hmanifest)

end Download

/-- A simulated device that is at rest and was not set to fail takes in every image whose range the
map covers. It has erased what the plan says and written every chunk where it belongs, its address
pointer is at the start, and no block came while it was busy; so too if it leaves the bus when it
takes the image over. -/
theorem download_programs_simulator {t : DfuseTransfer} {c : Connection} {m : MemoryMap}
    {start : Nat} {image : Bytes} {s : Simulator} {w : SingleBoard} (hm : t.memory? = some m)
    (hstart : Transacts (t.resolveStart true) [] (.done start))
    (hcover : ∀ a, start ≤ a → a < start + image.length →
      ∃ segment ∈ m.segments, segment.contains a = true)
    (hsize : 1 ≤ c.transferSize.toNat)
    (hw : w.board = { model := .simulator s, budget := none }) (hs : s.TakesCommands c.patience) :
    ∃ steps s' w', m.erasePlan start image.length = .ok steps ∧
      SingleBoard.run (t.download c image) w = (.done (), w') ∧
      w'.board = { model := .simulator s', budget := none } ∧
      s'.erased = s.erased ++ eraseAddresses steps ∧
      s'.written = s.written ++
        placed start c.transferSize.toNat (Bytes.chunks c.transferSize.toNat image) ∧
      s'.addressPointer = start ∧ s'.violations = s.violations ∧
      s'.connected = !s.disconnectOnManifest := by
  obtain ⟨steps, hplan⟩ := MemoryMap.exists_erasePlan hcover
  obtain ⟨s₂, b, htook, hrun, hb⟩ :=
    @runs_download_of_planned t c m start steps image (Scene.ofBoard s w) ⟨hm, hstart, hplan⟩ hs
  obtain ⟨w', hdone, hw'⟩ := hrun w (Scene.on_ofBoard hw)
  rw [Nat.max_eq_left hsize, Simulator.Took] at htook
  -- at the end the device takes the image over, which changes none of its records
  have hmoved := (s₂.pointedAt start).rested.moved_handedOver
  rw [← hb, Simulator.Moved] at hmoved
  refine ⟨steps, b.device, w', hplan, hdone, hw'.board, ?_, ?_, ?_, ?_, ?_⟩
  · rw [hmoved]
    show s₂.erased = _
    rw [htook]
    rfl
  · rw [hmoved]
    show s₂.written = _
    rw [htook]
    rfl
  · rw [hmoved]
    rfl
  · rw [hmoved]
    show s₂.violations = _
    rw [htook]
    rfl
  · have hconnected : (s₂.pointedAt start).rested.connected = true := by
      show s₂.connected = true
      rw [htook]
      exact hs.connected
    rw [hb, Simulator.connected_handedOver hconnected]
    show (!s₂.disconnectOnManifest) = _
    rw [htook]
    rfl

/-- A simulated boot loader that is busy twice after each block, and leaves the bus at the end. -/
def leavingLoader : Simulator :=
  { Simulator.dfuseLoader ["@Mixed"] 0x0b with
    isOpen := true, busyPolls := 2, disconnectOnManifest := true }

/-- Ten bytes in three chunks, the last of them in memory that cannot be erased. -/
theorem download_programs_leavingLoader : ∃ s' w',
    SingleBoard.run (DfuseTransfer.mixed.download (.new 0 4 8) [1, 2, 3, 4, 5, 6, 7, 8, 9, 10])
      (.ofBoard { model := .simulator leavingLoader, budget := none }) = (.done (), w') ∧
    w'.board = { model := .simulator s', budget := none } ∧ s'.erased = [0x110] ∧
    s'.written = [(0x118, [1, 2, 3, 4]), (0x11c, [5, 6, 7, 8]), (0x120, [9, 10])] ∧
    s'.connected = false := by
  have hstart : Transacts (DfuseTransfer.mixed.resolveStart true) [] (.done 0x118) :=
    DfuseTransfer.planned_mixed.resolved
  have hcover : ∀ a, 0x118 ≤ a → a < 0x118 + 10 →
      ∃ segment ∈ MemoryMap.mixed.segments, segment.contains a = true := by
    intro a hlo hhi
    by_cases hsmall : a < 0x120
    · refine ⟨_, List.mem_cons_of_mem _ List.mem_cons_self, Segment.contains_iff.2 ⟨?_, hsmall⟩⟩
      show 0x100 ≤ a
      omega
    · refine ⟨_, List.mem_cons_self, Segment.contains_iff.2 ⟨Nat.le_of_not_lt hsmall, ?_⟩⟩
      show a < 0x120 + 2 * 0x20
      omega
  have hready : leavingLoader.TakesCommands 8 := by
    constructor
    · constructor
      all_goals decide
    · decide
    · decide
  obtain ⟨steps, s', w', hplan, hrun, hboard, herased, hwritten, -, -, hconnected⟩ :=
    @download_programs_simulator .mixed (.new 0 4 8) .mixed 0x118 [1, 2, 3, 4, 5, 6, 7, 8, 9, 10]
      leavingLoader (.ofBoard { model := .simulator leavingLoader, budget := none }) rfl hstart
      hcover (by decide) rfl hready
  obtain rfl : [.erase 0x110 0x10, .skip 0x120 0x140] = steps :=
    Except.ok.inj (DfuseTransfer.planned_mixed.erasePlan.symm.trans hplan)
  exact ⟨s', w', hrun, hboard, herased, hwritten.trans (by decide +kernel), hconnected⟩

end UsbDfu
