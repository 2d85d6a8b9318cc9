import UsbDfu.Proofs.ErasePlan
import UsbDfu.Proofs.PlainDownload
import UsbDfu.Transfer.Dfuse

/-!
# Downloads of the DfuSe extension

- `DfuseTransfer.Planned`: the map, the start and the erase plan that a download goes by. They
  depend on the image's length only and are known before the first command.
- `DfuseTransfer.eq_nil_of_not_planned`: without them the device gets no call.
- `DfuseTransfer.Planned.deliveredAll`: with them a download is the delivery of the erase commands,
  of every chunk where it belongs (`placed`), and of the manifestation.
- `placedFrom_chunks`: the addresses, which the download adds up modulo the address space, do not
  wrap. An image that has an erase plan ends inside a segment.
- `download_delivers_plan`: the blocks a device sees of a download.
-/

namespace UsbDfu

open Dialogue Exchange

/-! ## Commands and the last block -/

namespace Delivery

/-- A command: the wait for it has to end with OK. -/
def command (cmd : Command) : Delivery where
  block := Connection.commandBlock
  data := cmd.payload
  accept s := s ≠ .dnBusy
  verdict _
    | .error e => .error e
    | .ok s =>
      if s.isOk then .ok ()
      else .error (.protocol (.commandFailed cmd.kind s.state s.code))

/-- The empty block on which the device takes the image over, whatever it says then. -/
def manifestation : Delivery where
  block := Connection.commandBlock
  data := []
  accept s := s = .manifest
  verdict _ _ := .ok ()

end Delivery

section

variable {c : Connection} {ws : List Transaction} {o : Outcome Failure Unit}

theorem delivered_command {cmd : Command} (h : Transacts (c.command cmd) ws o) :
    Delivered (.command cmd) ws o := by
  refine Delivered.of_download (fun taken ws o hg => ?_) h
  refine polled_judge (fun _ => rfl) (fun s ws o hf => ?_) hg
  rw [← transacts_ofExcept_iff]
  by_cases hs : s.isOk = true
  · simpa [Delivery.command, hs, Dialogue.ofExcept] using hf
  · simpa [Delivery.command, hs, Dialogue.ofExcept] using hf

theorem delivers_command (c : Connection) (cmd : Command) :
    Delivers (c.command cmd) [.command cmd] () :=
  .of_delivered fun _ _ => delivered_command

theorem delivers_manifestAt (c : Connection) (start : Nat) :
    Delivers (c.manifestAt start) [.command (.setAddress start), .manifestation] () := by
  refine .cons (delivers_command c _) (.of_delivered fun ws o h => ?_)
  refine Delivered.of_download (j := .manifestation) (fun taken ws o hg => ?_) h
  refine polled_attempt_judge (fun _ _ => polled_pollUntil) (fun r ws o hf => ?_) hg
  rw [← transacts_ofExcept_iff]
  cases r with
  | error e => simpa [Delivery.manifestation, Dialogue.ofExcept, transacts_done_iff] using hf
  | ok s =>
    by_cases hm : s.state = .manifest
    · simpa [Delivery.manifestation, hm, Dialogue.ofExcept, transacts_done_iff] using hf
    · simpa [Delivery.manifestation, hm, Dialogue.ofExcept, transacts_done_iff] using hf

end

/-! ## The three phases -/

/-- The deliveries of an erase plan. -/
def eraseDeliveries (steps : List EraseStep) : List Delivery :=
  steps.filterMap fun
    | .erase address _ => some (.command (.eraseSector address))
    | .skip _ _ => none

theorem delivers_eraseSteps (c : Connection) (total erased : Nat) (steps : List EraseStep) :
    Delivers (c.eraseSteps total erased steps) (eraseDeliveries steps) () := by
  induction steps generalizing erased with
  | nil => exact .done ()
  | cons step rest ih =>
    cases step with
    | erase address size =>
      exact .say_bind (.cons (delivers_command c _) (.progress_bind (ih _)))
    | skip start stop => exact .progress_bind (ih _)

/-- The deliveries of chunks with their addresses. -/
def programDeliveries (chunks : List (Nat × Bytes)) : List Delivery :=
  chunks.flatMap fun (address, chunk) =>
    [.command (.setAddress address), .chunk Connection.firstDataBlock chunk]

/-- Chunks that follow one another from an address on. -/
def placedFrom : Nat → List Bytes → List (Nat × Bytes)
  | _, [] => []
  | address, chunk :: rest =>
    (address, chunk) :: placedFrom (wrapAddress (address + chunk.length)) rest

theorem delivers_sendChunksAt (c : Connection) (total address sent : Nat) (chunks : List Bytes) :
    Delivers (c.sendChunksAt total address sent chunks)
      (programDeliveries (placedFrom address chunks)) () := by
  induction chunks generalizing address sent with
  | nil => exact .done ()
  | cons chunk rest ih =>
    have hchunk : Delivers (c.sendChunkAt address chunk)
        [.command (.setAddress address), .chunk Connection.firstDataBlock chunk] () :=
      .cons (delivers_command c _)
        (.say_bind (.of_delivered fun _ _ => delivered_sendChunk))
    exact .bind hchunk (.progress_bind (ih _ _))

/-- Chunk `i` at `i` times the size after the start. -/
def placed (start size : Nat) (chunks : List Bytes) : List (Nat × Bytes) :=
  chunks.zipIdx.map fun (chunk, i) => (start + i * size, chunk)

theorem mem_placed {start size : Nat} {chunks : List Bytes} {p : Nat × Bytes}
    (h : p ∈ placed start size chunks) :
    ∃ i, chunks[i]? = some p.2 ∧ p.1 = start + i * size := by
  obtain ⟨⟨chunk, i⟩, hm, rfl⟩ := List.mem_map.1 h
  exact ⟨i, List.mem_zipIdx_iff_getElem?.1 hm, rfl⟩

/-- The addresses of the chunks of an image that ends below the top of the address space do not
wrap. -/
theorem placedFrom_chunks {start size : Nat} {image : Bytes}
    (h : image ≠ [] → start + image.length < addressSpace) :
    placedFrom start (Bytes.chunks size image) =
      placed start (max size 1) (Bytes.chunks size image) := by
  -- from the `i`-th chunk on, since the cursor of the walk has gone on by `i` chunks
  suffices hs : ∀ i, (image ≠ [] → start + i * max size 1 + image.length < addressSpace) →
      placedFrom (start + i * max size 1) (Bytes.chunks size image) =
        ((Bytes.chunks size image).zipIdx i).map fun (chunk, i) => (start + i * max size 1, chunk) by
    simpa [placed] using hs 0 (by simpa using h)
  clear h
  fun_induction Bytes.chunks size image with
  | case1 => exact fun _ _ => rfl
  | case2 data hne ih =>
    intro i h
    have hend := h hne
    rw [placedFrom, List.zipIdx_cons, List.map_cons]
    refine congrArg _ ?_
    -- only the last chunk may be short, and after it no address is needed
    by_cases hr : data.drop (max size 1) = []
    · rw [hr, Bytes.chunks_nil]
      rfl
    · have hfull : (data.take (max size 1)).length = max size 1 := by
        rw [List.drop_eq_nil_iff] at hr
        rw [List.length_take]
        omega
      have hnext : start + i * max size 1 + (data.take (max size 1)).length =
          start + (i + 1) * max size 1 := by
        rw [hfull, Nat.succ_mul, Nat.add_assoc]
      have hle : (data.take (max size 1)).length ≤ data.length := List.length_take_le' ..
      rw [wrapAddress, Nat.mod_eq_of_lt (by omega), hnext]
      refine ih (i + 1) fun _ => ?_
      rw [← hnext, List.length_drop]
      omega

/-! ## The plan of a download -/

namespace DfuseTransfer

variable {t : DfuseTransfer} {c : Connection} {image : Bytes} {ws : List Transaction}
  {o : Outcome Failure Unit} {start : Nat} {steps : List EraseStep}

/-- The address a transfer over the map starts at. -/
def startIn (t : DfuseTransfer) (m : MemoryMap) (strict : Bool) : Except ConfigurationError Nat :=
  match t.start? with
  | none => .ok m.first.start
  | some address =>
    if (m.segmentAt? address).isSome || !strict then .ok address
    else .error (.addressOutOfRange address)

theorem memory_eq_ok_iff {m : MemoryMap} : t.memory = .ok m ↔ t.memory? = some m := by
  unfold memory
  split
  · rename_i m' hm
    simp [hm]
  · rename_i hm
    simp [hm]

/-- Finding the start asks the device nothing. -/
theorem transacts_resolveStart_iff {m : MemoryMap} {strict : Bool} {r : Outcome Failure Nat}
    (hm : t.memory = .ok m) :
    Transacts (t.resolveStart strict) ws r ↔
      ws = [] ∧ r = .ofExcept ((t.startIn m strict).mapError .configuration) := by
  unfold resolveStart startIn
  rw [hm, ← transacts_ofExcept_iff]
  cases ht : t.start? with
  | none => exact transacts_say_bind
  | some address =>
    by_cases ha : (m.segmentAt? address).isSome = true
    · simp [ha, Dialogue.ofExcept]
    · cases strict with
      | true => simp [ha, Dialogue.ofExcept]
      | false => simp [ha, Dialogue.ofExcept]

theorem transacts_resolveStart_bind {m : MemoryMap} {strict : Bool} {f : Nat → Exchange Unit}
    (hm : t.memory = .ok m) (h : Transacts (t.resolveStart strict >>= f) ws o) :
    Transacts (Exchange.ofConfiguration (t.startIn m strict) >>= f) ws o := by
  obtain ⟨r, w₁, w₂, h₁, h₂, rfl⟩ := transacts_bind_iff.1 h
  obtain ⟨rfl, rfl⟩ := (transacts_resolveStart_iff hm).1 h₁
  cases hs : t.startIn m strict with
  | error e =>
    rw [hs] at h₂
    exact h₂
  | ok start =>
    rw [hs] at h₂
    exact h₂

theorem delivers_erase {m : MemoryMap} {length : Nat} (hm : t.memory = .ok m)
    (hp : m.erasePlan start length = .ok steps) :
    Delivers (t.erase c start length) (eraseDeliveries steps) () := by
  unfold erase
  rw [hm]
  show Delivers (Exchange.ofConfiguration (m.erasePlan start length) >>= _) _ _
  rw [hp]
  show Delivers (if _ then _ else _) _ _
  split
  · exact .progress_bind (delivers_eraseSteps c _ _ steps)
  · exact delivers_eraseSteps c _ _ steps

/-- What a download goes by is known before the first command: the map, the start and the erase
plan. -/
structure Planned (t : DfuseTransfer) (length : Nat) (m : MemoryMap) (start : Nat)
    (steps : List EraseStep) : Prop where
  memory : t.memory? = some m
  resolved : Transacts (t.resolveStart true) [] (.done start)
  erasePlan : m.erasePlan start length = .ok steps

namespace Planned

variable {m : MemoryMap} {length : Nat}

theorem startIn (h : t.Planned length m start steps) : t.startIn m true = .ok start := by
  obtain ⟨-, hr⟩ := (transacts_resolveStart_iff (memory_eq_ok_iff.2 h.memory)).1 h.resolved
  cases hs : t.startIn m true with
  | error e =>
    rw [hs] at hr
    cases hr
  | ok start' =>
    rw [hs] at hr
    cases hr
    rfl

theorem of_startIn (hm : t.memory? = some m) (hs : t.startIn m true = .ok start)
    (hp : m.erasePlan start length = .ok steps) : t.Planned length m start steps where
  memory := hm
  resolved := by simp [transacts_resolveStart_iff (memory_eq_ok_iff.2 hm), hs]
  erasePlan := hp

theorem length_lt (h : t.Planned length m start steps) : length < addressSpace := by
  by_cases hlen : 0 < length
  · have := MemoryMap.range_lt_addressSpace hlen h.erasePlan
    omega
  · have : 0 < addressSpace := by decide
    omega

end Planned

/-- A download without a plan calls nothing. -/
theorem eq_nil_of_not_planned (hn : ∀ m start steps, ¬ t.Planned image.length m start steps)
    (h : Transacts (t.download c image) ws o) : ws = [] ∧ ∃ e, o = .failed (.configuration e) := by
  unfold download at h
  suffices hs : ∃ e, ws = [] ∧ o = .failed (.configuration e) by
    obtain ⟨e, hw, ho⟩ := hs
    exact ⟨hw, e, ho⟩
  -- the checks in the order of the program; the first that fails leaves nothing to call
  cases hm : t.memory with
  | error e =>
    rw [hm] at h
    exact ⟨e, transacts_fail_iff.1 h⟩
  | ok m =>
    rw [hm] at h
    have h' := transacts_resolveStart_bind hm (transacts_say_bind.1 h)
    cases hs : t.startIn m true with
    | error e =>
      rw [hs] at h'
      exact ⟨e, transacts_fail_iff.1 h'⟩
    | ok start =>
      rw [hs] at h'
      by_cases hl : addressSpace ≤ image.length
      · simp only [ofConfiguration_ok, done_bind, hl, if_true, throw_eq, fail_bind] at h'
        exact ⟨_, transacts_fail_iff.1 h'⟩
      · simp only [ofConfiguration_ok, done_bind, hl, if_false] at h'
        cases hp : m.erasePlan start image.length with
        | error e =>
          have hf : t.erase c start image.length = .fail (.configuration e) := by
            simp [erase, hm, hp]
          rw [hf] at h'
          exact ⟨e, transacts_fail_iff.1 h'⟩
        | ok steps => exact absurd (.of_startIn (memory_eq_ok_iff.1 hm) hs hp) (hn m start steps)

/-- A start that is looked for strictly is an address. -/
theorem startIn_lt {m : MemoryMap} (h : t.startIn m true = .ok start) : start < addressSpace := by
  unfold startIn at h
  cases ht : t.start? with
  | none =>
    rw [ht] at h
    cases h
    exact Nat.lt_of_le_of_lt (Nat.le_add_right _ _) m.first.stop_lt
  | some address =>
    rw [ht] at h
    cases ha : m.segmentAt? address with
    | none => simp [ha] at h
    | some s =>
      obtain rfl : address = start := by simpa [ha] using h
      have := (Segment.contains_iff.1 (MemoryMap.segmentAt?_contains ha)).2
      exact Nat.lt_trans this s.stop_lt_addressSpace

/-- The deliveries of a download: the erase plan, the chunks where they belong, and the start once
more with an empty block. -/
def deliveries (start : Nat) (steps : List EraseStep) (chunks : List (Nat × Bytes)) : List Delivery :=
  eraseDeliveries steps ++ (programDeliveries chunks ++
    [.command (.setAddress start), .manifestation])

/-- A download with a plan carries it out. -/
theorem Planned.deliveredAll {m : MemoryMap} (hp : t.Planned image.length m start steps)
    (h : Transacts (t.download c image) ws o) :
    DeliveredAll (deliveries start steps (placed start (max c.transferSize.toNat 1)
      (Bytes.chunks c.transferSize.toNat image))) ws o := by
  have hm := memory_eq_ok_iff.2 hp.memory
  have hl := Nat.not_le_of_lt hp.length_lt
  unfold download at h
  rw [hm] at h
  have h' := transacts_resolveStart_bind hm (transacts_say_bind.1 h)
  rw [hp.startIn] at h'
  simp only [ofConfiguration_ok, done_bind, hl, if_false] at h'
  obtain ⟨o', ho, rfl⟩ : ∃ o', DeliveredAll (deliveries start steps
      (placedFrom start (Bytes.chunks c.transferSize.toNat image))) ws o' ∧ o = o'.map fun _ => () := by
    refine Delivers.bind (delivers_erase hm hp.erasePlan) ?_ _ _ h'
    refine .say_bind (.progress_bind (.bind (delivers_sendChunksAt c _ _ _ _) ?_))
    exact .say_bind (.say_bind (delivers_manifestAt c start))
  rw [placedFrom_chunks fun hne =>
    MemoryMap.range_lt_addressSpace (List.length_pos_iff.2 hne) hp.erasePlan] at ho
  rwa [Outcome.map_unit]

end DfuseTransfer

/-! ## What the device sees -/

/-- The blocks of an erase plan. -/
def eraseBlocks (steps : List EraseStep) : List (UInt16 × Bytes) :=
  steps.filterMap fun
    | .erase address _ => some (0, 0x41 :: Bytes.le32 address)
    | .skip _ _ => none

/-- The blocks of chunks with their addresses. -/
def programBlocks (chunks : List (Nat × Bytes)) : List (UInt16 × Bytes) :=
  chunks.flatMap fun (address, chunk) => [(0, 0x21 :: Bytes.le32 address), (2, chunk)]

/-- The blocks that have the device take the image over. -/
def manifestBlocks (start : Nat) : List (UInt16 × Bytes) :=
  [(0, 0x21 :: Bytes.le32 start), (0, [])]

theorem map_eraseDeliveries (steps : List EraseStep) :
    ((eraseDeliveries steps).map fun j => (j.block, j.data)) = eraseBlocks steps := by
  induction steps with
  | nil => rfl
  | cons step rest ih =>
    cases step with
    | erase address size => exact congrArg (_ :: ·) ih
    | skip start stop => exact ih

theorem map_deliveries (start : Nat) (steps : List EraseStep) (chunks : List (Nat × Bytes)) :
    ((DfuseTransfer.deliveries start steps chunks).map fun j => (j.block, j.data)) =
      eraseBlocks steps ++ programBlocks chunks ++ manifestBlocks start := by
  have hprogram : ((programDeliveries chunks).map fun j => (j.block, j.data)) = programBlocks chunks := by
    rw [programDeliveries, List.map_flatMap]
    rfl
  rw [DfuseTransfer.deliveries, List.map_append, List.map_append, map_eraseDeliveries, hprogram,
    List.append_assoc]
  rfl

/-- The states that end the wait after a block. -/
def settled (block : UInt16) (state : State) : Bool :=
  if block = Connection.firstDataBlock then state = .dnloadIdle else state ≠ .dnBusy

/-- The block was taken, data as a whole, and the wait after it ended with status OK. -/
def BlockTaken (block : UInt16) (data : Bytes) (reply : Except TransportError Nat)
    (polls : List Transaction) : Prop :=
  ∃ taken s, reply = .ok taken ∧ (block = Connection.firstDataBlock → taken = data.length) ∧
    Polled (settled block) polls (.done s) ∧ s.isOk = true

section

variable {reply : Except TransportError Nat} {polls : List Transaction}

theorem blockTaken_of_command {cmd : Command}
    (h : Delivered (.command cmd) (.download Connection.commandBlock cmd.payload reply :: polls)
      (.done ())) : BlockTaken Connection.commandBlock cmd.payload reply polls := by
  obtain ⟨taken, s, rfl, hp, hv⟩ := h.settled_of_done fun _ _ => rfl
  by_cases hs : s.isOk = true
  · exact ⟨taken, s, rfl, nofun, hp, hs⟩
  · simp [Delivery.command, hs] at hv

theorem blockTaken_of_chunk {chunk : Bytes}
    (h : Delivered (.chunk Connection.firstDataBlock chunk)
      (.download Connection.firstDataBlock chunk reply :: polls) (.done ())) :
    BlockTaken Connection.firstDataBlock chunk reply polls := by
  obtain ⟨hreply, s, hp, hs⟩ := chunkTaken_of_done h
  exact ⟨chunk.length, s, hreply, fun _ => rfl, hp, hs⟩

end

theorem mem_eraseDeliveries {steps : List EraseStep} {j : Delivery} :
    j ∈ eraseDeliveries steps ↔
      ∃ address size, .erase address size ∈ steps ∧ j = .command (.eraseSector address) := by
  rw [eraseDeliveries, List.mem_filterMap]
  constructor
  · rintro ⟨step, hm, hj⟩
    cases step with
    | erase address size => exact ⟨address, size, hm, (Option.some.inj hj).symm⟩
    | skip start stop => cases hj
  · rintro ⟨address, size, hm, rfl⟩
    exact ⟨_, hm, rfl⟩

/-- Every delivery but the last one is a command or a chunk. -/
theorem deliveries_eq_concat (start : Nat) (steps : List EraseStep) (chunks : List (Nat × Bytes)) :
    ∃ js, DfuseTransfer.deliveries start steps chunks = js ++ [.manifestation] ∧
      ∀ j ∈ js, (∃ cmd, j = .command cmd) ∨ ∃ chunk, j = .chunk Connection.firstDataBlock chunk := by
  refine ⟨eraseDeliveries steps ++ (programDeliveries chunks ++ [.command (.setAddress start)]),
    by simp [DfuseTransfer.deliveries], fun j hj => ?_⟩
  rcases List.mem_append.1 hj with hj | hj
  · obtain ⟨address, -, -, rfl⟩ := mem_eraseDeliveries.1 hj
    exact .inl ⟨_, rfl⟩
  · rcases List.mem_append.1 hj with hj | hj
    · obtain ⟨⟨address, chunk⟩, -, hj⟩ := List.mem_flatMap.1 hj
      rcases List.mem_cons.1 hj with rfl | hj
      · exact .inl ⟨_, rfl⟩
      · exact .inr ⟨_, List.mem_singleton.1 hj⟩
    · exact .inl ⟨_, List.mem_singleton.1 hj⟩

/-- A block that another one follows was taken, and the next block comes right after the wait. -/
theorem blockTaken_of_downloads {start : Nat} {steps : List EraseStep} {chunks : List (Nat × Bytes)}
    {pre post : List Transaction} {block : UInt16} {data : Bytes}
    {reply : Except TransportError Nat} {o : Outcome Failure Unit}
    (h : DeliveredAll (DfuseTransfer.deliveries start steps chunks)
      (pre ++ .download block data reply :: post) o)
    (hp : downloads post ≠ []) :
    ∃ polls block' data' reply' rest, post = polls ++ .download block' data' reply' :: rest ∧
      BlockTaken block data reply polls := by
  obtain ⟨js₁, j, k, js₂, polls, rest, hjs, rfl, rfl, rfl, hj, hrest⟩ := h.cut_of_downloads hp
  obtain ⟨reply', rest, rfl⟩ := hrest.eq_cons
  refine ⟨polls, k.block, k.data, reply', rest, rfl, ?_⟩
  obtain ⟨js, heq, hkind⟩ := deliveries_eq_concat start steps chunks
  have hmem : j ∈ js := by
    rw [heq] at hjs
    have hlast : js = js₁ ++ j :: (k :: js₂).dropLast := by
      simpa using congrArg List.dropLast hjs
    simp [hlast]
  rcases hkind j hmem with ⟨cmd, rfl⟩ | ⟨chunk, rfl⟩
  · exact blockTaken_of_command hj
  · exact blockTaken_of_chunk hj

/-- A download that went well had every chunk taken as a whole. -/
theorem eq_ok_of_mem {start : Nat} {steps : List EraseStep} {chunks : List (Nat × Bytes)}
    {ws : List Transaction} {chunk : Bytes} {reply : Except TransportError Nat}
    (h : DeliveredAll (DfuseTransfer.deliveries start steps chunks) ws (.done ()))
    (hm : .download Connection.firstDataBlock chunk reply ∈ ws) : reply = .ok chunk.length := by
  obtain ⟨pre, post, rfl⟩ := List.append_of_mem hm
  obtain ⟨js₁, j, js₂, polls, rest, r, hjs, hblock, rfl, -, rfl, hj, hr⟩ := h.cut
  obtain rfl : r = .done () := by
    rcases hr with ⟨-, -, hr⟩ | ⟨hr, -⟩
    · exact hr.symm
    · exact hr
  have hmem : j ∈ DfuseTransfer.deliveries start steps chunks := by simp [hjs]
  obtain ⟨js, heq, hkind⟩ := deliveries_eq_concat start steps chunks
  rw [heq] at hmem
  rcases List.mem_append.1 hmem with hmem | hmem
  · rcases hkind j hmem with ⟨cmd, rfl⟩ | ⟨chunk, rfl⟩
    · cases hblock
    · exact (chunkTaken_of_done hj).1
  · obtain rfl := List.mem_singleton.1 hmem
    cases hblock

/-- A transfer that starts in the middle of a small sector of the mixed map. -/
def DfuseTransfer.mixed : DfuseTransfer where
  memory? := some .mixed
  start? := some 0x118

theorem DfuseTransfer.planned_mixed :
    DfuseTransfer.mixed.Planned 10 .mixed 0x118 [.erase 0x110 0x10, .skip 0x120 0x140] :=
  .of_startIn rfl rfl (by cbv)

/-- A simulated boot loader takes ten bytes in three chunks. -/
theorem transacts_download_mixed : ∃ ws,
    Transacts (DfuseTransfer.mixed.download (.new 0 4 8) [1, 2, 3, 4, 5, 6, 7, 8, 9, 10]) ws
      (.done ()) := by
  have h := transacts_transcript Bench.SingleBoard.serve
    (DfuseTransfer.mixed.download (.new 0 4 8) [1, 2, 3, 4, 5, 6, 7, 8, 9, 10])
    (.ofSimulator { Bench.Simulator.dfuseLoader ["@Mixed"] 0x0b with busyPolls := 1 })
  rw [show (transcript Bench.SingleBoard.serve _ _).2 = .done () by decide +kernel] at h
  exact ⟨_, h⟩

/-- What a device sees of a download. If the map, the start or the erase plan cannot be found,
nothing. Otherwise the blocks sent are those of the plan, of the chunks where they belong and of
the manifestation, in order; on success they are all of these and every chunk was taken as a whole.
No address wraps. A block is only followed by another one after it was taken and the wait for it
ended with OK. -/
theorem download_delivers_plan {t : DfuseTransfer} {c : Connection} {image : Bytes}
    {ws : List Transaction} {o : Outcome Failure Unit} (hsize : 1 ≤ c.transferSize.toNat)
    (h : Transacts (t.download c image) ws o) :
    ((∀ m start steps, ¬ t.Planned image.length m start steps) →
      ws = [] ∧ ∃ e, o = .failed (.configuration e)) ∧
    (∀ m start steps, t.Planned image.length m start steps →
      let chunks := Bytes.chunks c.transferSize.toNat image
      let blocks := eraseBlocks steps ++
        programBlocks (placed start c.transferSize.toNat chunks) ++ manifestBlocks start
      downloads ws <+: blocks ∧
      (o = .done () → downloads ws = blocks ∧
        ∀ chunk reply, .download Connection.firstDataBlock chunk reply ∈ ws →
          reply = .ok chunk.length) ∧
      start < addressSpace ∧
      ∀ i chunk, chunks[i]? = some chunk →
        start + i * c.transferSize.toNat + chunk.length < addressSpace) ∧
    ∀ pre block data reply post, ws = pre ++ .download block data reply :: post →
      downloads post ≠ [] →
      ∃ polls block' data' reply' rest, post = polls ++ .download block' data' reply' :: rest ∧
        BlockTaken block data reply polls := by
  have hmax : max c.transferSize.toNat 1 = c.transferSize.toNat := Nat.max_eq_left hsize
  refine ⟨fun hn => DfuseTransfer.eq_nil_of_not_planned hn h, fun m start steps hp => ?_,
    fun pre block data reply post hw hpost => ?_⟩
  · have hd := hp.deliveredAll h
    rw [hmax] at hd
    refine ⟨map_deliveries _ _ _ ▸ hd.downloads_prefix, ?_, DfuseTransfer.startIn_lt hp.startIn,
      fun i chunk hc => ?_⟩
    · rintro rfl
      exact ⟨map_deliveries _ _ _ ▸ hd.downloads_eq, fun chunk reply hm => eq_ok_of_mem hd hm⟩
    · have hend := Bytes.chunk_end_le hc
      have hlt := MemoryMap.range_lt_addressSpace (by
        rw [List.length_pos_iff]
        rintro rfl
        simp [Bytes.chunks_nil] at hc) hp.erasePlan
      rw [hmax] at hend
      omega
  · subst hw
    by_cases hp : ∃ m start steps, t.Planned image.length m start steps
    · obtain ⟨m, start, steps, hp⟩ := hp
      exact blockTaken_of_downloads (hp.deliveredAll h) hpost
    · have hnil := (DfuseTransfer.eq_nil_of_not_planned (by simpa using hp) h).1
      simp at hnil

/-- The chunks of a small image, one of them in memory that cannot be erased. -/
theorem download_delivers_mixed : ∃ ws,
    Transacts (DfuseTransfer.mixed.download (.new 0 4 8) [1, 2, 3, 4, 5, 6, 7, 8, 9, 10]) ws
      (.done ()) ∧
    downloads ws =
      [(0, [0x41, 0x10, 1, 0, 0]), (0, [0x21, 0x18, 1, 0, 0]), (2, [1, 2, 3, 4]),
        (0, [0x21, 0x1c, 1, 0, 0]), (2, [5, 6, 7, 8]), (0, [0x21, 0x20, 1, 0, 0]), (2, [9, 10]),
        (0, [0x21, 0x18, 1, 0, 0]), (0, [])] := by
  obtain ⟨ws, h⟩ := transacts_download_mixed
  have hw := ((download_delivers_plan (by decide) h).2.1 _ _ _ DfuseTransfer.planned_mixed).2.1 rfl
  exact ⟨ws, h, hw.1.trans (by decide +kernel)⟩

end UsbDfu
