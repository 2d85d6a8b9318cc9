import UsbDfu.Proofs.BoardRuns
import UsbDfu.Transfer.Dfuse

/-!
# A simulated device read back

A simulated device of plain DFU 1.1 gives its data from a position on that every block moves. The
host and the device end an upload each on their own: the host at a block that is shorter than it
asked for or at its limit, the device at a block that it could not fill. The read comes to the same
end whichever of them was first.

- `ReadyToRead s`, `readEnd`, `bytesTo`: a device at rest, and what a read of it gives.
- `Midway s stop state`: the device in the middle of a read; `Asks`: what the host asks for there.
- `runs_uploadFrom_succ`: one block, and what follows it.
- `runs_uploadFrom`: the blocks of a read, by induction on the rounds.
- `runs_readBlocks`: a read as a whole, with the abort at the limit.
- `upload_simulator`: a read gives all bytes from the position to its end and leaves the device at
  rest behind them, so reads one after another give the data piece by piece.
-/

namespace UsbDfu

open Dialogue
open Bench (SingleBoard Simulator)

/-! ## What a read gives -/

namespace Bench.Simulator

variable {s : Simulator} {limit : Option Nat} {size stop wanted rounds : Nat}

/-- The device speaks plain DFU 1.1, is open and at rest, and was not set to cut a block short or to
ignore an abort. -/
structure ReadyToRead (s : Simulator) : Prop where
  connected : s.connected = true
  isOpen : s.isOpen = true
  state : s.state = .dfuIdle
  dfuse : s.dfuse = false
  shortBlockAt : s.shortBlockAt = none
  abortIgnored : s.abortIgnored = false
  position_le : s.uploadPosition ≤ s.uploadData.length

/-- Where a read of at most so many bytes ends: there, or with the data. -/
def readEnd (s : Simulator) : Option Nat → Nat
  | some m => min (s.uploadPosition + m) s.uploadData.length
  | none => s.uploadData.length

/-- The data from the position on, up to here. -/
def bytesTo (s : Simulator) (stop : Nat) : Bytes :=
  (s.uploadData.take stop).drop s.uploadPosition

/-- The device with its position moved on. -/
def readTo (s : Simulator) (stop : Nat) : Simulator :=
  { s with uploadPosition := stop }

/-- What reads one after another give, each from where the one before it ended. -/
def pieces (s : Simulator) : List (Option Nat) → List Bytes
  | [] => []
  | limit :: limits => s.bytesTo (s.readEnd limit) :: (s.readTo (s.readEnd limit)).pieces limits

/-- The device in the middle of a read. -/
def reading (s : Simulator) (stop : Nat) (state : State) : Simulator :=
  { s with uploadPosition := stop, state := state }

/-- A device that was ready is in the middle of a read, this far. -/
structure Midway (s : Simulator) (stop : Nat) (state : State) : Prop where
  ready : s.ReadyToRead
  position_le : s.uploadPosition ≤ stop
  le_length : stop ≤ s.uploadData.length
  state : state = .dfuIdle ∨ state = .uploadIdle

/-- The device after a block of so many bytes. It has ended the upload if it had less. -/
def afterBlock (s : Simulator) (stop length : Nat) : Simulator :=
  s.reading (min (stop + length) s.uploadData.length)
    (if s.uploadData.length < stop + length then .dfuIdle else .uploadIdle)

/-- The rounds are enough to read on from here. -/
def Enough (s : Simulator) (size : Nat) (limit : Option Nat) (stop rounds : Nat) : Prop :=
  match limit with
  | some m => stop < s.uploadPosition + m ∧ s.uploadPosition + m ≤ stop + rounds
  | none => s.uploadData.length < stop + rounds * size

/-- What the host asks for next in the middle of a read: some bytes, at most `size`, and none behind
the limit. -/
structure Asks (s : Simulator) (size : Nat) (limit : Option Nat) (stop wanted : Nat) : Prop where
  eq : Connection.nextLength size (stop - s.uploadPosition) limit = wanted
  pos : 0 < wanted
  le_size : wanted ≤ size
  within : ∀ m, limit = some m → stop + wanted ≤ s.uploadPosition + m
  full : limit = none → wanted = size

theorem Enough.exists_asks (h : s.Enough size limit stop rounds) (hsize : 0 < size)
    (hlow : s.uploadPosition ≤ stop) : ∃ wanted, s.Asks size limit stop wanted := by
  cases limit with
  | none =>
    exact ⟨size, rfl, hsize, Nat.le_refl _, fun m hm => absurd hm (by simp), fun _ => rfl⟩
  | some m =>
    simp only [Enough] at h
    refine ⟨min (m - (stop - s.uploadPosition)) size, rfl, by omega, by omega, fun m' hm => ?_,
      fun hnone => absurd hnone (by simp)⟩
    obtain rfl := Option.some.inj hm
    omega

/-- A device that has less than is asked for has all the read gives. -/
theorem Asks.readEnd_of_short (h : s.Asks size limit stop wanted)
    (hshort : s.uploadData.length < stop + wanted) : s.readEnd limit = s.uploadData.length := by
  cases limit with
  | none => rfl
  | some m =>
    have := h.within m rfl
    simp only [readEnd]
    omega

/-- A read that has reached its limit ends there. -/
theorem Asks.readEnd_of_reached (h : s.Asks size limit stop wanted)
    (hlow : s.uploadPosition ≤ stop) (hhas : stop + wanted ≤ s.uploadData.length)
    (hreached : limit.any (· ≤ stop + wanted - s.uploadPosition) = true) :
    s.readEnd limit = stop + wanted ∧ limit = some (stop + wanted - s.uploadPosition) := by
  cases limit with
  | none => cases hreached
  | some m =>
    have hle := h.within m rfl
    have hm : m ≤ stop + wanted - s.uploadPosition := of_decide_eq_true hreached
    simp only [readEnd, Option.some.injEq]
    omega

/-- Behind a full block there are enough rounds for the rest. -/
theorem Asks.enough (h : s.Asks size limit stop wanted)
    (henough : s.Enough size limit stop (rounds + 1))
    (hbelow : limit.any (· ≤ stop + wanted - s.uploadPosition) = false) :
    s.Enough size limit (stop + wanted) rounds := by
  have hpos := h.pos
  cases limit with
  | none =>
    have hfull := h.full rfl
    simp only [Enough] at henough ⊢
    rw [Nat.succ_mul] at henough
    omega
  | some m =>
    have hm : ¬ m ≤ stop + wanted - s.uploadPosition := of_decide_eq_false hbelow
    simp only [Enough] at henough ⊢
    omega

theorem not_enough_zero (hstop : stop ≤ s.uploadData.length) : ¬ s.Enough size limit stop 0 := by
  cases limit with
  | none =>
    simp only [Enough]
    omega
  | some m =>
    simp only [Enough]
    omega

theorem readEnd_le_length (s : Simulator) (limit : Option Nat) :
    s.readEnd limit ≤ s.uploadData.length := by
  cases limit with
  | none => exact Nat.le_refl _
  | some m => exact Nat.min_le_right _ _

theorem position_le_readEnd (h : s.uploadPosition ≤ s.uploadData.length) (limit : Option Nat) :
    s.uploadPosition ≤ s.readEnd limit := by
  cases limit with
  | none => exact h
  | some m => exact Nat.le_min.2 ⟨Nat.le_add_right _ _, h⟩

theorem length_bytesTo (h : stop ≤ s.uploadData.length) :
    (s.bytesTo stop).length = stop - s.uploadPosition := by
  rw [bytesTo, List.length_drop, List.length_take, Nat.min_eq_left h]

/-- The bytes of one block more. -/
theorem bytesTo_append (hlow : s.uploadPosition ≤ stop) (hstop : stop ≤ s.uploadData.length) :
    s.bytesTo stop ++ (s.uploadData.drop stop).take wanted =
      s.bytesTo (min (stop + wanted) s.uploadData.length) := by
  have hle : s.uploadPosition ≤ (s.uploadData.take stop).length := by
    rw [List.length_take]
    exact Nat.le_min.2 ⟨hlow, Nat.le_trans hlow hstop⟩
  rw [bytesTo, bytesTo, ← List.drop_append_of_le_length hle, ← List.take_add, List.take_eq_take_min]

theorem bytesTo_position (s : Simulator) : s.bytesTo s.uploadPosition = [] :=
  List.drop_eq_nil_of_le (List.length_take_le _ _)

/-- The bytes up to a place, and from there on. -/
theorem bytesTo_append_readTo {mid : Nat} (hlow : s.uploadPosition ≤ mid) (hmid : mid ≤ stop) :
    s.bytesTo mid ++ (s.readTo mid).bytesTo stop = s.bytesTo stop := by
  have hfirst : s.bytesTo mid = (s.bytesTo stop).take (mid - s.uploadPosition) := by
    rw [bytesTo, bytesTo, List.take_drop, List.take_take, Nat.add_sub_cancel' hlow,
      Nat.min_eq_left hmid]
  have hsecond : (s.readTo mid).bytesTo stop = (s.bytesTo stop).drop (mid - s.uploadPosition) := by
    rw [bytesTo, bytesTo, List.drop_drop, Nat.add_sub_cancel' hlow]
    rfl
  rw [hfirst, hsecond, List.take_append_drop]

theorem ReadyToRead.readTo (h : s.ReadyToRead) (hstop : stop ≤ s.uploadData.length) :
    (s.readTo stop).ReadyToRead :=
  { h with position_le := hstop }

theorem ReadyToRead.readTo_eq (h : s.ReadyToRead) (stop : Nat) :
    s.readTo stop = s.reading stop .dfuIdle := by
  rw [reading, ← h.state]
  rfl

theorem ReadyToRead.midway (h : s.ReadyToRead) : s.Midway s.uploadPosition .dfuIdle :=
  ⟨h, Nat.le_refl _, h.position_le, .inl rfl⟩

namespace Midway

variable {state : State}

theorem checkOpen (h : s.Midway stop state) : (s.reading stop state).checkOpen = .ok () :=
  checkOpen_eq h.ready.connected h.ready.isOpen

/-- The device gives what it has of a block. -/
theorem upload_eq (h : s.Midway stop state) (block length : UInt16) :
    (s.reading stop state).upload block length =
      (.ok ((s.uploadData.drop stop).take length.toNat), s.afterBlock stop length.toNat) := by
  have hle := h.le_length
  have hbusy : state ≠ .dnBusy := by rcases h.state with rfl | rfl <;> nofun
  have hadmits : ¬ (state ≠ .dfuIdle ∧ state ≠ .uploadIdle) := fun hne => h.state.elim hne.1 hne.2
  have hwhole : s.shortBlockAt ≠ some block := by
    rw [h.ready.shortBlockAt]
    nofun
  have hlength : ((s.uploadData.drop stop).take length.toNat).length =
      min (stop + length.toNat) s.uploadData.length - stop := by
    rw [List.length_take, List.length_drop]
    omega
  have hshort : min (stop + length.toNat) s.uploadData.length - stop < length.toNat ↔
      s.uploadData.length < stop + length.toNat := by
    omega
  have hnext : stop + (min (stop + length.toNat) s.uploadData.length - stop) =
      min (stop + length.toNat) s.uploadData.length := by
    omega
  simp [upload, reading, afterBlock, uploadStart, pure, Except.pure, hbusy, hadmits, hwhole,
    h.ready.dfuse, hlength, hshort, hnext]

theorem abort_eq (h : s.Midway stop state) : (s.reading stop state).abort = s.readTo stop := by
  have hends : (abortable state && !s.abortIgnored) = true := by
    rw [h.ready.abortIgnored]
    rcases h.state with rfl | rfl <;> rfl
  rw [h.ready.readTo_eq]
  exact if_pos hends

end Midway
end Bench.Simulator

/-! ## One read -/

section Read

variable {c : Connection} {a : Scene} {s : Simulator} {limit : Option Nat}
  {stop size wanted next rounds : Nat} {state : State}

theorem runs_upload_reading (h : s.Midway stop state) (block length : UInt16) :
    Runs (c.upload block length) { a with device := s.reading stop state }
      (.done ((s.uploadData.drop stop).take length.toNat))
      { a with device := s.afterBlock stop length.toNat } := by
  have hrun := @runs_upload { a with device := s.reading stop state } c h.checkOpen block length
  rw [h.upload_eq, Scene.step_of_connected (s := s.afterBlock stop length.toNat) rfl] at hrun
  exact hrun

/-- The device is brought to rest where it is. -/
theorem runs_abortToIdle_reading (h : s.Midway stop state) :
    Runs c.abortToIdle { a with device := s.reading stop state } (.done ())
      { a with device := s.readTo stop } := by
  have habort := @runs_abort { a with device := s.reading stop state } c h.checkOpen
  rw [h.abort_eq, Scene.step_of_connected (s := s.readTo stop) rfl] at habort
  have hget := @runs_getState { a with device := s.readTo stop } c h.checkOpen
  have hidle : State.ofCode (s.readTo stop).state.code = .dfuIdle := by
    show State.ofCode s.state.code = .dfuIdle
    rw [h.ready.state]
    rfl
  rw [hidle] at hget
  exact habort.bind (hget.bind (runs_done ()))

/-- One round: a block, and then the end of the read or the next round. -/
theorem runs_uploadFrom_succ (h : s.Midway stop state) (hasks : s.Asks size limit stop wanted)
    (hfits : size < 65536) (hnext : min (stop + wanted) s.uploadData.length = next)
    {block : UInt16} {o : Outcome Failure Bytes} {b : Scene}
    (hrest : Runs (if next - stop < wanted || limit.any (· ≤ next - s.uploadPosition) then
        pure (s.bytesTo next) else c.uploadFrom size limit rounds (block + 1) (s.bytesTo next))
      { a with device := s.afterBlock stop wanted } o b) :
    Runs (c.uploadFrom size limit (rounds + 1) block (s.bytesTo stop))
      { a with device := s.reading stop state } o b := by
  have hle := h.le_length
  have hmost := hasks.le_size
  have hnat : (UInt16.ofNat wanted).toNat = wanted := by
    rw [UInt16.toNat_ofNat']
    omega
  have hblock := runs_upload_reading (c := c) (a := a) h block (UInt16.ofNat wanted)
  rw [hnat] at hblock
  have hlength : ((s.uploadData.drop stop).take wanted).length = next - stop := by
    rw [List.length_take, List.length_drop]
    omega
  have hgrown : s.bytesTo stop ++ ((s.uploadData.drop stop).take wanted).take wanted =
      s.bytesTo next := by
    rw [List.take_take, Nat.min_self, Simulator.bytesTo_append h.position_le hle, hnext]
  have hcount : (s.bytesTo next).length = next - s.uploadPosition :=
    Simulator.length_bytesTo (by omega)
  rw [Connection.uploadFrom, Simulator.length_bytesTo hle, hasks.eq]
  refine hblock.bind (runs_say_bind (runs_progress_bind ?_))
  rw [hgrown, hlength, hcount]
  exact hrest

/-- From anywhere in a read, the blocks that are left bring the data up to its end. The device is at
rest then, unless the read ended at its limit. -/
theorem runs_uploadFrom (h : s.Midway stop state) (hsize : 0 < size) (hfits : size < 65536)
    (henough : s.Enough size limit stop rounds) (block : UInt16) :
    ∃ state', s.Midway (s.readEnd limit) state' ∧
      (state' = .dfuIdle ∨ limit = some (s.readEnd limit - s.uploadPosition)) ∧
      Runs (c.uploadFrom size limit rounds block (s.bytesTo stop))
        { a with device := s.reading stop state } (.done (s.bytesTo (s.readEnd limit)))
        { a with device := s.reading (s.readEnd limit) state' } := by
  -- on the rounds; the data still to come needs no more of them than are left
  induction rounds generalizing stop state block with
  | zero => exact absurd henough (Simulator.not_enough_zero h.le_length)
  | succ rounds ih =>
    have hlow := h.position_le
    obtain ⟨wanted, hasks⟩ := henough.exists_asks hsize hlow
    by_cases hshort : s.uploadData.length < stop + wanted
    -- the data ends within the block, and both sides take that for the end
    · have hend := hasks.readEnd_of_short hshort
      have hnext := Nat.min_eq_right (Nat.le_of_lt hshort)
      have hless : s.uploadData.length - stop < wanted := by
        have := h.le_length
        omega
      rw [hend]
      refine ⟨.dfuIdle, ⟨h.ready, h.ready.position_le, Nat.le_refl _, .inl rfl⟩, .inl rfl,
        runs_uploadFrom_succ h hasks hfits hnext ?_⟩
      rw [Simulator.afterBlock, if_pos hshort, hnext, decide_eq_true hless, Bool.true_or, if_pos rfl]
      exact runs_done _
    have hhas : stop + wanted ≤ s.uploadData.length := Nat.le_of_not_lt hshort
    have hnext := Nat.min_eq_left hhas
    have hmidway : s.Midway (stop + wanted) .uploadIdle :=
      ⟨h.ready, Nat.le_add_right_of_le hlow, hhas, .inr rfl⟩
    cases hreached : limit.any (· ≤ stop + wanted - s.uploadPosition) with
    -- the host is content, and the device would give more if it were asked
    | true =>
      obtain ⟨hend, hlimit⟩ := hasks.readEnd_of_reached hlow hhas hreached
      rw [hend]
      refine ⟨.uploadIdle, hmidway, .inr hlimit, runs_uploadFrom_succ h hasks hfits hnext ?_⟩
      rw [Simulator.afterBlock, if_neg hshort, hnext, hreached, Bool.or_true, if_pos rfl]
      exact runs_done _
    -- a full block below the limit leaves one round less and rounds enough
    | false =>
      obtain ⟨state', hmidway', hends, hrun⟩ := ih hmidway (hasks.enough henough hreached) (block + 1)
      have hfull : ¬ stop + wanted - stop < wanted := by omega
      refine ⟨state', hmidway', hends, runs_uploadFrom_succ h hasks hfits hnext ?_⟩
      rw [Simulator.afterBlock, if_neg hshort, hnext, hreached, decide_eq_false hfull, Bool.false_or,
        if_neg Bool.false_ne_true]
      exact hrun

/-- The host has rounds enough for a read, if it is one without a limit. -/
def PatientFor (c : Connection) (s : Simulator) : Prop :=
  s.uploadData.length - s.uploadPosition < c.patience * max c.transferSize.toNat 1

/-- A read as a whole. At its limit the device is brought to rest, also if it is at rest already. -/
theorem runs_readBlocks (h : s.ReadyToRead) (hpatient : limit = none → PatientFor c s)
    (first : UInt16) :
    Runs (c.readBlocks c.transferSize limit first) { a with device := s }
      (.done (s.bytesTo (s.readEnd limit))) { a with device := s.readTo (s.readEnd limit) } := by
  refine runs_say_bind (runs_progress_bind ?_)
  by_cases hzero : limit = some 0
  · have hend : s.readEnd limit = s.uploadPosition := by
      rw [hzero]
      exact Nat.min_eq_left h.position_le
    rw [if_pos hzero, hend, s.bytesTo_position]
    exact runs_done []
  rw [if_neg hzero]
  -- a limit gives a round for every byte of it, patience must do without one
  have henough : s.Enough (max c.transferSize.toNat 1) limit s.uploadPosition
      (limit.getD c.patience) := by
    cases limit with
    | none =>
      have := hpatient rfl
      simp only [PatientFor] at this
      simp only [Simulator.Enough, Option.getD_none]
      omega
    | some m =>
      have : m ≠ 0 := fun h => hzero (congrArg some h)
      simp only [Simulator.Enough, Option.getD_some]
      omega
  have hfits : max c.transferSize.toNat 1 < 65536 := by
    have := c.transferSize.toNat_lt
    omega
  obtain ⟨state, hmidway, hends, hrun⟩ := runs_uploadFrom (c := c) (a := a) h.midway
    (Nat.le_max_right _ 1) hfits henough first
  rw [s.bytesTo_position, ← h.readTo_eq] at hrun
  refine hrun.bind ?_
  rw [Simulator.length_bytesTo hmidway.le_length]
  by_cases hfull : limit = some (s.readEnd limit - s.uploadPosition)
  · rw [if_pos hfull]
    exact (runs_abortToIdle_reading hmidway).bind (runs_say_bind (runs_done _))
  · obtain rfl := hends.resolve_right hfull
    rw [if_neg hfull, ← h.readTo_eq]
    exact runs_say_bind (runs_done _)

/-- Reads one after another go through the data, each from where the one before it ended. -/
theorem runs_uploads {limits : List (Option Nat)} (h : s.ReadyToRead)
    (hpatient : none ∈ limits → PatientFor c s) :
    ∃ stop, s.uploadPosition ≤ stop ∧ stop ≤ s.uploadData.length ∧
      (s.pieces limits).flatten = s.bytesTo stop ∧
      Runs (limits.mapM (Strategy.plain.upload c)) { a with device := s } (.done (s.pieces limits))
        { a with device := s.readTo stop } := by
  induction limits generalizing s with
  | nil =>
    exact ⟨s.uploadPosition, Nat.le_refl _, h.position_le, s.bytesTo_position.symm, runs_done []⟩
  | cons limit limits ih =>
    have hlow := Simulator.position_le_readEnd h.position_le limit
    have hrest := h.readTo (s.readEnd_le_length limit)
    have hfirst : limit = none → PatientFor c s := by
      rintro rfl
      exact hpatient List.mem_cons_self
    have hread := runs_readBlocks (a := a) h hfirst 0
    obtain ⟨stop, hmid, hstop, hflatten, hreads⟩ := ih hrest fun hmem => by
      have hpatience := hpatient (List.mem_cons_of_mem _ hmem)
      simp only [PatientFor, Simulator.readTo] at hpatience ⊢
      omega
    refine ⟨stop, Nat.le_trans hlow hmid, hstop, ?_, ?_⟩
    · rw [Simulator.pieces, List.flatten_cons, hflatten, Simulator.bytesTo_append_readTo hlow hmid]
    · rw [List.mapM_cons]
      exact hread.bind (hreads.bind (runs_done _))

end Read

/-- A read of a simulated device of plain DFU 1.1 gives its data from the position up to the limit or
the end. The position is behind these bytes then, the device is at rest, and no block came while it
was busy. Reads one after another give the data in pieces, with nothing lost and nothing twice. -/
theorem upload_simulator {c : Connection} {s : Simulator} {w : SingleBoard}
    (hw : w.board = { model := .simulator s, budget := none }) (hs : s.ReadyToRead) :
    (∀ limit, (limit = none → PatientFor c s) → ∃ s' w',
      SingleBoard.run (Strategy.plain.upload c limit) w =
        (.done (s.bytesTo (s.readEnd limit)), w') ∧
      w'.board = { model := .simulator s', budget := none } ∧
      s' = { s with uploadPosition := s.uploadPosition + (s.bytesTo (s.readEnd limit)).length } ∧
      s'.violations = s.violations ∧ s'.state = .dfuIdle) ∧
    ∀ limits, (none ∈ limits → PatientFor c s) → ∃ stop w',
      SingleBoard.run (limits.mapM (Strategy.plain.upload c)) w = (.done (s.pieces limits), w') ∧
      w'.board = { model := .simulator { s with uploadPosition := stop }, budget := none } ∧
      stop ≤ s.uploadData.length ∧ (s.pieces limits).flatten = s.bytesTo stop := by
  constructor
  · intro limit hpatient
    have hrun := runs_readBlocks (a := .ofBoard s w) hs hpatient 0
    obtain ⟨w', hdone, hw'⟩ := hrun w (Scene.on_ofBoard hw)
    refine ⟨_, w', hdone, hw'.board, ?_, rfl, hs.state⟩
    rw [Simulator.length_bytesTo (s.readEnd_le_length limit),
      Nat.add_sub_cancel' (Simulator.position_le_readEnd hs.position_le limit)]
    rfl
  · intro limits hpatient
    obtain ⟨stop, -, hstop, hflatten, hrun⟩ := runs_uploads (a := .ofBoard s w) hs hpatient
    obtain ⟨w', hdone, hw'⟩ := hrun w (Scene.on_ofBoard hw)
    exact ⟨stop, w', hdone, hw'.board, hstop, hflatten⟩

/-- A simulated boot loader that was read already for a byte. -/
def readLoader : Simulator :=
  { Simulator.plain 0x03 4 with
    isOpen := true, uploadData := [0, 1, 2, 3, 4, 5, 6, 7, 8], uploadPosition := 1 }

/-- A read of one full block up to its limit, a read of one full block up to the end of the data, and
one that finds nothing more. -/
theorem upload_readLoader : readLoader.ReadyToRead ∧ ∃ stop w',
    SingleBoard.run ([some 4, none, some 5].mapM (Strategy.plain.upload (.new 0 4 8)))
      (.ofBoard { model := .simulator readLoader, budget := none }) =
        (.done [[1, 2, 3, 4], [5, 6, 7, 8], []], w') ∧
    w'.board =
      { model := .simulator { readLoader with uploadPosition := stop }, budget := none } := by
  have hready : readLoader.ReadyToRead := by
    constructor
    all_goals decide
  have hpatient : PatientFor (.new 0 4 8) readLoader := by
    unfold PatientFor
    decide
  obtain ⟨stop, w', hrun, hboard, -⟩ := (upload_simulator (c := .new 0 4 8)
    (w := .ofBoard { model := .simulator readLoader, budget := none }) rfl hready).2
    [some 4, none, some 5] fun _ => hpatient
  exact ⟨hready, stop, w', hrun, hboard⟩

end UsbDfu
