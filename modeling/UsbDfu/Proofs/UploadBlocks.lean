import UsbDfu.Proofs.DfuseDownload
import UsbDfu.Proofs.ReadRounds

/-!
# Block numbers of an upload

A DfuSe device answers an UPLOAD of block `b` from `b - 2` times the transfer size after its address
pointer. The host counts its blocks in sixteen bits, and the bytes it has collected without a bound.

- `FetchesNothing d`: the exchange `d` makes no UPLOAD.
- `DfuseTransfer.upload_eq`: an upload sets the address and brings the device to rest, which fetches
  nothing, and then reads blocks from 2 on.
- `upload_blocks_address`: a DfuSe upload asks for the next byte it wants as long as fewer than
  65534 blocks were collected, and from then on for another one; `upload_blocks_wrap` is such a read.
-/

namespace UsbDfu

open Dialogue

/-! ## Exchanges that fetch no block -/

/-- The exchange makes no UPLOAD. -/
def FetchesNothing {α : Type} (d : Exchange α) : Prop :=
  ∀ ws o, Transacts d ws o → ∀ w ∈ ws, w.isUpload = false

section FetchesNothing

variable {α β : Type} {c : Connection}

theorem fetchesNothing_done (a : α) : FetchesNothing (.done a) := by
  intro ws o h
  obtain ⟨rfl, -⟩ := transacts_done_iff.1 h
  simp

theorem fetchesNothing_fail (e : Failure) : FetchesNothing (.fail e : Exchange α) := by
  intro ws o h
  obtain ⟨rfl, -⟩ := transacts_fail_iff.1 h
  simp

theorem FetchesNothing.bind {d : Exchange α} {f : α → Exchange β} (hd : FetchesNothing d)
    (hf : ∀ a, FetchesNothing (f a)) : FetchesNothing (d >>= f) := by
  intro ws o h
  obtain ⟨r, w₁, w₂, h₁, h₂, rfl⟩ := transacts_bind_iff.1 h
  refine List.forall_mem_append.2 ⟨hd _ _ h₁, ?_⟩
  cases r with
  | done a => exact hf a _ _ h₂
  | failed e => exact fetchesNothing_fail e _ _ h₂
  | exhausted =>
    obtain ⟨rfl, -⟩ := transacts_exhausted_iff.1 h₂
    simp

theorem FetchesNothing.say_bind {level : Level} {text : String} {f : Unit → Exchange β}
    (h : FetchesNothing (f ())) : FetchesNothing (Exchange.say level text >>= f) :=
  fun ws o ht => h ws o (transacts_say_bind.1 ht)

theorem fetchesNothing_getState : FetchesNothing c.getState := by
  intro ws o h
  obtain ⟨reply, rfl, -⟩ := transacts_getState h
  simp [Transaction.isUpload]

theorem fetchesNothing_abort : FetchesNothing c.abort := by
  intro ws o h
  obtain ⟨reply, rfl, -⟩ := transacts_abort h
  simp [Transaction.isUpload]

theorem fetchesNothing_clearStatus : FetchesNothing c.clearStatus := by
  intro ws o h
  obtain ⟨reply, rfl, -⟩ := transacts_clearStatus h
  simp [Transaction.isUpload]

theorem fetchesNothing_abortToIdle : FetchesNothing c.abortToIdle := by
  have hend : ∀ state : State, FetchesNothing (if state = .dfuIdle then pure ()
      else throw (.protocol (.notIdle state)) : Exchange Unit) := by
    intro state
    split
    · exact fetchesNothing_done ()
    · exact fetchesNothing_fail _
  refine fetchesNothing_abort.bind fun _ => fetchesNothing_getState.bind fun state => ?_
  dsimp only
  split
  · exact fetchesNothing_clearStatus.bind fun _ => fetchesNothing_getState.bind hend
  · exact hend state

theorem fetchesNothing_command (cmd : Command) : FetchesNothing (c.command cmd) := by
  intro ws o h
  obtain ⟨reply, polls, rfl, hp⟩ := (delivered_command h).eq_cons
  refine List.forall_mem_cons.2 ⟨rfl, fun w hw => ?_⟩
  have hs := hp w hw
  cases w with
  | upload => cases hs
  | _ => rfl

theorem fetchesNothing_resolveStart (t : DfuseTransfer) (strict : Bool) :
    FetchesNothing (t.resolveStart strict) := by
  intro ws o h
  cases hm : t.memory with
  | error e =>
    unfold DfuseTransfer.resolveStart at h
    rw [hm] at h
    exact fetchesNothing_fail _ _ _ h
  | ok m =>
    obtain ⟨rfl, -⟩ := (DfuseTransfer.transacts_resolveStart_iff hm).1 h
    simp

end FetchesNothing

/-! ## The rounds of an upload -/

section Rounds

variable {c : Connection} {size rounds : Nat} {limit : Option Nat} {block : UInt16} {data : Bytes}
  {ws : List Transaction} {o : Outcome Failure Bytes}

/-- An UPLOAD may be answered in any way. -/
theorem transacts_upload_of (length : UInt16) (reply : Except TransportError Bytes) :
    Transacts (c.upload block length) [.upload block length reply]
      (.ofExcept (reply.mapError .transport)) := by
  refine ⟨[⟨.call (.controlIn (.ofClass Connection.uploadRequest block c.interface) length),
    reply⟩], trace_ask_iff.2 ⟨reply, [], rfl, ?_⟩, rfl⟩
  cases reply with
  | ok data => exact .done data
  | error e => exact .fail (Failure.transport e)

theorem add_one_ofNat (block : UInt16) (k : Nat) :
    block + 1 + UInt16.ofNat k = block + UInt16.ofNat (k + 1) := by
  rw [UInt16.ofNat_add, UInt16.add_assoc, UInt16.add_comm 1]
  rfl

/-- A round that brings a whole block and is followed by another one. -/
theorem transacts_uploadFrom_goes_on {got : Bytes} (hgot : got.length = size)
    (hlimit : ∀ m ∈ limit, data.length + size < m)
    (h : Transacts (c.uploadFrom size limit rounds (block + 1) (data ++ got)) ws o) :
    Transacts (c.uploadFrom size limit (rounds + 1) block data)
      (.upload block (UInt16.ofNat size) (.ok got) :: ws) o := by
  have hnext : Connection.nextLength size data.length limit = size := by
    cases limit with
    | none => rfl
    | some m =>
      have hm := hlimit m rfl
      simp only [Connection.nextLength]
      omega
  have hgoes : ¬ EndsUpload size limit data got := by
    cases limit with
    | none => simp [EndsUpload, Connection.nextLength, hgot]
    | some m =>
      have hm := hlimit m rfl
      simp [EndsUpload, hnext, hgot]
      omega
  refine transacts_bind_iff.2 ⟨.done got, [_], ws, ?_, ?_, rfl⟩
  · rw [hnext]
    exact transacts_upload_of _ (.ok got)
  · refine transacts_say_bind.2 (transacts_progress_bind.2 ?_)
    show Transacts (if EndsUpload size limit data got then _ else _) ws o
    rw [if_neg hgoes]
    rwa [hnext, List.take_of_length_le (Nat.le_of_eq hgot)]

/-- A round that fails. -/
theorem transacts_uploadFrom_fails (e : TransportError) :
    Transacts (c.uploadFrom size limit (rounds + 1) block data)
      [.upload block (UInt16.ofNat (Connection.nextLength size data.length limit)) (.error e)]
      (.failed (.transport e)) :=
  transacts_bind_of_failed (transacts_upload_of _ (.error e))

/-- Any number of such rounds, each bringing zeros. -/
theorem exists_transacts_uploadFrom (hsize : size < 2 ^ 16) (k : Nat)
    (hlimit : ∀ m ∈ limit, data.length + k * size < m)
    (h : Transacts (c.uploadFrom size limit rounds (block + UInt16.ofNat k)
      (data ++ List.replicate (k * size) 0)) ws o) :
    ∃ full, collected full = k * size ∧
      Transacts (c.uploadFrom size limit (rounds + k) block data) (full ++ ws) o := by
  -- the first block is put in front, so the number and the data of the rest begin one block later
  induction k generalizing block data with
  | zero => exact ⟨[], by simp, by simpa using h⟩
  | succ k ih =>
    have hstep : data.length + size + k * size = data.length + (k + 1) * size := by
      rw [Nat.succ_mul, Nat.add_assoc, Nat.add_comm size]
    obtain ⟨full, hfull, hrest⟩ := @ih (block + 1) (data ++ List.replicate size 0)
      (fun m hm => by simpa [hstep] using hlimit m hm) (by
        rwa [List.append_assoc, List.replicate_append_replicate, Nat.add_comm size,
          ← Nat.succ_mul, add_one_ofNat])
    refine ⟨.upload block (UInt16.ofNat size) (.ok (List.replicate size 0)) :: full, ?_, ?_⟩
    · rw [collected_cons, hfull, Transaction.brought_upload hsize, List.length_take,
        List.length_replicate, Nat.min_self, Nat.succ_mul, Nat.add_comm]
    · refine transacts_uploadFrom_goes_on List.length_replicate (fun m hm => ?_) hrest
      have hm := hlimit m hm
      rw [← hstep] at hm
      omega

end Rounds

/-! ## Uploads of the extension -/

namespace DfuseTransfer

open Exchange (say)

variable {t : DfuseTransfer} {c : Connection} {limit : Option Nat}

/-- The part of an upload that comes before its blocks: the address is set, and the device is
brought to rest. -/
def aim (t : DfuseTransfer) (c : Connection) (limit : Option Nat) : Exchange Unit := do
  let start ← t.resolveStart false
  match limit with
  | some m => say .info s!"Reading up to 0x{Text.hex 1 m} bytes starting at 0x{Text.hex 8 start}"
  | none => say .info s!"Reading from 0x{Text.hex 8 start}"
  if (← c.getState) ≠ .dfuIdle then c.abortToIdle
  c.command (.setAddress start)
  c.abortToIdle

theorem upload_eq : t.upload c limit =
    t.aim c limit >>= fun _ => c.readBlocks c.transferSize limit Connection.firstDataBlock := by
  cases limit with
  | none | some m =>
    simp only [upload, aim, bind_bind]
    refine congrArg _ (funext fun start => congrArg _ (funext fun _ => ?_))
    refine congrArg _ (funext fun state => ?_)
    split <;> simp only [bind_bind]

theorem fetchesNothing_aim : FetchesNothing (t.aim c limit) := by
  have hrest : ∀ start : Nat,
      FetchesNothing (c.command (.setAddress start) >>= fun _ => c.abortToIdle) :=
    fun start => (fetchesNothing_command _).bind fun _ => fetchesNothing_abortToIdle
  refine (fetchesNothing_resolveStart t false).bind fun start => ?_
  cases limit with
  | none | some m =>
    refine FetchesNothing.say_bind (fetchesNothing_getState.bind fun state => ?_)
    split
    · exact fetchesNothing_abortToIdle.bind fun _ => hrest start
    · exact hrest start

end DfuseTransfer

/-- In an upload of the extension only whole blocks are collected before the next one is asked for,
and its number counts them from 2 in sixteen bits. That is the block at the next byte wanted exactly
as long as fewer than 65534 blocks were collected. -/
theorem upload_blocks_address {t : DfuseTransfer} {c : Connection} {limit : Option Nat}
    {pre post : List Transaction} {block length : UInt16} {reply : Except TransportError Bytes}
    {o : Outcome Failure Bytes} (hsize : 1 ≤ c.transferSize.toNat)
    (h : Transacts (t.upload c limit) (pre ++ .upload block length reply :: post) o) :
    let size := c.transferSize.toNat
    size ∣ collected pre ∧
      block.toNat = (2 + collected pre / size) % 2 ^ 16 ∧
      ((2 ≤ block.toNat ∧ (block.toNat - 2) * size = collected pre) ↔
        collected pre < 65534 * size) := by
  rw [DfuseTransfer.upload_eq] at h
  obtain ⟨r, way, blocks, hway, hblocks, hws⟩ := transacts_bind_iff.1 h
  have hquiet := DfuseTransfer.fetchesNothing_aim _ _ hway
  obtain ⟨mid, rfl, rfl⟩ := split_beyond hquiet (by simp [Transaction.isUpload]) hws
  -- the UPLOAD is one of the blocks, and the calls before it are the way and `mid`
  have hasks : AsksNext c.transferSize.toNat limit Connection.firstDataBlock mid
      (.upload block length reply) := by
    cases r with
    | done u =>
      rw [← Nat.max_eq_left hsize]
      exact asksNext_of_readBlocks rfl hblocks
    | failed e =>
      have hnil := (transacts_fail_iff.1 hblocks).1
      simp at hnil
    | exhausted =>
      have hnil := (transacts_exhausted_iff.1 hblocks).1
      simp at hnil
  obtain ⟨hblock, hwhole, -, -⟩ := hasks
  change block.toNat = (2 + mid.length) % 2 ^ 16 at hblock
  dsimp only
  rw [collected_append, collected_eq_zero hquiet, Nat.zero_add, hwhole, hblock,
    Nat.mul_div_cancel _ hsize, Nat.mul_lt_mul_right hsize]
  refine ⟨Nat.dvd_mul_left _ _, rfl, ?_⟩
  rw [Nat.mul_right_cancel_iff hsize]
  omega

/-- A device at rest that takes every command and gives one byte a block. -/
def bytewiseBoard : Bench.Board where
  model := .script {
    id := 0
    queues := [(.getState, [.data [2] false]), (.getStatus, [.data [0, 0, 0, 0, 5, 0] false]),
      (.upload, [.data [7] false])] }
  budget := none

/-- The second of two blocks. -/
theorem upload_blocks_address_second : ∃ pre post,
    Transacts (DfuseTransfer.mixed.upload (.new 0 1 8) (some 2))
      (pre ++ .upload 3 1 (.ok [7]) :: post) (.done [7, 7]) ∧
    collected pre = 1 ∧ 2 ≤ (3 : UInt16).toNat ∧ ((3 : UInt16).toNat - 2) * 1 = collected pre := by
  have h := transacts_transcript Bench.SingleBoard.serve
    (DfuseTransfer.mixed.upload (.new 0 1 8) (some 2)) (.ofBoard bytewiseBoard)
  rw [show (transcript Bench.SingleBoard.serve _ _).2 = (.done [7, 7] : Outcome Failure Bytes) by
    decide +kernel] at h
  have hcalls : transactions (transcript Bench.SingleBoard.serve
      (DfuseTransfer.mixed.upload (.new 0 1 8) (some 2)) (.ofBoard bytewiseBoard)).1 =
      [.state (.ok .dfuIdle), .download 0 [0x21, 0x18, 1, 0, 0] (.ok 5),
        .status (.ok ⟨.ok, 0, .dnloadIdle⟩), .abort (.ok 0), .state (.ok .dfuIdle),
        .upload 2 1 (.ok [7])] ++ .upload 3 1 (.ok [7]) ::
        [.abort (.ok 0), .state (.ok .dfuIdle)] := by
    rfl
  rw [hcalls] at h
  exact ⟨_, _, h, by decide, (upload_blocks_address (by decide) h).2.2.2 (by decide)⟩

/-- The exchange before the blocks, with the same device. -/
theorem transacts_aim_bytewise : ∃ ws, collected ws = 0 ∧
    Transacts (DfuseTransfer.mixed.aim (.new 0 1 8) (some 65535)) ws (.done ()) := by
  have h := transacts_transcript Bench.SingleBoard.serve
    (DfuseTransfer.mixed.aim (.new 0 1 8) (some 65535)) (.ofBoard bytewiseBoard)
  rw [show (transcript Bench.SingleBoard.serve _ _).2 = (.done () : Outcome Failure Unit) by
    decide +kernel] at h
  exact ⟨_, collected_eq_zero (DfuseTransfer.fetchesNothing_aim _ _ h), h⟩

/-- A read by single bytes whose last block is refused. -/
theorem exists_transacts_readBlocks_refused (c : Connection) (k : Nat) :
    ∃ full, collected full = k ∧
      Transacts (c.readBlocks 1 (some (k + 1)) Connection.firstDataBlock)
        (full ++ [.upload (Connection.firstDataBlock + UInt16.ofNat k) 1 (.error .stall)])
        (.failed (.transport .stall)) := by
  have hlast : Transacts (c.uploadFrom 1 (some (k + 1)) 1
      (Connection.firstDataBlock + UInt16.ofNat k) ([] ++ List.replicate (k * 1) 0))
      [.upload (Connection.firstDataBlock + UInt16.ofNat k) 1 (.error .stall)]
      (.failed (.transport .stall)) := by
    have hnext : Connection.nextLength 1 ([] ++ List.replicate (k * 1) (0 : UInt8)).length
        (some (k + 1)) = 1 := by
      simp [Connection.nextLength]
    have h := @transacts_uploadFrom_fails c 1 0 (some (k + 1))
      (Connection.firstDataBlock + UInt16.ofNat k) ([] ++ List.replicate (k * 1) 0) .stall
    rwa [hnext] at h
  obtain ⟨full, hfull, hread⟩ := exists_transacts_uploadFrom (by decide) k (by simp) hlast
  refine ⟨full, by rw [hfull, Nat.mul_one], transacts_say_bind.2 (transacts_progress_bind.2 ?_)⟩
  rw [if_neg (by simp)]
  rw [Nat.add_comm 1 k] at hread
  exact transacts_bind_of_failed hread

/-- A read of 65535 blocks of one byte: after 65534 of them the device is asked for block 0, where it
has nothing to give, and the read fails. -/
theorem upload_blocks_wrap : ∃ pre,
    Transacts (DfuseTransfer.mixed.upload (.new 0 1 8) (some 65535))
      (pre ++ [.upload 0 1 (.error .stall)]) (.failed (.transport .stall)) ∧
    collected pre = 65534 := by
  obtain ⟨before, hbefore, haim⟩ := transacts_aim_bytewise
  obtain ⟨full, hfull, hread⟩ := exists_transacts_readBlocks_refused (.new 0 1 8) 65534
  refine ⟨before ++ full, ?_, by rw [collected_append, hbefore, hfull]⟩
  rw [DfuseTransfer.upload_eq, List.append_assoc]
  exact transacts_bind_iff.2 ⟨.done (), before, _, haim, hread, rfl⟩

end UsbDfu
