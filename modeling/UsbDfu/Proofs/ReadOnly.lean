import Mathlib.Logic.Basic
import UsbDfu.Proofs.FlashStart
import UsbDfu.Proofs.UploadBlocks

/-!
# Reads leave the device as it is

A read of plain DFU sends the device nothing. A read of the extension has to send it one command,
which sets the address; whatever the device answers, that is all it is given, and no block is
fetched until the command went well and the device is at rest again.

- `Transaction.isReading`: the calls that carry no data to the device. `writes ws` are the others.
- `ReadyAt start before`: after these calls the device has taken the address and is at rest, and only
  blocks have been fetched since.
- `Aimed start ws o`: the calls before the blocks of a read (`aimed`), one constructor for each place
  they can end at.
- `Strategy.OnlyReads s ws`: what these calls are allowed to be; `read_only` says that of every
  upload and of every read of a session.
-/

namespace UsbDfu

open Dialogue

/-! ## Calls that give the device nothing -/

namespace Transaction

/-- The call gives the device nothing and does not reset it. -/
def isReading (w : Transaction) : Bool :=
  w.isUpload || w.isInquiry

theorem isReading_of_isInquiry {w : Transaction} (h : w.isInquiry = true) : w.isReading = true := by
  rw [isReading, h, Bool.or_true]

theorem isReading_of_isUpload {w : Transaction} (h : w.isUpload = true) : w.isReading = true := by
  rw [isReading, h, Bool.true_or]

theorem isInquiry_of_isStatus {w : Transaction} (h : w.isStatus = true) : w.isInquiry = true := by
  cases w with
  | status => rfl
  | _ => cases h

end Transaction

/-- The calls that give the device something or reset it, in order. -/
def writes (ws : List Transaction) : List Transaction :=
  ws.filter fun w => !w.isReading

@[simp] theorem writes_append (ws ws' : List Transaction) :
    writes (ws ++ ws') = writes ws ++ writes ws' :=
  List.filter_append ..

theorem writes_eq_nil_iff {ws : List Transaction} :
    writes ws = [] ↔ ∀ w ∈ ws, w.isReading = true := by
  simp [writes]

/-! ## The blocks of a read -/

section Blocks

variable {c : Connection} {limit : Option Nat} {first : UInt16} {ws : List Transaction}
  {o : Outcome Failure Bytes}

/-- First the blocks are fetched, then the device is brought to rest, if at all. -/
theorem uploads_readBlocks {size : UInt16} (h : Transacts (c.readBlocks size limit first) ws o) :
    ∃ uploads rest, ws = uploads ++ rest ∧ (∀ w ∈ uploads, w.isUpload = true) ∧
      ∀ w ∈ rest, w.isInquiry = true := by
  by_cases hlimit : limit = some 0
  · subst hlimit
    obtain ⟨rfl, -⟩ := transacts_readBlocks_zero h
    exact ⟨[], [], rfl, by simp, by simp⟩
  · obtain ⟨r, uploads, rest, rfl, hasks, -, hafter⟩ := rounds_of_readBlocks hlimit h
    exact ⟨uploads, rest, rfl, isUpload_of_asksNext hasks, hafter.isInquiry⟩

theorem isReading_readBlocks {size : UInt16} (h : Transacts (c.readBlocks size limit first) ws o) :
    ∀ w ∈ ws, w.isReading = true := by
  obtain ⟨uploads, rest, rfl, huploads, hrest⟩ := uploads_readBlocks h
  exact List.forall_mem_append.2 ⟨fun w hw => Transaction.isReading_of_isUpload (huploads w hw),
    fun w hw => Transaction.isReading_of_isInquiry (hrest w hw)⟩

end Blocks

/-! ## The way to the blocks -/

/-- The device has taken the address and is at rest: the command that sets it was answered with OK by
a device that is done with it, and after a later abort the device said that it is idle, at once or
when an error was cleared. Since then only blocks were fetched. -/
def ReadyAt (start : Nat) (before : List Transaction) : Prop :=
  ∃ looked taken polls s aborted error fetched,
    before = looked ++ .download 0 (0x21 :: Bytes.le32 start) (.ok taken) ::
      (polls ++ .status (.ok s) :: .abort (.ok aborted) ::
        (error ++ .state (.ok .dfuIdle) :: fetched)) ∧
    (∀ w ∈ looked, w.isInquiry = true) ∧ (∀ w ∈ polls, w.isStatus = true) ∧
    s.isOk = true ∧ s.state ≠ .dnBusy ∧
    (error = [] ∨ ∃ cleared, error = [.state (.ok .error), .clearStatus (.ok cleared)]) ∧
    ∀ w ∈ fetched, w.isUpload = true

/-- The calls that aim a read at an address, and how they end: the device is looked at and, if it is
not idle, brought to rest; the address is set; the device is brought to rest. The first failure is
the end. -/
inductive Aimed (start : Nat) : List Transaction → Outcome Failure Unit → Prop where
  | unready {looked : List Transaction} {o : Outcome Failure Unit}
      (hlooked : ∀ w ∈ looked, w.isInquiry = true) (ho : o ≠ .done ()) : Aimed start looked o
  | unset {looked set : List Transaction} {o : Outcome Failure Unit}
      (hlooked : ∀ w ∈ looked, w.isInquiry = true)
      (hset : Delivered (.command (.setAddress start)) set o) (ho : o ≠ .done ()) :
      Aimed start (looked ++ set) o
  | set {looked set rest : List Transaction} {o : Outcome Failure Unit}
      (hlooked : ∀ w ∈ looked, w.isInquiry = true)
      (hset : Delivered (.command (.setAddress start)) set (.done ()))
      (hrest : BroughtToRest rest o) : Aimed start (looked ++ (set ++ rest)) o

/-- A command that went well was taken, and the last status after it is OK and not busy. -/
theorem Delivered.command_done {cmd : Command} {ws : List Transaction}
    (h : Delivered (.command cmd) ws (.done ())) :
    ∃ taken polls s, ws = .download 0 cmd.payload (.ok taken) :: (polls ++ [.status (.ok s)]) ∧
      (∀ w ∈ polls, w.isStatus = true) ∧ s.isOk = true ∧ s.state ≠ .dnBusy := by
  obtain ⟨reply, polls, rfl, -⟩ := h.eq_cons
  obtain ⟨taken, s, rfl, hpolled, hverdict⟩ := h.settled_of_done fun _ _ => rfl
  obtain ⟨init, last, rfl, hlast, -⟩ := hpolled.eq_concat
  obtain rfl := hlast s rfl
  refine ⟨taken, init, s, rfl, fun w hw => hpolled.isStatus w (by simp [hw]), ?_, ?_⟩
  · cases hs : s.isOk with
    | true => rfl
    | false => simp [Delivery.command, hs] at hverdict
  · rcases hpolled.accepted with hready | herror
    · simpa [Delivery.command] using hready
    · simp [herror]

/-- A device that was brought to rest said so after the abort. -/
theorem BroughtToRest.eq_of_done {ws : List Transaction} (h : BroughtToRest ws (.done ())) :
    ∃ aborted error, ws = .abort (.ok aborted) :: (error ++ [.state (.ok .dfuIdle)]) ∧
      (error = [] ∨ ∃ cleared, error = [.state (.ok .error), .clearStatus (.ok cleared)]) := by
  have hidle : ∀ s, restOutcome s = .done () → s = .dfuIdle := by
    intro s hs
    unfold restOutcome at hs
    split at hs
    · assumption
    · cases hs
  generalize ho : (.done () : Outcome Failure Unit) = o at h
  cases h with
  | refused | unseen | uncleared | unseenAgain => cases ho
  | @seen aborted s _ =>
    obtain rfl := hidle s ho.symm
    exact ⟨aborted, [], rfl, .inl rfl⟩
  | seenAgain aborted cleared s =>
    obtain rfl := hidle s ho.symm
    exact ⟨aborted, _, rfl, .inr ⟨cleared, rfl⟩⟩

namespace Aimed

variable {start : Nat} {ws : List Transaction} {o : Outcome Failure Unit}

/-- Once the device is aimed at the address, blocks may be fetched. -/
theorem readyAt (h : Aimed start ws (.done ())) {fetched : List Transaction}
    (hfetched : ∀ w ∈ fetched, w.isUpload = true) : ReadyAt start (ws ++ fetched) := by
  generalize ho : (.done () : Outcome Failure Unit) = o at h
  cases h with
  | unready _ hne | unset _ _ hne => exact absurd ho.symm hne
  | @set looked set rest _ hlooked hset hrest =>
    subst ho
    obtain ⟨taken, polls, s, rfl, hpolls, hok, hbusy⟩ := hset.command_done
    obtain ⟨aborted, error, rfl, herror⟩ := hrest.eq_of_done
    refine ⟨looked, taken, polls, s, aborted, error, fetched, ?_, hlooked, hpolls, hok, hbusy, herror,
      hfetched⟩
    simp [Command.payload]

/-- Until then none is fetched. -/
theorem isUpload_eq_false (h : Aimed start ws o) : ∀ w ∈ ws, w.isUpload = false := by
  have hcommand : ∀ {set : List Transaction} {o : Outcome Failure Unit},
      Delivered (.command (.setAddress start)) set o → ∀ w ∈ set, w.isUpload = false := by
    intro set o hset
    obtain ⟨reply, polls, rfl, hpolls⟩ := hset.eq_cons
    exact List.forall_mem_cons.2 ⟨rfl, fun w hw =>
      Transaction.isUpload_of_isInquiry (Transaction.isInquiry_of_isStatus (hpolls w hw))⟩
  have hinquiry : ∀ {ws : List Transaction}, (∀ w ∈ ws, w.isInquiry = true) →
      ∀ w ∈ ws, w.isUpload = false :=
    fun h w hw => Transaction.isUpload_of_isInquiry (h w hw)
  cases h with
  | unready hlooked _ => exact hinquiry hlooked
  | unset hlooked hset _ => exact List.forall_mem_append.2 ⟨hinquiry hlooked, hcommand hset⟩
  | set hlooked hset hrest =>
    exact List.forall_mem_append.2 ⟨hinquiry hlooked,
      List.forall_mem_append.2 ⟨hcommand hset, hinquiry hrest.isInquiry⟩⟩

theorem writes_of_inquiries {ws : List Transaction} (h : ∀ w ∈ ws, w.isInquiry = true) :
    writes ws = [] :=
  writes_eq_nil_iff.2 fun w hw => Transaction.isReading_of_isInquiry (h w hw)

/-- The device is given nothing, or the command that sets the address. -/
theorem writes_eq (h : Aimed start ws o) : writes ws = [] ∨
    ∃ reply, writes ws = [.download 0 (0x21 :: Bytes.le32 start) reply] := by
  have hcommand : ∀ {set : List Transaction} {o : Outcome Failure Unit},
      Delivered (.command (.setAddress start)) set o →
      ∃ reply, writes set = [.download 0 (0x21 :: Bytes.le32 start) reply] := by
    intro set o hset
    obtain ⟨reply, polls, rfl, hpolls⟩ := hset.eq_cons
    have hnil := writes_of_inquiries fun w hw => Transaction.isInquiry_of_isStatus (hpolls w hw)
    exact ⟨reply, congrArg (_ :: ·) hnil⟩
  cases h with
  | unready hlooked _ => exact .inl (writes_of_inquiries hlooked)
  | unset hlooked hset _ =>
    obtain ⟨reply, hreply⟩ := hcommand hset
    exact .inr ⟨reply, by rw [writes_append, writes_of_inquiries hlooked, hreply, List.nil_append]⟩
  | set hlooked hset hrest =>
    obtain ⟨reply, hreply⟩ := hcommand hset
    refine .inr ⟨reply, ?_⟩
    rw [writes_append, writes_append, writes_of_inquiries hlooked, hreply,
      writes_of_inquiries hrest.isInquiry, List.nil_append, List.append_nil]

end Aimed

namespace DfuseTransfer

variable {t : DfuseTransfer} {c : Connection} {limit : Option Nat} {m : MemoryMap}
  {ws : List Transaction} {o : Outcome Failure Unit}

/-- A read starts where it was told to, even outside of the map. -/
theorem startIn_read (t : DfuseTransfer) (m : MemoryMap) :
    t.startIn m false = .ok (t.start?.getD m.first.start) := by
  unfold startIn
  cases t.start? with
  | none => rfl
  | some address => simp

/-- Setting the address of a device that has been looked at, and bringing it to rest after that. -/
theorem aimed_of_command {start : Nat} {looked rest : List Transaction}
    (hlooked : ∀ w ∈ looked, w.isInquiry = true)
    (h : Transacts (c.command (.setAddress start) >>= fun _ => c.abortToIdle) rest o) :
    Aimed start (looked ++ rest) o := by
  obtain ⟨r, set, rested, hset, hrested, rfl⟩ := transacts_bind_iff.1 h
  have hset := delivered_command hset
  cases r with
  | done u => exact .set hlooked hset (broughtToRest_abortToIdle hrested)
  | failed e =>
    obtain ⟨rfl, rfl⟩ := transacts_fail_iff.1 hrested
    rw [List.append_nil]
    exact .unset hlooked hset nofun
  | exhausted =>
    obtain ⟨rfl, rfl⟩ := transacts_exhausted_iff.1 hrested
    rw [List.append_nil]
    exact .unset hlooked hset nofun

theorem aimed (hm : t.memory? = some m) (h : Transacts (t.aim c limit) ws o) :
    Aimed (t.start?.getD m.first.start) ws o := by
  have hstart := transacts_resolveStart_bind (memory_eq_ok_iff.2 hm) h
  rw [startIn_read, Exchange.ofConfiguration_ok, done_bind] at hstart
  generalize t.start?.getD m.first.start = start at hstart ⊢
  -- the two limits differ in a line of the log
  have hlook : Transacts (c.getState >>= fun state =>
      if state ≠ .dfuIdle then
        c.abortToIdle >>= fun _ => c.command (.setAddress start) >>= fun _ => c.abortToIdle
      else c.command (.setAddress start) >>= fun _ => c.abortToIdle) ws o := by
    cases limit with
    | none => exact transacts_say_bind.1 hstart
    | some m => exact transacts_say_bind.1 hstart
  obtain ⟨reply, rest, rfl, hrest⟩ := transacts_one_bind (fun _ _ => transacts_getState) hlook
  cases reply with
  | error e =>
    obtain ⟨rfl, rfl⟩ := hrest
    exact .unready (by simp [Transaction.isInquiry]) nofun
  | ok state =>
    dsimp only at hrest
    by_cases hidle : state = .dfuIdle
    · have hlooked : ∀ w ∈ [Transaction.state (.ok state)], w.isInquiry = true := by
        simp [Transaction.isInquiry]
      rw [if_neg (not_not.2 hidle)] at hrest
      exact aimed_of_command hlooked hrest
    · rw [if_pos hidle] at hrest
      obtain ⟨r, aborted, set, habort, hset, rfl⟩ := transacts_bind_iff.1 hrest
      have hrested := broughtToRest_abortToIdle habort
      have hlooked : ∀ w ∈ Transaction.state (.ok state) :: aborted, w.isInquiry = true :=
        List.forall_mem_cons.2 ⟨rfl, hrested.isInquiry⟩
      cases r with
      | done u => exact aimed_of_command hlooked hset
      | failed e =>
        obtain ⟨rfl, rfl⟩ := transacts_fail_iff.1 hset
        rw [List.append_nil]
        exact .unready hlooked nofun
      | exhausted => exact absurd rfl hrested.ne_exhausted

end DfuseTransfer

/-! ## Reads -/

/-- If the call fetches a block, the device has taken the start and is at rest. The start is the
chosen one, or that of the map. -/
def DfuseTransfer.FetchesWhenReady (t : DfuseTransfer) (before : List Transaction)
    (w : Transaction) : Prop :=
  w.isUpload = true →
    ∃ m, t.memory? = some m ∧ ReadyAt (t.start?.getD m.first.start) before

/-- The calls that a read may make. Plain DFU gives the device nothing. The extension gives it at most
the command that sets the start, and fetches each block from a device that is ready for it. -/
def Strategy.OnlyReads : Strategy → List Transaction → Prop
  | .plain, ws => writes ws = []
  | .dfuse t, ws =>
    (writes ws = [] ∨ ∃ m reply, t.memory? = some m ∧
      writes ws = [.download 0 (0x21 :: Bytes.le32 (t.start?.getD m.first.start)) reply]) ∧
    EachAfter t.FetchesWhenReady [] ws

theorem Strategy.onlyReads_nil (s : Strategy) : s.OnlyReads [] := by
  cases s with
  | plain => rfl
  | dfuse t => exact ⟨.inl rfl, eachAfter_nil⟩

namespace DfuseTransfer

variable {t : DfuseTransfer} {c : Connection} {limit : Option Nat} {m : MemoryMap}
  {before ws : List Transaction} {o : Outcome Failure Bytes}

theorem fetchesWhenReady_of_no_upload (h : ∀ w ∈ ws, w.isUpload = false) :
    EachAfter t.FetchesWhenReady before ws := by
  refine eachAfter_of_forall fun w hw pre hupload => ?_
  rw [h w hw] at hupload
  cases hupload

/-- Nothing is called without a memory map. -/
theorem eq_nil_of_no_memory (hm : t.memory? = none) (h : Transacts (t.upload c limit) ws o) :
    ws = [] := by
  have hmemory : t.memory = .error .noMemoryMap := by
    rw [memory, hm]
  unfold upload resolveStart at h
  rw [hmemory] at h
  exact (transacts_fail_iff.1 h).1

/-- The blocks of a read that has been aimed at the start. -/
theorem fetchesWhenReady_readBlocks (hm : t.memory? = some m)
    (hway : Aimed (t.start?.getD m.first.start) before (.done ())) {size first : UInt16}
    (h : Transacts (c.readBlocks size limit first) ws o) :
    EachAfter t.FetchesWhenReady before ws := by
  obtain ⟨uploads, rest, rfl, huploads, hrest⟩ := uploads_readBlocks h
  refine eachAfter_append_iff.2 ⟨?_, fetchesWhenReady_of_no_upload fun w hw =>
    Transaction.isUpload_of_isInquiry (hrest w hw)⟩
  rintro pre w post rfl -
  exact ⟨m, hm, hway.readyAt fun v hv => huploads v (by simp [hv])⟩

theorem onlyReads_upload (h : Transacts (t.upload c limit) ws o) :
    (Strategy.dfuse t).OnlyReads ws := by
  cases hm : t.memory? with
  | none =>
    obtain rfl := eq_nil_of_no_memory hm h
    exact Strategy.onlyReads_nil _
  | some m =>
    rw [upload_eq] at h
    obtain ⟨r, way, blocks, hway, hblocks, rfl⟩ := transacts_bind_iff.1 h
    have haimed := aimed hm hway
    -- blocks are fetched only where the way to them was gone to its end
    have hrest : writes blocks = [] ∧ EachAfter t.FetchesWhenReady way blocks := by
      cases r with
      | failed e =>
        obtain ⟨rfl, -⟩ := transacts_fail_iff.1 hblocks
        exact ⟨rfl, eachAfter_nil⟩
      | exhausted =>
        obtain ⟨rfl, -⟩ := transacts_exhausted_iff.1 hblocks
        exact ⟨rfl, eachAfter_nil⟩
      | done u =>
        exact ⟨writes_eq_nil_iff.2 (isReading_readBlocks hblocks),
          fetchesWhenReady_readBlocks hm haimed hblocks⟩
    refine ⟨?_, eachAfter_append_iff.2
      ⟨fetchesWhenReady_of_no_upload haimed.isUpload_eq_false, hrest.2⟩⟩
    rw [writes_append, hrest.1, List.append_nil]
    exact haimed.writes_eq.imp id fun ⟨reply, hreply⟩ => ⟨m, reply, hm, hreply⟩

end DfuseTransfer

theorem Strategy.onlyReads_upload {s : Strategy} {c : Connection} {limit : Option Nat}
    {ws : List Transaction} {o : Outcome Failure Bytes}
    (h : Transacts (s.upload c limit) ws o) : s.OnlyReads ws := by
  cases s with
  | plain => exact writes_eq_nil_iff.2 (isReading_readBlocks h)
  | dfuse t => exact DfuseTransfer.onlyReads_upload h

namespace Session

variable {s : Session} {limit : Option Nat} {ws : List Transaction}

/-- Looking at the news calls nothing and leaves the strategy as it is. -/
theorem strategy_of_pollDepartures {o : Outcome Empty Session}
    (h : Transacts s.pollDepartures ws o) :
    ws = [] ∧ ∃ s', o = .done s' ∧ s'.strategy = s.strategy := by
  refine ⟨s.callsNothing_pollDepartures.eq_nil h, ?_⟩
  by_cases hs : s.activity = .disconnected
  · unfold pollDepartures at h
    cases hwatch : s.watching with
    | none =>
      rw [hwatch] at h
      exact ⟨s, (transacts_done_iff.1 h).2, rfl⟩
    | some sub =>
      rw [hwatch] at h
      obtain ⟨ts, ht, -⟩ := h
      obtain ⟨ids, rest, -, hr⟩ := trace_ask_iff.1 ht
      have hlate : Trace (handleDepartures (show List DeviceId from ids) s) rest o := hr
      rw [handleDepartures_of_gone hs] at hlate
      exact ⟨s, (trace_done_iff.1 hlate).2, rfl⟩
  · obtain ⟨-, left, rfl⟩ := transacts_pollDepartures hs h
    refine ⟨_, rfl, ?_⟩
    cases left <;> rfl

/-- A session's read calls what an upload calls, and gives what that gives, or it calls nothing and
gives no data. -/
theorem transacts_read {o : Outcome Empty (Except Failure Bytes × Session)}
    (h : Transacts (s.read limit) ws o) :
    (ws = [] ∧ ∀ data s', o ≠ .done (.ok data, s')) ∨
      ∃ c r, Transacts (s.strategy.upload c limit) ws r ∧
        ∀ data s', o = .done (.ok data, s') → r = .done data := by
  obtain ⟨_, polled, rest, hpoll, hrest, rfl⟩ := transacts_bind_iff.1 h
  obtain ⟨rfl, s', rfl, hstrategy⟩ := strategy_of_pollDepartures hpoll
  rw [List.nil_append, ← hstrategy]
  rw [Outcome.silent, done_bind] at hrest
  by_cases hgone : s'.activity = .disconnected
  · rw [if_pos hgone] at hrest
    obtain ⟨rfl, rfl⟩ := transacts_done_iff.1 hrest
    exact .inl ⟨rfl, by simp⟩
  · rw [if_neg hgone] at hrest
    dsimp only at hrest
    by_cases hcan : s'.functional.canUpload = true
    · rw [if_pos hcan] at hrest
      obtain ⟨_, read, after, htried, hafter, rfl⟩ := transacts_bind_iff.1 hrest
      obtain ⟨r, hread, rfl⟩ := transacts_attempt htried
      have hpolled : ∀ result : Except Failure Bytes, Transacts
          ({ s' with activity := .connected }.pollDepartures >>= fun s => pure (result, s)) after o →
          after = [] ∧ ∀ data s'', o = .done (.ok data, s'') → result = .ok data := by
        intro result hafter
        obtain ⟨_, w₁, w₂, hlook, hend, rfl⟩ := transacts_bind_iff.1 hafter
        obtain ⟨rfl, s'', rfl, -⟩ := strategy_of_pollDepartures hlook
        obtain ⟨rfl, rfl⟩ := transacts_done_iff.1 hend
        refine ⟨rfl, fun data s'' hdata => ?_⟩
        exact congrArg Prod.fst (Outcome.done.inj hdata)
      cases r with
      | done got =>
        obtain ⟨rfl, hdata⟩ := hpolled (.ok got) hafter
        refine .inr ⟨_, _, by rwa [List.append_nil], fun data s'' ho => ?_⟩
        rw [Except.ok.inj (hdata data s'' ho)]
      | failed e =>
        obtain ⟨rfl, hdata⟩ := hpolled (.error e) hafter
        refine .inr ⟨_, _, by rwa [List.append_nil], fun data s'' ho => ?_⟩
        cases hdata data s'' ho
      | exhausted =>
        obtain ⟨rfl, rfl⟩ := transacts_exhausted_iff.1 hafter
        exact .inr ⟨_, _, by rwa [List.append_nil], by simp⟩
    · rw [if_neg hcan] at hrest
      obtain ⟨rfl, rfl⟩ := transacts_done_iff.1 hrest
      exact .inl ⟨rfl, by simp⟩

theorem onlyReads_read {o : Outcome Empty (Except Failure Bytes × Session)}
    (h : Transacts (s.read limit) ws o) : s.strategy.OnlyReads ws := by
  rcases transacts_read h with ⟨rfl, -⟩ | ⟨c, r, hread, -⟩
  · exact Strategy.onlyReads_nil _
  · exact Strategy.onlyReads_upload hread

end Session

/-- Whatever the device answers, an upload and a session's read give a plain device nothing. A device
of the extension they give at most one command, block 0 with the start of the read, and each block is
fetched after that command went well and after a later abort that left the device idle. -/
theorem read_only :
    (∀ (s : Strategy) (c : Connection) limit ws o, Transacts (s.upload c limit) ws o →
      s.OnlyReads ws) ∧
    ∀ (s : Session) limit ws o, Transacts (s.read limit) ws o → s.strategy.OnlyReads ws :=
  ⟨fun _ _ _ _ _ => Strategy.onlyReads_upload, fun _ _ _ _ => Session.onlyReads_read⟩

/-- A device that is in the middle of a download, has an error after every abort, and is busy with the
command for a while. -/
def unwillingBoard : Bench.Board where
  model := .script {
    id := 7
    queues := [
      (.getState, [.data [5] false, .data [10] false, .data [2] false, .data [10] false,
        .data [2] false]),
      (.getStatus, [.data [0, 0, 0, 0, 4, 0] false, .data [0, 0, 0, 0, 5, 0] false]),
      (.upload, [.data [7] false])] }
  budget := none

/-- A session with a device of the extension. -/
def dfuseSession : Session where
  connection := .new 0 1024 8
  deviceId := 7
  setting := ⟨1, 0, 0, .upgrade, 0, none⟩
  functional := .assumed
  strategy := .dfuse .mixed
  watching := none
  activity := .connected
  disconnectTimeout := 5000

/-- A read that finds the device so. -/
theorem read_only_unwilling :
    let ws := transactions (transcript Bench.SingleBoard.serve (dfuseSession.read (some 2))
      (.ofBoard unwillingBoard)).1
    (Strategy.dfuse .mixed).OnlyReads ws ∧
    ws = [.state (.ok .dnloadIdle), .abort (.ok 0), .state (.ok .error), .clearStatus (.ok 0),
      .state (.ok .dfuIdle), .download 0 [0x21, 0x18, 1, 0, 0] (.ok 5),
      .status (.ok ⟨.ok, 0, .dnBusy⟩), .status (.ok ⟨.ok, 0, .dnloadIdle⟩), .abort (.ok 0),
      .state (.ok .error), .clearStatus (.ok 0), .state (.ok .dfuIdle), .upload 2 2 (.ok [7])] := by
  intro ws
  have h := transacts_transcript Bench.SingleBoard.serve (dfuseSession.read (some 2))
    (.ofBoard unwillingBoard)
  refine ⟨read_only.2 dfuseSession (some 2) ws _ h, ?_⟩
  rfl

end UsbDfu
