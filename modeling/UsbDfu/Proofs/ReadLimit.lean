import UsbDfu.Bench.Terminal
import UsbDfu.Proofs.Layers
import UsbDfu.Proofs.ReadOnly
import UsbDfu.Proofs.SessionStart

/-!
# Reads without a length

A read of the extension that is given no length stops where the memory that can be read ends, as far as
the session knows its start. It knows one if it was told to, or if the map has a writable segment. A
transfer over any other map starts at the start of the map all the same, and of that start nothing is
known when the length is chosen: such a read has no limit at all.

- `Strategy.length_le_of_upload`: an upload with a limit gives no more than that.
- `Tool.trace_read`: what a read of the tool asks on the channel of its device: what connects the
  session, the read with the limit for it, and the close. What it writes to its file was read so.
- `default_read_limit`: what a read without a length asks for, at which address, and what it writes to
  its file.
- `default_read_unbounded`: a read of a map without a writable segment goes beyond it.
-/

namespace UsbDfu

open Dialogue

/-! ## Reads with a limit -/

section Limit

variable {c : Connection} {limit : Nat} {ws : List Transaction}

theorem length_le_of_readBlocks {size first : UInt16} {data : Bytes}
    (h : Transacts (c.readBlocks size (some limit) first) ws (.done data)) :
    data.length ≤ limit := by
  by_cases hlimit : some limit = some 0
  · cases hlimit
    rw [Outcome.done.inj (transacts_readBlocks_zero h).2]
    exact Nat.le_refl 0
  · obtain ⟨r, uploads, rest, rfl, hasks, hend, hafter⟩ := rounds_of_readBlocks hlimit h
    obtain rfl := hafter.eq_answers hend
    rw [length_answers]
    exact (length_le_of_asksNext (Nat.lt_of_lt_of_le Nat.one_pos (Nat.le_max_right _ _)) hasks).1

/-- An upload with a limit gives no more than that, in both families. -/
theorem Strategy.length_le_of_upload {s : Strategy} {data : Bytes}
    (h : Transacts (s.upload c (some limit)) ws (.done data)) : data.length ≤ limit := by
  cases s with
  | plain => exact length_le_of_readBlocks h
  | dfuse t =>
    have hread : Transacts (t.upload c (some limit)) ws (.done data) := h
    rw [DfuseTransfer.upload_eq] at hread
    obtain ⟨r, way, blocks, -, hblocks, -⟩ := transacts_bind_iff.1 hread
    cases r with
    | done u => exact length_le_of_readBlocks hblocks
    | failed e => cases (transacts_fail_iff.1 hblocks).2
    | exhausted => cases (transacts_exhausted_iff.1 hblocks).2

theorem Session.length_le_of_read {s s' : Session} {data : Bytes}
    (h : Transacts (s.read (some limit)) ws (.done (.ok data, s'))) : data.length ≤ limit := by
  rcases transacts_read h with ⟨-, hne⟩ | ⟨c, r, hread, hdata⟩
  · exact absurd rfl (hne data s')
  · obtain rfl := hdata data s' rfl
    exact Strategy.length_le_of_upload hread

end Limit

/-- What a session of the extension sends for a read is its start. -/
theorem Session.setAddress_of_read {s : Session} {t : DfuseTransfer} {m : MemoryMap}
    {limit : Option Nat} {ws : List Transaction} {o : Outcome Empty (Except Failure Bytes × Session)}
    (hs : s.strategy = .dfuse t) (hm : t.memory? = some m) (h : Transacts (s.read limit) ws o) :
    ∀ block data, (block, data) ∈ downloads ws →
      block = 0 ∧ data = 0x21 :: Bytes.le32 (t.start?.getD m.first.start) := by
  intro block data hsent
  obtain ⟨reply, hmem⟩ := mem_downloads_iff.1 hsent
  have hwrite : Transaction.download block data reply ∈ writes ws :=
    List.mem_filter.2 ⟨hmem, rfl⟩
  have honly := onlyReads_read h
  rw [hs] at honly
  obtain ⟨hnil | ⟨m', reply', hm', hone⟩, -⟩ := honly
  · rw [hnil] at hwrite
    cases hwrite
  · obtain rfl : m' = m := Option.some.inj (hm'.symm.trans hm)
    rw [hone, List.mem_singleton] at hwrite
    cases hwrite
    exact ⟨rfl, rfl⟩

/-! ## Runs of the tool -/

namespace Tool

/-- A read that is done has connected a session, read with the limit that is set for that, and closed the
device. Nothing else was asked on the channel, but for what was asked to find the device. What was read is
in the file. -/
theorem trace_read {file : String} {filter : DeviceFilter} {options : SessionOptions}
    {length : Option Nat} {ts : List (Turn Query.Answer)}
    (h : Trace (read file filter options length) ts (.done ())) :
    ∃ p found id device ts₀ s limit ts₁ s' data,
      Trace (Session.connect id device options) ts₀ (.done s) ∧
      readLimit length s = .ok limit ∧ Trace (s.read limit) ts₁ (.done (.ok data, s')) ∧
      ts.filterMap (asked? p) = found ++ (ts₀.filterMap UsbDfu.Query.asked? ++
        (ts₁.filterMap UsbDfu.Query.asked? ++ [⟨.call .close, ()⟩])) ∧
      ⟨.writeFile file data, .ok ()⟩ ∈ ts := by
  obtain ⟨desk, t₁, t₂, hconnect, hdesk, rfl⟩ := trace_bind_done_iff.1 h
  obtain ⟨limit, t₃, t₄, hlimit, hlimited, rfl⟩ := trace_bind_done_iff.1 hdesk
  obtain ⟨rfl, hset⟩ := trace_compute_done_iff.1 hlimit
  obtain ⟨data, t₅, t₆, hfinish, hfile, rfl⟩ := trace_bind_done_iff.1 hlimited
  obtain ⟨u, t₇, t₈, hwrite, hout, rfl⟩ := trace_bind_done_iff.1 hfile
  obtain ⟨found, id, device, ts₀, hsession, hasked⟩ := trace_connect hconnect
  obtain ⟨ts₁, s', hread, hended⟩ := trace_finish hfinish
  obtain ⟨written, rest, rfl, hwritten⟩ := trace_ask_iff.1 hwrite
  obtain ⟨answer, rest', rfl, hnil⟩ := trace_ask_iff.1 hout
  obtain ⟨rfl, -⟩ := trace_done_iff.1 hnil
  cases written with
  | error e => cases (trace_fail_iff.1 hwritten).2
  | ok u =>
    obtain ⟨rfl, -⟩ := trace_done_iff.1 hwritten
    refine ⟨desk.connected.channel, found, id, device, ts₀, _, limit, ts₁, s', data, hsession, hset,
      hread, ?_, by simp⟩
    rw [List.nil_append, List.filterMap_append, List.filterMap_append, hasked, hended,
      List.append_assoc]
    -- the file and the last line of text are no questions on the channel
    exact congrArg _ (congrArg _ (List.append_nil _))

theorem maxRead?_eq {s : Session} {t : DfuseTransfer} (hs : s.strategy = .dfuse t) :
    s.maxRead? = t.start?.map t.maxRead := by
  unfold Session.maxRead?
  rw [hs]

section Unasked

variable {s : Session} {t : DfuseTransfer} {m : MemoryMap} (hs : s.strategy = .dfuse t)
  (hm : t.memory? = some m)

include hs hm

/-- Without a length the limit is what can be read from the start that the session knows. -/
theorem readLimit_of_start {start : Nat} (hstart : t.start? = some start) :
    readLimit none s = some <$> m.maxRead start := by
  have hmax : t.maxRead start = .ok (m.maxRead start) := by
    rw [DfuseTransfer.maxRead, DfuseTransfer.memory_eq_ok_iff.2 hm]
    rfl
  have hknown : s.maxRead? = some (.ok (m.maxRead start)) := by
    rw [maxRead?_eq hs, hstart, Option.map_some, hmax]
  unfold readLimit
  rw [hknown]

/-- There is none only where the session knows no start. -/
theorem readLimit_eq_none_iff : readLimit none s = .ok none ↔ t.start? = none := by
  cases hstart : t.start? with
  | none =>
    refine iff_of_true ?_ rfl
    unfold readLimit
    rw [maxRead?_eq hs, hstart]
    rfl
  | some start =>
    refine iff_of_false (fun hnone => ?_) nofun
    rw [readLimit_of_start hs hm hstart] at hnone
    cases hmax : m.maxRead start <;> rw [hmax] at hnone <;> cases hnone

end Unasked

end Tool

/-! ## Reads without a length -/

/-- With a start that the session knows, a read without a length gives no more than can be read from
there. -/
theorem Session.length_le_maxRead {s s' : Session} {t : DfuseTransfer} {m : MemoryMap}
    {start : Nat} {limit : Option Nat} {ws : List Transaction} {data : Bytes}
    (hs : s.strategy = .dfuse t) (hm : t.memory? = some m) (hstart : t.start? = some start)
    (hlimit : Tool.readLimit none s = .ok limit)
    (h : Transacts (s.read limit) ws (.done (.ok data, s'))) :
    ∃ n, m.maxRead start = .ok n ∧ data.length ≤ n := by
  rw [Tool.readLimit_of_start hs hm hstart] at hlimit
  cases hmax : m.maxRead start with
  | error e =>
    rw [hmax] at hlimit
    cases hlimit
  | ok n =>
    rw [hmax] at hlimit
    obtain rfl : some n = limit := Except.ok.inj hlimit
    exact ⟨n, rfl, length_le_of_read h⟩

/-- A session of the extension with a memory map reads from the start that it knows, and otherwise from
the start of the map. Without a length, a read is limited to what can be read from the start that the
session knows; if it knows none, there is no limit. What the tool writes to its file was read so, and on
the channel of the device that read is all that was asked between connecting and closing. -/
theorem default_read_limit (options : SessionOptions) :
    (∀ id device ts s t m, Trace (Session.connect id device options) ts (.done s) →
      s.strategy = .dfuse t → t.memory? = some m →
      (∀ start, options.startIn? m = some start →
        Tool.readLimit none s = some <$> m.maxRead start) ∧
      (Tool.readLimit none s = .ok none ↔
        options.startAddress = none ∧ m.firstWritable? = none) ∧
      (∀ limit ws o, Transacts (s.read limit) ws o → ∀ block data, (block, data) ∈ downloads ws →
        block = 0 ∧ data = 0x21 :: Bytes.le32 ((options.startIn? m).getD m.first.start)) ∧
      ∀ start, options.startIn? m = some start → ∀ limit, Tool.readLimit none s = .ok limit →
        ∀ ws data s', Transacts (s.read limit) ws (.done (.ok data, s')) →
        ∃ n, m.maxRead start = .ok n ∧ data.length ≤ n) ∧
    ∀ file filter ts, Trace (Tool.read file filter options none) ts (.done ()) →
      ∃ p found id device ts₀ s limit ts₁ s' data,
        Trace (Session.connect id device options) ts₀ (.done s) ∧
        Tool.readLimit none s = .ok limit ∧ Trace (s.read limit) ts₁ (.done (.ok data, s')) ∧
        ts.filterMap (Tool.asked? p) = found ++ (ts₀.filterMap Query.asked? ++
          (ts₁.filterMap Query.asked? ++ [⟨.call .close, ()⟩])) ∧
        ⟨.writeFile file data, .ok ()⟩ ∈ ts ∧
        ∀ t m start, s.strategy = .dfuse t → t.memory? = some m →
          options.startIn? m = some start → ∃ n, m.maxRead start = .ok n ∧ data.length ≤ n := by
  refine ⟨fun id device ts s t m hconnect hs hm => ?_, fun file filter ts h => ?_⟩
  · have hstart := Session.start_of_connect hconnect hs hm
    refine ⟨fun start hknown => ?_, ?_, fun limit ws o hread => ?_,
      fun start hknown limit hset ws data s' hread => ?_⟩
    · exact Tool.readLimit_of_start hs hm (hstart.trans hknown)
    · rw [Tool.readLimit_eq_none_iff hs hm, hstart, SessionOptions.startIn?_eq_none_iff]
    · rw [← hstart]
      exact Session.setAddress_of_read hs hm hread
    · exact Session.length_le_maxRead hs hm (hstart.trans hknown) hset hread
  · obtain ⟨p, found, id, device, ts₀, s, limit, ts₁, s', data, hconnect, hset, hread, hasked,
      hwrite⟩ := Tool.trace_read h
    refine ⟨p, found, id, device, ts₀, s, limit, ts₁, s', data, hconnect, hset, hread, hasked, hwrite,
      fun t m start hs hm hknown => ?_⟩
    exact Session.length_le_maxRead hs hm
      ((Session.start_of_connect hconnect hs hm).trans hknown) hset ⟨ts₁, hread, rfl⟩

/-! ## A map with a writable segment, and one without -/

/-- A boot loader that gives 24 bytes, from the first address of its map on. -/
def looseLoader (name : String) (base : Nat) : Bench.Simulator :=
  { Bench.Simulator.dfuseLoader [name] 3 with
    uploadBase := base
    uploadData := List.replicate 24 0x5a }

/-- The boot loader `looseLoader` on the bench. -/
def looseBoard (name : String) (base : Nat) : Bench.Board where
  model := .simulator (looseLoader name base)
  budget := none

/-- A bus with it alone. -/
def looseBus (name : String) (base : Nat) : Bench.Bus :=
  .new [.new ⟨7, 0x0483, 0xdf11, "1", 1, none, none, [(0xfe, 1)]⟩ (some 1) (looseBoard name base)]
    [] none

/-- What discovery finds of it. -/
def looseDevice (name : String) : Device where
  descriptor := Bench.Simulator.descriptor
  configurations :=
    [Bench.Simulator.configuration 2 [name] (some ⟨3, 255, 2048, Functional.dfuseVersion⟩)]
  settings := [⟨1, 0, 0, .upgrade, 4, some name⟩]

/-- The session on it, as device 7 and with subscription 0. -/
def looseSession (name : String) (t : DfuseTransfer) : Session where
  connection := .new 0 2048 8
  deviceId := 7
  setting := ⟨1, 0, 0, .upgrade, 4, some name⟩
  functional := ⟨3, 255, 2048, Functional.dfuseVersion⟩
  strategy := .dfuse t
  watching := some 0
  activity := .connected
  disconnectTimeout := 5000

/-- A terminal on which every file can be written. -/
def serveWritable : (q : Tool.Query) → Bench.Terminal → q.Answer × Bench.Terminal
  | .writeFile _ _, t => (.ok (), t)
  | q, t => Bench.Terminal.serve q t

/-- What a job wrote. -/
def written? : Turn Tool.Query.Answer → Option (String × Bytes)
  | ⟨.writeFile file data, _⟩ => some (file, data)
  | _ => none

/-- 12 bytes that can only be read, and 6 after them that can be written. -/
def MemoryMap.boot : MemoryMap where
  name := "Boot"
  segments :=
    [⟨0x08000000, 1, 12, .ofBits 1, by decide, by decide, by decide⟩,
      ⟨0x0800000c, 1, 6, .ofBits 5, by decide, by decide, by decide⟩]
  segments_ne_nil := List.cons_ne_nil _ _

/-- A read of them starts where the 6 bytes are, and gives these. -/
theorem default_read_limit_boot :
    let name := "@Boot /0x08000000/1*12 a,1*6 e"
    let s := looseSession name ⟨some .boot, some 0x0800000c⟩
    let conversation := transcript serveWritable (Tool.read "image" .any (.usual 8) none)
      (.new (looseBus name 0x08000000) ⟨[]⟩)
    (∃ ts₀, Trace (Session.connect 7 (looseDevice name) (.usual 8)) ts₀ (.done s)) ∧
    Tool.readLimit none s = .ok (some 6) ∧
    conversation.1.filterMap written? = [("image", List.replicate 6 0x5a)] ∧
    ∃ p found id device ts₀ s limit ts₁ s' data,
      Trace (Session.connect id device (.usual 8)) ts₀ (.done s) ∧
      Tool.readLimit none s = .ok limit ∧ Trace (s.read limit) ts₁ (.done (.ok data, s')) ∧
      conversation.1.filterMap (Tool.asked? p) = found ++ (ts₀.filterMap Query.asked? ++
        (ts₁.filterMap Query.asked? ++ [⟨.call .close, ()⟩])) ∧
      ⟨.writeFile "image" data, .ok ()⟩ ∈ conversation.1 := by
  intro name s conversation
  have hconnect := trace_transcript Bench.SingleBoard.serve
    (Session.connect 7 (looseDevice name) (.usual 8)) (.ofBoard (looseBoard name 0x08000000))
  rw [show (transcript Bench.SingleBoard.serve _ _).2 = .done s by decide +kernel] at hconnect
  obtain ⟨hlimit, -⟩ :=
    (default_read_limit (.usual 8)).1 7 (looseDevice name) _ s _ .boot hconnect rfl rfl
  have hend : conversation.2 = .done () := by decide +kernel
  have hread := trace_transcript serveWritable (Tool.read "image" .any (.usual 8) none)
    (.new (looseBus name 0x08000000) ⟨[]⟩)
  rw [show (transcript serveWritable _ _).2 = .done () from hend] at hread
  obtain ⟨p, found, id, device, ts₀, s₀, limit, ts₁, s', data, h₀, hset, h₁, hasked, hwrite, -⟩ :=
    (default_read_limit (.usual 8)).2 "image" .any _ hread
  refine ⟨⟨_, hconnect⟩, (hlimit _ rfl).trans rfl, by decide +kernel, ?_⟩
  exact ⟨p, found, id, device, ts₀, s₀, limit, ts₁, s', data, h₀, hset, h₁, hasked, hwrite⟩

/-- 12 bytes that can only be read. -/
def MemoryMap.otp : MemoryMap where
  name := "OTP"
  segments := [⟨0x1fff7800, 1, 12, .ofBits 1, by decide, by decide, by decide⟩]
  segments_ne_nil := List.cons_ne_nil _ _

/-- A read of them starts at the first and has no limit; it gives all 24 bytes that the device has. -/
theorem default_read_unbounded :
    let name := "@OTP /0x1FFF7800/1*12 a"
    let s := looseSession name ⟨some .otp, none⟩
    let conversation := transcript Bench.Terminal.serve (Tool.read "image" .any (.usual 8) none)
      (.new (looseBus name 0x1fff7800) ⟨[]⟩)
    (∃ ts₀, Trace (Session.connect 7 (looseDevice name) (.usual 8)) ts₀ (.done s)) ∧
    MemoryMap.otp.maxRead MemoryMap.otp.first.start = .ok 12 ∧ Tool.readLimit none s = .ok none ∧
    ∃ data, conversation.1.findSome? written? = some ("image", data) ∧ data.length = 24 := by
  intro name s conversation
  have hconnect := trace_transcript Bench.SingleBoard.serve
    (Session.connect 7 (looseDevice name) (.usual 8)) (.ofBoard (looseBoard name 0x1fff7800))
  rw [show (transcript Bench.SingleBoard.serve _ _).2 = .done s by decide +kernel] at hconnect
  exact ⟨⟨_, hconnect⟩, rfl, rfl, List.replicate 24 0x5a, by decide +kernel, rfl⟩

end UsbDfu
