import Mathlib.Data.List.Basic
import UsbDfu.Proofs.ErasableRange
import UsbDfu.Proofs.Preflight
import UsbDfu.Proofs.ReadLimit
import UsbDfu.Proofs.ReadableRange

/-!
# The usual start

A session that was told no address starts at the first segment that can be written. Which segment that is
goes by the rights alone, and a device may write one without sectors. Its start is an address of the map
only if another segment happens to contain it.

- `SessionOptions.startIn?_of_usual`: the start of a session that was told none.
- `DfuseTransfer.planned_of_covers`, `DfuseTransfer.refused_of_not_covers`: a byte has a place at the
  start just when the start lies in the map.
- `Session.flash_cases_dfuse`: a flash of the extension does not begin, or it ends as its download did.
- `default_start_writable`: a session with the usual start can flash a byte there just when the start
  lies in the map, and it does if the first segment that can be written has a sector.
- `default_start_outside`: a session on a map whose first segment that can be written has none.
-/

namespace UsbDfu

open Dialogue

theorem SessionOptions.startIn?_of_usual {options : SessionOptions} {m : MemoryMap} {w : Segment}
    (hstart : options.startAddress = none) (hw : m.firstWritable? = some w)
    (hfixups : ∀ f ∈ options.fixups, f.reported ≠ w.start) :
    options.startIn? m = some w.start := by
  have hmoved : options.fixups.findSome? (·.move? w.start) = none :=
    List.findSome?_eq_none_iff.2 fun f hf => if_neg (hfixups f hf).symm
  rw [startIn?, hstart, hw, Option.map_some, hmoved]
  rfl

/-! ## Transfers from an address -/

namespace DfuseTransfer

variable {t : DfuseTransfer} {m : MemoryMap} {start : Nat} {c : Connection} {image : Bytes}
  {ws : List Transaction} {o : Outcome Failure Unit}

theorem planned_of_covers (hm : t.memory? = some m) (hstart : t.start? = some start)
    (hcovers : m.Covers start) (byte : UInt8) : ∃ steps, t.Planned [byte].length m start steps := by
  obtain ⟨s, hs⟩ := MemoryMap.exists_segmentAt? hcovers
  have hresolved : t.startIn m true = .ok start := by simp [startIn, hstart, hs]
  have hplan : ∃ steps, m.erasePlan start 1 = .ok steps := by
    refine MemoryMap.exists_erasePlan fun a ha hlt => ?_
    obtain rfl : a = start := by omega
    exact hcovers
  obtain ⟨steps, hplan⟩ := hplan
  exact ⟨steps, .of_startIn hm hresolved hplan⟩

theorem refused_of_not_covers (hm : t.memory? = some m) (hstart : t.start? = some start)
    (hcovers : ¬ m.Covers start) (h : Transacts (t.download c image) ws o) :
    o = .failed (.configuration (.addressOutOfRange start)) := by
  have hmemory := memory_eq_ok_iff.2 hm
  have hresolved : t.startIn m true = .error (.addressOutOfRange start) := by
    simp [startIn, hstart, MemoryMap.not_covers_iff.1 hcovers]
  unfold download at h
  rw [hmemory] at h
  have hrest := transacts_resolveStart_bind hmemory (transacts_say_bind.1 h)
  rw [hresolved] at hrest
  exact (transacts_fail_iff.1 hrest).2

end DfuseTransfer

/-! ## Sessions -/

namespace Session

variable {s s' : Session} {t : DfuseTransfer} {image : Bytes} {ws : List Transaction}
  {r : Except Failure Unit}

/-- A flash on a session of the extension ends as a download, unless the device has left or takes none. -/
theorem flash_cases_dfuse (hs : s.activity = .connected) (ht : s.strategy = .dfuse t)
    (h : Transacts (s.flash image) ws (.done (r, s'))) :
    r = .error (.configuration .disconnected) ∨ r = .error (.configuration .downloadNotSupported) ∨
      ∃ sent, Transacts (t.download s.connection image) sent (.ofExcept r) := by
  rcases flash_cases hs h with ⟨-, _, heq⟩ | ⟨-, heq⟩ | hflash
  · exact .inl (congrArg Prod.fst (Outcome.done.inj heq))
  · exact .inr (.inl (congrArg Prod.fst (Outcome.done.inj heq)))
  · obtain ⟨-, sent, -, -, -, hdownload, -⟩ := download_of_flashConnected hflash
    rw [ht] at hdownload
    exact .inr (.inr ⟨sent, hdownload⟩)

end Session

/-! ## The usual start -/

/-- A session that was told no address, and has no fixup for the first segment that can be written,
starts at the start of that segment. If the segment has a sector, it contains its start. A flash of one
byte that begins is refused just if no segment contains the start, which is the reason that is given. -/
theorem default_start_writable {options : SessionOptions} {id : DeviceId} {device : Device}
    {ts : List (Turn Query.Answer)} {s : Session} {t : DfuseTransfer} {m : MemoryMap} {w : Segment}
    (hconnect : Trace (Session.connect id device options) ts (.done s)) (ht : s.strategy = .dfuse t)
    (hm : t.memory? = some m) (hstart : options.startAddress = none)
    (hw : m.firstWritable? = some w) (hfixups : ∀ f ∈ options.fixups, f.reported ≠ w.start) :
    t.start? = some w.start ∧
    (0 < w.sectors → w ∈ m.segments ∧ w.access.writable = true ∧ w.contains w.start = true) ∧
    (m.Covers w.start → ∀ byte ws e s',
      Transacts (s.flash [byte]) ws (.done (.error (.configuration e), s')) →
        e = .disconnected ∨ e = .downloadNotSupported) ∧
    (¬ m.Covers w.start → w.sectors = 0 ∧ ∀ image ws r s',
      Transacts (s.flash image) ws (.done (r, s')) →
        r = .error (.configuration .disconnected) ∨
        r = .error (.configuration .downloadNotSupported) ∨
        r = .error (.configuration (.addressOutOfRange w.start))) := by
  have hknown : t.start? = some w.start :=
    (Session.start_of_connect hconnect ht hm).trans
      (SessionOptions.startIn?_of_usual hstart hw hfixups)
  have hs : s.activity = .connected :=
    (((Session.within_connect id device options).of_trace hconnect).2 s rfl).2
  have hmem : w ∈ m.segments := List.mem_of_find?_eq_some hw
  have hwritable : w.access.writable = true := by
    have := List.find?_some hw
    exact this
  -- a segment of no sectors would not even have its own start
  have hin : 0 < w.sectors → w.contains w.start = true := fun hpos =>
    Segment.contains_iff.2 ⟨Nat.le_refl _, Segment.start_lt_stop hpos⟩
  refine ⟨hknown, fun hpos => ⟨hmem, hwritable, hin hpos⟩, fun hcovers => ?_,
    fun hcovers => ⟨?_, fun image ws r s' hflash => ?_⟩⟩
  · intro byte ws e s' hflash
    rcases Session.flash_cases_dfuse hs ht hflash with heq | heq | ⟨sent, hdownload⟩
    · cases heq
      exact .inl rfl
    · cases heq
      exact .inr rfl
    · obtain ⟨steps, hplanned⟩ := DfuseTransfer.planned_of_covers hm hknown hcovers byte
      exact absurd hdownload hplanned.not_refused
  · exact Nat.eq_zero_of_not_pos fun hpos => hcovers ⟨w, hmem, hin hpos⟩
  · rcases Session.flash_cases_dfuse hs ht hflash with heq | heq | ⟨sent, hdownload⟩
    · exact .inl heq
    · exact .inr (.inl heq)
    · have hrefused := DfuseTransfer.refused_of_not_covers hm hknown hcovers hdownload
      cases r with
      | ok u => cases hrefused
      | error e => exact .inr (.inr (congrArg Except.error (Outcome.failed.inj hrefused)))

/-- The usual options, with a fixup for the address that the map of the boot loader starts at. -/
def fixedOptions : SessionOptions :=
  { SessionOptions.usual 8 with
    fixups := [⟨0x08000000, 0x4000, by decide, by decide⟩] }

/-- That segment cannot be written, so the fixup does not apply, and the start lies in the next one. -/
theorem default_start_writable_boot :
    let name := "@Boot /0x08000000/1*12 a,1*6 e"
    let s := looseSession name ⟨some .boot, some 0x0800000c⟩
    (∃ ts, Trace (Session.connect 7 (looseDevice name) fixedOptions) ts (.done s)) ∧
    (∃ w ∈ MemoryMap.boot.segments, w.access.writable = true ∧ w.contains 0x0800000c = true) ∧
    ∀ byte ws e s', Transacts (s.flash [byte]) ws (.done (.error (.configuration e), s')) →
      e = .disconnected ∨ e = .downloadNotSupported := by
  intro name s
  have hconnect := trace_transcript Bench.SingleBoard.serve
    (Session.connect 7 (looseDevice name) fixedOptions) (.ofBoard (looseBoard name 0x08000000))
  rw [show (transcript Bench.SingleBoard.serve _ _).2 = .done s by decide +kernel] at hconnect
  obtain ⟨-, hin, hflash, -⟩ := default_start_writable (m := .boot)
    (w := ⟨0x0800000c, 1, 6, .ofBits 5, by decide, by decide, by decide⟩) hconnect rfl rfl rfl
    (by decide) (by decide)
  exact ⟨⟨_, hconnect⟩, ⟨_, hin (by decide)⟩, hflash (by decide)⟩

/-- A segment without sectors, and 16 kilobytes at another address. -/
def MemoryMap.hollow : MemoryMap where
  name := "Flash"
  segments :=
    [⟨0x08000000, 0, 0x4000, .ofBits 7, by decide, by decide, by decide⟩,
      ⟨0x08004000, 1, 0x4000, .ofBits 7, by decide, by decide, by decide⟩]
  segments_ne_nil := List.cons_ne_nil _ _

/-- A session on it starts where it has no memory, though it has some that can be written, and refuses to
flash a byte. -/
theorem default_start_outside :
    let name := "@Flash /0x08000000/0*16Kg/0x08004000/1*16Kg"
    let s := looseSession name ⟨some .hollow, some 0x08000000⟩
    MemoryMap.parse name = .ok .hollow ∧
    (∃ ts, Trace (Session.connect 7 (looseDevice name) (.usual 8)) ts (.done s)) ∧
    (∃ w ∈ MemoryMap.hollow.segments, w.access.writable = true ∧ 0 < w.sectors) ∧
    ¬ MemoryMap.hollow.Covers 0x08000000 ∧
    ∃ ts, Trace (s.flash [0xff]) ts
      (.done (.error (.configuration (.addressOutOfRange 0x08000000)), s)) := by
  intro name s
  have hconnect := trace_transcript Bench.SingleBoard.serve
    (Session.connect 7 (looseDevice name) (.usual 8)) (.ofBoard (looseBoard name 0x08000000))
  rw [show (transcript Bench.SingleBoard.serve _ _).2 = .done s by decide +kernel] at hconnect
  have hflash := trace_transcript Bench.SingleBoard.serve (s.flash [0xff])
    (.ofBoard (looseBoard name 0x08000000))
  rw [show (transcript Bench.SingleBoard.serve (s.flash [0xff])
    (.ofBoard (looseBoard name 0x08000000))).2 = .done
      (.error (.configuration (.addressOutOfRange 0x08000000)), s) by decide +kernel] at hflash
  exact ⟨by decide +kernel, ⟨_, hconnect⟩, by decide, by decide, _, hflash⟩

end UsbDfu
