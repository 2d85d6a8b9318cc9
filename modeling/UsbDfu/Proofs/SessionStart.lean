import UsbDfu.Proofs.Routine

/-!
# The start of a session

Where the transfers of a session of the extension start is settled when it is connected: at the chosen
address, or at the first writable segment of the map, which a fixup may move. A session may well know
no start.

- `SessionOptions.startIn? options m`: the start; `SessionOptions.startIn?_eq_none_iff` says when there
  is none.
- `Session.start_of_connect`: every session that was connected with the options has it.
-/

namespace UsbDfu

open Dialogue

/-- The start that a session knows of: the chosen one, or that of the first writable segment, moved by
the first fixup for it. -/
def SessionOptions.startIn? (options : SessionOptions) (m : MemoryMap) : Option Nat :=
  options.startAddress <|> m.firstWritable?.map fun s =>
    (options.fixups.findSome? (·.move? s.start)).getD s.start

/-- A session knows no start exactly if none was chosen and nothing of the map can be written. -/
theorem SessionOptions.startIn?_eq_none_iff {options : SessionOptions} {m : MemoryMap} :
    options.startIn? m = none ↔ options.startAddress = none ∧ m.firstWritable? = none := by
  unfold SessionOptions.startIn?
  cases options.startAddress <;> simp

namespace Session

variable {options : SessionOptions} {m : MemoryMap}

theorem within_chooseStart :
    (chooseStart options m).Within (fun _ => True) (· = options.startIn? m) := by
  unfold chooseStart SessionOptions.startIn?
  cases options.startAddress with
  | some start => exact rfl
  | none =>
    cases m.firstWritable? with
    | none => exact rfl
    | some s =>
      dsimp only
      cases hmoved : options.fixups.findSome? (·.move? s.start) with
      | some moved =>
        refine within_after fun _ => ?_
        simp [Within, hmoved]
      | none => simp [Within, hmoved]

theorem within_dfuseTransfer (setting : AltSetting) :
    (dfuseTransfer setting options).Within (fun _ => True)
      fun t => ∀ m, t.memory? = some m → t.start? = options.startIn? m := by
  refine within_after fun memory? => ?_
  cases memory? with
  | none => exact fun m hm => by cases hm
  | some m =>
    refine within_after fun _ => within_chooseStart.bind ?_
    rintro _ rfl
    have hend : ∀ start?, options.startIn? m = start? →
        ∀ m', some m = some m' → start? = options.startIn? m' := by
      rintro _ rfl _ ⟨⟩
      rfl
    cases hstart : options.startIn? m with
    | some address => exact within_after fun _ => hend _ hstart
    | none => exact hend _ hstart

/-- The start of a session of the extension with a memory map. -/
theorem start_of_connect {id : DeviceId} {device : Device} {ts : List (Turn Query.Answer)}
    {s : Session} {t : DfuseTransfer} (h : Trace (connect id device options) ts (.done s))
    (hs : s.strategy = .dfuse t) (hm : t.memory? = some m) : t.start? = options.startIn? m := by
  have hconnect : (connect id device options).Within (fun _ => True) fun s =>
      ∀ t m, s.strategy = .dfuse t → t.memory? = some m → t.start? = options.startIn? m := by
    refine within_after fun setting => within_after fun _ => within_after fun functional =>
      within_after fun watching => ?_
    dsimp only
    split
    · refine Within.bind (R := fun s => ∃ t, s = Strategy.dfuse t ∧
        ∀ m, t.memory? = some m → t.start? = options.startIn? m) ?_ ?_
      · exact (within_dfuseTransfer setting).bind fun t ht => ⟨t, rfl, ht⟩
      · rintro _ ⟨t, rfl, ht⟩
        refine within_after fun _ => within_after fun _ => ?_
        rintro _ m ⟨⟩ hm
        exact ht m hm
    · refine Within.bind (R := (· = Strategy.plain)) rfl ?_
      rintro _ rfl
      refine within_after fun _ => within_after fun _ => ?_
      rintro _ _ ⟨⟩
  exact (hconnect.of_trace h).2 s rfl t m hs hm

end Session

end UsbDfu
