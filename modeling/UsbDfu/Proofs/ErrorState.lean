import UsbDfu.Proofs.DfuseDownload
import UsbDfu.Proofs.History

/-!
# Success after the error state

A status has two fields that a device sets independently: the outcome of the last request and the
state it is in. A wait ends at the error state as it ends at a state that is accepted, and what
comes of it is then decided by the outcome alone. So a download or a command can go well although
the device reported the error state, but only if it reported the outcome OK with it.

- `Delivery.NeedsOk j`: the delivery `j` goes well only if the status that ends its wait is OK.
- `DeliveredAll.isOk_of_error`: among deliveries that all went well, the error state was reported in
  the wait of such a one only with OK.
- `error_state_passes_only_with_ok`: the same of plain downloads and of commands;
  `error_state_passes`: a device that goes from block to block through the error state.
-/

namespace UsbDfu

open Dialogue

/-! ## Deliveries that need OK -/

/-- The delivery goes well only if the status that ends its wait has the outcome OK. -/
def Delivery.NeedsOk (j : Delivery) : Prop :=
  ∀ taken s, j.verdict taken (.ok s) = .ok () → s.isOk = true

theorem Delivery.needsOk_chunk (block : UInt16) (data : Bytes) : (chunk block data).NeedsOk := by
  intro taken s hv
  refine Decidable.byContradiction fun hs => ?_
  simp [chunk, hs] at hv

/-- A device that is followed while it takes the image over has to end with OK. -/
theorem Delivery.needsOk_terminator (block : UInt16) : (terminator block true).NeedsOk := by
  intro taken s hv
  refine Decidable.byContradiction fun hs => ?_
  simp [terminator, hs] at hv

theorem Delivery.needsOk_command (cmd : Command) : (command cmd).NeedsOk := by
  intro taken s hv
  refine Decidable.byContradiction fun hs => ?_
  simp [command, hs] at hv

section

variable {js : List Delivery} {pre post : List Transaction} {s : Status}

/-- Where all deliveries went well, the error state was reported with OK, or in the wait of one that
does not need it. -/
theorem DeliveredAll.isOk_of_error (hs : s.state = .error)
    (h : DeliveredAll js (pre ++ .status (.ok s) :: post) (.done ())) :
    ∃ j ∈ js, (downloads pre).getLast? = some (j.block, j.data) ∧ (j.NeedsOk → s.isOk = true) := by
  obtain ⟨j, hj, before, reply, polls, polls', rfl, hp, hd⟩ := h.exists_waited
  refine ⟨j, hj, ?_, fun hneeds => ?_⟩
  · simp [downloads_eq_nil_of_isStatus hp]
  · obtain ⟨taken, hv⟩ := hd.verdict_of_error hs
    exact hneeds taken s hv

/-- The reset at the end reports no status. -/
theorem DeliveredToReset.isOk_of_error (hs : s.state = .error)
    (h : DeliveredToReset js (pre ++ .status (.ok s) :: post) (.done ())) :
    ∃ j ∈ js, (downloads pre).getLast? = some (j.block, j.data) ∧ (j.NeedsOk → s.isOk = true) := by
  rcases h with ⟨hne, -⟩ | ⟨calls, reply, hc, -, h⟩
  · exact absurd rfl hne
  · rcases split_concat hc.symm with ⟨-, hw, -⟩ | ⟨post', -, rfl⟩
    · cases hw
    · exact h.isOk_of_error hs

end

/-! ## Downloads and commands -/

/-- If a plain download goes well, an error state that was reported in the wait for a chunk came
with the outcome OK, and so did one that was reported while a device that stays on the bus took the
image over. If a command goes well, the outcome reported last was OK. -/
theorem error_state_passes_only_with_ok {c : Connection} {ws : List Transaction} :
    (∀ size image tolerant, Transacts (c.writeBlocks size image tolerant) ws (.done ()) →
      ∀ pre s post, ws = pre ++ .status (.ok s) :: post → s.state = .error →
        (tolerant = true ∨
          ∃ block chunk, (downloads pre).getLast? = some (block, chunk) ∧ chunk ≠ []) →
        s.isOk = true) ∧
    ∀ cmd, Transacts (c.command cmd) ws (.done ()) →
      ∃ init s, ws = init ++ [.status (.ok s)] ∧ s.isOk = true := by
  refine ⟨fun size image tolerant h pre s post hw hs hwait => ?_, fun cmd h => ?_⟩
  · subst hw
    obtain ⟨j, hj, hlast, hok⟩ := (deliveredToReset_writeBlocks h).isOk_of_error hs
    refine hok ?_
    -- the wait after the empty block only counts on a tolerant device
    rcases List.mem_append.1 hj with hj | hj
    · obtain ⟨⟨chunk, i⟩, -, rfl⟩ := List.mem_map.1 hj
      exact Delivery.needsOk_chunk _ chunk
    · obtain rfl := List.mem_singleton.1 hj
      rcases hwait with rfl | ⟨block, chunk, hlast', hne⟩
      · exact Delivery.needsOk_terminator _
      · rw [hlast] at hlast'
        cases hlast'
        exact absurd rfl hne
  · have hd := delivered_command h
    obtain ⟨reply, polls, rfl, -⟩ := hd.eq_cons
    obtain ⟨taken, s, -, hp, hv⟩ := hd.settled_of_done fun _ _ => rfl
    obtain ⟨init, read, rfl, hread, -⟩ := hp.eq_concat
    obtain rfl := hread s rfl
    exact ⟨_ :: init, s, rfl, Delivery.needsOk_command cmd taken s hv⟩

/-- A device that is in the error state whenever it is asked, and says that all is well. -/
def erringBoard : Bench.Board where
  model := .script { id := 0, queues := [(.getStatus, [.data [0, 0, 0, 0, 10, 0] false])] }
  budget := none

/-- What it says. -/
def erringStatus : Status where
  code := .ok
  pollTimeout := 0
  state := .error

/-- It is sent a chunk and the empty block, and is reset. -/
theorem transacts_writeBlocks_erring :
    Transacts ((Connection.new 0 4 8).writeBlocks 4 [1, 2] true)
      [.download 0 [1, 2] (.ok 2), .status (.ok erringStatus), .download 1 [] (.ok 0),
        .status (.ok erringStatus), .reset (.ok ())] (.done ()) := by
  have h := transacts_transcript Bench.SingleBoard.serve
    ((Connection.new 0 4 8).writeBlocks 4 [1, 2] true) (.ofBoard erringBoard)
  rw [show (transcript Bench.SingleBoard.serve _ _).2 = .done () by decide +kernel] at h
  have hcalls : transactions (transcript Bench.SingleBoard.serve
      ((Connection.new 0 4 8).writeBlocks 4 [1, 2] true) (.ofBoard erringBoard)).1 =
      [.download 0 [1, 2] (.ok 2), .status (.ok erringStatus), .download 1 [] (.ok 0),
        .status (.ok erringStatus), .reset (.ok ())] := by
    with_unfolding_all rfl
  rwa [hcalls] at h

/-- The error state with the outcome OK passes in the wait for the chunk. -/
theorem error_state_passes_only_with_ok_erring :
    Transacts ((Connection.new 0 4 8).writeBlocks 4 [1, 2] true)
      ([.download 0 [1, 2] (.ok 2)] ++ .status (.ok erringStatus) ::
        [.download 1 [] (.ok 0), .status (.ok erringStatus), .reset (.ok ())]) (.done ()) ∧
      erringStatus.state = .error ∧ erringStatus.isOk = true :=
  ⟨transacts_writeBlocks_erring, rfl,
    error_state_passes_only_with_ok.1 4 [1, 2] true transacts_writeBlocks_erring [_] _ _ rfl
      rfl (.inl rfl)⟩

/-- A download goes well although the error state was reported in the wait for its only chunk, and
again while the device took the image over; and so does an erase command after which the error state
was the last thing reported. -/
theorem error_state_passes :
    (∃ pre s post, Transacts ((Connection.new 0 4 8).writeBlocks 4 [1, 2] true)
        (pre ++ .status (.ok s) :: post) (.done ()) ∧
      s.state = .error ∧ (downloads pre).getLast? = some (0, [1, 2])) ∧
    (∃ pre s post, Transacts ((Connection.new 0 4 8).writeBlocks 4 [1, 2] true)
        (pre ++ .status (.ok s) :: post) (.done ()) ∧
      s.state = .error ∧ (downloads pre).getLast? = some (1, [])) ∧
    ∃ init s, Transacts ((Connection.new 0 4 8).command (.eraseSector 0x08000000))
        (init ++ [.status (.ok s)]) (.done ()) ∧ s.state = .error := by
  have hwrite := transacts_writeBlocks_erring
  refine ⟨⟨[_], _, _, hwrite, rfl, rfl⟩, ⟨[_, _, _], _, [_], hwrite, rfl, rfl⟩, ?_⟩
  have h := transacts_transcript Bench.SingleBoard.serve
    ((Connection.new 0 4 8).command (.eraseSector 0x08000000)) (.ofBoard erringBoard)
  rw [show (transcript Bench.SingleBoard.serve _ _).2 = .done () by decide +kernel] at h
  have hcalls : transactions (transcript Bench.SingleBoard.serve
      ((Connection.new 0 4 8).command (.eraseSector 0x08000000)) (.ofBoard erringBoard)).1 =
      [.download 0 [0x41, 0, 0, 0, 8] (.ok 5), .status (.ok erringStatus)] := by
    with_unfolding_all rfl
  rw [hcalls] at h
  exact ⟨[_], _, h, rfl⟩

end UsbDfu
