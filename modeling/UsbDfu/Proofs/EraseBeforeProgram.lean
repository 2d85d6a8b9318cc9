import UsbDfu.Proofs.DfuseDownload

/-!
# Erasing before programming

The chunks of an image do not respect the sectors of the map, so that a chunk may lie in several
sectors and a sector may hold several chunks. Still, when a chunk is sent, every sector it touches
has been erased or cannot be (`erased_before_programmed`): all erase commands were carried out
before (`DeliveredAll.exists_delivered`), and they cover the range of the image
(`MemoryMap.Disjoint.covered_of_erasePlan`).
-/

namespace UsbDfu

open Dialogue

/-- A chunk is sent right after the command that sets its address. -/
theorem split_programDeliveries {chunks : List (Nat × Bytes)} {tail js₁ js₂ : List Delivery}
    {j : Delivery} (htail : ∀ k ∈ tail, k.block ≠ Connection.firstDataBlock)
    (hj : j.block = Connection.firstDataBlock)
    (h : js₁ ++ j :: js₂ = programDeliveries chunks ++ tail) :
    ∃ address mid, (address, j.data) ∈ chunks ∧ js₁ = mid ++ [.command (.setAddress address)] := by
  induction chunks generalizing js₁ with
  | nil =>
    have hm : j ∈ tail := by
      rw [show tail = js₁ ++ j :: js₂ from h.symm]
      exact List.mem_append_right _ List.mem_cons_self
    exact absurd hj (htail j hm)
  | cons placed rest ih =>
    obtain ⟨address, chunk⟩ := placed
    have h₁ : js₁ ++ j :: js₂ = .command (.setAddress address) ::
        .chunk Connection.firstDataBlock chunk :: (programDeliveries rest ++ tail) := h
    -- the command is no chunk, so it comes before; then either this chunk is meant or a later one
    rcases js₁ with - | ⟨k, - | ⟨k', js₁⟩⟩
    · obtain ⟨rfl, -⟩ := List.cons.inj h₁
      cases hj
    · obtain ⟨rfl, h₂⟩ := List.cons.inj h₁
      obtain ⟨rfl, -⟩ := List.cons.inj h₂
      exact ⟨address, [], List.mem_cons_self, rfl⟩
    · obtain ⟨rfl, h₂⟩ := List.cons.inj h₁
      obtain ⟨rfl, h₃⟩ := List.cons.inj h₂
      obtain ⟨a, mid, hm, rfl⟩ := ih h₃
      exact ⟨a, _ :: _ :: mid, List.mem_cons_of_mem _ hm, rfl⟩

/-- What comes before a chunk: the whole erase plan, and last the command that sets its address. -/
theorem split_deliveries {start : Nat} {steps : List EraseStep} {chunks : List (Nat × Bytes)}
    {js₁ js₂ : List Delivery} {j : Delivery} (hj : j.block = Connection.firstDataBlock)
    (h : DfuseTransfer.deliveries start steps chunks = js₁ ++ j :: js₂) :
    ∃ address mid, (address, j.data) ∈ chunks ∧
      js₁ = eraseDeliveries steps ++ (mid ++ [.command (.setAddress address)]) := by
  have herase : ∀ k ∈ eraseDeliveries steps, k.block ≠ Connection.firstDataBlock := by
    intro k hk
    obtain ⟨address, -, -, rfl⟩ := mem_eraseDeliveries.1 hk
    exact nofun
  have htail : ∀ k ∈ [Delivery.command (.setAddress start), .manifestation],
      k.block ≠ Connection.firstDataBlock := by
    intro k hk
    rcases List.mem_cons.1 hk with rfl | hk
    · exact nofun
    · obtain rfl := List.mem_singleton.1 hk
      exact nofun
  obtain ⟨js₁', rfl, hprogram⟩ := split_beyond herase (fun hn => hn hj) h.symm
  obtain ⟨address, mid, hm, rfl⟩ := split_programDeliveries htail hj hprogram.symm
  exact ⟨address, mid, hm, rfl⟩

/-- Among these calls is an erase command for the sector that the device took and completed with
status OK. -/
def Erased (sector : Nat) (ws : List Transaction) : Prop :=
  ∃ before reply polls after,
    ws = before ++ .download Connection.commandBlock (0x41 :: Bytes.le32 sector) reply ::
      (polls ++ after) ∧
    BlockTaken Connection.commandBlock (0x41 :: Bytes.le32 sector) reply polls

theorem erased_of_mem {steps : List EraseStep} {js : List Delivery} {ws : List Transaction}
    {address size : Nat} (h : DeliveredAll (eraseDeliveries steps ++ js) ws (.done ()))
    (hm : .erase address size ∈ steps) : Erased address ws := by
  obtain ⟨before, calls, after, rfl, hc⟩ := h.exists_delivered
    (List.mem_append_left _ (mem_eraseDeliveries.2 ⟨address, size, hm, rfl⟩))
  obtain ⟨reply, polls, rfl, -⟩ := hc.eq_cons
  exact ⟨before, reply, polls, after, List.append_assoc .., blockTaken_of_command hc⟩

/-- When a chunk is sent, the command before it has set an address, and every address of the chunk
lies in a segment that cannot be erased, or in a sector that has been erased before. -/
theorem erased_before_programmed {t : DfuseTransfer} {m : MemoryMap} {c : Connection}
    {image : Bytes} {pre post : List Transaction} {chunk : Bytes}
    {reply : Except TransportError Nat} {o : Outcome Failure Unit} (hm : t.memory? = some m)
    (hd : m.Disjoint)
    (h : Transacts (t.download c image)
      (pre ++ .download Connection.firstDataBlock chunk reply :: post) o) :
    ∃ address, address + chunk.length < addressSpace ∧
      (downloads pre).getLast? = some (Connection.commandBlock, 0x21 :: Bytes.le32 address) ∧
      ∀ a, address ≤ a → a < address + chunk.length →
        ∃ s ∈ m.segments, s.contains a = true ∧
          (s.access.erasable = false ∨ Erased (s.sectorStart a) pre) := by
  obtain ⟨m', start, steps, hp⟩ : ∃ m start steps, t.Planned image.length m start steps := by
    refine Classical.byContradiction fun hn => ?_
    have hnil := (DfuseTransfer.eq_nil_of_not_planned (by simpa using hn) h).1
    simp at hnil
  obtain rfl : m' = m := Option.some.inj (hp.memory.symm.trans hm)
  -- the erasing comes first in the list of deliveries, so all of it is among those before the chunk
  obtain ⟨js₁, j, js₂, polls, rest, r, hjs, hblock, rfl, hpre, -, -, -⟩ := (hp.deliveredAll h).cut
  obtain ⟨address, mid, hplaced, rfl⟩ := split_deliveries hblock hjs
  obtain ⟨i, hi, haddress⟩ := mem_placed hplaced
  simp only at hi haddress
  have hend := Bytes.chunk_end_le hi
  have hne : 0 < image.length := by
    have := (Bytes.getElem?_chunks hi).1
    omega
  have hlt := MemoryMap.range_lt_addressSpace hne hp.erasePlan
  refine ⟨address, by omega, ?_, fun a ha hb => ?_⟩
  · rw [hpre.downloads_eq, ← List.append_assoc, List.map_append]
    exact List.getLast?_concat
  · obtain ⟨s, hs, hc, hstep⟩ := hd.covered_of_erasePlan (a := a) hp.erasePlan (by omega) (by omega)
    exact ⟨s, hs, hc, hstep.imp_right fun hstep => erased_of_mem hpre hstep⟩

/-- The first chunk of a small image comes after the erase of its sector. -/
theorem erased_before_programmed_mixed : ∃ pre reply post,
    Transacts (DfuseTransfer.mixed.download (.new 0 4 8) [1, 2, 3, 4, 5, 6, 7, 8, 9, 10])
      (pre ++ .download Connection.firstDataBlock [1, 2, 3, 4] reply :: post) (.done ()) ∧
    ∃ address, (downloads pre).getLast? =
        some (Connection.commandBlock, 0x21 :: Bytes.le32 address) ∧
      ∀ a, address ≤ a → a < address + 4 →
        ∃ s ∈ MemoryMap.mixed.segments, s.contains a = true ∧
          (s.access.erasable = false ∨ Erased (s.sectorStart a) pre) := by
  obtain ⟨ws, h⟩ := transacts_download_mixed
  have hw := (DfuseTransfer.planned_mixed.deliveredAll h).downloads_eq
  have hmem : (Connection.firstDataBlock, [1, 2, 3, 4]) ∈ downloads ws := by
    rw [hw, map_deliveries]
    decide +kernel
  obtain ⟨reply, hreply⟩ := mem_downloads_iff.1 hmem
  obtain ⟨pre, post, rfl⟩ := List.append_of_mem hreply
  obtain ⟨address, -, hset, herased⟩ :=
    erased_before_programmed rfl MemoryMap.disjoint_mixed h
  exact ⟨pre, reply, post, h, address, hset, herased⟩

end UsbDfu
