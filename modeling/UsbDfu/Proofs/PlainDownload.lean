import UsbDfu.Proofs.Chunks
import UsbDfu.Proofs.Delivery
import UsbDfu.Transfer.Plain

/-!
# Plain downloads

- `plainDeliveries`: the chunks numbered from 0 on and an empty block; `deliveredToReset_writeBlocks`
  says that a plain download delivers them and resets the device if all went well.
- `DeliveredToReset.cut`: what can follow a block that is sent.
- `chunkTaken_of_done`, `outcome_of_status_error`, `outcome_of_reset_error`: when a chunk counts as
  taken, and which failures after the empty block are forgiven.
- `writeBlocks_delivers_image`: the blocks a device sees of a plain download, and how it ends.
-/

namespace UsbDfu

open Dialogue

/-! ## The deliveries of a plain download -/

namespace Delivery

/-- A chunk of the image: the wait for it has to end with OK, and it has to be taken whole. -/
def chunk (block : UInt16) (data : Bytes) : Delivery where
  block := block
  data := data
  accept s := s = .dnloadIdle
  verdict taken
    | .error e => .error e
    | .ok s =>
      if s.isOk then
        if taken = data.length then .ok () else .error (.protocol (.shortWrite taken data.length))
      else .error (.protocol (.unexpectedStatus .download s.state s.code))

/-- The empty block that ends the image. A device that stays on the bus is followed until it has
taken the image over, and may leave all the same; any other one is asked once, whatever it says. -/
def terminator (block : UInt16) (tolerant : Bool) : Delivery where
  block := block
  data := []
  accept s := !tolerant || s = .dfuIdle || s = .manifestWaitReset
  verdict _
    | .error e => if tolerant && !e.isDisconnect then .error e else .ok ()
    | .ok s =>
      if tolerant && !s.isOk then .error (.protocol (.unexpectedStatus .manifest s.state s.code))
      else .ok ()

end Delivery

section

variable {c : Connection} {ws : List Transaction} {o : Outcome Failure Unit}

theorem delivered_sendChunk {block : UInt16} {chunk : Bytes}
    (h : Transacts (c.sendChunk block chunk) ws o) : Delivered (.chunk block chunk) ws o := by
  refine Delivered.of_download (fun taken ws o hg => ?_) h
  refine polled_judge (fun _ => rfl) (fun s ws o hf => ?_) (transacts_say_bind.1 hg)
  rw [← transacts_ofExcept_iff]
  by_cases hs : s.isOk = true
  · by_cases ht : taken = chunk.length
    · simpa [Delivery.chunk, Status.check, hs, ht, Exchange.ofProtocol, Dialogue.ofExcept] using hf
    · simpa [Delivery.chunk, Status.check, hs, ht, Exchange.ofProtocol, Dialogue.ofExcept] using hf
  · simpa [Delivery.chunk, Status.check, hs, Exchange.ofProtocol, Dialogue.ofExcept] using hf

theorem judge_awaitManifested (block : UInt16) (taken : Nat)
    (h : Transacts c.awaitManifested ws o) :
    ∃ r, Polled (Delivery.terminator block true).accept ws r ∧
      o = (Delivery.terminator block true).judge taken r := by
  refine polled_attempt_judge
    (fun ws r hd => by simpa [Delivery.terminator] using polled_pollUntil hd) (fun r ws o hf => ?_) h
  rw [← transacts_ofExcept_iff]
  cases r with
  | error e =>
    by_cases he : e.isDisconnect = true
    · simpa [Delivery.terminator, he, Dialogue.ofExcept, transacts_done_iff] using hf
    · simpa [Delivery.terminator, he, Dialogue.ofExcept] using hf
  | ok s =>
    have hc : Transacts (Exchange.ofProtocol (s.check .manifest)) ws o := by
      by_cases hw : s.state = .manifestWaitReset
      · simpa [hw] using hf
      · simpa [hw] using hf
    by_cases hs : s.isOk = true
    · simpa [Delivery.terminator, Status.check, hs, Exchange.ofProtocol] using hc
    · simpa [Delivery.terminator, Status.check, hs, Exchange.ofProtocol] using hc

theorem judge_triggerManifestation (block : UInt16) (taken : Nat)
    (h : Transacts c.triggerManifestation ws o) :
    ∃ r, Polled (Delivery.terminator block false).accept ws r ∧
      o = (Delivery.terminator block false).judge taken r := by
  refine polled_attempt_judge (fun ws r hd => ?_) (fun r ws o hf => ?_) h
  · obtain ⟨reply, rfl, rfl⟩ := transacts_getStatus hd
    cases reply with
    | ok s => exact .settled (.inl rfl)
    | error e => exact .failed e
  · rw [← transacts_ofExcept_iff]
    cases r with
    | ok s => simpa [Delivery.terminator, Dialogue.ofExcept, transacts_done_iff] using hf
    | error e => simpa [Delivery.terminator, Dialogue.ofExcept, transacts_done_iff] using hf

/-- A device that does not stay on the bus is asked once. -/
theorem transacts_triggerManifestation (h : Transacts c.triggerManifestation ws o) :
    ∃ reply, ws = [.status reply] ∧ o = .done () := by
  obtain ⟨_, w₁, w₂, h₁, h₂, rfl⟩ := transacts_bind_iff.1 h
  obtain ⟨r, hr, rfl⟩ := transacts_attempt h₁
  obtain ⟨reply, rfl, rfl⟩ := transacts_getStatus hr
  suffices hs : w₂ = [] ∧ o = .done () from ⟨reply, by simp [hs.1], hs.2⟩
  cases reply with
  | ok s => exact transacts_say_iff.1 h₂
  | error e => exact transacts_say_iff.1 h₂

end

/-- The deliveries of chunks numbered from `first` on. -/
def chunkDeliveries (first : Nat) (chunks : List Bytes) : List Delivery :=
  (chunks.zipIdx first).map fun (chunk, i) => .chunk (UInt16.ofNat i) chunk

theorem delivers_sendChunks (c : Connection) (total first sent : Nat) (chunks : List Bytes) :
    Delivers (c.sendChunks total (UInt16.ofNat first) sent chunks) (chunkDeliveries first chunks)
      (UInt16.ofNat (first + chunks.length)) := by
  induction chunks generalizing first sent with
  | nil => exact .done _
  | cons chunk rest ih =>
    have hn : UInt16.ofNat first + 1 = UInt16.ofNat (first + 1) := by
      rw [UInt16.ofNat_add]; rfl
    have hl : first + (chunk :: rest).length = first + 1 + rest.length := by
      rw [List.length_cons]; omega
    refine .cons (.of_delivered fun ws o h => delivered_sendChunk h) (.progress_bind ?_)
    rw [hl, hn]
    exact ih _ _

/-- How a download ends after the call for a reset. -/
def afterReset : Except TransportError Unit → Outcome Failure Unit
  | .ok () => .done ()
  | .error e => if e.isDisconnect then .done () else .failed (.transport e)

theorem transacts_resetAfterDownload {ws : List Transaction} {o : Outcome Failure Unit}
    (h : Transacts Connection.resetAfterDownload ws o) :
    ∃ reply, ws = [.reset reply] ∧ o = afterReset reply := by
  obtain ⟨_, w₁, w₂, h₁, h₂, rfl⟩ := transacts_bind_iff.1 h
  obtain ⟨r, hr, rfl⟩ := transacts_attempt h₁
  obtain ⟨reply, rfl, rfl⟩ := transacts_reset hr
  suffices hs : w₂ = [] ∧ o = afterReset reply from ⟨reply, by simp [hs.1], hs.2⟩
  cases reply with
  | ok u => exact transacts_done_iff.1 h₂
  | error e =>
    by_cases he : e.isDisconnect = true
    · simpa [Outcome.attempt, Outcome.ofExcept, Outcome.silent, Failure.isDisconnect, afterReset,
        he] using h₂
    · simpa [Outcome.attempt, Outcome.ofExcept, Outcome.silent, Failure.isDisconnect, afterReset,
        he, transacts_fail_iff] using h₂

/-- The calls of deliveries that a reset follows if all of them went well. -/
def DeliveredToReset (js : List Delivery) (ws : List Transaction) (o : Outcome Failure Unit) : Prop :=
  (o ≠ .done () ∧ DeliveredAll js ws o) ∨
    ∃ calls reply, ws = calls ++ [.reset reply] ∧ o = afterReset reply ∧
      DeliveredAll js calls (.done ())

namespace DeliveredToReset

variable {js js' : List Delivery} {ws ws' : List Transaction} {o : Outcome Failure Unit}

theorem append (h : DeliveredAll js ws (.done ())) (h' : DeliveredToReset js' ws' o) :
    DeliveredToReset (js ++ js') (ws ++ ws') o := by
  rcases h' with ⟨hne, h'⟩ | ⟨calls, reply, rfl, rfl, h'⟩
  · exact .inl ⟨hne, h.append h'⟩
  · exact .inr ⟨ws ++ calls, reply, (List.append_assoc ..).symm, rfl, h.append h'⟩

theorem downloads_prefix (h : DeliveredToReset js ws o) :
    downloads ws <+: js.map fun j => (j.block, j.data) := by
  rcases h with ⟨-, h⟩ | ⟨calls, reply, rfl, -, h⟩
  · exact h.downloads_prefix
  · rw [downloads_append, show downloads [.reset reply] = [] from rfl, List.append_nil]
    exact h.downloads_prefix

theorem nil_iff : DeliveredToReset [] ws o ↔ ∃ reply, ws = [.reset reply] ∧ o = afterReset reply := by
  constructor
  · rintro (⟨hne, h⟩ | ⟨calls, reply, rfl, rfl, h⟩)
    · cases h
      exact absurd rfl hne
    · cases h
      exact ⟨reply, rfl, rfl⟩
  · rintro ⟨reply, rfl, rfl⟩
    exact .inr ⟨[], reply, rfl, rfl, .nil⟩

/-- What follows a block that is sent: the wait for it, and then, if that went well, the deliveries
after it and the reset. -/
theorem cut {pre post : List Transaction} {block : UInt16} {data : Bytes}
    {reply : Except TransportError Nat}
    (h : DeliveredToReset js (pre ++ .download block data reply :: post) o) :
    ∃ js₁ j js₂ polls rest r, js = js₁ ++ j :: js₂ ∧ j.block = block ∧ j.data = data ∧
      post = polls ++ rest ∧ Delivered j (.download block data reply :: polls) r ∧
      ((r ≠ .done () ∧ rest = [] ∧ o = r) ∨ (r = .done () ∧ DeliveredToReset js₂ rest o)) := by
  rcases h with ⟨hne, h⟩ | ⟨calls, last, hc, rfl, h⟩
  · obtain ⟨js₁, j, js₂, polls, rest, r, hjs, hb, hd, -, hp, hj, hr⟩ := h.cut
    refine ⟨js₁, j, js₂, polls, rest, r, hjs, hb, hd, hp, hj, hr.imp_right fun hr => ?_⟩
    exact ⟨hr.1, .inl ⟨hne, hr.2⟩⟩
  · rcases List.eq_nil_or_concat post with rfl | ⟨mid, w, rfl⟩
    · cases List.append_inj_right' hc rfl
    · rw [List.concat_eq_append, ← List.cons_append, ← List.append_assoc] at hc
      obtain ⟨rfl, hw⟩ := List.append_inj' hc rfl
      obtain rfl := List.cons.inj hw |>.1
      obtain ⟨js₁, j, js₂, polls, rest, r, hjs, hb, hd, -, rfl, hj, hr⟩ := h.cut
      have hr : r = .done () ∧ DeliveredAll js₂ rest (.done ()) := by
        rcases hr with ⟨hne, -, ho⟩ | hr
        · exact absurd ho.symm hne
        · exact hr
      exact ⟨js₁, j, js₂, polls, rest ++ [.reset last], r, hjs, hb, hd, by simp, hj,
        .inr ⟨hr.1, .inr ⟨rest, last, rfl, rfl, hr.2⟩⟩⟩

end DeliveredToReset

/-- What comes after the chunks: the empty block, and the reset if that went well. -/
theorem deliveredToReset_terminate {c : Connection} {block : UInt16} {tolerant : Bool}
    {l₁ l₂ l₃ : Level} {t₁ t₂ t₃ : String} {ws : List Transaction} {o : Outcome Failure Unit}
    (h : Transacts (do
      Exchange.say l₁ t₁
      let _ ← c.download block []
      Exchange.say l₂ t₂
      Exchange.say l₃ t₃
      if tolerant then c.awaitManifested else c.triggerManifestation
      Connection.resetAfterDownload) ws o) :
    DeliveredToReset [.terminator block tolerant] ws o := by
  obtain ⟨_, w₁, w₂, h₁, h₂, rfl⟩ := transacts_bind_iff.1 (transacts_say_bind.1 h)
  obtain ⟨reply, rfl, rfl⟩ := transacts_download h₁
  cases reply with
  | error e =>
    obtain ⟨rfl, rfl⟩ := transacts_fail_iff.1 h₂
    exact .inl ⟨nofun, .single (.refused e)⟩
  | ok taken =>
    have h₃ := transacts_say_bind.1 (transacts_say_bind.1 h₂)
    -- followed to its end or asked once, both are a wait with a verdict
    obtain ⟨r, w₃, w₄, hp, h₄, rfl⟩ : ∃ r w₃ w₄,
        Polled (Delivery.terminator block tolerant).accept w₃ r ∧
        Transacts (((Delivery.terminator block tolerant).judge taken r).silent >>= fun _ =>
          Connection.resetAfterDownload) w₄ o ∧ w₂ = w₃ ++ w₄ := by
      cases tolerant with
      | true =>
        obtain ⟨_, w₃, w₄, hm, h₄, rfl⟩ := transacts_bind_iff.1 h₃
        obtain ⟨r, hp, rfl⟩ := judge_awaitManifested block taken hm
        exact ⟨r, w₃, w₄, hp, h₄, rfl⟩
      | false =>
        obtain ⟨_, w₃, w₄, hm, h₄, rfl⟩ := transacts_bind_iff.1 h₃
        obtain ⟨r, hp, rfl⟩ := judge_triggerManifestation block taken hm
        exact ⟨r, w₃, w₄, hp, h₄, rfl⟩
    have hd := DeliveredAll.single (.judged taken hp)
    rw [← Outcome.map_unit (Delivery.judge ..)] at h₄
    rcases transacts_silent_bind h₄ with ⟨hr, h₄⟩ | ⟨hne, rfl, ho⟩
    · obtain ⟨reply, rfl, rfl⟩ := transacts_resetAfterDownload h₄
      exact .inr ⟨.download block [] (.ok taken) :: w₃, reply, rfl, rfl, hr ▸ hd⟩
    · obtain rfl := (ho ()).trans (Outcome.map_unit _)
      exact .inl ⟨hne, (List.append_nil w₃).symm ▸ hd⟩

/-- The deliveries of a plain download of these chunks. -/
def plainDeliveries (chunks : List Bytes) (tolerant : Bool) : List Delivery :=
  chunkDeliveries 0 chunks ++ [.terminator (UInt16.ofNat chunks.length) tolerant]

/-- A plain download carries out its deliveries, and then, if all went well, resets the device. -/
theorem deliveredToReset_writeBlocks {c : Connection} {size : UInt16} {image : Bytes}
    {tolerant : Bool} {ws : List Transaction} {o : Outcome Failure Unit}
    (h : Transacts (c.writeBlocks size image tolerant) ws o) :
    DeliveredToReset (plainDeliveries (Bytes.chunks size.toNat image) tolerant) ws o := by
  unfold Connection.writeBlocks at h
  simp only [transacts_say_bind, transacts_progress_bind] at h
  obtain ⟨_, w₁, w₂, h₁, h₂, rfl⟩ := transacts_bind_iff.1 h
  obtain ⟨r, hr, rfl⟩ := delivers_sendChunks c _ 0 0 _ _ _ h₁
  rcases transacts_silent_bind h₂ with ⟨rfl, h₂⟩ | ⟨hne, rfl, ho⟩
  · rw [Nat.zero_add] at h₂
    exact .append hr (deliveredToReset_terminate h₂)
  · obtain rfl : o = r := (ho ()).trans r.map_unit
    exact .inl ⟨hne, by simpa [plainDeliveries] using hr.append_of_ne hne⟩

/-! ## What the device sees -/

/-- The chunks numbered from 0 on, modulo 65536, and an empty block after them. -/
def numberedBlocks (chunks : List Bytes) : List (UInt16 × Bytes) :=
  (chunks.zipIdx.map fun (chunk, i) => (UInt16.ofNat i, chunk)) ++ [(UInt16.ofNat chunks.length, [])]

theorem map_plainDeliveries (chunks : List Bytes) (tolerant : Bool) :
    ((plainDeliveries chunks tolerant).map fun j => (j.block, j.data)) = numberedBlocks chunks := by
  simp [plainDeliveries, numberedBlocks, chunkDeliveries, Delivery.chunk, Delivery.terminator]

theorem flatten_numberedBlocks (chunks : List Bytes) :
    ((numberedBlocks chunks).map Prod.snd).flatten = chunks.flatten := by
  have h : (chunks.zipIdx.map fun p => (UInt16.ofNat p.2, p.1)).map Prod.snd = chunks := by
    simp [Function.comp_def]
  simp [numberedBlocks, h]

/-- A delivery of data is that of a chunk. -/
theorem eq_chunk_of_mem {chunks : List Bytes} {tolerant : Bool} {j : Delivery}
    (h : j ∈ plainDeliveries chunks tolerant) (hd : j.data ≠ []) : j = .chunk j.block j.data := by
  rcases List.mem_append.1 h with h | h
  · obtain ⟨⟨chunk, i⟩, -, rfl⟩ := List.mem_map.1 h
    rfl
  · obtain rfl := List.mem_singleton.1 h
    exact absurd rfl hd

/-- The delivery of an empty block is the last one. -/
theorem eq_terminator {size : Nat} {image : Bytes} {tolerant : Bool} {j : Delivery}
    {js₁ js₂ : List Delivery} (hd : j.data = [])
    (h : plainDeliveries (Bytes.chunks size image) tolerant = js₁ ++ j :: js₂) :
    j = .terminator j.block tolerant ∧ js₂ = [] := by
  have hne : ∀ k ∈ chunkDeliveries 0 (Bytes.chunks size image), k.data ≠ [] := by
    intro k hk
    obtain ⟨⟨chunk, i⟩, hm, rfl⟩ := List.mem_map.1 hk
    exact Bytes.ne_nil_of_mem_chunks (List.fst_mem_of_mem_zipIdx hm)
  obtain ⟨mid, -, hm⟩ := split_beyond hne (fun hc => hc hd) h.symm
  rcases List.append_eq_singleton_iff.1 hm.symm with ⟨-, hj⟩ | ⟨-, hj⟩
  · obtain ⟨rfl, rfl⟩ := List.cons.inj hj
    exact ⟨rfl, rfl⟩
  · simp at hj

/-- The chunk was taken whole, and the wait after it ended with status OK. -/
def ChunkTaken (chunk : Bytes) (reply : Except TransportError Nat) (polls : List Transaction) : Prop :=
  reply = .ok chunk.length ∧
    ∃ s, Polled (fun state => state = .dnloadIdle) polls (.done s) ∧ s.isOk = true

/-- The delivery of a chunk goes well only if the chunk is taken. -/
theorem chunkTaken_of_done {block : UInt16} {chunk : Bytes} {reply : Except TransportError Nat}
    {polls : List Transaction}
    (h : Delivered (.chunk block chunk) (.download block chunk reply :: polls) (.done ())) :
    ChunkTaken chunk reply polls := by
  obtain ⟨taken, s, rfl, hp, hv⟩ := h.settled_of_done fun _ _ => rfl
  by_cases hs : s.isOk = true
  · by_cases ht : taken = chunk.length
    · exact ⟨congrArg _ ht, s, hp, hs⟩
    · simp [Delivery.chunk, hs, ht] at hv
  · simp [Delivery.chunk, hs] at hv

section Terminator

variable {block : UInt16} {tolerant : Bool} {reply : Except TransportError Nat}
  {polls rest : List Transaction} {r o : Outcome Failure Unit}

/-- When the manifestation of a device that should stay on the bus cannot be followed, only the
loss of the device is forgiven. -/
theorem outcome_of_status_error {e : Failure}
    (h : Delivered (.terminator block true) (.download block [] reply :: polls) r)
    (hr : (r ≠ .done () ∧ rest = [] ∧ o = r) ∨
      (r = .done () ∧ ∃ reply, rest = [.reset reply] ∧ o = afterReset reply))
    (he : .status (.error e) ∈ polls ++ rest) :
    if e.isDisconnect then ∃ calls reply, polls ++ rest = calls ++ [.reset reply]
    else o = .failed e ∧ ∀ w ∈ polls ++ rest, w.isReset = false := by
  have hpolls : .status (.error e) ∈ polls := by
    rcases List.mem_append.1 he with he | he
    · exact he
    · rcases hr with ⟨-, rfl, -⟩ | ⟨-, reply, rfl, -⟩ <;> simp at he
  have hje : r = (Delivery.terminator block true).judge 0 (.failed e) := by
    rcases h.judged_of_cons with ⟨_, -, rfl, -⟩ | ⟨taken, p, -, hp, rfl⟩
    · simp at hpolls
    · rw [hp.eq_failed_of_mem hpolls]
      rfl
  split
  · rename_i hd
    rcases hr with ⟨hne, -, -⟩ | ⟨-, reply, rfl, -⟩
    · exact absurd (by simp [hje, Delivery.judge, Delivery.terminator, hd]) hne
    · exact ⟨polls, reply, rfl⟩
  · rename_i hd
    rcases hr with ⟨-, rfl, rfl⟩ | ⟨rfl, -⟩
    · refine ⟨by simp [hje, Delivery.judge, Delivery.terminator, hd], fun w hw => ?_⟩
      exact h.isReset_eq_false w (List.mem_cons_of_mem _ (by simpa using hw))
    · simp [Delivery.judge, Delivery.terminator, hd] at hje

/-- When the reset fails, only the loss of the device is forgiven. -/
theorem outcome_of_reset_error {e : TransportError}
    (h : Delivered (.terminator block tolerant) (.download block [] reply :: polls) r)
    (hr : (r ≠ .done () ∧ rest = [] ∧ o = r) ∨
      (r = .done () ∧ ∃ reply, rest = [.reset reply] ∧ o = afterReset reply))
    (he : .reset (.error e) ∈ polls ++ rest) :
    o = if e.isDisconnect then .done () else .failed (.transport e) := by
  rcases List.mem_append.1 he with he | he
  · exact absurd (h.isReset_eq_false _ (List.mem_cons_of_mem _ he)) nofun
  · rcases hr with ⟨-, rfl, -⟩ | ⟨-, reply, rfl, rfl⟩
    · cases he
    · obtain rfl : .error e = reply := by simpa using he
      rfl

end Terminator

/-- What a device sees of a plain download. The blocks sent are the numbered chunks and the empty
block, in order. On success they are all of these, each chunk was taken, and one reset is the last
call. A chunk whose delivery fails ends everything with its own cause. After the empty block only
the loss of the device is forgiven. -/
theorem writeBlocks_delivers_image {c : Connection} {size : UInt16} {image : Bytes}
    {tolerant : Bool} {ws : List Transaction} {o : Outcome Failure Unit}
    (h : Transacts (c.writeBlocks size image tolerant) ws o) :
    downloads ws <+: numberedBlocks (Bytes.chunks size.toNat image) ∧
    (o = .done () →
      downloads ws = numberedBlocks (Bytes.chunks size.toNat image) ∧
      ((downloads ws).map Prod.snd).flatten = image ∧
      (∀ pre block chunk reply post, ws = pre ++ .download block chunk reply :: post → chunk ≠ [] →
        ∃ polls rest, post = polls ++ rest ∧ ChunkTaken chunk reply polls) ∧
      ∃ calls reply, ws = calls ++ [.reset reply] ∧ ∀ w ∈ calls, w.isReset = false) ∧
    (∀ pre block chunk reply post, ws = pre ++ .download block chunk reply :: post → chunk ≠ [] →
      ∃ polls rest r, post = polls ++ rest ∧
        Delivered (.chunk block chunk) (.download block chunk reply :: polls) r ∧
        (r ≠ .done () → rest = [] ∧ o = r)) ∧
    (∀ pre block reply post, ws = pre ++ .download block [] reply :: post →
      (tolerant = true → ∀ e, .status (.error e) ∈ post →
        if e.isDisconnect then ∃ calls reply, post = calls ++ [.reset reply]
        else o = .failed e ∧ ∀ w ∈ post, w.isReset = false) ∧
      ∀ e, .reset (.error e) ∈ post →
        o = if e.isDisconnect then .done () else .failed (.transport e)) := by
  have hd := deliveredToReset_writeBlocks h
  -- a chunk that is not empty is not the terminator, so its delivery is that of a chunk
  have hchunk : ∀ pre block chunk reply post, ws = pre ++ .download block chunk reply :: post →
      chunk ≠ [] → ∃ polls rest r, post = polls ++ rest ∧
        Delivered (.chunk block chunk) (.download block chunk reply :: polls) r ∧
        (r ≠ .done () → rest = [] ∧ o = r) := by
    rintro pre block chunk reply post rfl hne
    obtain ⟨js₁, j, js₂, polls, rest, r, hjs, rfl, rfl, rfl, hj, hr⟩ := hd.cut
    have hmem : j ∈ plainDeliveries (Bytes.chunks size.toNat image) tolerant := by
      rw [hjs]
      exact List.mem_append_right _ List.mem_cons_self
    rw [eq_chunk_of_mem hmem hne] at hj
    exact ⟨polls, rest, r, rfl, hj, fun hr' => hr.elim And.right fun hr => absurd hr.1 hr'⟩
  refine ⟨map_plainDeliveries _ tolerant ▸ hd.downloads_prefix, ?_, hchunk, ?_⟩
  · rintro rfl
    rcases hd with ⟨hne, -⟩ | ⟨calls, reset, hc, -, hd⟩
    · exact absurd rfl hne
    · have hw : downloads ws = numberedBlocks (Bytes.chunks size.toNat image) := by
        rw [hc, downloads_append, hd.downloads_eq, map_plainDeliveries]
        exact List.append_nil _
      refine ⟨hw, ?_, fun pre block chunk reply post hpre hne => ?_, calls, reset, hc,
        hd.isReset_eq_false⟩
      · rw [hw, flatten_numberedBlocks, Bytes.flatten_chunks]
      · obtain ⟨polls, rest, r, hpost, hj, hr⟩ := hchunk _ _ _ _ _ hpre hne
        obtain rfl : r = .done () := Decidable.byContradiction fun hr' => hr' (hr hr').2.symm
        exact ⟨polls, rest, hpost, chunkTaken_of_done hj⟩
  · rintro pre block reply post rfl
    obtain ⟨js₁, j, js₂, polls, rest, r, hjs, rfl, hdata, rfl, hj, hr⟩ := hd.cut
    obtain ⟨hterm, rfl⟩ := eq_terminator hdata hjs
    rw [DeliveredToReset.nil_iff] at hr
    rw [hterm] at hj
    exact ⟨fun ht e he => outcome_of_status_error (ht ▸ hj) hr he,
      fun e he => outcome_of_reset_error hj hr he⟩

/-- Three bytes go to a simulated boot loader in two blocks and an empty one. -/
theorem writeBlocks_delivers_three_bytes :
    ∃ ws, Transacts ((Connection.new 0 2 8).writeBlocks 2 [1, 2, 3] true) ws (.done ()) ∧
      downloads ws = [(0, [1, 2]), (1, [3]), (2, [])] := by
  have h := transacts_transcript Bench.SingleBoard.serve
    ((Connection.new 0 2 8).writeBlocks 2 [1, 2, 3] true)
    (.ofSimulator { Bench.Simulator.plain 0x07 2 with busyPolls := 1 })
  rw [show (transcript Bench.SingleBoard.serve _ _).2 = .done () by decide +kernel] at h
  refine ⟨_, h, ((writeBlocks_delivers_image h).2.1 rfl).1.trans ?_⟩
  decide +kernel

end UsbDfu
