import UsbDfu.Proofs.History
import UsbDfu.Proofs.PlainDownload
import UsbDfu.Transfer.Dfuse

/-!
# Busy devices

While a device works on a block it must only be asked for its status. How long that takes and what
it reports meanwhile is its own affair, so the rule is about each call and all that came before it.

- `CanFollow before w`: the call `w` can be made after these ones; `BestEffort` is the one exception.
- `Calm`: the device can take a block; `Free`: nothing is pending.
- `Keeps rule P d Q`: begun after calls in `P`, the exchange `d` makes calls that the rule allows and
  ends in `Q`; `Keeps.bind` puts exchanges one after another. Every exchange between two blocks goes
  from `Calm` to `Calm`: `keeps_pollUntil` is the wait that makes it so.
- `busy_device_only_asked`: the rule for each of the six transfers as a whole.
-/

namespace UsbDfu

open Dialogue

/-! ## What the device has reported -/

namespace Transaction

/-- The state that an answer to GETSTATUS or GETSTATE reports. -/
def reported? : Transaction → Option State
  | .status (.ok s) => some s.state
  | .state (.ok s) => some s
  | _ => none

/-- The call brings a block, or a command of the extension. -/
def isDownload : Transaction → Bool
  | .download _ _ _ => true
  | _ => false

/-- The call fetches a block. -/
def isUpload : Transaction → Bool
  | .upload _ _ _ => true
  | _ => false

end Transaction

/-- The state reported last. -/
def lastReported? (ws : List Transaction) : Option State :=
  (ws.filterMap Transaction.reported?).getLast?

/-- The last call was a GETSTATUS, and its answer reported the device busy. -/
def LeftBusy (ws : List Transaction) : Prop :=
  ∃ pre s, ws = pre ++ [.status (.ok s)] ∧ s.state = .dnBusy

/-- After every block that was sent a status has reported a state other than busy. -/
def AllTakenIn (ws : List Transaction) : Prop :=
  ∀ pre block data reply post, ws = pre ++ .download block data reply :: post →
    ∃ s, .status (.ok s) ∈ post ∧ s.state ≠ .dnBusy

section

variable {ws : List Transaction} {w : Transaction}

theorem lastReported?_concat : lastReported? (ws ++ [w]) = w.reported?.or (lastReported? ws) :=
  getLast?_filterMap_concat _ ws w

theorem leftBusy_concat_iff :
    LeftBusy (ws ++ [w]) ↔ ∃ s, w = .status (.ok s) ∧ s.state = .dnBusy := by
  constructor
  · rintro ⟨pre, s, h, hs⟩
    exact ⟨s, (List.append_inj' h rfl).2 |> List.cons.inj |>.1, hs⟩
  · rintro ⟨s, rfl, hs⟩
    exact ⟨ws, s, rfl, hs⟩

theorem not_leftBusy_concat (h : w.isStatus = false) : ¬ LeftBusy (ws ++ [w]) := by
  rw [leftBusy_concat_iff]
  rintro ⟨s, rfl, -⟩
  cases h

/-- A GETSTATUS that failed reported nothing. -/
theorem not_leftBusy_failed {e : Failure} : ¬ LeftBusy (ws ++ [.status (.error e)]) := by
  rw [leftBusy_concat_iff]
  rintro ⟨s, hs, -⟩
  cases hs

theorem AllTakenIn.concat (h : AllTakenIn ws) (hw : w.isDownload = false) : AllTakenIn (ws ++ [w]) := by
  intro pre block data reply post hp
  rcases split_concat hp with ⟨-, rfl, -⟩ | ⟨post, rfl, rfl⟩
  · cases hw
  · obtain ⟨s, hs, hne⟩ := h pre block data reply post rfl
    exact ⟨s, List.mem_append_left _ hs, hne⟩

theorem allTakenIn_concat_status {s : Status} (hs : s.state ≠ .dnBusy) :
    AllTakenIn (ws ++ [.status (.ok s)]) := by
  intro pre block data reply post hp
  rcases split_concat hp with ⟨-, hd, -⟩ | ⟨post, rfl, -⟩
  · cases hd
  · exact ⟨s, List.mem_append_right _ List.mem_cons_self, hs⟩

end

/-! ## The law -/

/-- The call can be made after these ones. No block is sent or fetched while the device was last
reported busy; what follows a status that says so is another GETSTATUS; and a block is only sent
once the device is done with all blocks before it. -/
structure CanFollow (before : List Transaction) (w : Transaction) : Prop where
  quiet : lastReported? before = some .dnBusy → w.isDownload = false ∧ w.isUpload = false
  patient : LeftBusy before → w.isStatus = true
  takenIn : w.isDownload = true → AllTakenIn before

/-- The reset of a device that may be resetting already: it comes right after the one status that
is read after the empty block, whatever that status says. -/
def BestEffort (before : List Transaction) (w : Transaction) : Prop :=
  w.isReset = true ∧ ∃ pre block taken reply,
    before = pre ++ [.download block [] (.ok taken), .status reply]

/-- Nothing is pending: every block was taken in, and no wait is going on. -/
structure Free (ws : List Transaction) : Prop where
  takenIn : AllTakenIn ws
  notLeft : ¬ LeftBusy ws

/-- The device can take a block: it is done with all before, and was not reported busy last. -/
structure Calm (ws : List Transaction) : Prop where
  takenIn : AllTakenIn ws
  notBusy : lastReported? ws ≠ some .dnBusy

section

variable {ws : List Transaction} {w : Transaction}

theorem canFollow_of_isStatus (h : w.isStatus = true) : CanFollow ws w := by
  cases w with
  | status reply => exact ⟨fun _ => ⟨rfl, rfl⟩, fun _ => rfl, nofun⟩
  | _ => cases h

theorem Free.canFollow (h : Free ws) (hd : w.isDownload = false) (hu : w.isUpload = false) :
    CanFollow ws w where
  quiet _ := ⟨hd, hu⟩
  patient hb := absurd hb h.notLeft
  takenIn hw := by simp [hd] at hw

theorem Free.concat (h : Free ws) (hd : w.isDownload = false) (hs : w.isStatus = false) :
    Free (ws ++ [w]) where
  takenIn := h.takenIn.concat hd
  notLeft := not_leftBusy_concat hs

theorem calm_nil : Calm [] where
  takenIn := by
    intro pre block data reply post h
    simp at h
  notBusy := by simp [lastReported?]

theorem Calm.free (h : Calm ws) : Free ws where
  takenIn := h.takenIn
  notLeft := by
    rintro ⟨pre, s, rfl, hs⟩
    exact h.notBusy (by simp [lastReported?_concat, Transaction.reported?, hs])

theorem Calm.canFollow (h : Calm ws) : CanFollow ws w where
  quiet hb := absurd hb h.notBusy
  patient hb := absurd hb h.free.notLeft
  takenIn _ := h.takenIn

theorem Calm.concat (h : Calm ws) (hd : w.isDownload = false) (hr : w.reported? = none) :
    Calm (ws ++ [w]) where
  takenIn := h.takenIn.concat hd
  notBusy := by
    rw [lastReported?_concat, hr]
    exact h.notBusy

theorem calm_concat_status {s : Status} (hs : s.state ≠ .dnBusy) :
    Calm (ws ++ [.status (.ok s)]) where
  takenIn := allTakenIn_concat_status hs
  notBusy := by simpa [lastReported?_concat, Transaction.reported?] using hs

end

/-! ## Exchanges that keep it -/

/-- Begun after calls in `P`, the exchange only makes calls that the rule allows, and does not end
while the device is busy unless the host lost its patience. With a value it ends in `Q`. -/
def Keeps {α : Type} (rule : List Transaction → Transaction → Prop) (P : List Transaction → Prop)
    (d : Exchange α) (Q : α → List Transaction → Prop) : Prop :=
  ∀ pre ws o, P pre → Transacts d ws o →
    EachAfter rule pre ws ∧ (o ≠ .exhausted → ¬ LeftBusy (pre ++ ws)) ∧
      ∀ a, o = .done a → Q a (pre ++ ws)

namespace Keeps

variable {α β : Type} {rule : List Transaction → Transaction → Prop} {P : List Transaction → Prop}
  {Q : α → List Transaction → Prop} {R : β → List Transaction → Prop}

theorem bind {d : Exchange α} {f : α → Exchange β} (hd : Keeps rule P d Q)
    (hf : ∀ a, Keeps rule (Q a) (f a) R) : Keeps rule P (d >>= f) R := by
  intro pre ws o hp h
  obtain ⟨r, w₁, w₂, h₁, h₂, rfl⟩ := transacts_bind_iff.1 h
  obtain ⟨hr₁, hb₁, hq⟩ := hd pre w₁ r hp h₁
  rw [eachAfter_append_iff, ← List.append_assoc]
  cases r with
  | done a =>
    obtain ⟨hr₂, hb₂, hr⟩ := hf a _ w₂ o (hq a rfl) h₂
    exact ⟨⟨hr₁, hr₂⟩, hb₂, hr⟩
  | failed e =>
    obtain ⟨rfl, rfl⟩ := transacts_fail_iff.1 h₂
    exact ⟨⟨hr₁, eachAfter_nil⟩, fun _ => by simpa using hb₁ nofun, nofun⟩
  | exhausted =>
    obtain ⟨rfl, rfl⟩ := transacts_exhausted_iff.1 h₂
    exact ⟨⟨hr₁, eachAfter_nil⟩, fun h => absurd rfl h, nofun⟩

theorem done {a : α} (h : ∀ ws, P ws → ¬ LeftBusy ws ∧ Q a ws) :
    Keeps rule P (.done a : Exchange α) Q := by
  intro pre ws o hp ht
  obtain ⟨rfl, rfl⟩ := transacts_done_iff.1 ht
  obtain ⟨hb, hq⟩ := h pre hp
  rw [List.append_nil]
  refine ⟨eachAfter_nil, fun _ => hb, fun b hb => ?_⟩
  obtain rfl : a = b := Outcome.done.inj hb
  exact hq

theorem fail {e : Failure} (h : ∀ ws, P ws → ¬ LeftBusy ws) :
    Keeps rule P (.fail e : Exchange α) Q := by
  intro pre ws o hp ht
  obtain ⟨rfl, rfl⟩ := transacts_fail_iff.1 ht
  rw [List.append_nil]
  exact ⟨eachAfter_nil, fun _ => h pre hp, nofun⟩

theorem ofExcept {r : Except Failure α} (h : ∀ ws, P ws → ¬ LeftBusy ws) :
    Keeps rule P (Dialogue.ofExcept r) fun _ => P := by
  cases r with
  | ok a => exact .done fun ws hp => ⟨h ws hp, hp⟩
  | error e => exact .fail h

theorem mono {P' : List Transaction → Prop} {Q' : α → List Transaction → Prop} {d : Exchange α}
    (hP : ∀ ws, P' ws → P ws) (hQ : ∀ a ws, Q a ws → Q' a ws) (h : Keeps rule P d Q) :
    Keeps rule P' d Q' := by
  intro pre ws o hp ht
  obtain ⟨hr, hb, hq⟩ := h pre ws o (hP pre hp) ht
  exact ⟨hr, hb, fun a ha => hQ a _ (hq a ha)⟩

theorem say_bind {level : Level} {text : String} {f : Unit → Exchange β}
    (h : Keeps rule P (f ()) R) : Keeps rule P (Exchange.say level text >>= f) R :=
  fun pre ws o hp ht => h pre ws o hp (transacts_say_bind.1 ht)

theorem progress_bind {done : Nat} {total : Option Nat} {f : Unit → Exchange β}
    (h : Keeps rule P (f ()) R) : Keeps rule P (Exchange.progress done total >>= f) R :=
  fun pre ws o hp ht => h pre ws o hp (transacts_progress_bind.1 ht)

/-- A failure that is turned into a value leaves no device busy. -/
theorem attempt {d : Exchange α} (h : Keeps rule P d Q) :
    Keeps rule P d.attempt fun _ ws => ¬ LeftBusy ws := by
  intro pre ws o hp ht
  obtain ⟨r, hr, rfl⟩ := transacts_attempt ht
  obtain ⟨hrule, hb, -⟩ := h pre ws r hp hr
  have hne : ∀ {a : Except Failure α}, r.attempt = (.done a : Outcome Failure _) → r ≠ .exhausted := by
    rintro a ha rfl
    cases ha
  refine ⟨hrule, fun hx => hb ?_, fun a ha => hb (hne ha)⟩
  rintro rfl
  exact hx rfl

/-- An exchange of one call. -/
theorem call {d : Exchange α}
    (h : ∀ ws o, Transacts d ws o → ∃ w, ws = [w] ∧
      ∀ pre, P pre → rule pre w ∧ ¬ LeftBusy (pre ++ [w]) ∧ ∀ a, o = .done a → Q a (pre ++ [w])) :
    Keeps rule P d Q := by
  intro pre ws o hp ht
  obtain ⟨w, rfl, hw⟩ := h ws o ht
  obtain ⟨hr, hb, hq⟩ := hw pre hp
  exact ⟨eachAfter_cons_iff.2 ⟨hr, eachAfter_nil⟩, fun _ => hb, hq⟩

end Keeps

/-! ## Requests -/

section Requests

variable {c : Connection} {rule : List Transaction → Transaction → Prop}
  (hrule : ∀ pre w, CanFollow pre w → rule pre w)

include hrule

theorem keeps_download (block : UInt16) (data : Bytes) :
    Keeps rule Calm (c.download block data) fun taken ws =>
      ∃ pre, ws = pre ++ [.download block data (.ok taken)] := by
  refine .call fun ws o h => ?_
  obtain ⟨reply, rfl, rfl⟩ := transacts_download h
  refine ⟨_, rfl, fun pre hp => ⟨hrule _ _ hp.canFollow, not_leftBusy_concat rfl, fun taken ht => ?_⟩⟩
  cases reply with
  | error e => cases ht
  | ok n =>
    cases ht
    exact ⟨pre, rfl⟩

/-- A wait that does not accept a busy device leaves it ready for a block. -/
theorem keeps_pollUntil {P : List Transaction → Prop} {accept : State → Bool}
    (ha : accept .dnBusy = false) : Keeps rule P (c.pollUntil accept) fun _ => Calm := by
  intro pre ws r _ h
  have hp := polled_pollUntil h
  have heach : EachAfter rule pre ws :=
    eachAfter_of_forall fun w hw _ => hrule _ _ (canFollow_of_isStatus (hp.isStatus w hw))
  obtain ⟨init, reply, rfl, hdone, hfailed⟩ := hp.eq_concat
  rw [← List.append_assoc]
  cases r with
  | done s =>
    obtain rfl := hdone s rfl
    have hs : s.state ≠ .dnBusy := by
      intro hbusy
      simpa [hbusy, ha] using hp.accepted
    have hcalm : Calm (pre ++ init ++ [.status (.ok s)]) := calm_concat_status hs
    exact ⟨heach, fun _ => hcalm.free.notLeft, fun _ _ => hcalm⟩
  | failed e =>
    obtain rfl := hfailed e rfl
    exact ⟨heach, fun _ => not_leftBusy_failed, nofun⟩
  | exhausted => exact ⟨heach, fun h => absurd rfl h, nofun⟩

/-- A block is fetched from a device that can take one, and leaves it so. -/
theorem keeps_upload (block length : UInt16) :
    Keeps rule Calm (c.upload block length) fun _ => Calm := by
  refine .call fun ws o h => ?_
  obtain ⟨reply, rfl, rfl⟩ := transacts_upload h
  exact ⟨_, rfl, fun pre hp => ⟨hrule _ _ hp.canFollow, not_leftBusy_concat rfl,
    fun _ _ => hp.concat rfl rfl⟩⟩

theorem keeps_abort : Keeps rule Free c.abort fun _ => Free := by
  refine .call fun ws o h => ?_
  obtain ⟨reply, rfl, -⟩ := transacts_abort h
  exact ⟨_, rfl, fun pre hp => ⟨hrule _ _ (hp.canFollow rfl rfl), not_leftBusy_concat rfl,
    fun _ _ => hp.concat rfl rfl⟩⟩

theorem keeps_clearStatus : Keeps rule Free c.clearStatus fun _ => Free := by
  refine .call fun ws o h => ?_
  obtain ⟨reply, rfl, -⟩ := transacts_clearStatus h
  exact ⟨_, rfl, fun pre hp => ⟨hrule _ _ (hp.canFollow rfl rfl), not_leftBusy_concat rfl,
    fun _ _ => hp.concat rfl rfl⟩⟩

theorem keeps_getState :
    Keeps rule Free c.getState fun s ws => Free ws ∧ lastReported? ws = some s := by
  refine .call fun ws o h => ?_
  obtain ⟨reply, rfl, rfl⟩ := transacts_getState h
  refine ⟨_, rfl, fun pre hp => ⟨hrule _ _ (hp.canFollow rfl rfl), not_leftBusy_concat rfl,
    fun s hs => ⟨hp.concat rfl rfl, ?_⟩⟩⟩
  cases reply with
  | error e => cases hs
  | ok s' =>
    cases hs
    rw [lastReported?_concat]
    rfl

/-- A device that was brought back to rest can take a block. -/
theorem keeps_abortToIdle : Keeps rule Free c.abortToIdle fun _ => Calm := by
  have hend : ∀ state, Keeps rule (fun ws => Free ws ∧ lastReported? ws = some state)
      (if state = .dfuIdle then pure () else throw (.protocol (.notIdle state)) : Exchange Unit)
      fun _ => Calm := by
    intro state
    split
    · rename_i hidle
      refine .done fun ws h => ⟨h.1.notLeft, h.1.takenIn, ?_⟩
      rw [h.2, hidle]
      decide
    · exact .fail fun _ h => h.1.notLeft
  refine (keeps_abort hrule).bind fun _ => (keeps_getState hrule).bind fun state => ?_
  dsimp only
  split
  · refine ((keeps_clearStatus hrule).mono (fun _ h => h.1) fun _ _ h => h).bind fun _ => ?_
    exact (keeps_getState hrule).bind hend
  · exact hend state

/-! ## Uploads -/

theorem keeps_uploadFrom (size : Nat) (limit : Option Nat) (rounds : Nat) (block : UInt16)
    (data : Bytes) : Keeps rule Calm (c.uploadFrom size limit rounds block data) fun _ => Calm := by
  induction rounds generalizing block data with
  | zero =>
    intro pre ws o _ h
    obtain ⟨rfl, rfl⟩ := transacts_exhausted_iff.1 h
    exact ⟨eachAfter_nil, fun h => absurd rfl h, nofun⟩
  | succ rounds ih =>
    refine (keeps_upload hrule block _).bind fun got => .say_bind (.progress_bind ?_)
    split
    · exact .done fun _ h => ⟨h.free.notLeft, h⟩
    · exact ih _ _

theorem keeps_readBlocks (size : UInt16) (limit : Option Nat) (first : UInt16) :
    Keeps rule Calm (c.readBlocks size limit first) fun _ => Calm := by
  refine .say_bind (.progress_bind ?_)
  split
  · exact .done fun _ h => ⟨h.free.notLeft, h⟩
  · refine (keeps_uploadFrom hrule _ _ _ _ _).bind fun data => ?_
    have hend : Keeps rule Calm (do
        Exchange.say .info s!"Read {data.length} bytes"
        pure data : Exchange Bytes) fun _ => Calm :=
      .say_bind (.done fun _ h => ⟨h.free.notLeft, h⟩)
    split
    · exact (keeps_abortToIdle hrule |>.mono (fun _ => Calm.free) fun _ _ h => h).bind fun _ => hend
    · exact hend

/-! ## Downloads -/

theorem keeps_command (cmd : Command) : Keeps rule Calm (c.command cmd) fun _ => Calm := by
  refine (keeps_download hrule _ _).bind fun _ => (keeps_pollUntil hrule rfl).bind fun status => ?_
  split
  · exact .done fun _ h => ⟨h.free.notLeft, h⟩
  · exact .fail fun _ h => h.free.notLeft

theorem keeps_sendChunk (block : UInt16) (chunk : Bytes) :
    Keeps rule Calm (c.sendChunk block chunk) fun _ => Calm := by
  refine (keeps_download hrule _ _).bind fun taken => .say_bind ?_
  refine (keeps_pollUntil hrule rfl).bind fun status => ?_
  refine (Keeps.ofExcept fun _ h => h.free.notLeft).bind fun _ => ?_
  split
  · exact .done fun _ h => ⟨h.free.notLeft, h⟩
  · exact .fail fun _ h => h.free.notLeft

theorem keeps_sendChunks (total : Nat) (block : UInt16) (sent : Nat) (chunks : List Bytes) :
    Keeps rule Calm (c.sendChunks total block sent chunks) fun _ => Calm := by
  induction chunks generalizing block sent with
  | nil => exact .done fun _ h => ⟨h.free.notLeft, h⟩
  | cons chunk rest ih =>
    exact (keeps_sendChunk hrule block chunk).bind fun _ => .progress_bind (ih _ _)

theorem keeps_eraseSteps (total erased : Nat) (steps : List EraseStep) :
    Keeps rule Calm (c.eraseSteps total erased steps) fun _ => Calm := by
  induction steps generalizing erased with
  | nil => exact .done fun _ h => ⟨h.free.notLeft, h⟩
  | cons step rest ih =>
    cases step with
    | erase address size =>
      exact .say_bind ((keeps_command hrule _).bind fun _ => .progress_bind (ih _))
    | skip start stop => exact .progress_bind (ih _)

theorem keeps_sendChunksAt (total address sent : Nat) (chunks : List Bytes) :
    Keeps rule Calm (c.sendChunksAt total address sent chunks) fun _ => Calm := by
  induction chunks generalizing address sent with
  | nil => exact .done fun _ h => ⟨h.free.notLeft, h⟩
  | cons chunk rest ih =>
    have hchunk : Keeps rule Calm (c.sendChunkAt address chunk) fun _ => Calm :=
      (keeps_command hrule _).bind fun _ => .say_bind (keeps_sendChunk hrule _ chunk)
    exact hchunk.bind fun _ => .progress_bind (ih _ _)

/-! ## Manifestation -/

/-- A device that stays on the bus is followed as long as it is busy. -/
theorem keeps_awaitManifested {P : List Transaction → Prop} :
    Keeps rule P c.awaitManifested fun _ ws => ¬ LeftBusy ws := by
  refine Keeps.bind (keeps_pollUntil hrule (by decide)).attempt fun r => ?_
  cases r with
  | ok status =>
    have hcheck : Keeps rule (fun ws => ¬ LeftBusy ws)
        (Exchange.ofProtocol (status.check .manifest)) fun _ ws => ¬ LeftBusy ws :=
      .ofExcept fun _ h => h
    dsimp only
    split
    · exact .say_bind hcheck
    · exact hcheck
  | error e =>
    dsimp only
    split
    · rw [← bind_done (Exchange.say ..)]
      exact .say_bind (.done fun _ h => ⟨h, h⟩)
    · exact .fail fun _ h => h

theorem keeps_resetAfterDownload :
    Keeps rule (fun ws => ¬ LeftBusy ws) Connection.resetAfterDownload fun _ _ => True := by
  refine .call fun ws o h => ?_
  obtain ⟨reply, rfl, -⟩ := transacts_resetAfterDownload h
  refine ⟨_, rfl, fun pre hp => ⟨hrule _ _ ⟨fun _ => ⟨rfl, rfl⟩, fun hb => absurd hb hp, nofun⟩,
    not_leftBusy_concat rfl, fun _ _ => trivial⟩⟩

/-- Asking any other device once, and the reset right after that. -/
theorem keeps_triggerManifestation (hbest : ∀ pre w, BestEffort pre w → rule pre w) (block : UInt16)
    (taken : Nat) :
    Keeps rule (fun ws => ∃ pre, ws = pre ++ [.download block [] (.ok taken)])
      (c.triggerManifestation >>= fun _ => Connection.resetAfterDownload) fun _ _ => True := by
  rintro _ ws o ⟨pre, rfl⟩ h
  obtain ⟨r, w₁, w₂, h₁, h₂, rfl⟩ := transacts_bind_iff.1 h
  obtain ⟨reply, rfl, rfl⟩ := transacts_triggerManifestation h₁
  obtain ⟨reset, rfl, -⟩ := transacts_resetAfterDownload h₂
  refine ⟨eachAfter_cons_iff.2 ⟨hrule _ _ (canFollow_of_isStatus rfl), eachAfter_cons_iff.2
    ⟨hbest _ _ ⟨rfl, pre, block, taken, reply, by simp⟩, eachAfter_nil⟩⟩, fun _ => ?_,
    fun _ _ => trivial⟩
  show ¬ LeftBusy (pre ++ [_] ++ ([.status reply] ++ [.reset reset]))
  rw [← List.append_assoc]
  exact not_leftBusy_concat rfl

theorem keeps_manifestAt (start : Nat) :
    Keeps rule Calm (c.manifestAt start) fun _ ws => ¬ LeftBusy ws := by
  refine (keeps_command hrule _).bind fun _ => (keeps_download hrule _ _).bind fun _ => ?_
  refine Keeps.bind (keeps_pollUntil hrule (by decide)).attempt fun r => ?_
  have hsay : ∀ level text, Keeps rule (fun ws => ¬ LeftBusy ws) (Exchange.say level text)
      fun _ ws => ¬ LeftBusy ws := by
    intro level text
    rw [← bind_done (Exchange.say ..)]
    exact .say_bind (.done fun _ h => ⟨h, h⟩)
  cases r with
  | ok status =>
    dsimp only
    split
    · exact hsay _ _
    · exact hsay _ _
  | error e => exact hsay _ _

/-! ## Whole transfers -/

theorem keeps_writeBlocks {tolerant : Bool}
    (hbest : tolerant = false → ∀ pre w, BestEffort pre w → rule pre w) (size : UInt16) (image : Bytes) :
    Keeps rule Calm (c.writeBlocks size image tolerant) fun _ _ => True := by
  refine .say_bind (.progress_bind ((keeps_sendChunks hrule _ _ _ _).bind fun block => .say_bind ?_))
  refine (keeps_download hrule block []).bind fun taken => .say_bind (.say_bind ?_)
  cases tolerant with
  | true => exact (keeps_awaitManifested hrule).bind fun _ => keeps_resetAfterDownload hrule
  | false => exact keeps_triggerManifestation hrule (hbest rfl) block taken

theorem keeps_erase (t : DfuseTransfer) (start length : Nat) :
    Keeps rule Calm (t.erase c start length) fun _ => Calm := by
  refine (Keeps.ofExcept fun _ h => h.free.notLeft).bind fun m => ?_
  refine (Keeps.ofExcept fun _ h => h.free.notLeft).bind fun plan => ?_
  dsimp only
  split
  · exact .progress_bind (keeps_eraseSteps hrule _ _ _)
  · exact keeps_eraseSteps hrule _ _ _

omit hrule in
theorem keeps_resolveStart (t : DfuseTransfer) (strict : Bool) :
    Keeps rule Calm (t.resolveStart strict) fun _ => Calm := by
  have hdone : ∀ address : Nat, Keeps rule Calm (pure address : Exchange Nat) fun _ => Calm :=
    fun _ => .done fun _ h => ⟨h.free.notLeft, h⟩
  refine (Keeps.ofExcept fun _ h => h.free.notLeft).bind fun m => ?_
  split
  · exact .say_bind (hdone _)
  · split
    · exact hdone _
    · split
      · exact .fail fun _ h => h.free.notLeft
      · exact .say_bind (hdone _)

theorem keeps_dfuseDownload (t : DfuseTransfer) (image : Bytes) :
    Keeps rule Calm (t.download c image) fun _ ws => ¬ LeftBusy ws := by
  refine (Keeps.ofExcept fun _ h => h.free.notLeft).bind fun _ => .say_bind ?_
  refine (keeps_resolveStart t true).bind fun start => ?_
  split
  · exact .fail fun _ h => h.free.notLeft
  · refine (keeps_erase hrule t start _).bind fun _ => .say_bind (.progress_bind ?_)
    refine (keeps_sendChunksAt hrule _ _ _ _).bind fun _ => .say_bind (.say_bind ?_)
    exact keeps_manifestAt hrule start

theorem keeps_dfuseUpload (t : DfuseTransfer) (limit : Option Nat) :
    Keeps rule Calm (t.upload c limit) fun _ => Calm := by
  refine (keeps_resolveStart t false).bind fun start => ?_
  have hread : Keeps rule Calm (do
      c.command (.setAddress start)
      c.abortToIdle
      c.readBlocks c.transferSize limit Connection.firstDataBlock) fun _ => Calm := by
    refine (keeps_command hrule _).bind fun _ => ?_
    refine ((keeps_abortToIdle hrule).mono (fun _ h => h.free) fun _ _ h => h).bind fun _ => ?_
    exact keeps_readBlocks hrule _ _ _
  have hstate : Keeps rule Calm (do
      if (← c.getState) ≠ .dfuIdle then c.abortToIdle
      c.command (.setAddress start)
      c.abortToIdle
      c.readBlocks c.transferSize limit Connection.firstDataBlock) fun _ => Calm := by
    refine ((keeps_getState hrule).mono (fun _ h => h.free) fun _ _ h => h).bind fun state => ?_
    split
    · exact ((keeps_abortToIdle hrule).mono (fun _ h => h.1) fun _ _ h => h).bind fun _ => hread
    -- no abort came before, but the state that was read last is that of a device at rest
    · rename_i hidle
      refine hread.mono (fun ws h => ⟨h.1.takenIn, ?_⟩) fun _ _ h => h
      rw [h.2, Decidable.not_not.1 hidle]
      decide
  cases limit with
  | some m => exact .say_bind hstate
  | none => exact .say_bind hstate

end Requests

/-! ## The whole engine -/

/-- The calls obey the rule from the first one on, and the last one does not leave the device busy,
unless the host lost its patience. -/
def Obeys {α : Type} (rule : List Transaction → Transaction → Prop) (ws : List Transaction)
    (o : Outcome Failure α) : Prop :=
  (∀ pre w post, ws = pre ++ w :: post → rule pre w) ∧ (o ≠ .exhausted → ¬ LeftBusy ws)

theorem Keeps.obeys {α : Type} {rule : List Transaction → Transaction → Prop} {d : Exchange α}
    {Q : α → List Transaction → Prop} {ws : List Transaction} {o : Outcome Failure α}
    (h : Keeps rule Calm d Q) (ht : Transacts d ws o) : Obeys rule ws o := by
  obtain ⟨heach, hleft, -⟩ := h [] ws o calm_nil ht
  exact ⟨heach, hleft⟩

/-- What follows the one status that is read after the empty block is the reset. -/
theorem isReset_after_status {c : Connection} {size : UInt16} {image : Bytes}
    {pre post : List Transaction} {block : UInt16} {reply : Except TransportError Nat}
    {read : Except Failure Status} {w : Transaction} {o : Outcome Failure Unit}
    (h : Transacts (c.writeBlocks size image false)
      (pre ++ .download block [] reply :: .status read :: w :: post) o) : w.isReset = true := by
  obtain ⟨js₁, j, js₂, polls, rest, r, hjs, rfl, hdata, hpost, hj, hr⟩ :=
    (deliveredToReset_writeBlocks h).cut
  obtain ⟨hterm, rfl⟩ := eq_terminator hdata hjs
  rw [hterm] at hj
  rw [DeliveredToReset.nil_iff] at hr
  rcases hj.judged_of_cons (j := .terminator j.block false) with
    ⟨_, -, rfl, rfl⟩ | ⟨taken, _, -, hp, rfl⟩
  · rcases hr with ⟨-, rfl, -⟩ | ⟨hr, -⟩
    · cases hpost
    · cases hr
  · obtain ⟨reply', rfl⟩ := hp.eq_singleton fun _ => rfl
    obtain ⟨-, rfl⟩ := List.cons.inj hpost
    rcases hr with ⟨-, hr, -⟩ | ⟨-, reset, hr, -⟩
    · cases hr
    · obtain ⟨rfl, -⟩ := List.cons.inj hr
      rfl

/-- No transfer sends or fetches a block while the device is busy, or sends one before the device is
done with the one before it. A status that reports the device busy is followed by another GETSTATUS;
only where a device is not expected to stay on the bus, the one status read after the empty block is
followed by the reset. -/
theorem busy_device_only_asked {c : Connection} {ws : List Transaction} :
    (∀ size image tolerant o, Transacts (c.writeBlocks size image tolerant) ws o →
      Obeys (fun before w => CanFollow before w ∨ tolerant = false ∧ BestEffort before w) ws o ∧
        (tolerant = false → ∀ pre block reply read w post,
          ws = pre ++ .download block [] reply :: .status read :: w :: post → w.isReset = true)) ∧
    (∀ size limit first o, Transacts (c.readBlocks size limit first) ws o → Obeys CanFollow ws o) ∧
    (∀ cmd o, Transacts (c.command cmd) ws o → Obeys CanFollow ws o) ∧
    (∀ t start length o, Transacts (DfuseTransfer.erase t c start length) ws o →
      Obeys CanFollow ws o) ∧
    (∀ t image o, Transacts (DfuseTransfer.download t c image) ws o → Obeys CanFollow ws o) ∧
    ∀ t limit o, Transacts (DfuseTransfer.upload t c limit) ws o → Obeys CanFollow ws o := by
  have hrule : ∀ pre w, CanFollow pre w → CanFollow pre w := fun _ _ h => h
  refine ⟨fun size image tolerant o h => ?_, fun size limit first o h => ?_, fun cmd o h => ?_,
    fun t start length o h => ?_, fun t image o h => ?_, fun t limit o h => ?_⟩
  · refine ⟨(keeps_writeBlocks (fun _ _ => .inl) (fun ht _ _ hb => .inr ⟨ht, hb⟩) size image).obeys h,
      ?_⟩
    rintro rfl pre block reply read w post rfl
    exact isReset_after_status h
  · exact (keeps_readBlocks hrule size limit first).obeys h
  · exact (keeps_command hrule cmd).obeys h
  · exact (keeps_erase hrule t start length).obeys h
  · exact (keeps_dfuseDownload hrule t image).obeys h
  · exact (keeps_dfuseUpload hrule t limit).obeys h

/-- A device that is busy once after the only block, and busy again when it is asked after the empty
one. -/
def busyScript : Bench.Script where
  id := 0
  queues := [(.getStatus,
    [.data [0, 0, 0, 0, 4, 0] false, .data [0, 0, 0, 0, 5, 0] false, .data [0, 0, 0, 0, 4, 0] false])]

/-- It is asked again after the block, and reset after the empty one. -/
theorem busy_device_only_asked_script : ∃ ws,
    Transacts ((Connection.new 0 4 8).writeBlocks 4 [1, 2, 3] false) ws (.done ()) ∧
    ws.map Transaction.reported? =
      [none, some .dnBusy, some .dnloadIdle, none, some .dnBusy, none] ∧
    Obeys (fun before w => CanFollow before w ∨ false = false ∧ BestEffort before w) ws
      (.done () : Outcome Failure Unit) := by
  have h := transacts_transcript Bench.SingleBoard.serve
    ((Connection.new 0 4 8).writeBlocks 4 [1, 2, 3] false)
    (.ofBoard { model := .script busyScript, budget := none })
  rw [show (transcript Bench.SingleBoard.serve _ _).2 = .done () by decide +kernel] at h
  exact ⟨_, h, by decide +kernel, (busy_device_only_asked.1 _ _ _ _ h).1⟩

end UsbDfu
