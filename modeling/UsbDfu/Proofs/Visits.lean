import UsbDfu.Proofs.Machines
import UsbDfu.Tool.Work

/-!
# Visits

A host visits a device: it opens it, works on it, and closes it again. It has at most one device open
at a time, and only that one is worked on. All of that is one small machine, whose state is the device
that is held open, if any.

- `Contact P`: what a turn is to the devices `P`; `Host.contact?` and `Tool.contact?` find it in
  conversations of all layers.
- `Visits held cs held'`: the contacts `cs` are whole visits, one after another, but that the first one
  may have begun with `held` and the last one may not be over with `held'`.
- `Bracketed cs held`: what that says of each opening, each closing and each piece of work
  (`Visits.bracketed`).
- `Dialogue.Leaves mark R held d`: begun with `held`, whatever it is answered, `d` makes visits, and how
  it ends and what is held then are in `R`. It is `Dialogue.Drives` of the machine
  (`leaves_iff_drives`), which gives the rule for each way to compose dialogues, and there is one for
  each way from one layer to the next (`leaves_onChannel`, `leaves_onHost`, `leaves_relay_bind`).
-/

namespace UsbDfu

open Dialogue

/-! ## Contacts -/

/-- What a call is to a device. -/
inductive Contact (P : Type) where
  /-- The device is to be opened, which it may grant. -/
  | opening (p : P) (granted : Bool)
  | work (p : P)
  | closing (p : P)
  deriving DecidableEq, Repr

namespace Contact

variable {P : Type}

/-- What a call on the channel means for the visit. -/
def ofCall (p : P) : (c : Call) → c.Reply → Contact P
  | .openDevice, reply => .opening p reply.isOk
  | .close, _ => .closing p
  | _, _ => .work p

/-- The contact that a turn of an exchange with the device is. Words and news are none. -/
def ofTurn? (p : P) : Turn Query.Answer → Option (Contact P)
  | ⟨.call c, reply⟩ => some (ofCall p c reply)
  | _ => none

end Contact

/-- The contact that a turn with a host is. -/
def Host.contact? : Turn Host.Query.Answer → Option (Contact Host.ChannelId)
  | ⟨.on p q, answer⟩ => Contact.ofTurn? p ⟨q, answer⟩
  | _ => none

/-- The contact that a turn of a job is. -/
def Tool.contact? : Turn Tool.Query.Answer → Option (Contact Host.ChannelId)
  | ⟨.host q, answer⟩ => Host.contact? ⟨q, answer⟩
  | _ => none

/-! ## Visits -/

section Visits

variable {P : Type} {p : P} {c : Contact P} {cs cs' : List (Contact P)}
  {held held' held'' : Option P}

/-- The contact is in its place when this device is held, and that one is held after it. -/
inductive Contact.Moves : Contact P → Option P → Option P → Prop where
  | refused (p : P) : Moves (.opening p false) none none
  | opened (p : P) : Moves (.opening p true) none (some p)
  | work (p : P) : Moves (.work p) (some p) (some p)
  | closed (p : P) : Moves (.closing p) (some p) none

/-- Each contact is in its place. -/
inductive Visits : Option P → List (Contact P) → Option P → Prop where
  | nil (held : Option P) : Visits held [] held
  | cons {c : Contact P} {cs : List (Contact P)} {held held' held'' : Option P}
      (h : c.Moves held held') (rest : Visits held' cs held'') : Visits held (c :: cs) held''

theorem visits_cons_iff :
    Visits held (c :: cs) held'' ↔ ∃ held', c.Moves held held' ∧ Visits held' cs held'' := by
  constructor
  · rintro ⟨⟩
    exact ⟨_, ‹_›, ‹_›⟩
  · rintro ⟨held', h, rest⟩
    exact .cons h rest

theorem visits_append_iff :
    Visits held (cs ++ cs') held'' ↔ ∃ held', Visits held cs held' ∧ Visits held' cs' held'' := by
  induction cs generalizing held with
  | nil =>
    constructor
    · exact fun h => ⟨held, .nil held, h⟩
    · rintro ⟨_, ⟨⟩, h⟩
      exact h
  | cons c cs ih =>
    simp only [List.cons_append, visits_cons_iff, ih]
    constructor
    · rintro ⟨m, hm, m', h, h'⟩
      exact ⟨m', ⟨m, hm, h⟩, h'⟩
    · rintro ⟨m', ⟨m, hm, h⟩, h'⟩
      exact ⟨m, hm, m', h, h'⟩

/-- A visit that has begun goes on with work, and then the device is closed or still held. -/
theorem Visits.of_held (h : Visits (some p) cs held) :
    (∃ works rest, cs = works ++ .closing p :: rest ∧ ∀ c ∈ works, c = .work p) ∨
      (held = some p ∧ ∀ c ∈ cs, c = .work p) := by
  induction cs with
  | nil =>
    cases h
    exact .inr ⟨rfl, by simp⟩
  | cons c cs ih =>
    obtain ⟨_, hc, hrest⟩ := visits_cons_iff.1 h
    cases hc with
    | closed => exact .inl ⟨[], cs, rfl, by simp⟩
    | work =>
      rcases ih hrest with ⟨works, rest, rfl, hworks⟩ | ⟨rfl, hworks⟩
      · exact .inl ⟨.work p :: works, rest, rfl, by simpa using hworks⟩
      · exact .inr ⟨rfl, by simpa using hworks⟩

/-- A device that is held was so from the beginning, or was opened and only worked on since. -/
theorem Visits.to_held (h : Visits held cs (some p)) :
    (held = some p ∧ ∀ c ∈ cs, c = .work p) ∨
      ∃ before works, cs = before ++ .opening p true :: works ∧ ∀ c ∈ works, c = .work p := by
  induction cs generalizing held with
  | nil =>
    cases h
    exact .inl ⟨rfl, by simp⟩
  | cons c cs ih =>
    obtain ⟨_, hc, hrest⟩ := visits_cons_iff.1 h
    rcases ih hrest with ⟨rfl, hworks⟩ | ⟨before, works, rfl, hworks⟩
    · cases hc with
      | opened => exact .inr ⟨[], cs, rfl, hworks⟩
      | work => exact .inl ⟨rfl, by simpa using hworks⟩
    · exact .inr ⟨c :: before, works, rfl, hworks⟩

theorem Visits.opened_of_none (h : Visits none cs (some p)) :
    ∃ before works, cs = before ++ .opening p true :: works ∧ ∀ c ∈ works, c = .work p := by
  rcases h.to_held with ⟨hnone, -⟩ | hopened
  · cases hnone
  · exact hopened

/-- Every device that is opened is closed again, once, and only worked on in between, unless it is the
one that is still held. -/
structure Bracketed (cs : List (Contact P)) (held : Option P) : Prop where
  /-- An opening that was granted is followed by work on the device and then by its closing, or by work
  to the end if the device is still held. -/
  closes : ∀ pre p post, cs = pre ++ .opening p true :: post →
    (∃ works rest, post = works ++ .closing p :: rest ∧ ∀ c ∈ works, c = .work p) ∨
      (held = some p ∧ ∀ c ∈ post, c = .work p)
  /-- From a closing to the next opening that is granted, the device is not worked on or closed. -/
  shut : ∀ pre p mid c post, cs = pre ++ .closing p :: (mid ++ c :: post) →
    c = .work p ∨ c = .closing p → .opening p true ∈ mid
  /-- What is worked on or closed has been opened before, and only worked on since. -/
  opened : ∀ pre p c post, cs = pre ++ c :: post → c = .work p ∨ c = .closing p →
    ∃ before works, pre = before ++ .opening p true :: works ∧ ∀ c ∈ works, c = .work p
  /-- What is still held has been opened, and only worked on since. -/
  left : ∀ p, held = some p →
    ∃ before works, cs = before ++ .opening p true :: works ∧ ∀ c ∈ works, c = .work p

/-- Work on a device and its closing need the device to be held. -/
theorem Contact.Moves.eq_some (h : c.Moves held held') (hc : c = .work p ∨ c = .closing p) :
    held = some p := by
  rcases hc with rfl | rfl
  · cases h
    rfl
  · cases h
    rfl

theorem Visits.bracketed (h : Visits none cs held) : Bracketed cs held where
  closes pre p post hcs := by
    subst hcs
    obtain ⟨_, -, hpost⟩ := visits_append_iff.1 h
    obtain ⟨_, hopen, hpost⟩ := visits_cons_iff.1 hpost
    cases hopen
    exact hpost.of_held
  shut pre p mid c post hcs hc := by
    subst hcs
    obtain ⟨_, -, hpost⟩ := visits_append_iff.1 h
    obtain ⟨_, hclose, hpost⟩ := visits_cons_iff.1 hpost
    obtain ⟨_, hmid, hpost⟩ := visits_append_iff.1 hpost
    obtain ⟨_, hmove, -⟩ := visits_cons_iff.1 hpost
    cases hclose
    obtain rfl := hmove.eq_some hc
    obtain ⟨before, works, rfl, -⟩ := hmid.opened_of_none
    simp
  opened pre p c post hcs hc := by
    subst hcs
    obtain ⟨_, hpre, hpost⟩ := visits_append_iff.1 h
    obtain ⟨_, hmove, -⟩ := visits_cons_iff.1 hpost
    obtain rfl := hmove.eq_some hc
    exact hpre.opened_of_none
  left p hp := by
    subst hp
    exact h.opened_of_none

end Visits

/-! ## Dialogues that visit -/

section Leaves

variable {Q : Type} {A : Q → Type} {P ε ε' α β : Type} {mark : Turn A → Option (Contact P)}
  {held : Option P}

/-- Nothing changes without a contact. -/
def Contact.Step : Option (Contact P) → Option P → Option P → Prop
  | none, held, held' => held' = held
  | some c, held, held' => c.Moves held held'

namespace Dialogue

/-- Begun when this device is held, whatever it is answered, the dialogue makes visits; its result and
the device held at its end are in `R`. -/
def Leaves (mark : Turn A → Option (Contact P)) (R : Except ε α → Option P → Prop) :
    Option P → Dialogue A ε α → Prop
  | held, .done a => R (.ok a) held
  | held, .fail e => R (.error e) held
  | _, .exhausted => True
  | held, .ask q next =>
    ∀ answer, ∃ held', Contact.Step (mark ⟨q, answer⟩) held held' ∧ (next answer).Leaves mark R held'

variable {R : Except ε α → Option P → Prop} {S : Except ε β → Option P → Prop}

/-- A dialogue that visits moves the device that is held, and its result is in `R` where it has one. -/
theorem leaves_iff_drives {d : Dialogue A ε α} : d.Leaves mark R held ↔
    d.Drives (fun t => Contact.Step (mark t)) (fun o held => (∀ a, o = .done a → R (.ok a) held) ∧
      ∀ e, o = .failed e → R (.error e) held) held := by
  induction d generalizing held with
  | done a =>
    constructor
    · exact fun h => ⟨by rintro _ ⟨⟩; exact h, nofun⟩
    · exact fun h => h.1 a rfl
  | fail e =>
    constructor
    · exact fun h => ⟨nofun, by rintro _ ⟨⟩; exact h⟩
    · exact fun h => h.2 e rfl
  | exhausted => exact iff_of_true trivial ⟨nofun, nofun⟩
  | ask q next ih => simp only [Leaves, Drives, ih]

theorem visits_of_moves {ts : List (Turn A)} {held' : Option P}
    (h : Moves (fun t => Contact.Step (mark t)) held ts held') :
    Visits held (ts.filterMap mark) held' := by
  induction h with
  | nil held => exact .nil held
  | @cons t ts held held' held'' hstep _ ih =>
    cases hmark : mark t with
    | none =>
      rw [hmark] at hstep
      obtain rfl : held' = held := hstep
      rwa [List.filterMap_cons_none hmark]
    | some c =>
      rw [hmark] at hstep
      rw [List.filterMap_cons_some hmark]
      exact .cons hstep ih

theorem Leaves.visits {d : Dialogue A ε α} {ts : List (Turn A)} {o : Outcome ε α}
    (hd : d.Leaves mark R held) (ht : Trace d ts o) :
    ∃ held', Visits held (ts.filterMap mark) held' ∧ (∀ a, o = .done a → R (.ok a) held') ∧
      ∀ e, o = .failed e → R (.error e) held' := by
  obtain ⟨held', hmoves, hend⟩ := (leaves_iff_drives.1 hd).moves ht
  exact ⟨held', visits_of_moves hmoves, hend⟩

theorem Leaves.mono {R' : Except ε α → Option P → Prop} {d : Dialogue A ε α}
    (hd : d.Leaves mark R held) (hR : ∀ r held, R r held → R' r held) : d.Leaves mark R' held := by
  refine leaves_iff_drives.2 ((leaves_iff_drives.1 hd).mono fun o held h => ?_)
  exact ⟨fun a ha => hR _ _ (h.1 a ha), fun e he => hR _ _ (h.2 e he)⟩

theorem Leaves.bind {d : Dialogue A ε α} {f : α → Dialogue A ε β} (hd : d.Leaves mark R held)
    (hf : ∀ a held, R (.ok a) held → (f a).Leaves mark S held)
    (he : ∀ e held, R (.error e) held → S (.error e) held) : (d >>= f).Leaves mark S held := by
  refine leaves_iff_drives.2 ((leaves_iff_drives.1 hd).bind (fun a held h => ?_) (fun e held h => ?_)
    fun _ _ => ⟨nofun, nofun⟩)
  · exact leaves_iff_drives.1 (hf a held (h.1 a rfl))
  · exact ⟨nofun, by rintro _ ⟨⟩; exact he e held (h.2 e rfl)⟩

/-- A dialogue that goes on with its failures as with its values. -/
theorem Leaves.attempt_bind {d : Dialogue A ε α} {f : Except ε α → Dialogue A ε' β}
    {S : Except ε' β → Option P → Prop} (hd : d.Leaves mark R held)
    (hf : ∀ r held, R r held → (f r).Leaves mark S held) : (d.attempt >>= f).Leaves mark S held := by
  refine leaves_iff_drives.2 ((leaves_iff_drives.1 hd).attempt_bind (fun a held h => ?_)
    (fun e held h => ?_) fun _ _ => ⟨nofun, nofun⟩)
  · exact leaves_iff_drives.1 (hf _ held (h.1 a rfl))
  · exact leaves_iff_drives.1 (hf _ held (h.2 e rfl))

theorem leaves_ofExcept {r : Except ε α} (h : R r held) :
    (ofExcept r : Dialogue A ε α).Leaves mark R held := by
  cases r with
  | ok a => exact h
  | error e => exact h

/-- A dialogue that asks only what does not change the device that is held. -/
theorem Within.leaves {p : Q → Prop} {T : α → Prop} {d : Dialogue A ε α} (hd : d.Within p T)
    (hp : ∀ q, p q → ∀ answer, Contact.Step (mark ⟨q, answer⟩) held held) :
    d.Leaves mark (fun _ held' => held' = held) held := by
  refine leaves_iff_drives.2 ((hd.drives hp).mono fun o held h => ?_)
  exact ⟨fun _ _ => h, fun _ _ => h⟩

/-- The dialogue does not fail, and the device that is held remains so. -/
def Stays (mark : Turn A → Option (Contact P)) (held : Option P) (d : Dialogue A ε α) : Prop :=
  d.Leaves mark (fun r held' => (∃ a, r = .ok a) ∧ held' = held) held

theorem stays_done (a : α) : (done a : Dialogue A ε α).Stays mark held :=
  ⟨⟨a, rfl⟩, rfl⟩

/-- A computation without a result is the end of the dialogue, with nothing to say of it. -/
theorem stays_compute (r : Checked Empty α) : (compute r : Dialogue A ε α).Stays mark held := by
  cases r with
  | ok a => exact stays_done a
  | error e => trivial

theorem stays_question {q : Q} (h : ∀ answer, Contact.Step (mark ⟨q, answer⟩) held held) :
    (question q : Dialogue A ε (A q)).Stays mark held :=
  fun answer => ⟨held, h answer, stays_done answer⟩

theorem Stays.bind_leaves {d : Dialogue A ε α} {f : α → Dialogue A ε β} (hd : d.Stays mark held)
    (hf : ∀ a, (f a).Leaves mark S held) : (d >>= f).Leaves mark S held := by
  refine Leaves.bind hd ?_ ?_
  · rintro a _ ⟨-, rfl⟩
    exact hf a
  · rintro e _ ⟨⟨_, ⟨⟩⟩, -⟩

theorem Stays.bind {d : Dialogue A ε α} {f : α → Dialogue A ε β} (hd : d.Stays mark held)
    (hf : ∀ a, (f a).Stays mark held) : (d >>= f).Stays mark held :=
  hd.bind_leaves hf

/-- A part that is left out under a condition. -/
theorem Stays.unless_bind {p : Prop} [Decidable p] {d : Dialogue A ε Unit}
    {f : Unit → Dialogue A ε β} (hd : d.Stays mark held) (hf : (f ()).Stays mark held) :
    (if p then f () else d >>= f).Stays mark held := by
  by_cases hp : p
  · rwa [if_pos hp]
  · rw [if_neg hp]
    exact hd.bind fun _ => hf

end Dialogue

end Leaves

/-! ## Layers -/

section Layers

variable {ε ε' α : Type} {R : Except ε α → Option Host.ChannelId → Prop}
  {held : Option Host.ChannelId}

/-- A host makes the contacts of the exchange on its channel. -/
theorem leaves_onChannel {p : Host.ChannelId} {d : Dialogue Query.Answer ε α}
    (hd : d.Leaves (Contact.ofTurn? p) R held) :
    (Host.onChannel p d).Leaves Host.contact? R held := by
  induction d generalizing held with
  | done a => exact hd
  | fail e => exact hd
  | exhausted => trivial
  | ask q next ih =>
    intro answer
    obtain ⟨held', hstep, hnext⟩ := hd answer
    exact ⟨held', hstep, ih answer hnext⟩

theorem leaves_onHost {R : Except Failure α → Option Host.ChannelId → Prop} {d : Host.Exchange α}
    (hd : d.Leaves Host.contact? R held) :
    (Tool.onHost d).Leaves Tool.contact?
      (fun r held => ∃ r', r = r'.mapError .device ∧ R r' held) held := by
  induction d generalizing held with
  | done a => exact ⟨.ok a, rfl, hd⟩
  | fail e => exact ⟨.error e, rfl, hd⟩
  | exhausted => trivial
  | ask q next ih =>
    intro answer
    obtain ⟨held', hstep, hnext⟩ := hd answer
    exact ⟨held', hstep, ih answer hnext⟩

namespace Tool

theorem stays_out (text : String) :
    (out text : Dialogue Query.Answer ε Unit).Stays contact? held :=
  stays_question fun _ => rfl

theorem stays_err (text : String) :
    (err text : Dialogue Query.Answer ε Unit).Stays contact? held :=
  stays_question fun _ => rfl

theorem stays_print (printed : Printed) :
    (print printed : Dialogue Query.Answer ε Unit).Stays contact? held := by
  refine (stays_out _).unless_bind ((stays_err _).unless_bind ?_)
  cases printed.log with
  | none => exact stays_done ()
  | some line => exact stays_question fun _ => rfl

/-- A question is answered by the host, or it is a report, which is none of the device's business. -/
theorem leaves_listen {q : Host.Query} {T : q.Answer → Option Host.ChannelId → Prop} (c : Console)
    (hq : ∀ answer, ∃ held', Contact.Step (Host.contact? ⟨q, answer⟩) held held' ∧ T answer held') :
    (listen q c : Dialogue Query.Answer ε (q.Answer × Console)).Leaves contact?
      (fun r held' => ∃ answer c', r = .ok (answer, c') ∧ T answer held') held := by
  have hask : ∀ q : Host.Query, ∀ T : q.Answer → Option Host.ChannelId → Prop,
      (∀ answer, ∃ held', Contact.Step (Host.contact? ⟨q, answer⟩) held held' ∧ T answer held') →
      Dialogue.Leaves contact? (fun r held' => ∃ answer c', r = .ok (answer, c') ∧ T answer held') held
        (.ask (.host q) fun answer => .done (answer, c) :
          Dialogue Query.Answer ε (q.Answer × Console)) := by
    intro q T hq answer
    obtain ⟨held', hstep, hT⟩ := hq answer
    exact ⟨held', hstep, answer, c, rfl, hT⟩
  cases q with
  | devices | attach | abandon | log => exact hask _ T hq
  | on p q =>
    cases q with
    | call | log | logTakes | news | departure => exact hask _ T hq
    | report r =>
      obtain ⟨held', hstep, hT⟩ := hq ()
      obtain rfl : held' = held := hstep
      exact (stays_print _).bind_leaves fun _ => ⟨(), _, rfl, hT⟩

end Tool

theorem leaves_relay_bind {β : Type} {S : Except ε' β → Option Host.ChannelId → Prop}
    {d : Dialogue Host.Query.Answer ε α} {c : Tool.Console}
    {f : Except ε α × Tool.Console → Dialogue Tool.Query.Answer ε' β}
    (hd : d.Leaves Host.contact? R held)
    (hf : ∀ r c held, R r held → (f (r, c)).Leaves Tool.contact? S held) :
    (d.relay Tool.listen c >>= f).Leaves Tool.contact? S held := by
  induction d generalizing held c with
  | done a => exact hf _ c held hd
  | fail e => exact hf _ c held hd
  | exhausted => trivial
  | ask q next ih =>
    -- what the console prints does not touch the device, so each answer goes on from there
    rw [relay]
    change Leaves _ _ _ (Tool.listen q c >>= _ >>= f)
    rw [bind_bind]
    refine Leaves.bind (Tool.leaves_listen c hd) ?_ ?_
    · rintro _ held' ⟨answer, c', ⟨⟩, hnext⟩
      exact ih answer hnext
    · rintro _ _ ⟨_, _, ⟨⟩, -⟩

end Layers

end UsbDfu
