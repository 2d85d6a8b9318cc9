import Mathlib.Logic.Relation
import UsbDfu.Proofs.Departures
import UsbDfu.Proofs.Transaction

/-!
# The life of a session

From connecting on, operations are done with a session one after another, and ids of devices that
leave are delivered to its subscription at any time.

- `Fed`: how the queue of a subscription fills and empties while turns are had; `Fed.mem` keeps an id
  in it until the session hears of it.
- `World.Step`: a delivery or an operation. `World.Sound` is what every step keeps
  (`World.Sound.step`), `World.Sound.goesWell` what it means for the operation that comes next.
- `session_follows_device`: what holds of a session after any life, and of its next operation.
-/

namespace UsbDfu

open Dialogue

/-! ## Deliveries -/

/-- The question takes news of the subscription. -/
def Query.IsAbout (sub : Subscription) : Query → Prop
  | .news sub' => sub' = sub
  | .departure sub' _ _ => sub' = sub
  | _ => False

/-- While these turns are had and these ids are delivered to the subscription, its queue goes from
the first state to the last. Deliveries come at any time: before, between and after the turns, and
while a wait lasts. -/
inductive Fed (sub : Subscription) : (queue ids : List DeviceId) → List (Turn Query.Answer) →
    (queue' : List DeviceId) → Prop where
  | nil (queue : List DeviceId) : Fed sub queue [] [] queue
  | delivery {queue ids : List DeviceId} {ts : List (Turn Query.Answer)} {queue' : List DeviceId}
      (id : DeviceId) (h : Fed sub (queue ++ [id]) ids ts queue') :
      Fed sub queue (id :: ids) ts queue'
  /-- All that is in the queue is taken. -/
  | news {queue ids : List DeviceId} {ts : List (Turn Query.Answer)} {queue' : List DeviceId}
      (h : Fed sub [] ids ts queue') : Fed sub queue ids (⟨.news sub, queue⟩ :: ts) queue'
  /-- A wait takes all up to the device that it is for. -/
  | found {before after ids : List DeviceId} {ts : List (Turn Query.Answer)}
      {queue' : List DeviceId} (id : DeviceId) (timeout : Nat) (hid : id ∉ before)
      (h : Fed sub after ids ts queue') :
      Fed sub (before ++ id :: after) ids (⟨.departure sub id timeout, true⟩ :: ts) queue'
  /-- A wait that ends without it has taken all. -/
  | missed {queue ids : List DeviceId} {ts : List (Turn Query.Answer)} {queue' : List DeviceId}
      (id : DeviceId) (timeout : Nat) (hid : id ∉ queue) (h : Fed sub [] ids ts queue') :
      Fed sub queue ids (⟨.departure sub id timeout, false⟩ :: ts) queue'
  /-- Nothing else takes from the queue. -/
  | aside {queue ids : List DeviceId} {ts : List (Turn Query.Answer)} {queue' : List DeviceId}
      {t : Turn Query.Answer} (ht : ¬ t.question.IsAbout sub) (h : Fed sub queue ids ts queue') :
      Fed sub queue ids (t :: ts) queue'

namespace Fed

variable {sub : Subscription} {id : DeviceId} {queue ids queue' : List DeviceId}
  {ts : List (Turn Query.Answer)}

/-- An id stays in the queue until the session hears of it. -/
theorem mem (h : Fed sub queue ids ts queue') (hheeds : ∀ t ∈ ts, t.question.Heeds (some sub) id)
    (hsilent : ∀ t ∈ ts, ¬ Tells id t) (hid : id ∈ queue ++ ids) : id ∈ queue' := by
  induction h with
  | nil queue => simpa using hid
  | delivery id' _ ih => exact ih hheeds hsilent (by simpa using hid)
  | news _ ih =>
    rw [List.forall_mem_cons] at hheeds hsilent
    exact ih hheeds.2 hsilent.2 ((List.mem_append.1 hid).resolve_left hsilent.1)
  | found id' timeout _ _ _ =>
    obtain ⟨-, rfl⟩ := hheeds _ List.mem_cons_self
    exact absurd ⟨rfl, rfl⟩ (hsilent _ List.mem_cons_self)
  -- the wait has dropped the whole queue, but the device was not in it
  | missed id' timeout hid' _ ih =>
    obtain ⟨-, rfl⟩ := hheeds _ List.mem_cons_self
    rw [List.forall_mem_cons] at hheeds hsilent
    exact ih hheeds.2 hsilent.2 ((List.mem_append.1 hid).resolve_left hid')
  | aside _ _ ih =>
    rw [List.forall_mem_cons] at hheeds hsilent
    exact ih hheeds.2 hsilent.2 hid

/-- The session hears only of ids that were delivered. -/
theorem mem_of_tells (h : Fed sub queue ids ts queue')
    (hheeds : ∀ t ∈ ts, t.question.Heeds (some sub) id) (htells : ∃ t ∈ ts, Tells id t) :
    id ∈ queue ++ ids := by
  obtain ⟨t, ht, htells⟩ := htells
  -- on the deliveries; what the session hears was in the queue or came into it
  induction h with
  | nil => simp at ht
  | delivery id' _ ih => simpa using ih hheeds ht
  | news _ ih =>
    rcases List.mem_cons.1 ht with rfl | ht
    · exact List.mem_append_left _ htells
    · exact List.mem_append_right _ (by simpa using ih (List.forall_mem_cons.1 hheeds).2 ht)
  | found id' timeout _ _ _ =>
    obtain ⟨-, rfl⟩ := hheeds _ List.mem_cons_self
    simp
  | missed id' timeout _ _ ih =>
    rcases List.mem_cons.1 ht with rfl | ht
    · exact absurd htells.2 Bool.false_ne_true
    · exact List.mem_append_right _ (by simpa using ih (List.forall_mem_cons.1 hheeds).2 ht)
  | aside hother _ ih =>
    rcases List.mem_cons.1 ht with rfl | ht
    · obtain ⟨q, answer⟩ := t
      have hq := hheeds _ List.mem_cons_self
      cases q with
      | news sub' => exact absurd (Option.some.inj hq).symm hother
      | departure sub' id' timeout => exact absurd (Option.some.inj hq.1).symm hother
      | call _ | report _ | log _ | logTakes _ => exact htells.elim
    · exact ih (List.forall_mem_cons.1 hheeds).2 ht

/-- What is in the queue when the news is taken first is in the answer. -/
theorem mem_news {answer : List DeviceId} {rest : List (Turn Query.Answer)}
    (h : Fed sub queue ids (⟨.news sub, answer⟩ :: rest) queue') (hid : id ∈ queue) :
    id ∈ answer := by
  generalize hts : (⟨.news sub, answer⟩ : Turn Query.Answer) :: rest = ts at h
  induction h with
  | nil => cases hts
  | delivery id' _ ih => exact ih (List.mem_append_left _ hid) hts
  | news =>
    cases hts
    exact hid
  | found | missed => cases hts
  | aside hother =>
    cases hts
    exact absurd rfl hother

end Fed

/-! ## Whole lives -/

/-- A session with the subscription that it may hold. -/
structure World where
  session : Session
  /-- What has arrived and not been taken. -/
  queue : List DeviceId
  /-- All that was ever delivered. -/
  delivered : List DeviceId
  /-- All turns that were had, those of connecting first. -/
  turns : List (Turn Query.Answer)

namespace World

/-- One step of a session's life: a delivery, or an operation that came to its end. -/
inductive Step (sub : Subscription) : World → World → Prop where
  | delivery (w : World) (id : DeviceId) :
      Step sub w { w with queue := w.queue ++ [id], delivered := w.delivered ++ [id] }
  | operation {w : World} {a : Action} {ts : List (Turn Query.Answer)} {r : a.Result} {s : Session}
      {ids queue : List DeviceId} (h : Trace (a.perform w.session) ts (.done (r, s)))
      (hf : Fed sub w.queue ids ts queue) :
      Step sub w ⟨s, queue, w.delivered ++ ids, w.turns ++ ts⟩

/-- What every step keeps: the session is settled on its device, the user was told once that it left
if it did, and as long as it is there, word of it that was delivered is still in the queue. -/
structure Sound (sub : Subscription) (id : DeviceId) (w : World) : Prop where
  deviceId : w.session.deviceId = id
  settled : w.session.Settled
  farewells : farewells w.turns = if w.session.activity = .disconnected then 1 else 0
  waiting : w.session.activity = .connected → w.session.watching = some sub →
    id ∈ w.delivered → id ∈ w.queue

end World

/-- The way an operation goes on a session of the device `id`, begun in a world and fed with `ids`
meanwhile. -/
structure GoesWell (sub : Subscription) (id : DeviceId) (w : World) (a : Action)
    (ids : List DeviceId) (ts : List (Turn Query.Answer))
    (o : Outcome Empty (a.Result × Session)) : Prop where
  /-- A session that has lost its device does not change. -/
  stays : w.session.activity = .disconnected → ∃ r, o = .done (r, w.session)
  /-- It loses the device if the caller says so or the bus does, and not otherwise. -/
  leaves : ∀ r s, o = .done (r, s) → (s.activity = .disconnected ↔
    w.session.activity = .disconnected ∨ a = .handleDeparture id ∨ ∃ t ∈ ts, Tells id t)
  /-- The bus says so only where the device's own id was delivered. -/
  heard : w.session.watching = some sub → (∃ t ∈ ts, Tells id t) → id ∈ w.queue ++ ids
  /-- The user is told when the session loses the device, and at no other time. -/
  tellsUser : ∀ r s, o = .done (r, s) → farewells ts =
    if w.session.activity ≠ .disconnected ∧ s.activity = .disconnected then 1 else 0
  unfinished : o = .exhausted → farewells ts = 0
  /-- An operation on the device is refused without a call once the session has lost the device or
  word of it was delivered. -/
  refused : a.NeedsDevice → w.session.activity = .disconnected ∨
      (w.session.watching = some sub ∧ id ∈ w.delivered) →
    (∀ t ∈ ts, t.question.isCall = false) ∧ ∃ r s, o = .done (r, s) ∧ a.Refused r

section

variable {sub : Subscription} {id : DeviceId} {w w' : World}

/-- What connecting begins with. -/
theorem World.sound_connect {device : Device} {options : SessionOptions}
    {ts : List (Turn Query.Answer)} {s : Session} {queue : List DeviceId}
    (h : Trace (Session.connect id device options) ts (.done s)) :
    World.Sound sub id ⟨s, queue, queue, ts⟩ := by
  obtain ⟨hroutine, hend⟩ := (Session.within_connect id device options).of_trace h
  obtain ⟨hid, hs⟩ := hend s rfl
  have hword : Word s.watching id ts false := word_of_isRoutine hroutine
  exact ⟨hid, .inl hs, by simp [hword.farewells, hs], fun _ _ h => h⟩

theorem World.Sound.step (hw : w.Sound sub id) (h : Step sub w w') : w'.Sound sub id := by
  obtain ⟨rfl, hsettled, hfarewells, hwaiting⟩ := hw
  cases h with
  | delivery id' =>
    refine ⟨rfl, hsettled, hfarewells, fun hs hsub hid => ?_⟩
    rw [List.mem_append] at hid ⊢
    exact hid.imp_left (hwaiting hs hsub)
  | @operation a ts r s ids queue h hf =>
    rcases hsettled with hs | ⟨hs, hwatch⟩
    -- the operation had the device, and left it or lost it
    · obtain ⟨hheeds, ⟨ho, -⟩ | ⟨r, left, ho, hleft, htold⟩⟩ := trace_perform hs h
      · cases ho
      · cases ho
        cases left with
        | true =>
          refine ⟨rfl, w.session.settled_departed, ?_, nofun⟩
          simp [hfarewells, hs, htold]
        | false =>
          refine ⟨rfl, .inl hs, by simp [hfarewells, hs, htold], fun _ hsub hid => ?_⟩
          -- what was waiting and told of the device would have been heard
          have hsilent : ∀ t ∈ ts, ¬ Tells w.session.deviceId t :=
            fun t ht htells => Bool.false_ne_true (hleft.2 (.inr ⟨t, ht, htells⟩))
          rw [Session.after_false] at hsub
          rw [hsub] at hheeds
          refine hf.mem hheeds hsilent ?_
          rw [List.mem_append] at hid ⊢
          exact hid.imp_left (hwaiting hs hsub)
    -- the device was gone before, and the operation asks nothing
    · obtain ⟨r', hperform, -⟩ := perform_of_gone (.inr ⟨hs, hwatch⟩) hs a
      rw [hperform] at h
      obtain ⟨rfl, ho⟩ := trace_done_iff.1 h
      cases ho
      exact ⟨rfl, .inr ⟨hs, hwatch⟩, by simp [hfarewells], by simp [hs]⟩

theorem World.Sound.goesWell (hw : w.Sound sub id) {a : Action} {ids queue : List DeviceId}
    {ts : List (Turn Query.Answer)} {o : Outcome Empty (a.Result × Session)}
    (hf : Fed sub w.queue ids ts queue) (h : Trace (a.perform w.session) ts o) :
    GoesWell sub id w a ids ts o := by
  obtain ⟨rfl, hsettled, -, hwaiting⟩ := hw
  rcases hsettled with hs | ⟨hs, hwatch⟩
  · have hgone : w.session.activity ≠ .disconnected := by simp [hs]
    obtain ⟨hheeds, hend⟩ := trace_perform hs h
    refine
      { stays := fun hs' => absurd hs' hgone
        leaves := fun r s ho => ?_
        heard := fun hsub htells => hf.mem_of_tells (hsub ▸ hheeds) htells
        tellsUser := fun r s ho => ?_
        unfinished := fun ho => ?_
        refused := fun ha hleft => ?_ }
    · rcases hend with ⟨rfl, -⟩ | ⟨r', left, rfl, hleft, -⟩
      · cases ho
      · cases ho
        simp [Session.activity_after_iff hs, hleft, hgone]
    · rcases hend with ⟨rfl, -⟩ | ⟨r', left, rfl, -, htold⟩
      · cases ho
      · cases ho
        rw [htold]
        cases left <;> simp [hs]
    · rcases hend with ⟨-, htold⟩ | ⟨r', left, rfl, -⟩
      · exact htold
      · cases ho
    -- the farewell is waiting, and the operation takes it before it calls anything
    · obtain ⟨hsub, hid⟩ := hleft.resolve_left hgone
      obtain ⟨answer, rest, rfl, hrefused⟩ := refused_of_news hs hsub ha h
      obtain ⟨hcalls, r, ho, hr⟩ := hrefused (hf.mem_news (hwaiting hs hsub hid))
      exact ⟨hcalls, r, _, ho, hr⟩
  · obtain ⟨r, hperform, hrefused⟩ := perform_of_gone (.inr ⟨hs, hwatch⟩) hs a
    rw [hperform] at h
    obtain ⟨rfl, rfl⟩ := trace_done_iff.1 h
    exact
      { stays := fun _ => ⟨r, rfl⟩
        leaves := by
          rintro _ _ ⟨⟩
          simp [hs]
        heard := by simp
        tellsUser := by
          rintro _ _ ⟨⟩
          simp [hs]
        unfinished := nofun
        refused := fun ha _ => ⟨by simp, r, _, rfl, hrefused ha⟩ }

theorem World.Sound.run (hw : w.Sound sub id) (h : Relation.ReflTransGen (Step sub) w w') :
    w'.Sound sub id := by
  induction h with
  | refl => exact hw
  | tail _ hstep ih => exact ih.step hstep

end

/-- Whatever is done with a session and whatever is delivered to it, between operations it has its
device or has lost it, the user was told of the loss once and not before it, and the next operation
goes well. -/
theorem session_follows_device {id : DeviceId} {device : Device} {options : SessionOptions}
    {ts₀ : List (Turn Query.Answer)} {s₀ : Session} {sub : Subscription} {queue : List DeviceId}
    {w : World} (h₀ : Trace (Session.connect id device options) ts₀ (.done s₀))
    (hw : Relation.ReflTransGen (World.Step sub) ⟨s₀, queue, queue, ts₀⟩ w) :
    (w.session.activity = .connected ∨ w.session.activity = .disconnected) ∧
      farewells w.turns = (if w.session.activity = .disconnected then 1 else 0) ∧
      ∀ (a : Action) (ids : List DeviceId) (ts : List (Turn Query.Answer)) (queue' : List DeviceId)
        (o : Outcome Empty (a.Result × Session)), Fed sub w.queue ids ts queue' →
        Trace (a.perform w.session) ts o → GoesWell sub id w a ids ts o := by
  have hsound : w.Sound sub id := (World.sound_connect h₀).run hw
  exact ⟨hsound.settled.imp_right And.left, hsound.farewells,
    fun a ids ts queue' o hf h => hsound.goesWell hf h⟩

/-- A boot loader with one setting that tells nothing more. -/
def bareDevice : Device where
  descriptor := ⟨0x0200, 0, 0, 0, 64, 0x0483, 0xdf11, 0x0100, 0, 0, 0, 0⟩
  configurations := []
  settings := [⟨1, 0, 0, .upgrade, 0, none⟩]

/-- The session on it, as device 7 and with subscription 0. -/
def bareSession : Session where
  connection := .new 0 1024 8
  deviceId := 7
  setting := ⟨1, 0, 0, .upgrade, 0, none⟩
  functional := .assumed
  strategy := .plain
  watching := some 0
  activity := .connected
  disconnectTimeout := 5000

/-- Device 3 leaves, a wait for device 7 drops that, device 7 leaves, and an image is to be flashed:
it is refused without a call. -/
theorem session_follows_device_unplugged : ∃ ts₀,
    Trace (Session.connect 7 bareDevice (.usual 8)) ts₀ (.done bareSession) ∧
    Relation.ReflTransGen (World.Step 0) ⟨bareSession, [], [], ts₀⟩
      ⟨bareSession, [7], [3, 7], ts₀ ++ [⟨.departure 0 7 100, false⟩]⟩ ∧
    ∃ ts, Fed 0 [7] [] ts [] ∧
      Trace (bareSession.flash [1, 2]) ts
        (.done (.error (.configuration .disconnected), bareSession.departed)) ∧
      GoesWell 0 7 ⟨bareSession, [7], [3, 7], ts₀ ++ [⟨.departure 0 7 100, false⟩]⟩
        (.flash [1, 2]) [] ts
        (.done (.error (.configuration .disconnected), bareSession.departed)) := by
  have hconnect := trace_transcript Bench.SingleBoard.serve
    (Session.connect 7 bareDevice (.usual 8)) (.ofBoard { model := .script ⟨7, []⟩, budget := none })
  rw [show (transcript Bench.SingleBoard.serve _ _).2 = .done bareSession by decide +kernel]
    at hconnect
  have hwait : Trace (bareSession.awaitDeparture 100) [⟨.departure 0 7 100, false⟩]
      (.done (false, bareSession)) :=
    trace_ask_iff.2 ⟨false, [], rfl, .done _⟩
  have hflash : Trace (bareSession.flash [1, 2]) [⟨.news 0, [7]⟩,
      ⟨.report (.log .info "Device disconnected."), ()⟩, ⟨.report .disconnected, ()⟩]
      (.done (.error (.configuration .disconnected), bareSession.departed)) :=
    trace_ask_iff.2 ⟨[7], _, rfl, trace_ask_iff.2 ⟨(), _, rfl, trace_ask_iff.2 ⟨(), _, rfl, .done _⟩⟩⟩
  have hmissed : Fed 0 [3] [] [⟨.departure 0 7 100, false⟩] [] :=
    .missed 7 100 (by decide) (.nil [])
  have hfed : Fed 0 [7] [] [⟨.news 0, [7]⟩, ⟨.report (.log .info "Device disconnected."), ()⟩,
      ⟨.report .disconnected, ()⟩] [] := .news (.aside id (.aside id (.nil [])))
  have hlife : ∀ ts₀, Relation.ReflTransGen (World.Step 0) ⟨bareSession, [], [], ts₀⟩
      ⟨bareSession, [7], [3, 7], ts₀ ++ [⟨.departure 0 7 100, false⟩]⟩ := fun ts₀ =>
    .tail (.tail (.single (.delivery _ 3)) (.operation (a := .awaitDeparture 100) hwait hmissed))
      (.delivery _ 7)
  exact ⟨_, hconnect, hlife _, _, hfed, hflash,
    (session_follows_device hconnect (hlife _)).2.2 (.flash [1, 2]) [] _ [] _ hfed hflash⟩

end UsbDfu
