import UsbDfu.Proofs.Routine

/-!
# Devices that leave during an operation

A session has its device until it hears that it left, and from then on does nothing more with it.
Word comes by three ways: the news that has arrived, a wait, and the caller. All else is routine.

- `Action.perform`: what can be done with a session, one operation after another.
- `Word watching id ts left`: what the turns say of the device, `left` being whether one of them
  tells that it left; `trace_pollDepartures` and `trace_awaitDeparture` for the two ways of the bus.
- `Follows s d`: begun with the device on the bus, the operation `d` loses the session its device
  exactly if its turns tell that it left; `Routine.follows_bind` and `follows_bind` put the parts of
  an operation one after another.
- `trace_perform` and `perform_of_gone`: every operation, on a session that has its device and on
  one that has lost it. `refused_of_news` is the refusal of what needs the device.
-/

namespace UsbDfu

open Dialogue
open Exchange (say)

/-! ## Operations -/

/-- What can be done with a session. -/
inductive Action where
  | flash (image : Bytes)
  | read (limit : Option Nat)
  | detach
  | pollDepartures
  | awaitDeparture (timeout : Nat)
  /-- The caller says that a device left. -/
  | handleDeparture (id : DeviceId)
  deriving DecidableEq, Repr

namespace Action

/-- What the operation gives back, besides the session. -/
def Result : Action → Type
  | .flash _ | .detach => Except Failure Unit
  | .read _ => Except Failure Bytes
  | .pollDepartures => Unit
  | .awaitDeparture _ | .handleDeparture _ => Bool

/-- The operation of the session itself. -/
def perform (s : Session) : (a : Action) → Talk (a.Result × Session)
  | .flash image => s.flash image
  | .read limit => s.read limit
  | .detach => s.detach
  | .pollDepartures => do
    let s ← s.pollDepartures
    pure ((), s)
  | .awaitDeparture timeout => s.awaitDeparture timeout
  | .handleDeparture id => s.handleDeparture id

/-- The operation is one on the device, not one on its life. -/
def NeedsDevice : Action → Prop
  | .flash _ | .read _ | .detach => True
  | .pollDepartures | .awaitDeparture _ | .handleDeparture _ => False

/-- The operation was refused because the device has left. -/
def Refused : (a : Action) → a.Result → Prop
  | .flash _, r => r = .error (.configuration .disconnected)
  | .read _, r => r = .error (.configuration .disconnected)
  | .detach, r => r = .error (.configuration .disconnected)
  | .pollDepartures, _ | .awaitDeparture _, _ | .handleDeparture _, _ => False

end Action

namespace Session

/-- The session once its device has left. -/
def departed (s : Session) : Session :=
  { s with activity := .disconnected, watching := none }

/-- The session after operations in which its device left or did not. -/
def after (s : Session) (left : Bool) : Session :=
  if left then s.departed else s

@[simp] theorem after_false (s : Session) : s.after false = s := rfl

@[simp] theorem after_true (s : Session) : s.after true = s.departed := rfl

@[simp] theorem activity_departed (s : Session) : s.departed.activity = .disconnected := rfl

/-- Between operations a session has its device, or knows that it is gone and waits for no news. -/
def Settled (s : Session) : Prop :=
  s.activity = .connected ∨ s.activity = .disconnected ∧ s.watching = none

theorem settled_departed (s : Session) : s.departed.Settled := .inr ⟨rfl, rfl⟩

theorem activity_after_iff {s : Session} {left : Bool} (hs : s.activity = .connected) :
    (s.after left).activity = .disconnected ↔ left = true := by
  cases left with
  | false => simp [hs]
  | true => simp

end Session

/-! ## What turns say of a device -/

/-- The turn is word from the bus that the device left. -/
def Tells (id : DeviceId) : Turn Query.Answer → Prop
  | ⟨.news _, ids⟩ => id ∈ (show List DeviceId from ids)
  | ⟨.departure _ id' _, left⟩ => id' = id ∧ left = true
  | _ => False

/-- News is asked for as a session does that watches the device. -/
def Query.Heeds (watching : Option Subscription) (id : DeviceId) : Query → Prop
  | .news sub => watching = some sub
  | .departure sub id' _ => watching = some sub ∧ id' = id
  | _ => True

/-- The question goes to the device. -/
def Query.isCall : Query → Bool
  | .call _ => true
  | _ => false

/-- The user is told that the device is gone. -/
def Query.isFarewell : Query → Bool
  | .report .disconnected => true
  | _ => false

/-- How often the user is told that the device is gone. -/
def farewells (ts : List (Turn Query.Answer)) : Nat :=
  ts.countP (·.question.isFarewell)

@[simp] theorem farewells_nil : farewells [] = 0 := rfl

@[simp] theorem farewells_cons (t : Turn Query.Answer) (ts : List (Turn Query.Answer)) :
    farewells (t :: ts) = farewells ts + t.question.isFarewell.toNat := by
  rw [farewells, List.countP_cons]
  cases t.question.isFarewell <;> rfl

@[simp] theorem farewells_append (t₁ t₂ : List (Turn Query.Answer)) :
    farewells (t₁ ++ t₂) = farewells t₁ + farewells t₂ :=
  List.countP_append

/-- The turns tell that the device left, or do not; the user learns of it at once. -/
structure Word (watching : Option Subscription) (id : DeviceId) (ts : List (Turn Query.Answer))
    (left : Bool) : Prop where
  tells : (∃ t ∈ ts, Tells id t) ↔ left = true
  farewells : farewells ts = left.toNat
  heeds : ∀ t ∈ ts, t.question.Heeds watching id

section

variable {watching : Option Subscription} {id : DeviceId} {ts t₁ t₂ : List (Turn Query.Answer)}

theorem Query.IsRoutine.heeds {q : Query} (h : q.IsRoutine) : q.Heeds watching id := by
  cases q with
  | news | departure => cases h
  | _ => trivial

theorem not_tells_of_isRoutine {t : Turn Query.Answer} (h : t.question.IsRoutine) :
    ¬ Tells id t := by
  obtain ⟨q, answer⟩ := t
  cases q with
  | news | departure => cases h
  | _ => exact nofun

theorem isFarewell_of_isRoutine {q : Query} (h : q.IsRoutine) : q.isFarewell = false := by
  cases q with
  | report r =>
    cases r with
    | disconnected => cases h
    | _ => rfl
  | _ => rfl

/-- Routine says nothing of the device. -/
theorem word_of_isRoutine (h : ∀ t ∈ ts, t.question.IsRoutine) : Word watching id ts false where
  tells := by
    simp only [Bool.false_eq_true, iff_false]
    rintro ⟨t, ht, htells⟩
    exact not_tells_of_isRoutine (h t ht) htells
  farewells := by
    rw [Bool.toNat_false, UsbDfu.farewells, List.countP_eq_zero]
    intro t ht
    simp [isFarewell_of_isRoutine (h t ht)]
  heeds t ht := (h t ht).heeds

theorem Word.append {l₁ l₂ : Bool} (h₁ : Word watching id t₁ l₁) (h₂ : Word watching id t₂ l₂)
    (hone : l₁ = false ∨ l₂ = false) : Word watching id (t₁ ++ t₂) (l₁ || l₂) where
  tells := by
    simp only [List.mem_append, or_and_right, exists_or, h₁.tells, h₂.tells, Bool.or_eq_true]
  farewells := by
    rw [farewells_append, h₁.farewells, h₂.farewells]
    rcases hone with rfl | rfl <;> simp
  heeds t ht := (List.mem_append.1 ht).elim (h₁.heeds t) (h₂.heeds t)

end

/-! ## The session's ways to hear of it -/

namespace Session

variable {s : Session}

/-- The words to the user when the device leaves. -/
def bidFarewell : Talk Unit := do
  say .info "Device disconnected."
  Exchange.report .disconnected

theorem handleDeparture_self (hs : s.activity ≠ .disconnected) :
    s.handleDeparture s.deviceId = bidFarewell >>= fun _ => pure (true, s.departed) := by
  rw [handleDeparture, if_neg (by simp [hs])]
  rfl

theorem handleDeparture_of_ne {id : DeviceId} (h : id ≠ s.deviceId) :
    s.handleDeparture id = pure (false, s) := by
  rw [handleDeparture, if_pos (.inl h)]

theorem handleDeparture_of_gone {id : DeviceId} (h : s.activity = .disconnected) :
    s.handleDeparture id = pure (false, s) := by
  rw [handleDeparture, if_pos (.inr h)]

theorem handleDepartures_of_gone (h : s.activity = .disconnected) (ids : List DeviceId) :
    handleDepartures ids s = pure s := by
  induction ids with
  | nil => rfl
  | cons id rest ih =>
    rw [handleDepartures, handleDeparture_of_gone h]
    exact ih

/-- However often the device is among those that left, the session takes leave of it once. -/
theorem handleDepartures_eq (hs : s.activity ≠ .disconnected) (ids : List DeviceId) :
    handleDepartures ids s =
      if s.deviceId ∈ ids then bidFarewell >>= fun _ => pure s.departed else pure s := by
  induction ids with
  | nil => rfl
  | cons id rest ih =>
    rw [handleDepartures]
    by_cases h : id = s.deviceId
    · subst h
      rw [if_pos List.mem_cons_self, handleDeparture_self hs, bind_bind]
      -- after the farewell the rest of the news is dropped, the same device again included
      exact congrArg (bidFarewell >>= ·)
        (funext fun _ => handleDepartures_of_gone rfl rest)
    · rw [handleDeparture_of_ne h]
      simpa [Ne.symm h] using ih

/-- The turns of the farewell. -/
theorem trace_bidFarewell {α : Type} {a : α} {ts : List (Turn Query.Answer)} {o : Outcome Empty α}
    (h : Trace (bidFarewell >>= fun _ => pure a) ts o) :
    o = .done a ∧
      ts = [⟨.report (.log .info "Device disconnected."), ()⟩, ⟨.report .disconnected, ()⟩] := by
  obtain ⟨_, _, rfl, hreport⟩ := trace_ask_iff.1 h
  obtain ⟨_, _, rfl, hend⟩ := trace_ask_iff.1 hreport
  obtain ⟨rfl, rfl⟩ := trace_done_iff.1 hend
  exact ⟨rfl, rfl⟩

/-- Word of the device from the bus and the farewell to it. -/
theorem word_farewell {sub : Subscription} {id : DeviceId} {t : Turn Query.Answer}
    (ht : Tells id t) (hf : t.question.isFarewell = false) (hh : t.question.Heeds (some sub) id) :
    Word (some sub) id
      [t, ⟨.report (.log .info "Device disconnected."), ()⟩, ⟨.report .disconnected, ()⟩] true where
  tells := by simp [ht]
  farewells := by
    simp only [farewells_cons, farewells_nil, hf]
    rfl
  heeds := by
    simp only [List.forall_mem_cons]
    exact ⟨hh, trivial, trivial, by simp⟩

/-- A turn from which the session learns nothing of its device. -/
theorem word_silent {sub : Subscription} {id : DeviceId} {t : Turn Query.Answer}
    (ht : ¬ Tells id t) (hf : t.question.isFarewell = false) (hh : t.question.Heeds (some sub) id) :
    Word (some sub) id [t] false where
  tells := by simp [ht]
  farewells := by simp [hf]
  heeds := by simpa using hh

theorem trace_news_bind_iff {α : Type} {sub : Subscription} {f : List DeviceId → Talk α}
    {ts : List (Turn Query.Answer)} {o : Outcome Empty α} :
    Trace (question (Query.news sub) >>= f) ts o ↔
      ∃ (ids : List DeviceId) (rest : List (Turn Query.Answer)),
        ts = ⟨.news sub, ids⟩ :: rest ∧ Trace (f ids) rest o :=
  trace_ask_iff

theorem trace_departure_bind_iff {α : Type} {sub : Subscription} {id : DeviceId} {timeout : Nat}
    {f : Bool → Talk α} {ts : List (Turn Query.Answer)} {o : Outcome Empty α} :
    Trace (question (Query.departure sub id timeout) >>= f) ts o ↔
      ∃ (left : Bool) (rest : List (Turn Query.Answer)),
        ts = ⟨.departure sub id timeout, left⟩ :: rest ∧ Trace (f left) rest o :=
  trace_ask_iff

theorem pollDepartures_of_gone (h : s.Settled) (hs : s.activity = .disconnected) :
    s.pollDepartures = pure s := by
  rcases h with h | ⟨-, h⟩
  · simp [h] at hs
  · rw [pollDepartures, h]

theorem trace_pollDepartures (hs : s.activity ≠ .disconnected) {ts : List (Turn Query.Answer)}
    {o : Outcome Empty Session} (h : Trace s.pollDepartures ts o) :
    ∃ left, o = .done (s.after left) ∧ Word s.watching s.deviceId ts left ∧
      (∀ t ∈ ts, t.question.isCall = false) ∧
      ∀ sub, s.watching = some sub → ∃ ids rest, ts = ⟨.news sub, ids⟩ :: rest := by
  rw [pollDepartures] at h
  cases hw : s.watching with
  | none =>
    rw [hw] at h
    obtain ⟨rfl, rfl⟩ := trace_done_iff.1 h
    exact ⟨false, rfl, word_of_isRoutine (by simp), by simp, nofun⟩
  | some sub =>
    rw [hw] at h
    obtain ⟨ids, rest, rfl, htail⟩ := trace_news_bind_iff.1 h
    rw [handleDepartures_eq hs] at htail
    have hfirst : ∀ sub', some sub = some sub' → ∃ ids' rest',
        (⟨.news sub, ids⟩ : Turn Query.Answer) :: rest = ⟨.news sub', ids'⟩ :: rest' := by
      rintro sub' ⟨⟩
      exact ⟨ids, rest, rfl⟩
    split at htail
    · rename_i hmem
      obtain ⟨rfl, rfl⟩ := trace_bidFarewell htail
      exact ⟨true, rfl, word_farewell hmem rfl rfl, by simp [Query.isCall], hfirst⟩
    · rename_i hmem
      obtain ⟨rfl, rfl⟩ := trace_done_iff.1 htail
      exact ⟨false, rfl, word_silent hmem rfl rfl, by simp [Query.isCall], hfirst⟩

theorem trace_awaitDeparture (hs : s.activity ≠ .disconnected) {timeout : Nat}
    {ts : List (Turn Query.Answer)} {o : Outcome Empty (Bool × Session)}
    (h : Trace (s.awaitDeparture timeout) ts o) :
    ∃ left, o = .done (left, s.after left) ∧ Word s.watching s.deviceId ts left := by
  rw [awaitDeparture, if_neg hs] at h
  cases hw : s.watching with
  | none =>
    rw [hw] at h
    obtain ⟨_, _, rfl, hend⟩ := trace_ask_iff.1 h
    obtain ⟨rfl, rfl⟩ := trace_done_iff.1 hend
    exact ⟨false, rfl, word_of_isRoutine (by simp [Query.IsRoutine])⟩
  | some sub =>
    rw [hw] at h
    obtain ⟨left, rest, rfl, htail⟩ := trace_departure_bind_iff.1 h
    cases left with
    | false =>
      obtain ⟨rfl, rfl⟩ := trace_done_iff.1 htail
      exact ⟨false, rfl, word_silent (by simp [Tells]) rfl ⟨rfl, rfl⟩⟩
    | true =>
      rw [if_pos rfl, handleDeparture_self hs, bind_bind] at htail
      obtain ⟨rfl, rfl⟩ := trace_bidFarewell htail
      exact ⟨true, rfl, word_farewell ⟨rfl, rfl⟩ rfl ⟨rfl, rfl⟩⟩

end Session

/-! ## Operations on a session that has its device -/

/-- The session that an operation ends with is as its turns tell. An operation that does not come
to an end has heard of no departure. -/
def Ends {α : Type} (s : Session) (ts : List (Turn Query.Answer))
    (o : Outcome Empty (α × Session)) : Prop :=
  (o = .exhausted ∧ Word s.watching s.deviceId ts false) ∨
    ∃ r left, o = .done (r, s.after left) ∧ Word s.watching s.deviceId ts left

/-- Begun with the device on the bus, the operation ends as its turns tell. -/
def Follows {α : Type} (s : Session) (d : Talk (α × Session)) : Prop :=
  ∀ ts o, Trace d ts o → Ends s ts o

section Follows

variable {α β : Type} {s : Session} {t₁ t₂ : List (Turn Query.Answer)}

theorem Word.ends_append {o : Outcome Empty (α × Session)}
    (hw : Word s.watching s.deviceId t₁ false) (h : Ends s t₂ o) : Ends s (t₁ ++ t₂) o := by
  rcases h with ⟨rfl, hw'⟩ | ⟨r, left, rfl, hw'⟩
  · exact .inl ⟨rfl, hw.append hw' (.inl rfl)⟩
  · exact .inr ⟨r, left, rfl, by simpa using hw.append hw' (.inl rfl)⟩

theorem follows_done (r : α) : Follows s (.done (r, s)) := by
  intro ts o h
  obtain ⟨rfl, rfl⟩ := trace_done_iff.1 h
  exact .inr ⟨r, false, rfl, word_of_isRoutine (by simp)⟩

theorem Routine.follows_bind {d : Talk β} {f : β → Talk (α × Session)} (hd : Routine d)
    (hf : ∀ b, Follows s (f b)) : Follows s (d >>= f) := by
  have hw : ∀ {t o}, Trace d t o → Word s.watching s.deviceId t false :=
    fun h => word_of_isRoutine (hd.of_trace h).1
  intro ts o h
  rcases trace_bind_iff.1 h with ⟨b, t₁, t₂, h₁, h₂, rfl⟩ | ⟨e, -⟩ | ⟨hd', rfl⟩
  · exact (hw h₁).ends_append (hf b t₂ o h₂)
  · exact e.elim
  · exact .inl ⟨rfl, hw hd'⟩

/-- Goes on after a part in which the session may hear of its device; once it has, all that is left
is routine. -/
theorem follows_bind {d : Talk β} {f : β → Talk (α × Session)} (heard : Bool → β)
    (hd : ∀ ts o, Trace d ts o →
      ∃ left, o = .done (heard left) ∧ Word s.watching s.deviceId ts left)
    (hstays : Follows s (f (heard false)))
    (hleaves : ∀ ts o, Trace (f (heard true)) ts o →
      ∃ r, o = .done (r, s.departed) ∧ ∀ t ∈ ts, t.question.IsRoutine) :
    Follows s (d >>= f) := by
  intro ts o h
  rcases trace_bind_iff.1 h with ⟨b, t₁, t₂, h₁, h₂, rfl⟩ | ⟨e, -⟩ | ⟨hd', -⟩
  · obtain ⟨left, hb, hw⟩ := hd t₁ _ h₁
    obtain rfl := Outcome.done.inj hb
    cases left with
    | false => exact hw.ends_append (hstays t₂ o h₂)
    | true =>
      obtain ⟨r, rfl, hroutine⟩ := hleaves t₂ o h₂
      exact .inr ⟨r, true, rfl, hw.append (word_of_isRoutine hroutine) (.inr rfl)⟩
  · exact e.elim
  · obtain ⟨_, ho, _⟩ := hd ts _ hd'
    cases ho

theorem trace_done_routine {a : α} {ts : List (Turn Query.Answer)} {o : Outcome Empty α}
    (h : Trace (.done a) ts o) : o = .done a ∧ ∀ t ∈ ts, t.question.IsRoutine := by
  obtain ⟨rfl, rfl⟩ := trace_done_iff.1 h
  exact ⟨rfl, by simp⟩

theorem trace_say_done {level : Level} {text : String} {a : α} {ts : List (Turn Query.Answer)}
    {o : Outcome Empty α} (h : Trace (say level text >>= fun _ => pure a) ts o) :
    o = .done a ∧ ∀ t ∈ ts, t.question.IsRoutine := by
  obtain ⟨_, _, rfl, hend⟩ := trace_ask_iff.1 h
  obtain ⟨rfl, rfl⟩ := trace_done_iff.1 hend
  exact ⟨rfl, by simp [Query.IsRoutine]⟩

end Follows

namespace Session

variable {s : Session}

theorem with_connected (hs : s.activity = .connected) : { s with activity := .connected } = s := by
  cases s
  simp_all

theorem follows_pollDepartures {α : Type} (hs : s.activity ≠ .disconnected) (r : α) :
    Follows s (s.pollDepartures >>= fun s => pure (r, s)) := by
  refine follows_bind s.after (fun ts o h => ?_) (follows_done r) fun ts o h => ?_
  · obtain ⟨left, rfl, hw, -⟩ := trace_pollDepartures hs h
    exact ⟨left, rfl, hw⟩
  · exact ⟨r, trace_done_routine h⟩

theorem follows_whileConnected {α : Type} {operation : Session → Talk (Except Failure α × Session)}
    (hs : s.activity ≠ .disconnected) (h : Follows s (operation s)) :
    Follows s (s.whileConnected operation) := by
  refine follows_bind s.after (fun ts o h => ?_) ?_ fun ts o h => ?_
  · obtain ⟨left, rfl, hw, -⟩ := trace_pollDepartures hs h
    exact ⟨left, rfl, hw⟩
  · rw [after_false, if_neg hs]
    exact h
  · rw [after_true, if_pos s.activity_departed] at h
    exact ⟨_, trace_done_routine h⟩

theorem trace_awaitReboot (hs : s.activity = .connected) {ts : List (Turn Query.Answer)}
    {o : Outcome Empty Session} (h : Trace s.awaitReboot ts o) :
    ∃ left, o = .done (s.after left) ∧ Word s.watching s.deviceId ts left := by
  rw [awaitReboot] at h
  have hmanifesting : { s with activity := .manifesting }.activity ≠ .disconnected := nofun
  rcases trace_bind_iff.1 h with ⟨b, t₁, t₂, h₁, h₂, rfl⟩ | ⟨e, -⟩ | ⟨h₁, -⟩
  · obtain ⟨left, hb, hw⟩ := trace_awaitDeparture hmanifesting h₁
    obtain rfl := Outcome.done.inj hb
    cases left with
    | false =>
      obtain ⟨rfl, hroutine⟩ := trace_say_done h₂
      exact ⟨false, congrArg _ (with_connected hs),
        hw.append (word_of_isRoutine hroutine) (.inl rfl)⟩
    | true =>
      obtain ⟨rfl, hroutine⟩ := trace_say_done h₂
      exact ⟨true, rfl, hw.append (word_of_isRoutine hroutine) (.inr rfl)⟩
  · exact e.elim
  · obtain ⟨_, ho, _⟩ := trace_awaitDeparture hmanifesting h₁
    cases ho

theorem follows_flashConnected (hs : s.activity = .connected) (image : Bytes) :
    Follows s (s.flashConnected image) := by
  refine (works_leaveError _).attempt.routine.follows_bind fun r => ?_
  extract_lets tolerant programming connected finish rest
  have hconnected : connected = s := with_connected hs
  have hgone : s.activity ≠ .disconnected := by simp [hs]
  have hrest : Follows s (rest ()) := by
    refine (works_say _ _).routine.follows_bind fun _ => ?_
    refine (works_download _ _ _ _).attempt.routine.follows_bind fun result => ?_
    rw [hconnected]
    cases result with
    | error e => exact follows_pollDepartures hgone _
    | ok u =>
      refine (works_say _ _).routine.follows_bind fun _ => ?_
      split
      · exact follows_pollDepartures hgone _
      · exact follows_bind s.after (fun _ _ => trace_awaitReboot hs) (follows_done _)
          fun ts o h => ⟨_, trace_done_routine h⟩
  cases r with
  | ok u => exact hrest
  | error e => exact (works_say _ _).routine.follows_bind fun _ => hrest

theorem follows_flash (hs : s.activity = .connected) (image : Bytes) :
    Follows s (s.flash image) := by
  refine follows_whileConnected (by simp [hs]) ?_
  split
  · exact follows_flashConnected hs image
  · exact follows_done _

theorem follows_read (hs : s.activity = .connected) (limit : Option Nat) :
    Follows s (s.read limit) := by
  refine follows_whileConnected (by simp [hs]) ?_
  split
  · refine (works_upload _ _ _).attempt.routine.follows_bind fun result => ?_
    dsimp only
    rw [with_connected hs]
    exact follows_pollDepartures (by simp [hs]) result
  · exact follows_done _

theorem follows_detach (hs : s.activity = .connected) : Follows s s.detach := by
  have hgone : s.activity ≠ .disconnected := by simp [hs]
  refine follows_whileConnected hgone ((works_requestDetach s).attempt.routine.follows_bind fun r => ?_)
  cases r with
  | error e => exact follows_done _
  | ok u =>
    refine follows_bind (fun left => (left, s.after left))
      (fun _ _ => trace_awaitDeparture hgone) ?_ fun ts o h => ⟨_, trace_say_done h⟩
    exact (works_say _ _).routine.follows_bind fun _ => follows_done _

end Session

/-- An operation on a session that has its device follows the device, unless the caller says that a
device left. -/
theorem follows_perform {s : Session} (hs : s.activity = .connected) {a : Action}
    (ha : ∀ id, a ≠ .handleDeparture id) : Follows s (a.perform s) := by
  have hgone : s.activity ≠ .disconnected := by simp [hs]
  cases a with
  | flash image => exact s.follows_flash hs image
  | read limit => exact s.follows_read hs limit
  | detach => exact s.follows_detach hs
  | pollDepartures => exact s.follows_pollDepartures hgone ()
  | awaitDeparture timeout =>
    intro ts o h
    obtain ⟨left, rfl, hw⟩ := s.trace_awaitDeparture hgone h
    exact .inr ⟨left, left, rfl, hw⟩
  | handleDeparture id => exact absurd rfl (ha id)

/-- What an operation makes of a session that has its device. -/
theorem trace_perform {s : Session} (hs : s.activity = .connected) {a : Action}
    {ts : List (Turn Query.Answer)} {o : Outcome Empty (a.Result × Session)}
    (h : Trace (a.perform s) ts o) :
    (∀ t ∈ ts, t.question.Heeds s.watching s.deviceId) ∧
      ((o = .exhausted ∧ farewells ts = 0) ∨ ∃ r left, o = .done (r, s.after left) ∧
        (left = true ↔ a = .handleDeparture s.deviceId ∨ ∃ t ∈ ts, Tells s.deviceId t) ∧
        farewells ts = left.toNat) := by
  by_cases ha : ∀ id, a ≠ .handleDeparture id
  · rcases follows_perform hs ha ts o h with ⟨rfl, hw⟩ | ⟨r, left, rfl, hw⟩
    · exact ⟨hw.heeds, .inl ⟨rfl, hw.farewells⟩⟩
    · exact ⟨hw.heeds, .inr ⟨r, left, rfl, by simp [ha, hw.tells], hw.farewells⟩⟩
  · obtain ⟨id, rfl⟩ : ∃ id, a = .handleDeparture id := by simpa using ha
    rw [Action.perform] at h
    by_cases hid : id = s.deviceId
    · subst hid
      rw [s.handleDeparture_self (by simp [hs])] at h
      obtain ⟨rfl, rfl⟩ := Session.trace_bidFarewell h
      exact ⟨by simp [Query.Heeds], .inr ⟨true, true, rfl, by simp, rfl⟩⟩
    · rw [s.handleDeparture_of_ne hid] at h
      obtain ⟨rfl, rfl⟩ := trace_done_iff.1 h
      exact ⟨by simp, .inr ⟨false, false, rfl, by simp [hid], rfl⟩⟩

/-- A session that has lost its device asks nothing and changes nothing. -/
theorem perform_of_gone {s : Session} (h : s.Settled) (hs : s.activity = .disconnected)
    (a : Action) : ∃ r, a.perform s = .done (r, s) ∧ (a.NeedsDevice → a.Refused r) := by
  have hwhile : ∀ {α : Type} (operation : Session → Talk (Except Failure α × Session)),
      s.whileConnected operation = .done (.error (.configuration .disconnected), s) := by
    intro α operation
    rw [Session.whileConnected, s.pollDepartures_of_gone h hs, pure_eq, done_bind, if_pos hs, pure_eq]
  cases a with
  | flash image => exact ⟨_, hwhile _, fun _ => rfl⟩
  | read limit => exact ⟨_, hwhile _, fun _ => rfl⟩
  | detach => exact ⟨_, hwhile _, fun _ => rfl⟩
  | pollDepartures =>
    refine ⟨(), ?_, False.elim⟩
    rw [Action.perform, s.pollDepartures_of_gone h hs]
    rfl
  | awaitDeparture timeout =>
    refine ⟨true, ?_, False.elim⟩
    rw [Action.perform, Session.awaitDeparture, if_pos hs]
    rfl
  | handleDeparture id => exact ⟨false, s.handleDeparture_of_gone hs, False.elim⟩

/-- Before anything else an operation on the device takes the news that has arrived, and goes no
further if its device is among it. -/
theorem refused_of_news {s : Session} (hs : s.activity = .connected) {sub : Subscription}
    (hw : s.watching = some sub) {a : Action} (ha : a.NeedsDevice)
    {ts : List (Turn Query.Answer)} {o : Outcome Empty (a.Result × Session)}
    (h : Trace (a.perform s) ts o) :
    ∃ (ids : List DeviceId) (rest : List (Turn Query.Answer)), ts = ⟨.news sub, ids⟩ :: rest ∧
      (s.deviceId ∈ ids → (∀ t ∈ ts, t.question.isCall = false) ∧
        ∃ r, o = .done (r, s.departed) ∧ a.Refused r) := by
  -- the three operations on the device are under one guard, which takes the news first
  have hwhile : ∀ {α : Type} (operation : Session → Talk (Except Failure α × Session)) o,
      Trace (s.whileConnected operation) ts o →
      ∃ (ids : List DeviceId) (rest : List (Turn Query.Answer)), ts = ⟨.news sub, ids⟩ :: rest ∧
        (s.deviceId ∈ ids → (∀ t ∈ ts, t.question.isCall = false) ∧
          o = .done (.error (.configuration .disconnected), s.departed)) := by
    intro α operation o h
    rcases trace_bind_iff.1 h with ⟨b, t₁, t₂, h₁, h₂, rfl⟩ | ⟨e, -⟩ | ⟨h₁, -⟩
    · obtain ⟨left, hb, hword, hcalls, hfirst⟩ := s.trace_pollDepartures (by simp [hs]) h₁
      obtain rfl := Outcome.done.inj hb
      obtain ⟨ids, rest, rfl⟩ := hfirst sub hw
      refine ⟨ids, rest ++ t₂, rfl, fun hid => ?_⟩
      obtain rfl := hword.tells.1 ⟨_, List.mem_cons_self, hid⟩
      rw [Session.after_true, if_pos s.activity_departed] at h₂
      obtain ⟨rfl, rfl⟩ := trace_done_iff.1 h₂
      exact ⟨by simpa using hcalls, rfl⟩
    · exact e.elim
    · obtain ⟨_, ho, _⟩ := s.trace_pollDepartures (by simp [hs]) h₁
      cases ho
  cases a with
  | flash _ | read _ | detach =>
    obtain ⟨ids, rest, hts, hr⟩ := hwhile _ o h
    exact ⟨ids, rest, hts, fun hid => ⟨(hr hid).1, _, (hr hid).2, rfl⟩⟩
  | pollDepartures | awaitDeparture _ | handleDeparture _ => exact ha.elim

end UsbDfu
