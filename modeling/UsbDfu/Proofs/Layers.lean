import UsbDfu.Proofs.Routine
import UsbDfu.Proofs.Transaction
import UsbDfu.Tool.Work

/-!
# Conversations of the layers below

A job is a conversation of the tool, and in it hosts and sessions have conversations of their own.
What is known of a session for whatever it is answered is known of the session in a job through these.
What was asked in the lower conversation is found in the upper one, in order: `Host.asked?` and
`Tool.asked?` pick it out.

- `trace_of_relay`, `trace_onChannel_iff`: from one layer to the one below.
- `trace_attempt_bind_iff`: a part that always comes to an end, and what is made of its result.
- `Tool.trace_connect`, `Tool.trace_finish`: the session that a desk was connected with, and the
  operation that it did.
-/

namespace UsbDfu

open Dialogue

section Layers

variable {ε ε' α : Type}

/-- A dialogue that was answered by another one had a conversation of its own. If each of its turns can
be told from how it was answered, they can all be told, in order, from the whole. -/
theorem trace_of_relay {Q Q' σ τ : Type} {A : Q → Type} {A' : Q' → Type}
    {serve : (q : Q) → σ → Dialogue A' ε' (A q × σ)} {told? : Turn A' → Option τ}
    {made? : Turn A → Option τ}
    (hserve : ∀ q s ts answer s', Trace (serve q s) ts (.done (answer, s')) →
      ts.filterMap told? = (made? ⟨q, answer⟩).toList)
    {d : Dialogue A ε α} {s s' : σ} {ts : List (Turn A')} {r : Except ε α}
    (h : Trace (d.relay serve s) ts (.done (r, s'))) :
    ∃ ts', Trace d ts' (.ofExcept r) ∧ ts.filterMap told? = ts'.filterMap made? := by
  -- on the dialogue; each of its questions stands for the stretch of the whole that answered it
  induction d generalizing s ts with
  | done a =>
    obtain ⟨rfl, ho⟩ := trace_done_iff.1 h
    cases ho
    exact ⟨[], .done a, rfl⟩
  | fail e =>
    obtain ⟨rfl, ho⟩ := trace_done_iff.1 h
    cases ho
    exact ⟨[], .fail e, rfl⟩
  | exhausted => cases (trace_exhausted_iff.1 h).2
  | ask q next ih =>
    rcases trace_bind_iff.1 h with ⟨⟨answer, s''⟩, t₁, t₂, hturn, hnext, rfl⟩ | ⟨e, -, ho⟩ | ⟨-, ho⟩
    · obtain ⟨ts', hts', htold⟩ := ih answer hnext
      refine ⟨⟨q, answer⟩ :: ts', .ask answer hts', ?_⟩
      rw [List.filterMap_append, hserve q s t₁ answer s'' hturn, htold]
      cases hmade : made? ⟨q, answer⟩ <;> simp [hmade]
    · cases ho
    · cases ho

/-- A turn with a device, as the host has it on a channel. -/
def Host.onTurn (p : Host.ChannelId) (t : Turn UsbDfu.Query.Answer) : Turn Host.Query.Answer :=
  ⟨.on p t.question, t.answer⟩

/-- What a session asks, reports left out: those end where the user is told. -/
def Query.asked? : Turn Query.Answer → Option (Turn Query.Answer)
  | ⟨.report _, _⟩ => none
  | t => some t

/-- What was asked on the channel. -/
def Host.asked? (p : Host.ChannelId) : Turn Host.Query.Answer → Option (Turn UsbDfu.Query.Answer)
  | ⟨.on p' q, answer⟩ => if p' = p then Query.asked? ⟨q, answer⟩ else none
  | _ => none

theorem Host.asked?_onTurn (p : Host.ChannelId) (t : Turn UsbDfu.Query.Answer) :
    Host.asked? p (Host.onTurn p t) = UsbDfu.Query.asked? t :=
  if_pos rfl

/-- What a host does on a channel is what is done with the device, on that channel. -/
theorem trace_onChannel_iff {p : Host.ChannelId} {d : Dialogue Query.Answer ε α}
    {ts : List (Turn Host.Query.Answer)} {o : Outcome ε α} :
    Trace (Host.onChannel p d) ts o ↔ ∃ ts', Trace d ts' o ∧ ts = ts'.map (Host.onTurn p) := by
  constructor
  · intro h
    induction d generalizing ts with
    | done a =>
      obtain ⟨rfl, rfl⟩ := trace_done_iff.1 h
      exact ⟨[], .done a, rfl⟩
    | fail e =>
      obtain ⟨rfl, rfl⟩ := trace_fail_iff.1 h
      exact ⟨[], .fail e, rfl⟩
    | exhausted =>
      obtain ⟨rfl, rfl⟩ := trace_exhausted_iff.1 h
      exact ⟨[], .exhausted, rfl⟩
    | ask q next ih =>
      obtain ⟨answer, rest, rfl, hrest⟩ := trace_ask_iff.1 h
      obtain ⟨ts', hts', rfl⟩ := ih (show q.Answer from answer) hrest
      exact ⟨⟨q, answer⟩ :: ts', .ask _ hts', rfl⟩
  · rintro ⟨ts', h, rfl⟩
    induction h with
    | done a => exact .done a
    | fail e => exact .fail e
    | exhausted => exact .exhausted
    | ask answer _ ih => exact .ask _ ih

theorem trace_of_onChannel {p : Host.ChannelId} {d : Dialogue Query.Answer ε α}
    {ts : List (Turn Host.Query.Answer)} {o : Outcome ε α} (h : Trace (Host.onChannel p d) ts o) :
    ∃ ts', Trace d ts' o ∧ ts.filterMap (Host.asked? p) = ts'.filterMap Query.asked? := by
  obtain ⟨ts', htalk, rfl⟩ := trace_onChannel_iff.1 h
  refine ⟨ts', htalk, ?_⟩
  rw [List.filterMap_map]
  exact congrArg (List.filterMap · ts') (funext (Host.asked?_onTurn p))

/-- After a part that always comes to an end, what becomes of its result. -/
theorem trace_attempt_bind_iff {Q β : Type} {A : Q → Type} {d : Dialogue A ε α} (hends : d.Ends)
    {f : Except ε α → Dialogue A ε' β} {ts : List (Turn A)} {o : Outcome ε' β} :
    Trace (d.attempt >>= f) ts o ↔
      ∃ r t₁ t₂, Trace d t₁ (.ofExcept r) ∧ Trace (f r) t₂ o ∧ ts = t₁ ++ t₂ := by
  rw [trace_bind_iff]
  constructor
  · rintro (⟨r, t₁, t₂, hattempt, hf, rfl⟩ | ⟨e, hd, rfl⟩ | ⟨hd, rfl⟩)
    · obtain ⟨r', hd, ho⟩ := trace_attempt_iff.1 hattempt
      cases r' with
      | done a =>
        cases ho
        exact ⟨.ok a, t₁, t₂, hd, hf, rfl⟩
      | failed e =>
        cases ho
        exact ⟨.error e, t₁, t₂, hd, hf, rfl⟩
      | exhausted => cases ho
    · obtain ⟨r, -, ho⟩ := trace_attempt_iff.1 hd
      cases r <;> cases ho
    · exact absurd rfl (hends.attempt.of_trace hd)
  · rintro ⟨r, t₁, t₂, hd, hf, rfl⟩
    refine .inl ⟨r, t₁, t₂, trace_attempt_iff.2 ⟨_, hd, ?_⟩, hf, rfl⟩
    cases r <;> rfl

end Layers

namespace Tool

/-- What a job asked on the channel. -/
def asked? (p : Host.ChannelId) : Turn Query.Answer → Option (Turn UsbDfu.Query.Answer)
  | ⟨.host q, answer⟩ => Host.asked? p ⟨q, answer⟩
  | _ => none

/-- What is printed asks nothing on a channel. -/
theorem asked_print {ε : Type} (p : Host.ChannelId) {printed : Printed}
    {ts : List (Turn Query.Answer)} {o : Outcome ε Unit} (h : Trace (print printed) ts o) :
    ts.filterMap (asked? p) = [] := by
  have hprint : (print printed : Dialogue Query.Answer ε Unit).Within
      (fun q => ∀ answer, asked? p ⟨q, answer⟩ = none) fun _ => True := by
    refine Within.unless_bind ⟨fun _ => rfl, fun _ => trivial⟩
      (Within.unless_bind ⟨fun _ => rfl, fun _ => trivial⟩ ?_)
    cases printed.log with
    | none => trivial
    | some line => exact ⟨fun _ => rfl, fun _ => trivial⟩
  exact List.filterMap_eq_nil_iff.2 fun t ht => (hprint.of_trace h).1 t ht t.answer

/-- A question of a host is passed on, unless it is a report. -/
theorem asked_listen {ε : Type} (p : Host.ChannelId) {q : Host.Query} {c c' : Console}
    {ts : List (Turn Query.Answer)} {answer : q.Answer}
    (h : Trace (listen q c : Dialogue Query.Answer ε (q.Answer × Console)) ts (.done (answer, c'))) :
    ts.filterMap (asked? p) = (Host.asked? p ⟨q, answer⟩).toList := by
  have hpass : ∀ (q : Host.Query) (answer : q.Answer) (ts : List (Turn Query.Answer)),
      Trace (.ask (.host q) fun answer => .done (answer, c) :
        Dialogue Query.Answer ε (q.Answer × Console)) ts (.done (answer, c')) →
      ts.filterMap (asked? p) = (Host.asked? p ⟨q, answer⟩).toList := by
    intro q answer ts h
    obtain ⟨answer', rest, rfl, hrest⟩ := trace_ask_iff.1 h
    obtain ⟨rfl, ho⟩ := trace_done_iff.1 hrest
    cases ho
    cases hasked : Host.asked? p ⟨q, answer⟩ <;> simp [asked?, hasked]
  cases q with
  | devices | attach | abandon | log => exact hpass _ answer ts h
  | on p' q =>
    cases q with
    | call | log | logTakes | news | departure => exact hpass _ answer ts h
    | report r =>
      obtain ⟨u, t₁, t₂, hprint, hend, rfl⟩ := trace_bind_done_iff.1 h
      obtain ⟨rfl, -⟩ := trace_done_iff.1 hend
      rw [List.append_nil, asked_print p hprint, Host.asked?]
      split <;> rfl

/-- A desk's conversation with its session. -/
theorem trace_converse {α : Type} {desk desk' : Desk} {talk : Talk α}
    {ts : List (Turn Query.Answer)} {a : α}
    (h : Trace (desk.converse talk) ts (.done (a, desk'))) :
    desk'.connected = desk.connected ∧ ∃ ts', Trace talk ts' (.done a) ∧
      ts.filterMap (asked? desk.connected.channel) = ts'.filterMap UsbDfu.Query.asked? := by
  obtain ⟨⟨r, console⟩, t₁, t₂, hrelay, hpair, rfl⟩ := trace_bind_done_iff.1 h
  cases r with
  | error e => exact e.elim
  | ok a' =>
    obtain ⟨rfl, ho⟩ := trace_done_iff.1 hpair
    cases ho
    obtain ⟨t, hchannel, hhost⟩ := trace_of_relay (fun _ _ _ _ _ => asked_listen _) hrelay
    obtain ⟨ts', htalk, hasked⟩ := trace_of_onChannel hchannel
    exact ⟨rfl, ts', htalk, by rw [List.append_nil, hhost, hasked]⟩

/-- A desk works on a session that was connected. What was asked on its channel before is not the
session's. -/
theorem trace_connect {label : String} {filter : DeviceFilter} {options : SessionOptions}
    {ts : List (Turn Query.Answer)} {desk : Desk}
    (h : Trace (connect label filter options) ts (.done desk)) :
    ∃ found id device ts', Trace (Session.connect id device options) ts'
        (.done desk.connected.session) ∧
      ts.filterMap (asked? desk.connected.channel) = found ++ ts'.filterMap UsbDfu.Query.asked? := by
  obtain ⟨⟨r, console⟩, t₁, t₂, hrelay, hdesk, rfl⟩ := trace_bind_done_iff.1 h
  cases r with
  | error e => cases (trace_fail_iff.1 hdesk).2
  | ok connected =>
    obtain ⟨rfl, ho⟩ := trace_done_iff.1 hdesk
    cases ho
    obtain ⟨ts', honly, hhost⟩ :=
      trace_of_relay (fun _ _ _ _ _ => asked_listen connected.channel) hrelay
    obtain ⟨found, t₃, t₄, -, hfound, rfl⟩ := trace_bind_done_iff.1 honly
    -- only one device is connected to, so the search before was not about this session
    match found with
    | [] => cases (trace_fail_iff.1 hfound).2
    | _ :: _ :: _ => cases (trace_fail_iff.1 hfound).2
    | [only] =>
      obtain ⟨session, t₅, t₆, hsession, hend, rfl⟩ := trace_bind_done_iff.1 hfound
      obtain ⟨rfl, ho⟩ := trace_done_iff.1 hend
      cases ho
      obtain ⟨ts'', hconnect, hasked⟩ := trace_of_onChannel hsession
      refine ⟨t₃.filterMap (Host.asked? only.channel), _, _, ts'', hconnect, ?_⟩
      rw [List.append_nil, hhost, List.append_nil, List.filterMap_append, hasked]

/-- The result of a desk is that of its session, which is closed after that. -/
theorem trace_finish {α : Type} {desk : Desk} {ts : List (Turn Query.Answer)} {a : α}
    {operation : Session → Talk (Except Failure α × Session)}
    (h : Trace (desk.finish operation) ts (.done a)) :
    ∃ ts' s, Trace (operation desk.connected.session) ts' (.done (.ok a, s)) ∧
      ts.filterMap (asked? desk.connected.channel) =
        ts'.filterMap UsbDfu.Query.asked? ++ [⟨.call .close, ()⟩] := by
  obtain ⟨⟨⟨result, s⟩, desk'⟩, t₁, t₂, hconverse, hrest, rfl⟩ := trace_bind_done_iff.1 h
  obtain ⟨u, t₃, t₄, hclose, hresult, rfl⟩ := trace_bind_done_iff.1 hrest
  obtain ⟨⟨u', desk''⟩, t₅, t₆, hclosed, hprint, rfl⟩ := trace_bind_done_iff.1 hclose
  obtain ⟨hsame, ts', htalk, hasked⟩ := trace_converse hconverse
  obtain ⟨-, ts'', hend, hlast⟩ := trace_converse hclosed
  obtain ⟨answer, rest, rfl, hnil⟩ := trace_ask_iff.1 hend
  obtain ⟨rfl, -⟩ := trace_done_iff.1 hnil
  -- a job that ends well ends with the result of the operation, and asks nothing after the closing
  obtain ⟨rfl, rfl⟩ : t₄ = [] ∧ result = .ok a := by
    cases result with
    | error e => cases (trace_fail_iff.1 hresult).2
    | ok a' =>
      obtain ⟨rfl, ho⟩ := trace_done_iff.1 hresult
      cases ho
      exact ⟨rfl, rfl⟩
  rw [hsame] at hlast
  refine ⟨ts', s, htalk, ?_⟩
  rw [List.append_nil, List.filterMap_append, List.filterMap_append, hasked, hlast,
    asked_print _ hprint, List.append_nil]
  rfl

end Tool

end UsbDfu
