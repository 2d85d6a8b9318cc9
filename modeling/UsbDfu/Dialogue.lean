import UsbDfu.Word

/-!
# Dialogues

A dialogue is a host's side of a conversation: it asks questions one after another, each chosen
by the answers so far, and ends with a value, with a failure, or without either: out of patience, or at
a computation that has no result. It says nothing about who answers, so a fact about a dialogue holds for
every device.

- `Dialogue.run` has a machine answer the questions.
- `Dialogue.Trace` relates a dialogue to the finite conversations it can have; `trace_bind_iff`
  splits the conversation of a composed dialogue.
- `Dialogue.relay` answers each question by a dialogue of another kind.
-/

namespace UsbDfu

/-- How a dialogue ended. -/
inductive Outcome (ε α : Type) where
  | done (a : α)
  | failed (e : ε)
  /-- The host could not go on: its patience was at an end, or a computation had no result. -/
  | exhausted
  deriving DecidableEq, Repr

/-- A conversation that asks questions `q : Q`, gets answers `A q`, and ends with `α` or `ε`. -/
inductive Dialogue {Q : Type} (A : Q → Type) (ε α : Type) where
  | done (a : α)
  | fail (e : ε)
  /-- The host cannot go on; nothing can be concluded. -/
  | exhausted
  | ask (q : Q) (next : A q → Dialogue A ε α)

namespace Dialogue

variable {Q : Type} {A : Q → Type} {ε ε' α β : Type}

/-! ## Composition -/

/-- Goes on with a value; a failure and the loss of patience end the whole. -/
protected def bind : Dialogue A ε α → (α → Dialogue A ε β) → Dialogue A ε β
  | .done a, f => f a
  | .fail e, _ => .fail e
  | .exhausted, _ => .exhausted
  | .ask q next, f => .ask q fun answer => (next answer).bind f

instance : Monad (Dialogue A ε) where
  pure := .done
  bind := Dialogue.bind

/-- Goes on after a failure. -/
protected def tryCatch : Dialogue A ε α → (ε → Dialogue A ε α) → Dialogue A ε α
  | .done a, _ => .done a
  | .fail e, handler => handler e
  | .exhausted, _ => .exhausted
  | .ask q next, handler => .ask q fun answer => (next answer).tryCatch handler

instance : MonadExceptOf ε (Dialogue A ε) where
  throw := .fail
  tryCatch := Dialogue.tryCatch

/-- Turns a failure into a value, so that the dialogue itself cannot fail. -/
def attempt : Dialogue A ε α → Dialogue A ε' (Except ε α)
  | .done a => .done (.ok a)
  | .fail e => .done (.error e)
  | .exhausted => .exhausted
  | .ask q next => .ask q fun answer => (next answer).attempt

/-- Asks one question. -/
def question (q : Q) : Dialogue A ε (A q) :=
  .ask q .done

/-- Ends with the value or the failure. -/
def ofExcept : Except ε α → Dialogue A ε α
  | .ok a => .done a
  | .error e => .fail e

/-- Ends with what was computed. A host whose computation has no result stops for good, and no handler of
its failures is asked. -/
def compute : Checked Empty α → Dialogue A ε α
  | .ok a => .done a
  | .error _ => .exhausted

@[simp] theorem pure_eq (a : α) : (pure a : Dialogue A ε α) = .done a := rfl

@[simp] theorem throw_eq (e : ε) : (throw e : Dialogue A ε α) = .fail e := rfl

@[simp] theorem done_bind (a : α) (f : α → Dialogue A ε β) : (Dialogue.done a >>= f) = f a := rfl

@[simp] theorem fail_bind (e : ε) (f : α → Dialogue A ε β) :
    ((Dialogue.fail e : Dialogue A ε α) >>= f) = .fail e := rfl

@[simp] theorem exhausted_bind (f : α → Dialogue A ε β) :
    ((Dialogue.exhausted : Dialogue A ε α) >>= f) = .exhausted := rfl

@[simp] theorem ask_bind (q : Q) (next : A q → Dialogue A ε α) (f : α → Dialogue A ε β) :
    (Dialogue.ask q next >>= f) = .ask q fun answer => next answer >>= f := rfl

theorem bind_done (d : Dialogue A ε α) : (d >>= Dialogue.done) = d := by
  induction d with
  | done a | fail e | exhausted => rfl
  | ask q next ih => exact congrArg (ask q) (funext ih)

theorem bind_bind {γ : Type} (d : Dialogue A ε α) (f : α → Dialogue A ε β)
    (g : β → Dialogue A ε γ) : (d >>= f >>= g) = (d >>= fun a => f a >>= g) := by
  induction d with
  | done a | fail e | exhausted => rfl
  | ask q next ih => exact congrArg (ask q) (funext ih)

instance : LawfulMonad (Dialogue A ε) :=
  LawfulMonad.mk' _
    (fun d => by
      induction d with
      | done a | fail e | exhausted => rfl
      | ask q next ih => exact congrArg (ask q) (funext ih))
    (fun _ _ => rfl)
    (fun d f g => bind_bind d f g)

/-! ## Conversations -/

/-- One question with its answer. -/
structure Turn (A : Q → Type) where
  question : Q
  answer : A question

/-- The dialogue can have exactly this conversation and end so. -/
inductive Trace : Dialogue A ε α → List (Turn A) → Outcome ε α → Prop where
  | done (a : α) : Trace (.done a) [] (.done a)
  | fail (e : ε) : Trace (.fail e) [] (.failed e)
  | exhausted : Trace .exhausted [] .exhausted
  | ask {q : Q} {next : A q → Dialogue A ε α} {turns : List (Turn A)} {o : Outcome ε α}
      (answer : A q) (h : Trace (next answer) turns o) : Trace (.ask q next) (⟨q, answer⟩ :: turns) o

theorem trace_done_iff {a : α} {ts : List (Turn A)} {o : Outcome ε α} :
    Trace (.done a) ts o ↔ ts = [] ∧ o = .done a := by
  constructor
  · rintro ⟨⟩
    exact ⟨rfl, rfl⟩
  · rintro ⟨rfl, rfl⟩
    exact .done a

theorem trace_fail_iff {e : ε} {ts : List (Turn A)} {o : Outcome ε α} :
    Trace (.fail e) ts o ↔ ts = [] ∧ o = .failed e := by
  constructor
  · rintro ⟨⟩
    exact ⟨rfl, rfl⟩
  · rintro ⟨rfl, rfl⟩
    exact .fail e

theorem trace_exhausted_iff {ts : List (Turn A)} {o : Outcome ε α} :
    Trace .exhausted ts o ↔ ts = [] ∧ o = .exhausted := by
  constructor
  · rintro ⟨⟩
    exact ⟨rfl, rfl⟩
  · rintro ⟨rfl, rfl⟩
    exact .exhausted

theorem trace_ask_iff {q : Q} {next : A q → Dialogue A ε α} {ts : List (Turn A)}
    {o : Outcome ε α} :
    Trace (.ask q next) ts o ↔
      ∃ answer rest, ts = ⟨q, answer⟩ :: rest ∧ Trace (next answer) rest o := by
  constructor
  · rintro ⟨⟩
    exact ⟨_, _, rfl, ‹_›⟩
  · rintro ⟨answer, rest, rfl, h⟩
    exact .ask answer h

/-- The conversation of a composed dialogue is that of its first part, and if that part ends with
a value, that of the second part after it. -/
theorem trace_bind_iff {d : Dialogue A ε α} {f : α → Dialogue A ε β} {ts : List (Turn A)}
    {o : Outcome ε β} :
    Trace (d >>= f) ts o ↔
      (∃ a t₁ t₂, Trace d t₁ (.done a) ∧ Trace (f a) t₂ o ∧ ts = t₁ ++ t₂) ∨
      (∃ e, Trace d ts (.failed e) ∧ o = .failed e) ∨
      (Trace d ts .exhausted ∧ o = .exhausted) := by
  -- on the first part: its first question is the first one of the whole
  induction d generalizing ts with
  | done a =>
    constructor
    · exact fun h => .inl ⟨a, [], ts, .done a, h, rfl⟩
    · rintro (⟨b, _, t₂, ⟨⟩, h, rfl⟩ | ⟨_, ⟨⟩, -⟩ | ⟨⟨⟩, -⟩)
      exact h
  | fail e =>
    constructor
    · rintro ⟨⟩
      exact .inr (.inl ⟨e, .fail e, rfl⟩)
    · rintro (⟨_, _, _, ⟨⟩, -, -⟩ | ⟨_, ⟨⟩, rfl⟩ | ⟨⟨⟩, -⟩)
      exact .fail e
  | exhausted =>
    constructor
    · rintro ⟨⟩
      exact .inr (.inr ⟨.exhausted, rfl⟩)
    · rintro (⟨_, _, _, ⟨⟩, -, -⟩ | ⟨_, ⟨⟩, -⟩ | ⟨⟨⟩, rfl⟩)
      exact .exhausted
  | ask q next ih =>
    simp only [ask_bind, trace_ask_iff, ih]
    constructor
    · rintro ⟨answer, rest, rfl, h⟩
      rcases h with ⟨a, t₁, t₂, h₁, h₂, rfl⟩ | ⟨e, h, rfl⟩ | ⟨h, rfl⟩
      · exact .inl ⟨a, _, t₂, ⟨answer, t₁, rfl, h₁⟩, h₂, rfl⟩
      · exact .inr (.inl ⟨e, ⟨answer, rest, rfl, h⟩, rfl⟩)
      · exact .inr (.inr ⟨⟨answer, rest, rfl, h⟩, rfl⟩)
    · rintro (⟨a, _, t₂, ⟨answer, t₁, rfl, h₁⟩, h₂, rfl⟩ | ⟨e, ⟨answer, rest, rfl, h⟩, rfl⟩ |
        ⟨⟨answer, rest, rfl, h⟩, rfl⟩)
      · exact ⟨answer, t₁ ++ t₂, rfl, .inl ⟨a, t₁, t₂, h₁, h₂, rfl⟩⟩
      · exact ⟨answer, rest, rfl, .inr (.inl ⟨e, h, rfl⟩)⟩
      · exact ⟨answer, rest, rfl, .inr (.inr ⟨h, rfl⟩)⟩

/-! ## Answering -/

/-- Lets a machine answer every question; its state goes on from answer to answer. -/
def run {σ : Type} (serve : (q : Q) → σ → A q × σ) : Dialogue A ε α → σ → Outcome ε α × σ
  | .done a, s => (.done a, s)
  | .fail e, s => (.failed e, s)
  | .exhausted, s => (.exhausted, s)
  | .ask q next, s =>
    match serve q s with
    | (answer, s') => (next answer).run serve s'

/-- Answers every question by a dialogue of another kind, which may keep a state. -/
def relay {Q' : Type} {A' : Q' → Type} {σ : Type}
    (serve : (q : Q) → σ → Dialogue A' ε' (A q × σ)) :
    Dialogue A ε α → σ → Dialogue A' ε' (Except ε α × σ)
  | .done a, s => .done (.ok a, s)
  | .fail e, s => .done (.error e, s)
  | .exhausted, _ => .exhausted
  | .ask q next, s =>
    (serve q s).bind fun (answer, s') => (next answer).relay serve s'

end Dialogue
end UsbDfu
