import UsbDfu.Proofs.Routine

/-!
# Dialogues that move a machine

Much of what a conversation must keep to can be said by a small machine that each turn moves: what is held
after it, how far something has come. A turn is in order if the machine can make it.

- `Moves step s ts s'`: the turns `ts` take the machine from `s` to `s'`, one after another.
- `Dialogue.Drives step R s d`: begun in the state `s`, whatever it is answered, `d` only has turns that
  are in order, and its end and the last state are in `R`. `Drives.moves` says so of each conversation,
  and there is a rule for each way to compose dialogues.
-/

namespace UsbDfu

open Dialogue

variable {Q : Type} {A : Q → Type} {σ ε ε' α β : Type} {step : Turn A → σ → σ → Prop} {s s' s'' : σ}

/-! ## Machines -/

/-- The turns take the machine from the first state to the last. -/
inductive Moves (step : Turn A → σ → σ → Prop) : σ → List (Turn A) → σ → Prop where
  | nil (s : σ) : Moves step s [] s
  | cons {t : Turn A} {ts : List (Turn A)} {s s' s'' : σ} (h : step t s s')
      (rest : Moves step s' ts s'') : Moves step s (t :: ts) s''

theorem moves_nil_iff : Moves step s [] s' ↔ s' = s := by
  constructor
  · rintro ⟨⟩
    rfl
  · rintro rfl
    exact .nil s'

theorem moves_cons_iff {t : Turn A} {ts : List (Turn A)} :
    Moves step s (t :: ts) s'' ↔ ∃ s', step t s s' ∧ Moves step s' ts s'' := by
  constructor
  · rintro ⟨⟩
    exact ⟨_, ‹_›, ‹_›⟩
  · rintro ⟨s', h, rest⟩
    exact .cons h rest

theorem moves_append_iff {t₁ t₂ : List (Turn A)} :
    Moves step s (t₁ ++ t₂) s'' ↔ ∃ s', Moves step s t₁ s' ∧ Moves step s' t₂ s'' := by
  induction t₁ generalizing s with
  | nil => simp only [List.nil_append, moves_nil_iff, exists_eq_left]
  | cons t t₁ ih =>
    simp only [List.cons_append, moves_cons_iff, ih]
    constructor
    · rintro ⟨m, hm, m', h, h'⟩
      exact ⟨m', ⟨m, hm, h⟩, h'⟩
    · rintro ⟨m', ⟨m, hm, h⟩, h'⟩
      exact ⟨m, hm, m', h, h'⟩

/-- What every step keeps holds after all of them. -/
theorem Moves.keeps {Inv : σ → Prop} {ts : List (Turn A)} (h : Moves step s ts s')
    (hstep : ∀ t s s', step t s s' → Inv s → Inv s') (hs : Inv s) : Inv s' := by
  induction h with
  | nil => exact hs
  | cons hmove _ ih => exact ih (hstep _ _ _ hmove hs)

/-- Where no turn moves the machine, each of them is one that it can make where it is. -/
theorem Moves.step_of_stays {ts : List (Turn A)} (h : Moves step s ts s')
    (hstay : ∀ t s', step t s s' → s' = s) : ∀ t ∈ ts, step t s s := by
  induction ts with
  | nil => exact nofun
  | cons t ts ih =>
    obtain ⟨s₁, hstep, hrest⟩ := moves_cons_iff.1 h
    obtain rfl := hstay t s₁ hstep
    exact List.forall_mem_cons.2 ⟨hstep, ih hrest⟩

/-! ## Dialogues -/

namespace Dialogue

/-- Begun in this state, whatever it is answered, the dialogue has turns that the machine can make; its
end and the last state are in `R`. -/
def Drives (step : Turn A → σ → σ → Prop) (R : Outcome ε α → σ → Prop) : σ → Dialogue A ε α → Prop
  | s, .done a => R (.done a) s
  | s, .fail e => R (.failed e) s
  | s, .exhausted => R .exhausted s
  | s, .ask q next => ∀ answer, ∃ s', step ⟨q, answer⟩ s s' ∧ (next answer).Drives step R s'

variable {R : Outcome ε α → σ → Prop}

theorem Drives.moves {d : Dialogue A ε α} {ts : List (Turn A)} {o : Outcome ε α}
    (hd : d.Drives step R s) (ht : Trace d ts o) : ∃ s', Moves step s ts s' ∧ R o s' := by
  induction ht generalizing s with
  | done | fail | exhausted => exact ⟨s, .nil s, hd⟩
  | ask answer _ ih =>
    obtain ⟨s', hstep, hnext⟩ := hd answer
    obtain ⟨s'', hmoves, hend⟩ := ih hnext
    exact ⟨s'', .cons hstep hmoves, hend⟩

theorem Drives.mono {R' : Outcome ε α → σ → Prop} {d : Dialogue A ε α} (hd : d.Drives step R s)
    (hR : ∀ o s, R o s → R' o s) : d.Drives step R' s := by
  induction d generalizing s with
  | done | fail | exhausted => exact hR _ _ hd
  | ask q next ih =>
    intro answer
    obtain ⟨s', hstep, hnext⟩ := hd answer
    exact ⟨s', hstep, ih answer hnext⟩

theorem Drives.bind {S : Outcome ε β → σ → Prop} {d : Dialogue A ε α} {f : α → Dialogue A ε β}
    (hd : d.Drives step R s) (hf : ∀ a s, R (.done a) s → (f a).Drives step S s)
    (he : ∀ e s, R (.failed e) s → S (.failed e) s) (hx : ∀ s, R .exhausted s → S .exhausted s) :
    (d >>= f).Drives step S s := by
  induction d generalizing s with
  | done a => exact hf a s hd
  | fail e => exact he e s hd
  | exhausted => exact hx s hd
  | ask q next ih =>
    intro answer
    obtain ⟨s', hstep, hnext⟩ := hd answer
    exact ⟨s', hstep, ih answer hnext⟩

/-- A part that always ends with a value. -/
theorem Drives.bind_done {T : α → σ → Prop} {S : Outcome ε β → σ → Prop} {d : Dialogue A ε α}
    {f : α → Dialogue A ε β} (hd : d.Drives step (fun o s => ∃ a, o = .done a ∧ T a s) s)
    (hf : ∀ a s, T a s → (f a).Drives step S s) : (d >>= f).Drives step S s := by
  refine hd.bind ?_ ?_ ?_
  · rintro a s ⟨_, ⟨⟩, ha⟩
    exact hf a s ha
  · rintro _ _ ⟨_, ⟨⟩, -⟩
  · rintro _ ⟨_, ⟨⟩, -⟩

/-- A dialogue that goes on with its failures as with its values. -/
theorem Drives.attempt_bind {S : Outcome ε' β → σ → Prop} {d : Dialogue A ε α}
    {f : Except ε α → Dialogue A ε' β} (hd : d.Drives step R s)
    (hf : ∀ a s, R (.done a) s → (f (.ok a)).Drives step S s)
    (he : ∀ e s, R (.failed e) s → (f (.error e)).Drives step S s)
    (hx : ∀ s, R .exhausted s → S .exhausted s) : (d.attempt >>= f).Drives step S s := by
  induction d generalizing s with
  | done a => exact hf a s hd
  | fail e => exact he e s hd
  | exhausted => exact hx s hd
  | ask q next ih =>
    intro answer
    obtain ⟨s', hstep, hnext⟩ := hd answer
    exact ⟨s', hstep, ih answer hnext⟩

/-- A dialogue that asks only what leaves the machine where it is. -/
theorem Within.drives {p : Q → Prop} {T : α → Prop} {d : Dialogue A ε α} (hd : d.Within p T)
    (hp : ∀ q, p q → ∀ answer, step ⟨q, answer⟩ s s) :
    d.Drives step (fun _ s' => s' = s) s := by
  induction d with
  | done | fail | exhausted => rfl
  | ask q next ih => exact fun answer => ⟨s, hp q hd.1 answer, ih answer (hd.2 answer)⟩

end Dialogue
end UsbDfu
