import UsbDfu.Proofs.Transaction

/-!
# Deliveries

A block is delivered in three moves: it is sent, the status is asked for until the device has
settled, and a verdict is passed on what came of it. Every download is a list of deliveries, each
begun only when the one before it went well.

- `Polled accept ws r`: what a wait for the states `accept` can look like.
- `Delivered j ws o`, `DeliveredAll js ws o`: the same for one delivery and for a list of them.
- `DeliveredAll.downloads_prefix`, `DeliveredAll.downloads_eq`: the blocks sent are a prefix of
  the list, and all of it on success.
- `DeliveredAll.cut`: when a block is sent, every delivery before it went well.
- `Delivers d js a`: the exchange `d` carries out the deliveries `js` and gives `a`; `Delivers.bind`
  puts exchanges one after another.
-/

namespace UsbDfu

open Dialogue

/-- An element that no element of `l` is like, comes after all of `l`. -/
theorem split_beyond {α : Type} {p : α → Prop} {l l' pre post : List α} {a : α}
    (hl : ∀ b ∈ l, p b) (ha : ¬ p a) (h : pre ++ a :: post = l ++ l') :
    ∃ mid, pre = l ++ mid ∧ l' = mid ++ a :: post := by
  rcases List.append_eq_append_iff.1 h with ⟨mid, hm, hl'⟩ | ⟨mid, rfl, hl'⟩
  · cases mid with
    | nil => exact ⟨[], by rw [hm, List.append_nil, List.append_nil], hl'.symm⟩
    | cons b mid =>
      obtain ⟨rfl, -⟩ := List.cons.inj hl'
      exact absurd (hl a (by simp [hm])) ha
  · exact ⟨mid, rfl, hl'⟩

/-! ## Waits -/

/-- The statuses read while waiting for an accepted state or the error state, and the end of it. -/
inductive Polled (accept : State → Bool) : List Transaction → Outcome Failure Status → Prop where
  | failed (e : Failure) : Polled accept [.status (.error e)] (.failed e)
  | settled {s : Status} (h : accept s.state = true ∨ s.state = .error) :
      Polled accept [.status (.ok s)] (.done s)
  /-- The host lost its patience. -/
  | exhausted {s : Status} (h : accept s.state = false) (hne : s.state ≠ .error) :
      Polled accept [.status (.ok s)] .exhausted
  | again {s : Status} {ws : List Transaction} {r : Outcome Failure Status}
      (h : accept s.state = false) (hne : s.state ≠ .error) (rest : Polled accept ws r) :
      Polled accept (.status (.ok s) :: ws) r

namespace Polled

variable {accept : State → Bool} {ws : List Transaction} {r : Outcome Failure Status}

theorem isStatus (h : Polled accept ws r) : ∀ w ∈ ws, w.isStatus = true := by
  induction h with
  | failed | settled | exhausted => simp
  | again _ _ _ ih => simpa using ih

/-- A wait ends with the answer read last, unless the host lost its patience. -/
theorem eq_concat (h : Polled accept ws r) :
    ∃ init reply, ws = init ++ [.status reply] ∧ (∀ s, r = .done s → reply = .ok s) ∧
      ∀ e, r = .failed e → reply = .error e := by
  induction h with
  | failed e =>
    exact ⟨[], .error e, rfl, fun _ h => (nomatch h), fun _ h => congrArg _ (Outcome.failed.inj h)⟩
  | @settled s _ =>
    exact ⟨[], .ok s, rfl, fun _ h => congrArg _ (Outcome.done.inj h), fun _ h => (nomatch h)⟩
  | @exhausted s _ _ => exact ⟨[], .ok s, rfl, fun _ h => (nomatch h), fun _ h => (nomatch h)⟩
  | again _ _ _ ih =>
    obtain ⟨init, reply, rfl, hr⟩ := ih
    exact ⟨_ :: init, reply, rfl, hr⟩

/-- A wait that accepts every state asks once. -/
theorem eq_singleton (ha : ∀ s, accept s = true) (h : Polled accept ws r) :
    ∃ reply, ws = [.status reply] := by
  cases h with
  | failed e => exact ⟨_, rfl⟩
  | settled _ => exact ⟨_, rfl⟩
  | exhausted h _ | again h _ _ => simp [ha] at h

/-- A wait that ends with a status ends in an accepted state or in the error state. -/
theorem accepted {s : Status} (h : Polled accept ws (.done s)) :
    accept s.state = true ∨ s.state = .error := by
  generalize hr : Outcome.done s = r at h
  induction h with
  | failed | exhausted => cases hr
  | settled h => cases hr; exact h
  | again _ _ _ ih => exact ih hr

/-- The error state ends a wait, whatever was waited for. -/
theorem eq_done_of_error {pre post : List Transaction} {s : Status} (hs : s.state = .error)
    (h : Polled accept (pre ++ .status (.ok s) :: post) r) : post = [] ∧ r = .done s := by
  generalize hw : pre ++ .status (.ok s) :: post = ws at h
  -- the wait goes on only after a status that is not the error state
  induction h generalizing pre with
  | failed e => simp [List.append_eq_singleton_iff] at hw
  | @settled s' _ =>
    obtain ⟨-, rfl, rfl⟩ : pre = [] ∧ s = s' ∧ post = [] := by
      simpa [List.append_eq_singleton_iff] using hw
    exact ⟨rfl, rfl⟩
  | @exhausted s' _ hne =>
    obtain ⟨-, rfl, -⟩ : pre = [] ∧ s = s' ∧ post = [] := by
      simpa [List.append_eq_singleton_iff] using hw
    exact absurd hs hne
  | @again s' ws r _ hne _ ih =>
    cases pre with
    | nil =>
      cases hw
      exact absurd hs hne
    | cons w pre => exact ih (List.cons.inj hw).2

/-- A wait that could not read a status ends with the cause of that. -/
theorem eq_failed_of_mem {e : Failure} (h : Polled accept ws r) (he : .status (.error e) ∈ ws) :
    r = .failed e := by
  induction h with
  | failed => simpa [eq_comm] using he
  | settled | exhausted => simp at he
  | again _ _ _ ih => exact ih (by simpa using he)

end Polled

theorem downloads_eq_nil_of_isStatus {ws : List Transaction} (h : ∀ w ∈ ws, w.isStatus = true) :
    downloads ws = [] := by
  refine List.filterMap_eq_nil_iff.2 fun w hw => ?_
  have hs := h w hw
  cases w with
  | download => cases hs
  | _ => rfl

section Waits

variable {c : Connection} {accept : State → Bool} {ws : List Transaction} {r : Outcome Failure Status}

private theorem polled_pollFrom {rounds : Nat} {s : Status}
    (h : Transacts (c.pollFrom accept rounds s) ws r) : Polled accept (.status (.ok s) :: ws) r := by
  -- the status that a round looks at was read before it, so it stands at the head of its calls
  induction rounds generalizing s ws with
  | zero =>
    unfold Connection.pollFrom at h
    split at h
    · rename_i hs
      obtain ⟨rfl, rfl⟩ := transacts_done_iff.1 h
      exact .settled (by simpa using hs)
    · rename_i hs
      simp only [Bool.or_eq_true, decide_eq_true_eq, not_or, Bool.not_eq_true] at hs
      obtain ⟨rfl, rfl⟩ := transacts_exhausted_iff.1 h
      exact .exhausted hs.1 hs.2
  | succ rounds ih =>
    unfold Connection.pollFrom at h
    split at h
    · rename_i hs
      obtain ⟨rfl, rfl⟩ := transacts_done_iff.1 h
      exact .settled (by simpa using hs)
    · rename_i hs
      simp only [Bool.or_eq_true, decide_eq_true_eq, not_or, Bool.not_eq_true] at hs
      simp only [transacts_note_bind] at h
      obtain ⟨_, w₁, w₂, h₁, h₂, rfl⟩ := transacts_bind_iff.1 h
      obtain ⟨reply, rfl, rfl⟩ := transacts_getStatus h₁
      cases reply with
      | ok s' => exact .again hs.1 hs.2 (ih h₂)
      | error e =>
        obtain ⟨rfl, rfl⟩ := transacts_fail_iff.1 h₂
        exact .again hs.1 hs.2 (.failed e)

theorem polled_pollUntil (h : Transacts (c.pollUntil accept) ws r) : Polled accept ws r := by
  obtain ⟨_, w₁, w₂, h₁, h₂, rfl⟩ := transacts_bind_iff.1 h
  obtain ⟨reply, rfl, rfl⟩ := transacts_getStatus h₁
  cases reply with
  | ok s => exact polled_pollFrom h₂
  | error e =>
    obtain ⟨rfl, rfl⟩ := transacts_fail_iff.1 h₂
    exact .failed e

end Waits

/-! ## One delivery -/

/-- A block to be sent, and what is made of the device's answers. -/
structure Delivery where
  block : UInt16
  data : Bytes
  /-- The states that end the wait after it. -/
  accept : State → Bool
  /-- The judgement when so many bytes were taken and the wait ended so. -/
  verdict : Nat → Except Failure Status → Except Failure Unit

/-- How the delivery ends when so many bytes were taken and the wait ended so. -/
def Delivery.judge (j : Delivery) (taken : Nat) : Outcome Failure Status → Outcome Failure Unit
  | .done s => .ofExcept (j.verdict taken (.ok s))
  | .failed e => .ofExcept (j.verdict taken (.error e))
  | .exhausted => .exhausted

/-- The calls of one delivery and its end. -/
inductive Delivered (j : Delivery) : List Transaction → Outcome Failure Unit → Prop where
  | refused (e : TransportError) :
      Delivered j [.download j.block j.data (.error e)] (.failed (.transport e))
  | judged {polls : List Transaction} {r : Outcome Failure Status} (taken : Nat)
      (h : Polled j.accept polls r) :
      Delivered j (.download j.block j.data (.ok taken) :: polls) (j.judge taken r)

namespace Delivered

variable {j : Delivery} {ws : List Transaction} {o : Outcome Failure Unit}

/-- One block is sent, then only the status is asked for. -/
theorem eq_cons (h : Delivered j ws o) :
    ∃ reply polls, ws = .download j.block j.data reply :: polls ∧
      ∀ w ∈ polls, w.isStatus = true := by
  cases h with
  | refused e => exact ⟨_, [], rfl, by simp⟩
  | judged taken h => exact ⟨_, _, rfl, h.isStatus⟩

theorem downloads_eq (h : Delivered j ws o) : downloads ws = [(j.block, j.data)] := by
  obtain ⟨reply, polls, rfl, hp⟩ := h.eq_cons
  rw [downloads_download, downloads_eq_nil_of_isStatus hp]

theorem isReset_eq_false (h : Delivered j ws o) : ∀ w ∈ ws, w.isReset = false := by
  obtain ⟨reply, polls, rfl, hp⟩ := h.eq_cons
  exact List.forall_mem_cons.2 ⟨rfl, fun w hw => Transaction.isReset_of_isStatus (hp w hw)⟩

/-- The wait and the judgement after a block that was sent. -/
theorem judged_of_cons {reply : Except TransportError Nat} {polls : List Transaction}
    (h : Delivered j (.download j.block j.data reply :: polls) o) :
    (∃ e, reply = .error e ∧ polls = [] ∧ o = .failed (.transport e)) ∨
      ∃ taken r, reply = .ok taken ∧ Polled j.accept polls r ∧ o = j.judge taken r := by
  cases h with
  | refused e => exact .inl ⟨e, rfl, rfl, rfl⟩
  | judged taken hp => exact .inr ⟨taken, _, rfl, hp, rfl⟩

/-- If a wait has to succeed, a delivery that went well got an answer and a status, and was judged
by them. -/
theorem settled_of_done {reply : Except TransportError Nat} {polls : List Transaction}
    (he : ∀ taken e, j.verdict taken (.error e) = .error e)
    (h : Delivered j (.download j.block j.data reply :: polls) (.done ())) :
    ∃ taken s, reply = .ok taken ∧ Polled j.accept polls (.done s) ∧
      j.verdict taken (.ok s) = .ok () := by
  rcases h.judged_of_cons with ⟨e, -, -, ho⟩ | ⟨taken, r, rfl, hp, ho⟩
  · cases ho
  · cases r with
    | exhausted => cases ho
    | failed e =>
      rw [Delivery.judge, he] at ho
      cases ho
    | done s =>
      refine ⟨taken, s, rfl, hp, ?_⟩
      rw [Delivery.judge] at ho
      cases hv : j.verdict taken (.ok s) with
      | ok u => rfl
      | error e =>
        rw [hv] at ho
        cases ho

/-- A delivery that went well although the error state was read, was judged by that status. -/
theorem verdict_of_error {reply : Except TransportError Nat} {polls post : List Transaction}
    {s : Status} (hs : s.state = .error)
    (h : Delivered j (.download j.block j.data reply :: (polls ++ .status (.ok s) :: post))
      (.done ())) : ∃ taken, j.verdict taken (.ok s) = .ok () := by
  rcases h.judged_of_cons with ⟨e, -, hp, -⟩ | ⟨taken, r, -, hp, ho⟩
  · simp at hp
  · obtain ⟨-, rfl⟩ := hp.eq_done_of_error hs
    refine ⟨taken, ?_⟩
    rw [Delivery.judge] at ho
    cases hv : j.verdict taken (.ok s) with
    | ok u => rfl
    | error e =>
      rw [hv] at ho
      cases ho

/-- A block that is sent, and then waited for and judged, is a delivery. -/
theorem of_download {c : Connection} {g : Nat → Exchange Unit}
    (hg : ∀ taken ws o, Transacts (g taken) ws o →
      ∃ r, Polled j.accept ws r ∧ o = j.judge taken r)
    (h : Transacts (c.download j.block j.data >>= g) ws o) : Delivered j ws o := by
  obtain ⟨_, w₁, w₂, h₁, h₂, rfl⟩ := transacts_bind_iff.1 h
  obtain ⟨reply, rfl, rfl⟩ := transacts_download h₁
  cases reply with
  | error e =>
    obtain ⟨rfl, rfl⟩ := transacts_fail_iff.1 h₂
    exact .refused e
  | ok taken =>
    obtain ⟨r, hp, rfl⟩ := hg taken _ _ h₂
    exact .judged taken hp

end Delivered

/-- A wait whose failure is the failure of the delivery. -/
theorem polled_judge {j : Delivery} {c : Connection} {taken : Nat} {f : Status → Exchange Unit}
    {ws : List Transaction} {o : Outcome Failure Unit}
    (he : ∀ e, j.verdict taken (.error e) = .error e)
    (hf : ∀ s ws o, Transacts (f s) ws o → ws = [] ∧ o = .ofExcept (j.verdict taken (.ok s)))
    (h : Transacts (c.pollUntil j.accept >>= f) ws o) :
    ∃ r, Polled j.accept ws r ∧ o = j.judge taken r := by
  obtain ⟨r, w₁, w₂, h₁, h₂, rfl⟩ := transacts_bind_iff.1 h
  suffices hs : w₂ = [] ∧ o = j.judge taken r by
    obtain ⟨rfl, rfl⟩ := hs
    exact ⟨r, by simpa using polled_pollUntil h₁, rfl⟩
  cases r with
  | done s => exact hf s _ _ h₂
  | failed e =>
    rw [Delivery.judge, he]
    exact transacts_fail_iff.1 h₂
  | exhausted => exact transacts_exhausted_iff.1 h₂

/-- A wait whatever comes of it. -/
theorem polled_attempt_judge {j : Delivery} {d : Exchange Status} {taken : Nat}
    {f : Except Failure Status → Exchange Unit} {ws : List Transaction} {o : Outcome Failure Unit}
    (hd : ∀ ws r, Transacts d ws r → Polled j.accept ws r)
    (hf : ∀ r ws o, Transacts (f r) ws o → ws = [] ∧ o = .ofExcept (j.verdict taken r))
    (h : Transacts (d.attempt >>= f) ws o) : ∃ r, Polled j.accept ws r ∧ o = j.judge taken r := by
  obtain ⟨_, w₁, w₂, h₁, h₂, rfl⟩ := transacts_bind_iff.1 h
  obtain ⟨r, hr, rfl⟩ := transacts_attempt h₁
  suffices hs : w₂ = [] ∧ o = j.judge taken r by
    obtain ⟨rfl, rfl⟩ := hs
    exact ⟨r, by simpa using hd _ _ hr, rfl⟩
  cases r with
  | done s => exact hf _ _ _ h₂
  | failed e => exact hf _ _ _ h₂
  | exhausted => exact transacts_exhausted_iff.1 h₂

/-! ## A list of deliveries -/

/-- The calls of deliveries made one after another, until one of them does not go well. -/
inductive DeliveredAll : List Delivery → List Transaction → Outcome Failure Unit → Prop where
  | nil : DeliveredAll [] [] (.done ())
  | stop {j : Delivery} {js : List Delivery} {ws : List Transaction} {o : Outcome Failure Unit}
      (h : Delivered j ws o) (ho : o ≠ .done ()) : DeliveredAll (j :: js) ws o
  | next {j : Delivery} {js : List Delivery} {ws ws' : List Transaction} {o : Outcome Failure Unit}
      (h : Delivered j ws (.done ())) (rest : DeliveredAll js ws' o) :
      DeliveredAll (j :: js) (ws ++ ws') o

namespace DeliveredAll

variable {j : Delivery} {js js' : List Delivery} {ws ws' : List Transaction}
  {o : Outcome Failure Unit}

theorem single (h : Delivered j ws o) : DeliveredAll [j] ws o := by
  by_cases ho : o = .done ()
  · subst ho
    rw [← List.append_nil ws]
    exact .next h .nil
  · exact .stop h ho

theorem append (h : DeliveredAll js ws (.done ())) (h' : DeliveredAll js' ws' o) :
    DeliveredAll (js ++ js') (ws ++ ws') o := by
  generalize hd : Outcome.done () = d at h
  induction h with
  | nil => exact h'
  | stop h ho => exact absurd hd.symm ho
  | next h _ ih =>
    rw [List.append_assoc]
    exact .next h (ih hd)

/-- After a delivery that did not go well nothing more is sent. -/
theorem append_of_ne (h : DeliveredAll js ws o) (ho : o ≠ .done ()) :
    DeliveredAll (js ++ js') ws o := by
  induction h with
  | nil => exact absurd rfl ho
  | stop h ho => exact .stop h ho
  | next h _ ih => exact .next h (ih ho)

/-- The blocks that are sent, are sent in the order of the list. -/
theorem downloads_prefix (h : DeliveredAll js ws o) :
    downloads ws <+: js.map fun j => (j.block, j.data) := by
  induction h with
  | nil => exact List.prefix_rfl
  | stop h _ =>
    rw [h.downloads_eq]
    exact List.prefix_cons_iff.2 (.inr ⟨[], rfl, List.nil_prefix⟩)
  | next h _ ih =>
    rw [downloads_append, h.downloads_eq]
    exact (List.prefix_cons_inj _).2 ih

/-- If all went well, all blocks were sent. -/
theorem downloads_eq (h : DeliveredAll js ws (.done ())) :
    downloads ws = js.map fun j => (j.block, j.data) := by
  generalize hd : Outcome.done () = d at h
  induction h with
  | nil => rfl
  | stop _ ho => exact absurd hd.symm ho
  | next h _ ih => rw [downloads_append, h.downloads_eq, ih hd]; rfl

/-- A delivery does not reset the device. -/
theorem isReset_eq_false (h : DeliveredAll js ws o) : ∀ w ∈ ws, w.isReset = false := by
  induction h with
  | nil => simp
  | stop h _ => exact h.isReset_eq_false
  | next h _ ih => exact List.forall_mem_append.2 ⟨h.isReset_eq_false, ih⟩

/-- When a block is sent, all deliveries before it in the list went well; the wait for it follows,
and then, if that went well, the deliveries after it. -/
theorem cut {pre post : List Transaction} {block : UInt16} {data : Bytes}
    {reply : Except TransportError Nat}
    (h : DeliveredAll js (pre ++ .download block data reply :: post) o) :
    ∃ js₁ j js₂ polls rest r, js = js₁ ++ j :: js₂ ∧ j.block = block ∧ j.data = data ∧
      DeliveredAll js₁ pre (.done ()) ∧ post = polls ++ rest ∧
      Delivered j (.download block data reply :: polls) r ∧
      ((r ≠ .done () ∧ rest = [] ∧ o = r) ∨ (r = .done () ∧ DeliveredAll js₂ rest o)) := by
  generalize hw : pre ++ .download block data reply :: post = ws at h
  -- only the first call of a delivery sends a block, so this one is it or comes after the polls
  induction h generalizing pre with
  | nil => simp at hw
  | @stop j js ws o h ho =>
    obtain ⟨reply', polls, rfl, hp⟩ := h.eq_cons
    cases pre with
    | nil =>
      cases hw
      exact ⟨[], j, js, post, [], o, rfl, rfl, rfl, .nil, (List.append_nil post).symm, h,
        .inl ⟨ho, rfl, rfl⟩⟩
    | cons v pre =>
      obtain ⟨rfl, hv⟩ := List.cons.inj hw
      obtain ⟨mid, -, hm⟩ := split_beyond hp (by simp) (hv.trans (List.append_nil polls).symm)
      simp at hm
  | @next j js ws ws' o h hr ih =>
    obtain ⟨reply', polls, rfl, hp⟩ := h.eq_cons
    cases pre with
    | nil =>
      cases hw
      exact ⟨[], j, js, polls, ws', .done (), rfl, rfl, rfl, .nil, rfl, h, .inr ⟨rfl, hr⟩⟩
    | cons v pre =>
      obtain ⟨rfl, hv⟩ := List.cons.inj hw
      obtain ⟨mid, rfl, rfl⟩ := split_beyond hp (by simp) hv
      obtain ⟨js₁, k, js₂, polls', rest, r, rfl, hb, hd, hpre, hk⟩ := ih rfl
      exact ⟨j :: js₁, k, js₂, polls', rest, r, rfl, hb, hd, .next h hpre, hk⟩

/-- Deliveries begin with a block that is sent. -/
theorem eq_cons (h : DeliveredAll (j :: js) ws o) :
    ∃ reply rest, ws = .download j.block j.data reply :: rest := by
  cases h with
  | stop h _ =>
    obtain ⟨reply, polls, rfl, -⟩ := h.eq_cons
    exact ⟨reply, polls, rfl⟩
  | next h _ =>
    obtain ⟨reply, polls, rfl, -⟩ := h.eq_cons
    exact ⟨reply, _, rfl⟩

/-- A block that another one follows was delivered well, and the next delivery begins as soon as
the wait for it is over. -/
theorem cut_of_downloads {pre post : List Transaction} {block : UInt16} {data : Bytes}
    {reply : Except TransportError Nat}
    (h : DeliveredAll js (pre ++ .download block data reply :: post) o) (hp : downloads post ≠ []) :
    ∃ js₁ j k js₂ polls rest, js = js₁ ++ j :: k :: js₂ ∧ j.block = block ∧ j.data = data ∧
      post = polls ++ rest ∧ Delivered j (.download block data reply :: polls) (.done ()) ∧
      DeliveredAll (k :: js₂) rest o := by
  obtain ⟨js₁, j, js₂, polls, rest, r, hjs, rfl, rfl, -, rfl, hj, hr⟩ := h.cut
  have hpolls : downloads polls = [] := by
    have := hj.downloads_eq
    simpa using this
  rcases hr with ⟨-, rfl, -⟩ | ⟨rfl, hr⟩
  · simp [hpolls] at hp
  · cases js₂ with
    | nil =>
      cases hr
      simp [hpolls] at hp
    | cons k js₂ => exact ⟨js₁, j, k, js₂, polls, rest, hjs, rfl, rfl, rfl, hj, hr⟩

/-- In deliveries that all went well, a status was read in the wait of one of them, after its block
and before any other. -/
theorem exists_waited {pre post : List Transaction} {read : Except Failure Status}
    (h : DeliveredAll js (pre ++ .status read :: post) (.done ())) :
    ∃ j ∈ js, ∃ before reply polls polls', pre = before ++ .download j.block j.data reply :: polls ∧
      (∀ w ∈ polls, w.isStatus = true) ∧
      Delivered j (.download j.block j.data reply :: (polls ++ .status read :: polls'))
        (.done ()) := by
  generalize hd : Outcome.done () = d at h
  generalize hw : pre ++ .status read :: post = ws at h
  induction h generalizing pre with
  | nil => simp at hw
  | stop _ ho => exact absurd hd.symm ho
  | @next j js ws ws' o h _ ih =>
    rcases List.append_eq_append_iff.1 hw with ⟨mid, hm, hpost⟩ | ⟨mid, rfl, hpost⟩
    · obtain ⟨reply, polls, hws, hp⟩ := h.eq_cons
      cases mid with
      | nil =>
        -- the next delivery would begin with a status
        have hnext : [] ++ .status read :: post = ws' := hpost
        obtain ⟨_, _, _, _, _, _, hnil, -⟩ := ih hd hnext
        simp at hnil
      | cons w mid =>
        obtain ⟨rfl, -⟩ := List.cons.inj hpost
        rw [hm] at hws h
        cases pre with
        | nil => cases (List.cons.inj hws).1
        | cons v pre =>
          obtain ⟨rfl, rfl⟩ := List.cons.inj hws
          exact ⟨j, List.mem_cons_self, [], reply, pre, mid, rfl,
            fun w hw => hp w (List.mem_append_left _ hw), hd ▸ h⟩
    · obtain ⟨k, hk, before, reply, polls, polls', rfl, hp, hj⟩ := ih hd hpost.symm
      exact ⟨k, List.mem_cons_of_mem _ hk, ws ++ before, reply, polls, polls',
        (List.append_assoc ..).symm, hp, hj⟩

/-- In deliveries that all went well, each one can be found. -/
theorem exists_delivered (h : DeliveredAll js ws (.done ())) (hj : j ∈ js) :
    ∃ before calls after, ws = before ++ calls ++ after ∧ Delivered j calls (.done ()) := by
  generalize hd : Outcome.done () = d at h
  induction h with
  | nil => cases hj
  | stop _ ho => exact absurd hd.symm ho
  | @next k js ws ws' o h _ ih =>
    rcases List.mem_cons.1 hj with rfl | hj
    · exact ⟨[], ws, ws', rfl, hd ▸ h⟩
    · obtain ⟨before, calls, after, rfl, hc⟩ := ih hj hd
      exact ⟨ws ++ before, calls, after, by simp, hc⟩

end DeliveredAll

/-! ## Exchanges that deliver -/

/-- The exchange carries out the deliveries, and its value is `a` when all of them went well. -/
def Delivers {α : Type} (d : Exchange α) (js : List Delivery) (a : α) : Prop :=
  ∀ ws o, Transacts d ws o → ∃ o', DeliveredAll js ws o' ∧ o = o'.map fun _ => a

namespace Delivers

variable {α β : Type} {js js' : List Delivery} {a : α} {b : β}

theorem done (a : α) : Delivers (.done a) [] a := by
  intro ws o h
  obtain ⟨rfl, rfl⟩ := transacts_done_iff.1 h
  exact ⟨_, .nil, rfl⟩

theorem bind {d : Exchange α} {f : α → Exchange β} (hd : Delivers d js a)
    (hf : Delivers (f a) js' b) : Delivers (d >>= f) (js ++ js') b := by
  intro ws o h
  obtain ⟨_, w₁, w₂, h₁, h₂, rfl⟩ := transacts_bind_iff.1 h
  obtain ⟨r, hr, rfl⟩ := hd _ _ h₁
  rcases transacts_silent_bind h₂ with ⟨rfl, h₂⟩ | ⟨hne, rfl, ho⟩
  · obtain ⟨o', ho, rfl⟩ := hf _ _ h₂
    exact ⟨o', hr.append ho, rfl⟩
  · exact ⟨r, by simpa using hr.append_of_ne hne, ho b⟩

theorem cons {d : Exchange α} {j : Delivery} {f : α → Exchange β} (hd : Delivers d [j] a)
    (hf : Delivers (f a) js b) : Delivers (d >>= f) (j :: js) b :=
  hd.bind hf

theorem say_bind {level : Level} {text : String} {f : Unit → Exchange β}
    (h : Delivers (f ()) js b) : Delivers (Exchange.say level text >>= f) js b :=
  fun ws o ht => h ws o (transacts_say_bind.1 ht)

theorem progress_bind {done : Nat} {total : Option Nat} {f : Unit → Exchange β}
    (h : Delivers (f ()) js b) : Delivers (Exchange.progress done total >>= f) js b :=
  fun ws o ht => h ws o (transacts_progress_bind.1 ht)

/-- A block, a wait and a verdict are a delivery. -/
theorem of_delivered {d : Exchange Unit} {j : Delivery}
    (h : ∀ ws o, Transacts d ws o → Delivered j ws o) : Delivers d [j] () :=
  fun ws o ht => ⟨o, .single (h ws o ht), o.map_unit.symm⟩

end Delivers

end UsbDfu
