/-!
# Elements and what came before them

Many rules of a protocol or a format speak of one element and all that came before it: which record
can stand below these ones, which call can follow those. `EachAfter p before xs` says that every
element of `xs` obeys such a rule when `xs` comes after `before`; `eachAfter_cons_iff` and
`eachAfter_append_iff` take it apart along the list. `FirstAfter p before xs x` says that `x` is the
first element that obeys it; `firstAfter_cons_iff` looks for it along the list, and `eachAfter_not_iff` says
that it is missing only where no element obeys the rule. `Since p q xs` is about the last element of a kind
and what came after it; `since_concat_iff` follows it while the list grows.
-/

namespace UsbDfu

variable {α : Type} {p : List α → α → Prop} {before xs ys : List α} {x : α}

/-- Every element obeys the rule after `before` and the elements before it. -/
def EachAfter (p : List α → α → Prop) (before xs : List α) : Prop :=
  ∀ pre x post, xs = pre ++ x :: post → p (before ++ pre) x

theorem eachAfter_nil : EachAfter p before [] := by
  intro pre x post h
  simp at h

theorem eachAfter_cons_iff :
    EachAfter p before (x :: xs) ↔ p before x ∧ EachAfter p (before ++ [x]) xs := by
  constructor
  · intro h
    refine ⟨by simpa using h [] x xs rfl, fun pre y post hy => ?_⟩
    rw [List.append_assoc]
    exact h (x :: pre) y post (congrArg (x :: ·) hy)
  · rintro ⟨hx, hxs⟩ pre y post hy
    cases pre with
    | nil =>
      obtain ⟨rfl, -⟩ := List.cons.inj hy
      simpa using hx
    | cons x' pre =>
      obtain ⟨rfl, hy'⟩ := List.cons.inj hy
      simpa using hxs pre y post hy'

theorem eachAfter_append_iff :
    EachAfter p before (xs ++ ys) ↔ EachAfter p before xs ∧ EachAfter p (before ++ xs) ys := by
  induction xs generalizing before with
  | nil => simp [eachAfter_nil]
  | cons x xs ih => simp [eachAfter_cons_iff, ih, and_assoc]

/-- Elements that obey the rule whatever came before. -/
theorem eachAfter_of_forall (h : ∀ x ∈ xs, ∀ pre, p pre x) : EachAfter p before xs := by
  rintro pre x post rfl
  exact h x (by simp) _

/-- The first element that obeys the rule after `before` and the elements before it. -/
def FirstAfter (p : List α → α → Prop) (before xs : List α) (x : α) : Prop :=
  ∃ pre post, xs = pre ++ x :: post ∧ p (before ++ pre) x ∧
    EachAfter (fun before y => ¬ p before y) before pre

theorem not_firstAfter_nil : ¬ FirstAfter p before [] x := by
  rintro ⟨pre, post, h, -⟩
  simp at h

theorem firstAfter_cons_iff {y : α} :
    FirstAfter p before (y :: xs) x ↔
      (y = x ∧ p before x) ∨ (¬ p before y ∧ FirstAfter p (before ++ [y]) xs x) := by
  constructor
  · rintro ⟨pre, post, heq, hx, hpre⟩
    cases pre with
    | nil =>
      obtain ⟨rfl, -⟩ := List.cons.inj heq
      exact .inl ⟨rfl, by simpa using hx⟩
    | cons z pre =>
      obtain ⟨rfl, rfl⟩ := List.cons.inj heq
      obtain ⟨hy, hpre⟩ := eachAfter_cons_iff.1 hpre
      exact .inr ⟨hy, pre, post, rfl, by simpa using hx, hpre⟩
  · rintro (⟨rfl, hx⟩ | ⟨hy, pre, post, rfl, hx, hpre⟩)
    · exact ⟨[], xs, rfl, by simpa using hx, eachAfter_nil⟩
    · exact ⟨y :: pre, post, rfl, by simpa using hx, eachAfter_cons_iff.2 ⟨hy, hpre⟩⟩

theorem FirstAfter.mem (h : FirstAfter p before xs x) : x ∈ xs := by
  obtain ⟨pre, post, rfl, -⟩ := h
  simp

theorem FirstAfter.rule (h : FirstAfter p before xs x) : ∃ pre, p pre x := by
  obtain ⟨pre, post, -, hx, -⟩ := h
  exact ⟨_, hx⟩

theorem eachAfter_not_iff :
    EachAfter (fun before y => ¬ p before y) before xs ↔ ∀ x, ¬ FirstAfter p before xs x := by
  induction xs generalizing before with
  | nil => simp [eachAfter_nil, not_firstAfter_nil]
  | cons y xs ih =>
    simp only [eachAfter_cons_iff, firstAfter_cons_iff, ih, not_or, not_and]
    constructor
    · rintro ⟨hy, hxs⟩ x
      exact ⟨fun heq => heq ▸ hy, fun _ => hxs x⟩
    · intro h
      have hy := (h y).1 rfl
      exact ⟨hy, fun x => (h x).2 hy⟩

/-- An element of a list that has grown is the new one, or it was there before. -/
theorem split_concat {y : α} {pre post : List α} (h : xs ++ [y] = pre ++ x :: post) :
    (pre = xs ∧ x = y ∧ post = []) ∨ ∃ post', post = post' ++ [y] ∧ xs = pre ++ x :: post' := by
  rcases List.eq_nil_or_concat post with rfl | ⟨post', z, rfl⟩
  · obtain ⟨rfl, hx⟩ := List.append_inj' h rfl
    exact .inl ⟨rfl, (List.cons.inj hx).1.symm, rfl⟩
  · rw [List.concat_eq_append, ← List.cons_append, ← List.append_assoc] at h
    obtain ⟨hxs, hz⟩ := List.append_inj' h rfl
    obtain rfl := (List.cons.inj hz).1
    exact .inr ⟨post', List.concat_eq_append, hxs⟩

/-- There was such an element, and since the last one all were of the other kind. -/
def Since (p q : α → Prop) (xs : List α) : Prop :=
  ∃ older x since, xs = older ++ x :: since ∧ p x ∧ ∀ y ∈ since, q y

theorem not_since_nil {p q : α → Prop} : ¬ Since p q [] := by
  rintro ⟨older, x, since, h, -⟩
  simp at h

theorem since_concat_iff {p q : α → Prop} :
    Since p q (xs ++ [x]) ↔ p x ∨ (q x ∧ Since p q xs) := by
  constructor
  · rintro ⟨older, y, since, h, hp, hq⟩
    rcases split_concat h with ⟨-, rfl, -⟩ | ⟨since, rfl, rfl⟩
    · exact .inl hp
    · exact .inr ⟨hq x (by simp), older, y, since, rfl, hp, fun z hz => hq z (by simp [hz])⟩
  · rintro (hp | ⟨hq, older, y, since, rfl, hp, hsince⟩)
    · exact ⟨xs, x, [], rfl, hp, by simp⟩
    · refine ⟨older, y, since ++ [x], by simp, hp, fun z hz => ?_⟩
      rcases List.mem_append.1 hz with hz | hz
      · exact hsince z hz
      · exact List.mem_singleton.1 hz ▸ hq

/-- The last mark in a list that grows: that of the new element, or the one before. -/
theorem getLast?_filterMap_concat {β : Type} (mark : α → Option β) (xs : List α) (x : α) :
    ((xs ++ [x]).filterMap mark).getLast? = (mark x).or (xs.filterMap mark).getLast? := by
  cases h : mark x with
  | none => simp [h]
  | some b => simp [h]

instance decidableEachAfter [∀ before x, Decidable (p before x)] (before : List α) :
    (xs : List α) → Decidable (EachAfter p before xs)
  | [] => isTrue eachAfter_nil
  | x :: xs =>
    have := decidableEachAfter (before ++ [x]) xs
    decidable_of_iff _ eachAfter_cons_iff.symm

instance decidableFirstAfter [DecidableEq α] [∀ before x, Decidable (p before x)]
    (before : List α) (x : α) : (xs : List α) → Decidable (FirstAfter p before xs x)
  | [] => isFalse not_firstAfter_nil
  | y :: xs =>
    have := decidableFirstAfter (before ++ [y]) x xs
    decidable_of_iff _ firstAfter_cons_iff.symm

end UsbDfu
