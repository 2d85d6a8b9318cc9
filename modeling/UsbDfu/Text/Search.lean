/-!
# Searching a text

`occursIn` tells whether a text has another one somewhere in it: `occursIn_iff`.
-/

namespace UsbDfu.Text

/-- The token stands somewhere in the text. -/
def occursIn (token : List Char) : List Char → Bool
  | [] => token.isEmpty
  | c :: cs => token.isPrefixOf (c :: cs) || occursIn token cs

theorem occursIn_iff {token cs : List Char} :
    occursIn token cs = true ↔ ∃ before after, cs = before ++ token ++ after := by
  induction cs with
  | nil =>
    cases token with
    | nil => exact ⟨fun _ => ⟨[], [], rfl⟩, fun _ => rfl⟩
    | cons t ts => simp [occursIn]
  | cons c cs ih =>
    rw [occursIn, Bool.or_eq_true, List.isPrefixOf_iff_prefix, ih]
    constructor
    · rintro (⟨after, h⟩ | ⟨before, after, rfl⟩)
      · exact ⟨[], after, h.symm⟩
      · exact ⟨c :: before, after, rfl⟩
    · rintro ⟨before, after, h⟩
      cases before with
      | nil => exact .inl ⟨after, h.symm⟩
      | cons b before =>
        obtain ⟨-, rfl⟩ := List.cons.inj h
        exact .inr ⟨before, after, rfl⟩

end UsbDfu.Text
