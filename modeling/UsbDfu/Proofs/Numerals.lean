import UsbDfu.Text.Numeral

/-!
# Numbers read back

A number is written with the fewest digits, and zeros in front of them say nothing. A base has at most
sixteen digits here, as many as there are characters for.

- `digits_of_lt`, `digits_of_le`: the digits of a number, from those of the number without its last one.
- `readDigits_append`: digits are read from the left, each part after the number that the one before it
  gave.
- `readUnsigned_padStart`, `readMaybeHex_hex`: what is written in a base is read back in it.
-/

namespace UsbDfu.Text

variable {base bound n : Nat}

/-! ## Digits -/

theorem digits_of_lt (h : n < base) : digits base n = [Nat.digitChar n] := by
  rw [digits, digitValues, dif_pos (.inr h)]
  rfl

theorem digits_of_le (hbase : 2 ≤ base) (h : base ≤ n) :
    digits base n = digits base (n / base) ++ [Nat.digitChar (n % base)] := by
  rw [digits, digitValues, dif_neg (by omega), List.map_append]
  rfl

theorem digits_ne_nil (base n : Nat) : digits base n ≠ [] := by
  rw [digits, digitValues]
  split <;> simp

/-- What holds of every digit of the base holds of the characters of a number. -/
theorem forall_mem_digits (P : Char → Prop) (hbase : 2 ≤ base)
    (hP : ∀ d < base, P (Nat.digitChar d)) (n : Nat) : ∀ c ∈ digits base n, P c := by
  induction n using Nat.strongRecOn with
  | ind n ih =>
    by_cases hn : n < base
    · rw [digits_of_lt hn]
      exact List.forall_mem_singleton.2 (hP n hn)
    · rw [digits_of_le hbase (by omega)]
      refine List.forall_mem_append.2 ⟨ih (n / base) (Nat.div_lt_self (by omega) hbase), ?_⟩
      exact List.forall_mem_singleton.2 (hP _ (Nat.mod_lt n (by omega)))

theorem digitValue?_digitChar (hbase : base ≤ 16) (h : n < base) :
    digitValue? base (Nat.digitChar n) = some n := by
  have hall : ∀ d : Fin 16, alphanumericValue? (Nat.digitChar d) = some d.val := by decide
  rw [digitValue?, hall ⟨n, Nat.lt_of_lt_of_le h hbase⟩]
  simp [h]

/-! ## Reading -/

theorem readDigits_append (acc : Nat) (cs ds : List Char) :
    readDigits base bound acc (cs ++ ds) =
      (readDigits base bound acc cs).bind fun v => readDigits base bound v ds := by
  induction cs generalizing acc with
  | nil => rfl
  | cons c cs ih =>
    rw [List.cons_append, readDigits, readDigits]
    split
    · rfl
    · split
      · exact ih _
      · rfl

theorem readDigits_digitChar (hbase : base ≤ 16) {acc d : Nat} (hd : d < base)
    (h : acc * base + d < bound) :
    readDigits base bound acc [Nat.digitChar d] = .ok (acc * base + d) := by
  rw [readDigits, digitValue?_digitChar hbase hd]
  simp only [if_pos h, readDigits]

theorem readDigits_digits (h₂ : 2 ≤ base) (h₁₆ : base ≤ 16) (hn : n < bound) :
    readDigits base bound 0 (digits base n) = .ok n := by
  induction n using Nat.strongRecOn with
  | ind n ih =>
    by_cases hlt : n < base
    · rw [digits_of_lt hlt, readDigits_digitChar h₁₆ hlt (by omega)]
      simp
    · have hdiv : n / base < n := Nat.div_lt_self (by omega) h₂
      have hwhole : n / base * base + n % base = n := Nat.div_add_mod' n base
      rw [digits_of_le h₂ (by omega), readDigits_append, ih _ hdiv (by omega)]
      show readDigits base bound (n / base) [Nat.digitChar (n % base)] = .ok n
      rw [readDigits_digitChar h₁₆ (Nat.mod_lt n (by omega)) (by omega), hwhole]

/-- Zeros in front of a number leave it as it is. -/
theorem readDigits_zeros (hbase : 0 < base) (hbound : 0 < bound) (k : Nat) (cs : List Char) :
    readDigits base bound 0 (List.replicate k '0' ++ cs) = readDigits base bound 0 cs := by
  have hzero : digitValue? base '0' = some 0 := by simp [digitValue?, alphanumericValue?, hbase]
  induction k with
  | zero => rfl
  | succ k ih =>
    rw [List.replicate_succ, List.cons_append, readDigits, hzero]
    simpa [hbound] using ih

/-- The sign that a number may begin with is no digit. -/
theorem readUnsigned_eq_readDigits {cs : List Char} (hne : cs ≠ []) (hplus : '+' ∉ cs) :
    readUnsigned base bound cs = readDigits base bound 0 cs := by
  unfold readUnsigned
  split
  · exact absurd rfl hne
  · exact absurd List.mem_cons_self hplus
  · exact absurd List.mem_cons_self hplus
  · rfl

/-! ## Numbers in a field -/

variable {width : Nat}

/-- What holds of a zero and of every digit holds of the characters of a number in a field. -/
theorem forall_mem_padStart (P : Char → Prop) (hbase : 2 ≤ base)
    (hP : ∀ d < base, P (Nat.digitChar d)) (width n : Nat) :
    ∀ c ∈ padStart width '0' (digits base n), P c := by
  refine List.forall_mem_append.2 ⟨fun c hc => ?_, forall_mem_digits P hbase hP n⟩
  rw [List.eq_of_mem_replicate hc]
  exact hP 0 (by omega)

theorem readUnsigned_padStart (h₂ : 2 ≤ base) (h₁₆ : base ≤ 16) (hn : n < bound) :
    readUnsigned base bound (padStart width '0' (digits base n)) = .ok n := by
  have hall : ∀ d : Fin 16, Nat.digitChar d ≠ '+' := by decide
  have hplus := forall_mem_padStart (· ≠ '+') h₂
    (fun d hd => hall ⟨d, Nat.lt_of_lt_of_le hd h₁₆⟩) width n
  have hne : padStart width '0' (digits base n) ≠ [] :=
    List.append_ne_nil_of_right_ne_nil _ (digits_ne_nil base n)
  rw [readUnsigned_eq_readDigits hne fun h => hplus _ h rfl, padStart,
    readDigits_zeros (by omega) (by omega), readDigits_digits h₂ h₁₆ hn]

/-- A hexadecimal number in a field of any width. -/
theorem readMaybeHex_hex (hn : n < bound) :
    readMaybeHex bound ('0' :: 'x' :: (hex width n).toList) = .ok n := by
  rw [readMaybeHex, hex, String.toList_ofList, readUnsigned_padStart (by decide) (by decide) hn]

end UsbDfu.Text
