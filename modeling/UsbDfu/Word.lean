/-!
# Words

Addresses and counts of bytes are words of 32 bits. What is added up without a check of its own has no
result where the sum is no word, and a program that comes to such a sum does not go on.

- `Checked ε α`: a computation whose operations are checked, and its `Fault`s.
- `Word.add` and its like: the operations. Each has a lemma for operands with which it has a result.
-/

namespace UsbDfu

/-- The number of addresses. -/
def addressSpace : Nat := 0x100000000

/-- A sum of addresses that is meant modulo the address space. -/
def wrapAddress (n : Nat) : Nat :=
  n % addressSpace

/-- Why a checked computation has no result. -/
inductive Fault (ε : Type) where
  /-- The result of an operation is no word, or a position is outside of a byte string. -/
  | outside
  /-- A loop had no end after the rounds that it was given. -/
  | endless
  | refused (e : ε)
  deriving DecidableEq, Repr

/-- A computation whose operations are checked. -/
abbrev Checked (ε α : Type) := Except (Fault ε) α

variable {ε α β : Type}

namespace Checked

theorem ok_bind (a : α) (f : α → Checked ε β) : ((.ok a : Checked ε α) >>= f) = f a := rfl

theorem mapError_ok (a : α) :
    (Except.ok a : Except ε α).mapError .refused = (.ok a : Checked ε α) := rfl

theorem mapError_error (e : ε) :
    (Except.error e : Except ε α).mapError .refused = (.error (.refused e) : Checked ε α) := rfl

end Checked

namespace Word

variable {a b : Nat}

/-- The sum, if it is a word. -/
def add (a b : Nat) : Checked ε Nat :=
  if a + b < addressSpace then .ok (a + b) else .error .outside

/-- The difference, unless it is negative. -/
def sub (a b : Nat) : Checked ε Nat :=
  if b ≤ a then .ok (a - b) else .error .outside

/-- The product, if it is a word. -/
def mul (a b : Nat) : Checked ε Nat :=
  if a * b < addressSpace then .ok (a * b) else .error .outside

/-- The quotient, unless the divisor is zero. -/
def div (a b : Nat) : Checked ε Nat :=
  if 0 < b then .ok (a / b) else .error .outside

theorem add_eq (h : a + b < addressSpace) : (add a b : Checked ε Nat) = .ok (a + b) :=
  if_pos h

theorem sub_eq (h : b ≤ a) : (sub a b : Checked ε Nat) = .ok (a - b) :=
  if_pos h

theorem mul_eq (h : a * b < addressSpace) : (mul a b : Checked ε Nat) = .ok (a * b) :=
  if_pos h

theorem div_eq (h : 0 < b) : (div a b : Checked ε Nat) = .ok (a / b) :=
  if_pos h

end Word
end UsbDfu
