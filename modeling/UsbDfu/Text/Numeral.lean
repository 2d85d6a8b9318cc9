/-!
# Numerals

Reading and writing unsigned whole numbers. `read` takes the digits of a base, after at most one
`+`, and refuses the first digit that is not one or that carries the number to the bound;
`digits` writes a number with the fewest digits and `padStart` widens it.
-/

namespace UsbDfu.Text

/-- Why a text is not a number of the wanted size. -/
inductive NumeralError where
  | empty
  | invalidDigit
  | tooLarge
  deriving DecidableEq, Repr

/-- The error in words. -/
def NumeralError.message : NumeralError → String
  | .empty => "cannot parse integer from empty string"
  | .invalidDigit => "invalid digit found in string"
  | .tooLarge => "number too large to fit in target type"

/-! ## Digits -/

/-- The value of an ASCII letter or digit, `a` and `A` standing for ten. -/
def alphanumericValue? (c : Char) : Option Nat :=
  if '0' ≤ c ∧ c ≤ '9' then some (c.toNat - '0'.toNat)
  else if 'a' ≤ c ∧ c ≤ 'z' then some (c.toNat - 'a'.toNat + 10)
  else if 'A' ≤ c ∧ c ≤ 'Z' then some (c.toNat - 'A'.toNat + 10)
  else none

/-- The value of a digit of the base. -/
def digitValue? (base : Nat) (c : Char) : Option Nat :=
  (alphanumericValue? c).filter (· < base)

/-- One of the ten digits. -/
def isDecimalDigit (c : Char) : Bool :=
  '0' ≤ c && c ≤ '9'

/-- A digit of base 16, in small or capital letters. -/
def isHexDigit (c : Char) : Bool :=
  (digitValue? 16 c).isSome

/-! ## Reading -/

/-- Reads digits after the number `acc`; every number on the way stays below the bound. -/
def readDigits (base bound : Nat) : Nat → List Char → Except NumeralError Nat
  | acc, [] => .ok acc
  | acc, c :: cs =>
    match digitValue? base c with
    | none => .error .invalidDigit
    | some d =>
      if acc * base + d < bound then readDigits base bound (acc * base + d) cs
      else .error .tooLarge

/-- The number below `bound` that the text writes in the base. One `+` may come first. -/
def readUnsigned (base bound : Nat) : List Char → Except NumeralError Nat
  | [] => .error .empty
  | ['+'] => .error .invalidDigit
  | '+' :: cs => readDigits base bound 0 cs
  | cs => readDigits base bound 0 cs

/-- A hexadecimal number after `0x` or `0X`, a decimal one otherwise. -/
def readMaybeHex (bound : Nat) : List Char → Except NumeralError Nat
  | '0' :: 'x' :: cs => readUnsigned 16 bound cs
  | '0' :: 'X' :: cs => readUnsigned 16 bound cs
  | cs => readUnsigned 10 bound cs

/-! ## Writing -/

/-- The digits of a number, the highest first, without leading zeros. -/
def digitValues (base n : Nat) : List Nat :=
  if _h : base < 2 ∨ n < base then [n] else digitValues base (n / base) ++ [n % base]
  termination_by n
  decreasing_by exact Nat.div_lt_self (by omega) (by omega)

/-- The number with lower-case digits. -/
def digits (base n : Nat) : List Char :=
  (digitValues base n).map Nat.digitChar

/-- The text with the character put in front until it has the width. -/
def padStart (width : Nat) (fill : Char) (cs : List Char) : List Char :=
  List.replicate (width - cs.length) fill ++ cs

/-- Hexadecimal, at least `width` digits. -/
def hex (width n : Nat) : String :=
  String.ofList (padStart width '0' (digits 16 n))

/-- Hexadecimal with upper-case digits, at least `width` of them. -/
def hexUpper (width n : Nat) : String :=
  String.ofList ((padStart width '0' (digits 16 n)).map Char.toUpper)

/-- Decimal, at least `width` digits. -/
def decimal (width n : Nat) : String :=
  String.ofList (padStart width '0' (digits 10 n))

/-- Decimal, moved to the right by spaces in a field of the width. -/
def decimalRight (width n : Nat) : String :=
  String.ofList (padStart width ' ' (digits 10 n))

end UsbDfu.Text
