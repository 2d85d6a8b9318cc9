import UsbDfu.Text.Numeral

/-!
# Sizes

A size is a decimal number, with a fraction and an exponent if one likes, and a unit: `64K`,
`2 MiB`, `1.5e3`. Units are powers of 1000, or of 1024 where an `i` stands after them; a final `b`
says nothing. Blanks and underscores may stand anywhere. The size is rounded to a whole number, a
half upwards.
-/

namespace UsbDfu.Tool

/-! ## Units -/

/-- Which power of the unit system's base a letter stands for. -/
def unitPower? (c : Char) : Option Nat :=
  match c.toLower with
  | 'k' => some 1
  | 'm' => some 2
  | 'g' => some 3
  | 't' => some 4
  | 'p' => some 5
  | 'e' => some 6
  | _ => none

/-- The text without a final letter of either case, and whether there was one. -/
def stripLetter (letter : Char) (cs : List Char) : List Char × Bool :=
  match cs.getLast? with
  | some c => if c.toLower = letter then (cs.dropLast, true) else (cs, false)
  | none => (cs, false)

/-- The number in front of the unit, and the unit. -/
def splitUnit (cs : List Char) : List Char × Nat :=
  let (cs, _) := stripLetter 'b' cs
  let (cs, binary) := stripLetter 'i' cs
  match cs.getLast?.bind unitPower? with
  | some power => (cs.dropLast, Nat.pow (if binary then 1024 else 1000) power)
  | none => (cs, 1)

/-! ## Numbers -/

/-- Numbers on the way stay below it. -/
def wordBound : Nat := 0x10000000000000000

/-- An exponent without a minus stays below it. -/
def exponentBound : Int := 0x80000000

/-- Which part of a number a reader is in. A part overflows when a digit more would not fit; its
digits from there on are rounded away. -/
inductive NumberPart where
  | start
  | whole
  | wholeOverflow
  | fraction
  | fractionOverflow
  | exponent
  | negativeExponent
  deriving DecidableEq, Repr

/-- A number that is read: `mantissa * 10 ^ (shift + exponent)`. -/
structure NumberScan where
  part : NumberPart
  mantissa : Nat
  shift : Int
  exponent : Int
  deriving DecidableEq, Repr

namespace NumberScan

/-- Nothing was read. -/
def fresh : NumberScan := ⟨.start, 0, 0, 0⟩

/-- The digit does not fit any more: it rounds the mantissa. -/
def round (s : NumberScan) (d : Nat) : NumberScan :=
  if 5 ≤ d then { s with mantissa := (s.mantissa + 1) % wordBound } else s

/-- Takes a digit in. After a minus the digits of an exponent count downwards. -/
def digit (s : NumberScan) (d : Nat) : Except Text.NumeralError NumberScan :=
  let longer := s.mantissa * 10 + d
  match s.part with
  | .start | .whole =>
    if longer < wordBound then .ok { s with part := .whole, mantissa := longer }
    else .ok { s.round d with part := .wholeOverflow, shift := s.shift + 1 }
  | .wholeOverflow => .ok { s with shift := s.shift + 1 }
  | .fraction =>
    if longer < wordBound then .ok { s with mantissa := longer, shift := s.shift - 1 }
    else .ok { s.round d with part := .fractionOverflow }
  | .fractionOverflow => .ok s
  | .exponent =>
    if s.exponent * 10 + d < exponentBound then .ok { s with exponent := s.exponent * 10 + d }
    else .error .tooLarge
  | .negativeExponent => .ok { s with exponent := s.exponent * 10 - d }

/-- Takes a point in; it comes after a whole part. -/
def point (s : NumberScan) : Except Text.NumeralError NumberScan :=
  match s.part with
  | .whole => .ok { s with part := .fraction }
  | .wholeOverflow => .ok { s with part := .fractionOverflow }
  | _ => .error .invalidDigit

/-- Takes the mark of an exponent in; it comes after a number. -/
def mark (s : NumberScan) : Except Text.NumeralError NumberScan :=
  match s.part with
  | .whole | .wholeOverflow | .fraction | .fractionOverflow => .ok { s with part := .exponent }
  | _ => .error .invalidDigit

/-- Takes a sign in; only an exponent has one. A plus says nothing. -/
def sign (s : NumberScan) (negative : Bool) : Except Text.NumeralError NumberScan :=
  match s.part, negative with
  | .exponent, true => .ok { s with part := .negativeExponent }
  | .exponent, false => .ok s
  | _, _ => .error .invalidDigit

/-- Takes a character in. -/
def step (s : NumberScan) (c : Char) : Except Text.NumeralError NumberScan :=
  if c = '_' ∨ c = ' ' then .ok s
  else if c = '.' then s.point
  else if c = 'e' ∨ c = 'E' then s.mark
  else if c = '+' then s.sign false
  else if c = '-' then s.sign true
  else
    match Text.digitValue? 10 c with
    | some d => s.digit d
    | none => .error .invalidDigit

/-- The power of ten that the mantissa is taken with. -/
def power (s : NumberScan) : Int :=
  s.shift + s.exponent

/-- The number below the bound, if it is. -/
def bounded (n : Nat) : Except Text.NumeralError Nat :=
  if n < wordBound then .ok n else .error .tooLarge

/-- Below this power of ten nothing is left of a mantissa. -/
def leastPower : Int := -38

/-- The mantissa in units of `unit`, taken with its power of ten. A power of ten that is too large
is refused whatever it is taken with. -/
def scale (s : NumberScan) (unit : Nat) : Except Text.NumeralError Nat := do
  if 0 ≤ s.power then
    let power := s.power.toNat
    if power < 20 then
      let factor ← bounded (unit * Nat.pow 10 power)
      bounded (s.mantissa * factor)
    else throw .tooLarge
  else if leastPower ≤ s.power then
    let divisor := Nat.pow 10 (-s.power).toNat
    bounded ((s.mantissa * unit + divisor / 2) / divisor)
  else pure 0

end NumberScan

/-! ## Reading -/

/-- The size that a text writes. -/
def readSize (cs : List Char) : Except Text.NumeralError Nat := do
  let (number, unit) := splitUnit cs
  let s ← number.foldlM NumberScan.step .fresh
  if s.part = .start then throw .empty
  s.scale unit

/-- A length stays below it. -/
def lengthBound : Nat := 0x100000000

/-- A size below 4 GiB. -/
def readLength (cs : List Char) : Except Text.NumeralError Nat := do
  let n ← readSize cs
  if n < lengthBound then pure n else throw .tooLarge

end UsbDfu.Tool
