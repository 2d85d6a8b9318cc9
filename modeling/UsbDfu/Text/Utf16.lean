/-!
# UTF-16

The text of a string descriptor. `encode` writes a character as one unit or as a surrogate pair;
`decode` reads every sequence of units, a surrogate without its partner becoming U+FFFD.
-/

namespace UsbDfu.Text.Utf16

/-- The units of one character. -/
def encodeChar (c : Char) : List UInt16 :=
  if c.toNat < 0x10000 then [UInt16.ofNat c.toNat]
  else
    [UInt16.ofNat (0xd800 + (c.toNat - 0x10000) / 0x400),
     UInt16.ofNat (0xdc00 + (c.toNat - 0x10000) % 0x400)]

/-- The units of a text. -/
def encode (cs : List Char) : List UInt16 :=
  cs.flatMap encodeChar

/-- What stands for a unit that belongs to no character. -/
def replacement : Char := Char.ofNat 0xfffd

/-- The unit is the first half of a pair. -/
def isHigh (u : UInt16) : Bool := 0xd800 ≤ u && u < 0xdc00

/-- The unit is the second half of a pair. -/
def isLow (u : UInt16) : Bool := 0xdc00 ≤ u && u < 0xe000

/-- The character of a surrogate pair. -/
def pair (high low : UInt16) : Char :=
  Char.ofNat (0x10000 + (high.toNat - 0xd800) * 0x400 + (low.toNat - 0xdc00))

/-- Every unit belongs to a character of the result or to a replacement of its own. -/
def decode : List UInt16 → List Char
  | [] => []
  | [u] => [if isHigh u || isLow u then replacement else Char.ofNat u.toNat]
  | u :: v :: rest =>
    if isHigh u then
      if isLow v then pair u v :: decode rest else replacement :: decode (v :: rest)
    else if isLow u then replacement :: decode (v :: rest)
    else Char.ofNat u.toNat :: decode (v :: rest)

end UsbDfu.Text.Utf16
