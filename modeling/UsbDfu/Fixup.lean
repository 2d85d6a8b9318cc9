import UsbDfu.Failure
import UsbDfu.MemoryMap.Segment
import UsbDfu.Text.Blank

/-!
# Address fixups

Hardware that reports its flash at the wrong place is corrected by moving one reported address by
an offset. A fixup is written `REPORTED+OFFSET`, each number decimal or hexadecimal.
-/

namespace UsbDfu

/-- An offset for the address that a device reports, both of them words. -/
@[ext]
structure Fixup where
  reported : Nat
  offset : Nat
  reported_lt : reported < addressSpace
  offset_lt : offset < addressSpace
  deriving Repr

namespace Fixup

instance : DecidableEq Fixup :=
  fun _ _ => decidable_of_iff _ Fixup.ext_iff.symm

/-- Where the fixup moves the address; no other address is moved. -/
def move? (f : Fixup) (address : Nat) : Option Nat :=
  if address = f.reported then some (wrapAddress (address + f.offset)) else none

/-- A number with blanks around it. -/
def readNumber? (cs : List Char) : Option Nat :=
  (Text.readMaybeHex addressSpace (Text.trim cs)).toOption

/-- The fixup that a text writes; the first `+` parts the two numbers. -/
def parse? (text : List Char) : Option Fixup :=
  match text.dropWhile (· != '+') with
  | [] => none
  | _ :: offset => do
    let reported ← readNumber? (text.takeWhile (· != '+'))
    let offset ← readNumber? offset
    if h : reported < addressSpace ∧ offset < addressSpace then
      some ⟨reported, offset, h.1, h.2⟩
    else none

/-- The fixup that a text denotes, or a failure that holds the text. -/
def parse (text : String) : Except ConfigurationError Fixup :=
  match parse? text.toList with
  | some f => .ok f
  | none => .error (.invalidFixup text)

/-- Eight digits for the address, as many as needed for the offset. -/
def describe (f : Fixup) : String :=
  s!"0x{Text.hex 8 f.reported}+0x{Text.hex 1 f.offset}"

end Fixup
end UsbDfu
