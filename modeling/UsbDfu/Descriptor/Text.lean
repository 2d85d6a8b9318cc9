import UsbDfu.Descriptor.Basic
import UsbDfu.Text.Utf16

/-!
# String descriptors

The names a device gives. Read with language 0 a string descriptor is the table of the device's
languages, otherwise a text in UTF-16.
-/

namespace UsbDfu

/-- The content of a string descriptor. -/
inductive TextDescriptor where
  | languages (codes : List UInt16)
  | text (s : String)
  deriving DecidableEq, Repr

namespace TextDescriptor

/-- The language in which names are asked for: English (United States). -/
def english : UInt16 := 0x0409

/-- The descriptor of a text. The length byte holds the length modulo 256. -/
def encode (s : String) : Bytes :=
  let units := Text.Utf16.encode s.toList
  UInt8.ofNat (2 * units.length + 2) :: Descriptor.textType :: units.flatMap Bytes.le16

/-- Reads as many bytes as the length byte says; bytes after them are left out. -/
def decode (data : Bytes) (language : UInt16) : Except DescriptorError TextDescriptor :=
  match data with
  | length :: type :: content =>
    if length.toNat < 2 ∨ content.length + 2 < length.toNat then
      .error (.invalidLength 0 length)
    else do
      Descriptor.checkType type Descriptor.textType
      let units := Bytes.words (content.take (length.toNat - 2))
      if language = 0 then pure (.languages units)
      else pure (.text (String.ofList (Text.Utf16.decode units)))
  | _ => .error (.truncated .text data.length 2)

end TextDescriptor
end UsbDfu
