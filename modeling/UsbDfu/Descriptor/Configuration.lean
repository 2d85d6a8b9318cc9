import UsbDfu.Descriptor.Basic

/-!
# Configurations

A configuration descriptor and the stream of records after it. A record is its length, its type
and its content. `Record.readAll` walks the stream and reads interfaces everywhere, functional
descriptors only below an interface for firmware upgrades, and keeps every other record as bytes.
`Configuration.interfaces` gives each interface with the records below it.
-/

namespace UsbDfu

/-- One record below a configuration descriptor. -/
inductive Record where
  | interface (i : InterfaceDescriptor)
  | functional (f : Functional)
  | other (type : UInt8) (content : Bytes)
  deriving DecidableEq, Repr

namespace Record

/-- The type byte of the record. -/
def type : Record → UInt8
  | .interface _ => Descriptor.interfaceType
  | .functional _ => Descriptor.functionalType
  | .other type _ => type

/-- The bytes of the record. The length byte holds the length modulo 256. -/
def encode : Record → Bytes
  | .interface i => i.encode
  | .functional f => f.encode
  | .other type content => UInt8.ofNat (content.length + 2) :: type :: content

/-- The functional descriptor that the record is. -/
def functional? : Record → Option Functional
  | .functional f => some f
  | _ => none

/-- The record opens a new interface. -/
def isInterface : Record → Bool
  | .interface _ => true
  | _ => false

/-- Reads one whole record of the type, `inDfu` telling whether the interface above it is for
upgrades. -/
def decode (inDfu : Bool) (type : UInt8) (raw : Bytes) : Except DescriptorError Record :=
  if type = Descriptor.interfaceType then (InterfaceDescriptor.decode raw).map .interface
  else if type = Descriptor.functionalType ∧ inDfu then (Functional.decode raw).map .functional
  else .ok (.other type (raw.drop 2))

/-- Whether the records after this one are below an interface for upgrades. -/
def entersDfu (inDfu : Bool) : Record → Bool
  | .interface i => i.isDfu
  | _ => inDfu

/-- Reads the records from `offset` on. One last byte alone is left out. -/
def readFrom (inDfu : Bool) (offset : Nat) (data : Bytes) :
    Except DescriptorError (List Record) :=
  match data with
  | length :: type :: content =>
    if h : length.toNat < 2 ∨ content.length + 2 < length.toNat then
      .error (.invalidLength offset length)
    else do
      let record ← decode inDfu type ((length :: type :: content).take length.toNat)
      let rest ← readFrom (record.entersDfu inDfu) (offset + length.toNat)
        (content.drop (length.toNat - 2))
      pure (record :: rest)
  | _ => .ok []
  termination_by data.length
  decreasing_by
    simp only [List.length_drop, List.length_cons]
    omega

/-- All records of a stream. -/
def readAll (data : Bytes) : Except DescriptorError (List Record) :=
  readFrom false 0 data

/-- Each interface with the records between it and the next one. -/
def interfaces : List Record → List (InterfaceDescriptor × List Record)
  | [] => []
  | .interface i :: rest => (i, rest.takeWhile (!·.isInterface)) :: interfaces rest
  | _ :: rest => interfaces rest

end Record

/-- A configuration descriptor with the records the device reported below it, in order. -/
structure Configuration where
  numInterfaces : UInt8
  value : UInt8
  nameIndex : UInt8
  attributes : UInt8
  maxPower : UInt8
  records : List Record
  deriving DecidableEq, Repr

namespace Configuration

/-- Length of the descriptor without its records. -/
def size : Nat := 9

/-- The bytes of all records, which stand after those of the configuration itself. -/
def body (c : Configuration) : Bytes :=
  c.records.flatMap Record.encode

/-- The bytes of the whole set. The total length is given modulo 65536. -/
def encode (c : Configuration) : Bytes :=
  [9, Descriptor.configurationType] ++ Bytes.le16 (UInt16.ofNat (size + c.body.length))
    ++ [c.numInterfaces, c.value, c.nameIndex, c.attributes, c.maxPower] ++ c.body

/-- The records end where the total length says, or with the data. -/
def decode (data : Bytes) : Except DescriptorError Configuration :=
  match data with
  | _ :: type :: l0 :: l1 :: interfaces :: value :: name :: attributes :: power :: rest => do
    Descriptor.checkType type Descriptor.configurationType
    let records ← Record.readAll (rest.take ((Bytes.word l0 l1).toNat - size))
    pure
      { numInterfaces := interfaces
        value := value
        nameIndex := name
        attributes := attributes
        maxPower := power
        records := records }
  | _ => .error (.truncated .configuration data.length size)

/-- Each interface with the records below it. -/
def interfaces (c : Configuration) : List (InterfaceDescriptor × List Record) :=
  Record.interfaces c.records

/-- The functional descriptor below the interface and alternate setting, or else the first one of
the configuration. -/
def functional? (c : Configuration) (number alternate : UInt8) : Option Functional :=
  (c.interfaces.findSome? fun (i, nested) =>
    if i.interfaceNumber = number ∧ i.alternateSetting = alternate then
      nested.findSome? Record.functional?
    else none)
  <|> c.records.findSome? Record.functional?

end Configuration
end UsbDfu
