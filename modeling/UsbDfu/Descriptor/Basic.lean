import UsbDfu.Failure

/-!
# Descriptors

The records by which a USB device describes itself: device, interface, and the functional
descriptor of a DFU interface. Each has `encode` to its bytes and `decode` back, and reading what
was written gives the record: `DeviceDescriptor.decode_encode`, `InterfaceDescriptor.decode_encode`,
`Functional.decode_encode`.
-/

namespace UsbDfu
namespace Descriptor

/-! ## Types and checks -/

/-- Type of a device descriptor. -/
def deviceType : UInt8 := 0x01
/-- Type of a configuration descriptor. -/
def configurationType : UInt8 := 0x02
/-- Type of a string descriptor. -/
def textType : UInt8 := 0x03
/-- Type of an interface descriptor. -/
def interfaceType : UInt8 := 0x04
/-- Type of the functional descriptor of an interface for upgrades. -/
def functionalType : UInt8 := 0x21

/-- The class of an interface for firmware upgrades, which is that of all that is specific to an
application. -/
def dfuClass : UInt8 := 0xfe
/-- The subclass of an interface for firmware upgrades. -/
def dfuSubclass : UInt8 := 0x01

/-- The descriptor's type byte is the expected one. -/
def checkType (found expected : UInt8) : Except DescriptorError Unit :=
  if found = expected then .ok () else .error (.unexpectedType expected found)

end Descriptor

/-! ## Device -/

/-- The standard device descriptor. -/
structure DeviceDescriptor where
  usbVersion : UInt16
  deviceClass : UInt8
  deviceSubclass : UInt8
  deviceProtocol : UInt8
  maxPacketSize : UInt8
  vendorId : UInt16
  productId : UInt16
  deviceVersion : UInt16
  manufacturerIndex : UInt8
  productIndex : UInt8
  serialNumberIndex : UInt8
  numConfigurations : UInt8
  deriving DecidableEq, Repr

namespace DeviceDescriptor

/-- Length of a device descriptor. -/
def size : Nat := 18

/-- The bytes of the descriptor, the inverse of `decode`. -/
def encode (d : DeviceDescriptor) : Bytes :=
  [18, Descriptor.deviceType] ++ Bytes.le16 d.usbVersion
    ++ [d.deviceClass, d.deviceSubclass, d.deviceProtocol, d.maxPacketSize]
    ++ Bytes.le16 d.vendorId ++ Bytes.le16 d.productId ++ Bytes.le16 d.deviceVersion
    ++ [d.manufacturerIndex, d.productIndex, d.serialNumberIndex, d.numConfigurations]

/-- Eighteen bytes of the device type; bytes after them are left out. -/
def decode (data : Bytes) : Except DescriptorError DeviceDescriptor :=
  match data with
  | _ :: type :: u0 :: u1 :: cls :: sub :: proto :: packet :: v0 :: v1 :: p0 :: p1 :: d0 :: d1
      :: manufacturer :: product :: serial :: configurations :: _ => do
    Descriptor.checkType type Descriptor.deviceType
    pure
      { usbVersion := Bytes.word u0 u1
        deviceClass := cls
        deviceSubclass := sub
        deviceProtocol := proto
        maxPacketSize := packet
        vendorId := Bytes.word v0 v1
        productId := Bytes.word p0 p1
        deviceVersion := Bytes.word d0 d1
        manufacturerIndex := manufacturer
        productIndex := product
        serialNumberIndex := serial
        numConfigurations := configurations }
  | _ => .error (.truncated .device data.length size)

theorem decode_encode (d : DeviceDescriptor) (junk : Bytes) :
    decode (d.encode ++ junk) = .ok d := by
  simp [decode, encode, Descriptor.checkType, Bytes.le16, Bytes.word_le16, bind, Except.bind, pure,
    Except.pure]

end DeviceDescriptor

/-! ## Interface -/

/-- The standard descriptor of one alternate setting of an interface. -/
structure InterfaceDescriptor where
  interfaceNumber : UInt8
  alternateSetting : UInt8
  numEndpoints : UInt8
  interfaceClass : UInt8
  interfaceSubclass : UInt8
  interfaceProtocol : UInt8
  nameIndex : UInt8
  deriving DecidableEq, Repr

namespace InterfaceDescriptor

/-- Length of an interface descriptor. -/
def size : Nat := 9

/-- The bytes of the descriptor, the inverse of `decode`. -/
def encode (i : InterfaceDescriptor) : Bytes :=
  [9, Descriptor.interfaceType, i.interfaceNumber, i.alternateSetting, i.numEndpoints,
    i.interfaceClass, i.interfaceSubclass, i.interfaceProtocol, i.nameIndex]

/-- Nine bytes of the interface type; bytes after them are left out. -/
def decode (data : Bytes) : Except DescriptorError InterfaceDescriptor :=
  match data with
  | _ :: type :: number :: alternate :: endpoints :: cls :: sub :: proto :: name :: _ => do
    Descriptor.checkType type Descriptor.interfaceType
    pure
      { interfaceNumber := number
        alternateSetting := alternate
        numEndpoints := endpoints
        interfaceClass := cls
        interfaceSubclass := sub
        interfaceProtocol := proto
        nameIndex := name }
  | _ => .error (.truncated .interface data.length size)

/-- The interface is one for firmware upgrades. -/
def isDfu (i : InterfaceDescriptor) : Bool :=
  i.interfaceClass == Descriptor.dfuClass && i.interfaceSubclass == Descriptor.dfuSubclass

theorem decode_encode (i : InterfaceDescriptor) (junk : Bytes) :
    decode (i.encode ++ junk) = .ok i := by
  simp [decode, encode, Descriptor.checkType, bind, Except.bind, pure, Except.pure]

end InterfaceDescriptor

/-! ## DFU functional descriptor -/

/-- What a DFU interface can do. -/
structure Functional where
  attributes : UInt8
  /-- Milliseconds the device waits for a reset after a detach request. -/
  detachTimeout : UInt16
  /-- The most bytes of one transfer. -/
  transferSize : UInt16
  dfuVersion : UInt16
  deriving DecidableEq, Repr

namespace Functional

/-- The size of a transfer where the device gives none. -/
def defaultTransferSize : UInt16 := 1024

/-- The version number by which a device announces the DfuSe extension. -/
def dfuseVersion : UInt16 := 0x011a

/-- Length in DFU 1.1; a descriptor of DFU 1.0 lacks the version. -/
def size : Nat := 9
/-- Length in DFU 1.0. -/
def legacySize : Nat := 7

/-- The version of a descriptor that gives none. -/
def legacyVersion : UInt16 := 0x0100

/-- What a device that has no functional descriptor is taken to do: download, upload, and stay on
the bus after a download. -/
def assumed : Functional where
  attributes := 0x07
  detachTimeout := 1000
  transferSize := defaultTransferSize
  dfuVersion := 0x0110

/-- Attribute bit 0: the device takes firmware. -/
def canDownload (f : Functional) : Bool := f.attributes &&& 0x01 != 0
/-- Attribute bit 1: the device gives its firmware back. -/
def canUpload (f : Functional) : Bool := f.attributes &&& 0x02 != 0
/-- Attribute bit 2: the device still talks to the host after it has taken an image. -/
def manifestationTolerant (f : Functional) : Bool := f.attributes &&& 0x04 != 0
/-- Attribute bit 3: the device leaves the bus by itself when it is told to detach. -/
def willDetach (f : Functional) : Bool := f.attributes &&& 0x08 != 0

/-- The bytes of the descriptor with the version that DFU 1.1 has added. -/
def encode (f : Functional) : Bytes :=
  [9, Descriptor.functionalType, f.attributes] ++ Bytes.le16 f.detachTimeout
    ++ Bytes.le16 f.transferSize ++ Bytes.le16 f.dfuVersion

/-- Seven bytes of the functional type, and two of the version if they are there. -/
def decode (data : Bytes) : Except DescriptorError Functional :=
  match data with
  | _ :: type :: attributes :: t0 :: t1 :: s0 :: s1 :: rest => do
    Descriptor.checkType type Descriptor.functionalType
    pure
      { attributes := attributes
        detachTimeout := Bytes.word t0 t1
        transferSize := Bytes.word s0 s1
        dfuVersion :=
          match rest with
          | v0 :: v1 :: _ => Bytes.word v0 v1
          | _ => legacyVersion }
  | _ => .error (.truncated .functional data.length legacySize)

theorem decode_encode (f : Functional) (junk : Bytes) : decode (f.encode ++ junk) = .ok f := by
  simp [decode, encode, Descriptor.checkType, Bytes.le16, Bytes.word_le16, bind, Except.bind, pure,
    Except.pure]

end Functional
end UsbDfu
