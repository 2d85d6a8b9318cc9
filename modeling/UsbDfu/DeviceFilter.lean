/-!
# Device filters

Which devices are meant, said before any of them is opened.
-/

namespace UsbDfu

/-- What a device has to have; `none` admits everything. -/
structure DeviceFilter where
  vendorId : Option UInt16
  productId : Option UInt16
  serialNumber : Option String
  deriving DecidableEq, Repr

namespace DeviceFilter

/-- Admits every device. -/
def any : DeviceFilter where
  vendorId := none
  productId := none
  serialNumber := none

/-- The device agrees with all that the filter asks. -/
def admits (f : DeviceFilter) (vendorId productId : UInt16) (serialNumber : Option String) : Bool :=
  f.vendorId.all (· == vendorId) && f.productId.all (· == productId)
    && f.serialNumber.all (serialNumber == some ·)

end DeviceFilter
end UsbDfu
