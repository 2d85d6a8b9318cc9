import UsbDfu.Bytes

/-!
# Device state and status

What a device says of itself: the state of its protocol machine and the outcome of its last
request, each one byte with a name in DFU 1.1. Every byte has a value (`State.ofCode`,
`StatusCode.ofCode`) that keeps it: `State.code_ofCode`, `StatusCode.code_ofCode`.
-/

namespace UsbDfu

/-- The state of the device's protocol machine (`bState`). -/
inductive State where
  | appIdle
  | appDetach
  | dfuIdle
  | dnloadSync
  | dnBusy
  | dnloadIdle
  | manifestSync
  | manifest
  | manifestWaitReset
  | uploadIdle
  | error
  | unknown (code : UInt8)
  deriving DecidableEq, Repr

namespace State

/-- The state that the byte stands for. A byte that is none of the class is kept. -/
def ofCode : UInt8 → State
  | 0 => .appIdle
  | 1 => .appDetach
  | 2 => .dfuIdle
  | 3 => .dnloadSync
  | 4 => .dnBusy
  | 5 => .dnloadIdle
  | 6 => .manifestSync
  | 7 => .manifest
  | 8 => .manifestWaitReset
  | 9 => .uploadIdle
  | 10 => .error
  | code => .unknown code

/-- The byte of the state. -/
def code : State → UInt8
  | .appIdle => 0
  | .appDetach => 1
  | .dfuIdle => 2
  | .dnloadSync => 3
  | .dnBusy => 4
  | .dnloadIdle => 5
  | .manifestSync => 6
  | .manifest => 7
  | .manifestWaitReset => 8
  | .uploadIdle => 9
  | .error => 10
  | .unknown code => code

/-- The name of the state in messages. -/
def name : State → String
  | .appIdle => "appIDLE"
  | .appDetach => "appDETACH"
  | .dfuIdle => "dfuIDLE"
  | .dnloadSync => "dfuDNLOAD_SYNC"
  | .dnBusy => "dfuDNBUSY"
  | .dnloadIdle => "dfuDNLOAD_IDLE"
  | .manifestSync => "dfuMANIFEST_SYNC"
  | .manifest => "dfuMANIFEST"
  | .manifestWaitReset => "dfuMANIFEST_WAIT_RESET"
  | .uploadIdle => "dfuUPLOAD_IDLE"
  | .error => "dfuERROR"
  | .unknown code => s!"unknown({code.toNat})"

theorem code_ofCode (c : UInt8) : (ofCode c).code = c := by
  unfold ofCode
  split <;> rfl

end State

/-- The outcome of the last request (`bStatus`). -/
inductive StatusCode where
  | ok
  | errTarget
  | errFile
  | errWrite
  | errErase
  | errCheckErased
  | errProg
  | errVerify
  | errAddress
  | errNotDone
  | errFirmware
  | errVendor
  | errUsbReset
  | errPowerOnReset
  | errUnknown
  | errStalledPkt
  | unknown (code : UInt8)
  deriving DecidableEq, Repr

namespace StatusCode

/-- The status that the byte stands for. A byte that is none of the class is kept. -/
def ofCode : UInt8 → StatusCode
  | 0 => .ok
  | 1 => .errTarget
  | 2 => .errFile
  | 3 => .errWrite
  | 4 => .errErase
  | 5 => .errCheckErased
  | 6 => .errProg
  | 7 => .errVerify
  | 8 => .errAddress
  | 9 => .errNotDone
  | 10 => .errFirmware
  | 11 => .errVendor
  | 12 => .errUsbReset
  | 13 => .errPowerOnReset
  | 14 => .errUnknown
  | 15 => .errStalledPkt
  | code => .unknown code

/-- The byte of the status. -/
def code : StatusCode → UInt8
  | .ok => 0
  | .errTarget => 1
  | .errFile => 2
  | .errWrite => 3
  | .errErase => 4
  | .errCheckErased => 5
  | .errProg => 6
  | .errVerify => 7
  | .errAddress => 8
  | .errNotDone => 9
  | .errFirmware => 10
  | .errVendor => 11
  | .errUsbReset => 12
  | .errPowerOnReset => 13
  | .errUnknown => 14
  | .errStalledPkt => 15
  | .unknown code => code

/-- The name of the status in messages. -/
def name : StatusCode → String
  | .ok => "OK"
  | .errTarget => "errTARGET"
  | .errFile => "errFILE"
  | .errWrite => "errWRITE"
  | .errErase => "errERASE"
  | .errCheckErased => "errCHECK_ERASED"
  | .errProg => "errPROG"
  | .errVerify => "errVERIFY"
  | .errAddress => "errADDRESS"
  | .errNotDone => "errNOTDONE"
  | .errFirmware => "errFIRMWARE"
  | .errVendor => "errVENDOR"
  | .errUsbReset => "errUSBR"
  | .errPowerOnReset => "errPOR"
  | .errUnknown => "errUNKNOWN"
  | .errStalledPkt => "errSTALLEDPKT"
  | .unknown code => s!"unknown({code.toNat})"

theorem code_ofCode (c : UInt8) : (ofCode c).code = c := by
  unfold ofCode
  split <;> rfl

end StatusCode

/-- The answer to GETSTATUS. -/
structure Status where
  code : StatusCode
  /-- Milliseconds to wait before the next GETSTATUS. -/
  pollTimeout : Nat
  state : State
  deriving DecidableEq, Repr

namespace Status

/-- The number of bytes of the answer. -/
def size : Nat := 6

/-- Status byte, 24-bit delay, state byte, and a string index that is not kept. -/
def ofBytes? : Bytes → Option Status
  | status :: t0 :: t1 :: t2 :: state :: _ :: _ =>
    some
      { code := StatusCode.ofCode status
        pollTimeout := Bytes.ofLe32 t0 t1 t2 0
        state := State.ofCode state }
  | _ => none

/-- The device reports no error. -/
def isOk (s : Status) : Bool :=
  s.code == .ok

/-- An answer is read exactly when it has the full six bytes. -/
theorem ofBytes?_isSome (bytes : Bytes) : (ofBytes? bytes).isSome = decide (size ≤ bytes.length) := by
  unfold ofBytes? size
  split
  · simp
  · rename_i h
    match bytes, h with
    | [], _ | [_], _ | [_, _], _ | [_, _, _], _ | [_, _, _, _], _ | [_, _, _, _, _], _ => rfl
    | a :: b :: c :: d :: e :: f :: g, h => exact absurd rfl (h a b c d e f g)

end Status
end UsbDfu
