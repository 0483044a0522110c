import Libpict.Operation

/-! # The USB backend

What the calls of libusb find is a parameter.
-/

namespace Libpict

open CInt

variable {σ : Type}

namespace PtpGeneralError

abbrev openFail : Int := -3

end PtpGeneralError

structure UsbEndpoint where
  isBulk : Bool
  isInterrupt : Bool
  address : UInt8
  maxPacketSize : UInt16

/-- An entry of libusb's device list: the results of the calls about it, and what they find. -/
structure UsbDevice where
  descriptorResult : Int
  vendorId : UInt16
  productId : UInt16
  numConfigurations : Nat
  configResult : Int
  numInterfaces : Nat
  numAltsetting : Nat
  isImageClass : Bool
  endpoints : List UsbEndpoint
  openResult : Int
  name : Option (List UInt8)
  manufacturer : Option (List UInt8)

/-- `struct PtpDeviceEntry`. -/
structure PtpDeviceEntry where
  id : Nat
  vendorId : UInt16
  productId : UInt16
  endpointIn : UInt8
  endpointOut : UInt8
  endpointInt : UInt8
  name : List UInt8
  manufacturer : List UInt8

/-- The loop over the endpoints of an interface. -/
def scanEndpoints : List UsbEndpoint → PtpDeviceEntry → M σ PtpDeviceEntry
  | [], entry => pure entry
  | ep :: rest, entry =>
      if ep.isBulk then
        if ep.address &&& 0x80 ≠ 0 then do
          updateRuntime fun r => { r with maxPacketSize := ep.maxPacketSize.toNat }
          scanEndpoints rest { entry with endpointIn := ep.address }
        else scanEndpoints rest { entry with endpointOut := ep.address }
      else if ep.isInterrupt then scanEndpoints rest { entry with endpointInt := ep.address }
      else scanEndpoints rest entry

/-- The loop of `ptpusb_device_list` over the devices from the `d`-th on; `none` is NULL. -/
def scanDevices : List UsbDevice → (d : Nat) → List PtpDeviceEntry →
    M σ (Option (List PtpDeviceEntry))
  | [], _, entries => do
      ptpMutexUnlock
      pure (if entries = [] then none else some entries)
  | dev :: rest, d, entries =>
      if dev.descriptorResult ≠ 0 then do
        ptpMutexUnlock
        pure none
      else if dev.numConfigurations = 0 then scanDevices rest (d + 1) entries
      else if dev.configResult ≠ 0 then do
        ptpMutexUnlock
        pure none
      else if dev.numInterfaces = 0 ∨ dev.numAltsetting = 0 ∨ dev.isImageClass = false ∨
          dev.endpoints.length < 2 then scanDevices rest (d + 1) entries
      else do
        let entry ← scanEndpoints dev.endpoints
          ⟨d, dev.vendorId, dev.productId, 0, 0, 0, (dev.name.getD [0x3F]).take 15,
            (dev.manufacturer.getD [0x3F]).take 15⟩
        if dev.openResult ≠ 0 then do
          ptpMutexUnlock
          pure none
        else scanDevices rest (d + 1) (entries ++ [entry])

/-- `ptp_comm_init`; the backend's own structure is not modelled. -/
def ptpCommInit : M σ Unit := do
  let r ← runtime
  if r.ioKillSwitch = false then halt (.panic "Connection is active\n")
  else if r.connectionType ≠ .usb then halt (.panic "incorrect connection_type")
  else updateRuntime fun r => { r with maxPacketSize := 512 }

/-- `ptpusb_device_list`; an error of `libusb_get_device_list` is like an empty list. -/
def ptpusbDeviceList (devices : List UsbDevice) : M σ (Option (List PtpDeviceEntry)) := do
  ptpCommInit
  let r ← runtime
  if r.ioKillSwitch = false then halt (.panic "Connection is active\n")
  else do
    ptpMutexLock
    if devices = [] then do
      ptpMutexUnlock
      pure none
    else scanDevices devices 0 []

/-- `ptp_device_open`: whether `r->comm_backend` is set, and the results of opening the device,
of detaching its driver and of claiming its interface. -/
def ptpDeviceOpen (commBackend : Bool) (openResult detachResult claimResult : Int) : M σ Int := do
  ptpMutexLock
  if commBackend = false then do
    ptpMutexUnlock
    pure PtpGeneralError.openFail
  else do
    let r ← runtime
    -- This way out does not unlock.
    if r.ioKillSwitch = false then pure PtpGeneralError.openFail
    else if openResult ≠ 0 ∨ detachResult ≠ 0 ∨ claimResult ≠ 0 then do
      ptpMutexUnlock
      pure PtpGeneralError.openFail
    else do
      updateRuntime fun r => { r with ioKillSwitch := false, operationKillSwitch := false }
      ptpMutexUnlock
      pure 0

end Libpict
