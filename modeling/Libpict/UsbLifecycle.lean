import Libpict.Base.Transitions
import Libpict.Primitives
import Libpict.ReportError
import Libpict.UsbBackend

/-! # The life of a USB connection

The functions of the backend over libusb: opening and closing a device, transfers, and what
`ptp_reset` and `ptp_report_error` do to the connection. libusb may answer in any way; its
calls are recorded, and a watch over them says which handles are open and claimed.
-/

namespace Libpict

open CInt Exec Transitions

variable {τ : Type}

namespace PtpGeneralError

abbrev noDevice : Int := -1

end PtpGeneralError

/-! ## Calls of libusb -/

/-- A handle, by how many were opened before it. -/
abbrev UsbHandle := Nat

/-- A call of libusb about a handle, and what came of it. -/
inductive UsbCall
  /-- `libusb_open`, with the new handle if it succeeds. -/
  | opened (handle : Option UsbHandle)
  /-- `libusb_set_auto_detach_kernel_driver`. -/
  | detach (handle : UsbHandle)
  | claim (handle : UsbHandle) (ok : Bool)
  | release (handle : UsbHandle) (ok : Bool)
  | close (handle : UsbHandle)
  /-- A bulk, interrupt or control transfer. -/
  | transfer (handle : UsbHandle) (endpoint : UInt8)

inductive HandleState
  | closed
  | opened
  /-- Open, with its interface claimed. -/
  | claimed
  deriving DecidableEq, Repr

/-- The states of all handles. -/
abbrev HandleTable := UsbHandle → HandleState

/-- What a call makes of the handles. -/
def HandleTable.move (table : HandleTable) : UsbCall → HandleTable
  | .opened (some handle) => Function.update table handle .opened
  | .claim handle true => Function.update table handle .claimed
  | .release handle true => Function.update table handle .opened
  | .close handle => Function.update table handle .closed
  | _ => table

/-- Data is transferred on claimed handles. -/
def HandleTable.Transfers (table : HandleTable) : UsbCall → Prop
  | .transfer handle _ => table handle = .claimed
  | _ => True

/-- Data is transferred on claimed handles, and no other call names a handle that is closed. -/
def HandleTable.Allows (table : HandleTable) : UsbCall → Prop
  | .opened _ => True
  | .detach handle | .claim handle _ | .release handle _ | .close handle => table handle ≠ .closed
  | .transfer handle _ => table handle = .claimed

/-- The watch for transfers on handles that are not claimed. -/
def transferWatch : Watch HandleTable UsbCall := ⟨HandleTable.move, HandleTable.Transfers⟩

/-- The watch for handles that are used once they are closed, too. -/
def handleWatch : Watch HandleTable UsbCall := ⟨HandleTable.move, HandleTable.Allows⟩

theorem HandleTable.Allows.transfers {table : HandleTable} {call : UsbCall}
    (hallows : table.Allows call) : table.Transfers call := by
  cases call with
  | transfer => exact hallows
  | _ => trivial

/-! ## The backend -/

/-- `struct LibUSBBackend`, without its context; the handle may be NULL. -/
structure LibUsbBackend where
  endpointIn : UInt8
  endpointOut : UInt8
  endpointInt : UInt8
  handle : Option UsbHandle

/-- What libusb answers, whose own state is in `τ`: the devices it finds, whether a call
succeeds, and what is transferred. `realloc` is the allocator's part. -/
structure LibUsb (τ : Type) where
  getDeviceList : τ → List UsbDevice × τ
  openDevice : PtpDeviceEntry → τ → Bool × τ
  setAutoDetach : UsbHandle → τ → Bool × τ
  claimInterface : UsbHandle → τ → Bool × τ
  releaseInterface : UsbHandle → τ → Bool × τ
  bulkWrite : UsbHandle → UInt8 → List UInt8 → τ → Option Nat × τ
  bulkRead : UsbHandle → UInt8 → (size : Nat) → τ →
    Option { bytes : List UInt8 // bytes.length ≤ size } × τ
  /-- The result of a transfer on the interrupt endpoint, and how much was transferred. -/
  readInterrupt : UsbHandle → UInt8 → (size : Nat) → τ → (Int × Nat) × τ
  controlTransfer : UsbHandle → τ → Int × τ
  realloc : Nat → Nat → Bool

/-- What the runtime has of libusb: `r->comm_backend`, how many handles have been opened and
what has been called. -/
structure UsbHost (τ : Type) where
  backend : Option LibUsbBackend
  opened : Nat
  calls : List UsbCall
  bus : τ

namespace UsbHost

/-- The states of the handles. -/
def table (host : UsbHost τ) : HandleTable := handleWatch.after (fun _ => .closed) host.calls

/-- `backend->handle`. -/
def handle (host : UsbHost τ) : Option UsbHandle := host.backend.bind LibUsbBackend.handle

/-- A call that only libusb's own state decides about. -/
def called (host : UsbHost τ) (call : UsbCall) (bus : τ) : UsbHost τ :=
  { host with calls := host.calls ++ [call], bus := bus }

@[simp] theorem called_calls (host : UsbHost τ) (call : UsbCall) (bus : τ) :
    (host.called call bus).calls = host.calls ++ [call] := rfl

@[simp] theorem called_backend (host : UsbHost τ) (call : UsbCall) (bus : τ) :
    (host.called call bus).backend = host.backend := rfl

@[simp] theorem called_opened (host : UsbHost τ) (call : UsbCall) (bus : τ) :
    (host.called call bus).opened = host.opened := rfl

@[simp] theorem called_table (host : UsbHost τ) (call : UsbCall) (bus : τ) :
    (host.called call bus).table = host.table.move call := handleWatch.after_snoc _ _ _

end UsbHost

namespace LibUsb

variable (L : LibUsb τ) (fuel : Nat)

/-- Call libusb. -/
def ask {α : Type} (f : UsbHost τ → α × UsbHost τ) : M (UsbHost τ) α := fun w =>
  .ok (f w.device).1 { w with device := (f w.device).2 }

/-- The transfer of `ptp_cmd_write`. -/
def write (bytes : List UInt8) (host : UsbHost τ) : Option Nat × UsbHost τ :=
  match host.backend with
  | some ⟨_, endpointOut, _, some handle⟩ =>
      let (sent, bus) := L.bulkWrite handle endpointOut bytes host.bus
      (sent, host.called (.transfer handle endpointOut) bus)
  | _ => (none, host)

/-- The transfer of `ptp_cmd_read`. -/
def read (size : Nat) (host : UsbHost τ) :
    Option { bytes : List UInt8 // bytes.length ≤ size } × UsbHost τ :=
  match host.backend with
  | some ⟨endpointIn, _, _, some handle⟩ =>
      let (got, bus) := L.bulkRead handle endpointIn size host.bus
      (got, host.called (.transfer handle endpointIn) bus)
  | _ => (none, host)

/-- `ptp_cmd_write` and `ptp_cmd_read` as a backend of the operations, which are refused while
the I/O switch is set. There is no socket. -/
def backend : Backend (UsbHost τ) where
  cmdWrite endpoint bytes host :=
    match endpoint with
    | .usb => L.write bytes host
    | .socket => (none, host)
  cmdRead endpoint size host :=
    match endpoint with
    | .usb => L.read size host
    | .socket => (none, host)
  realloc := L.realloc

/-- `ptp_comm_init`. -/
def ptpCommInit : M (UsbHost τ) Unit := do
  Libpict.ptpCommInit
  ask fun host => ((), { host with backend := some (host.backend.getD ⟨0, 0, 0, none⟩) })

/-- The handles that the loop of `ptpusb_device_list` opens to ask for names, and closes. -/
def scanHandles : List UsbDevice → UsbHost τ → UsbHost τ
  | [], host => host
  | dev :: rest, host =>
      if dev.descriptorResult ≠ 0 then host
      else if dev.numConfigurations = 0 then scanHandles rest host
      else if dev.configResult ≠ 0 then host
      else if dev.numInterfaces = 0 ∨ dev.numAltsetting = 0 ∨ dev.isImageClass = false ∨
          dev.endpoints.length < 2 then scanHandles rest host
      else if dev.openResult ≠ 0 then host.called (.opened none) host.bus
      else
        let host' := (host.called (.opened (some host.opened)) host.bus).called
          (.close host.opened) host.bus
        scanHandles rest { host' with opened := host.opened + 1 }

/-- `ptpusb_device_list`. -/
def ptpusbDeviceList : M (UsbHost τ) (Option (List PtpDeviceEntry)) := do
  ptpCommInit
  let devices ← ask fun host =>
    ((L.getDeviceList host.bus).1, { host with bus := (L.getDeviceList host.bus).2 })
  let list ← Libpict.ptpusbDeviceList devices
  ask fun host => ((), scanHandles devices host)
  pure list

/-- `libusb_open`, to `backend->handle`. -/
def openHandle (entry : PtpDeviceEntry) (host : UsbHost τ) : Option UsbHandle × UsbHost τ :=
  let (ok, bus) := L.openDevice entry host.bus
  if ok then
    let host' := host.called (.opened (some host.opened)) bus
    (some host.opened, { host' with
      backend := host.backend.map fun b => { b with handle := some host.opened }
      opened := host.opened + 1 })
  else (none, host.called (.opened none) bus)

/-- Claim the interface of a handle that has just been opened. Only a failed claim closes it. -/
def claimHandle (handle : UsbHandle) : M (UsbHost τ) Bool := do
  let ok ← ask fun host =>
    ((L.setAutoDetach handle host.bus).1,
      host.called (.detach handle) (L.setAutoDetach handle host.bus).2)
  if ok = false then pure false
  else do
    let ok ← ask fun host =>
      ((L.claimInterface handle host.bus).1,
        host.called (.claim handle (L.claimInterface handle host.bus).1)
          (L.claimInterface handle host.bus).2)
    if ok = false then do
      ask fun host => ((), host.called (.close handle) host.bus)
      pure false
    else pure true

/-- The end of `ptp_device_open` and `ptp_device_init`: open the device and claim its
interface. -/
def connect (entry : PtpDeviceEntry) : M (UsbHost τ) Bool := do
  ask fun host => ((), { host with backend := host.backend.map fun b =>
    { b with
      endpointIn := entry.endpointIn
      endpointOut := entry.endpointOut
      endpointInt := entry.endpointInt } })
  let opened ← ask (L.openHandle entry)
  match opened with
  | none => pure false
  | some handle => L.claimHandle handle

/-- Both switches are cleared once a device is open. -/
def clearSwitches : M (UsbHost τ) Unit :=
  updateRuntime fun r => { r with ioKillSwitch := false, operationKillSwitch := false }

/-- `ptp_device_open`. -/
def ptpDeviceOpen (entry : PtpDeviceEntry) : M (UsbHost τ) Int := do
  ptpMutexLock
  let none? ← ask fun host => (host.backend.isNone, host)
  if none? then do
    ptpMutexUnlock
    pure PtpGeneralError.openFail
  else do
    let r ← runtime
    -- This way out does not unlock.
    if r.ioKillSwitch = false then pure PtpGeneralError.openFail
    else do
      let ok ← L.connect entry
      if ok = false then do
        ptpMutexUnlock
        pure PtpGeneralError.openFail
      else do
        clearSwitches
        ptpMutexUnlock
        pure 0

/-- `ptp_device_init`. -/
def ptpDeviceInit : M (UsbHost τ) Int := do
  ptpCommInit
  let list ← L.ptpusbDeviceList
  match list with
  | some (entry :: _) => do
      let ok ← L.connect entry
      if ok = false then pure PtpGeneralError.openFail
      else do
        clearSwitches
        pure 0
  | _ => pure PtpGeneralError.noDevice

/-- `ptp_device_close`. -/
def ptpDeviceClose : M (UsbHost τ) Int := do
  updateRuntime fun r => { r with ioKillSwitch := true, operationKillSwitch := true }
  let handle ← ask fun host => (host.handle, host)
  match handle with
  | none => halt .undefined
  | some handle => do
      let ok ← ask fun host =>
        ((L.releaseInterface handle host.bus).1,
          host.called (.release handle (L.releaseInterface handle host.bus).1)
            (L.releaseInterface handle host.bus).2)
      if ok = false then pure 1
      else do
        ask fun host => ((), host.called (.close handle) host.bus)
        pure 0

/-- The check in front of a transfer: without a backend or over a cut connection it is refused. -/
def guarded (refused : Int) (transfer : LibUsbBackend → UsbHandle → M (UsbHost τ) Int) :
    M (UsbHost τ) Int := do
  let r ← runtime
  let backend ← ask fun host => (host.backend, host)
  match backend with
  | none => pure refused
  | some b =>
      if r.ioKillSwitch then pure refused
      else
        match b.handle with
        | none => halt .undefined
        | some handle => transfer b handle

/-- `ptp_cmd_write`, called with bytes of the caller's own. -/
def ptpCmdWrite (bytes : List UInt8) : M (UsbHost τ) Int :=
  guarded (-11) fun _ _ => do
    let sent ← ask (L.write bytes)
    pure (sent.elim (-1) fun transferred => transferred)

/-- `ptp_cmd_read`, called for the caller's own memory. -/
def ptpCmdRead (size : Nat) : M (UsbHost τ) Int :=
  guarded (-1) fun _ _ => do
    let got ← ask (L.read size)
    pure (got.elim (-1) fun transferred => transferred.val.length)

/-- `ptp_read_int`. -/
def ptpReadInt (size : Nat) : M (UsbHost τ) Int :=
  guarded (-1) fun b handle => do
    let (rc, transferred) ← ask fun host =>
      ((L.readInterrupt handle b.endpointInt size host.bus).1,
        host.called (.transfer handle b.endpointInt)
          (L.readInterrupt handle b.endpointInt size host.bus).2)
    -- LIBUSB_ERROR_NO_DEVICE and LIBUSB_ERROR_TIMEOUT
    if rc = -4 then pure PtpGeneralError.ioErr
    else if rc = -7 then pure 0
    else pure transferred

/-- `ptpusb_get_status`. -/
def ptpusbGetStatus : M (UsbHost τ) Int :=
  guarded (-1) fun _ handle => do
    let rc ← ask fun host =>
      ((L.controlTransfer handle host.bus).1,
        host.called (.transfer handle 0) (L.controlTransfer handle host.bus).2)
    if rc ≠ 0 then pure (-1) else pure 0

/-- `ptp_reset`. -/
def ptpReset : M (UsbHost τ) Unit := do
  updateRuntime Libpict.ptpReset
  ask fun host => ((), { host with backend := none })

end LibUsb

/-- A call of a function that concerns the connection. -/
inductive UsbRequest
  | reset
  | commInit
  | deviceList
  | deviceInit
  | deviceOpen (entry : PtpDeviceEntry)
  | deviceClose
  | cmdWrite (bytes : List UInt8)
  | cmdRead (size : Nat)
  | readInt (size : Nat)
  | getStatus
  | operation (op : Operation)
  | reportError (code : Int)

/-- Make the call; functions without a result return 0. -/
def UsbRequest.exec (L : LibUsb τ) (fuel : Nat) : UsbRequest → M (UsbHost τ) Int
  | reset => LibUsb.ptpReset >>= fun _ => pure 0
  | commInit => LibUsb.ptpCommInit >>= fun _ => pure 0
  | deviceList => L.ptpusbDeviceList >>= fun _ => pure 0
  | deviceInit => L.ptpDeviceInit
  | deviceOpen entry => L.ptpDeviceOpen entry
  | deviceClose => L.ptpDeviceClose
  | cmdWrite bytes => L.ptpCmdWrite bytes
  | cmdRead size => L.ptpCmdRead size
  | readInt size => L.ptpReadInt size
  | getStatus => L.ptpusbGetStatus
  | operation op => op.exec L.backend fuel
  | reportError code => ptpReportError L.backend fuel code >>= fun _ => pure 0

end Libpict
