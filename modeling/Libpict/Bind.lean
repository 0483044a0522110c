import Libpict.EmittedJson
import Libpict.GenericProperty
import Libpict.Objects

/-! # Bindings

`bind_run_req` finds the function of a request by its name. The functions call the library and
print what it returns, in one or more texts that are to make up one JSON value.
-/

namespace Libpict

open CInt Json

/-- `struct BindReq`, without what the texts are printed to. -/
structure BindReq where
  name : String
  params : Vector Int 5
  paramsLength : Int
  string : Option (List UInt8)
  bytes : Option (List UInt8)

/-- `bind->params[i]`. -/
def BindReq.param (bind : BindReq) (i : Fin 5) : Int := bind.params.get i

/-- What the bindings run on: a device, `malloc`, the static `bind_initialized`, the table of
enumerations, and the functions of the library that they call. Those of the functions that are
fields here may do and return anything; only the names in events and in the table need no
escape. -/
structure BindLibrary (σ : Type) where
  backend : Backend σ
  fuel : Nat
  memory : Allocator
  allocations : Nat
  /-- What a local `struct PtpStorageInfo` starts with. -/
  storageInfo : PtpStorageInfo
  bindInitialized : M σ Bool
  setBindInitialized : M σ Unit
  ptpClose : M σ Unit
  ptpInit : M σ Unit
  ptpDeviceInit : M σ Int
  ptpDeviceClose : M σ Int
  ptpOpenSession : M σ Int
  ptpCloseSession : M σ Int
  ptpGetDeviceInfo : M σ (Int × PtpDeviceInfo)
  ptpDump : M σ Unit
  ptpGetObjectInfo : (handle : Int) → M σ (Int × PtpObjectInfo)
  ptpSendObjectInfo : (filename : List UInt8) → M σ Int
  ptpSend : (code : Int) → (params : List Int) → (paramLength : Int) → M σ Int
  ptpSendData : (code : Int) → (params : List Int) → (paramLength : Int) → (data : List UInt8) →
    M σ Int
  ptpDeviceType : M σ PtpVendor
  ptpEosDriveLens : (steps : Int) → M σ Int
  ptpLiveviewSize : M σ Int
  ptpLiveviewFrame : M σ (Int × List UInt8)
  ptpMlInitBmpLv : M σ Int
  ptpMlGetBmpLv : M σ (Int × Option (Vector UInt32 345600))
  ptpSetPropValue : (code value : Int) → M σ Int
  ptpSetGenericProperty : (name : List UInt8) → (value : Int) → M σ Int
  ptpGetPropValue : (code : Int) → M σ Int
  ptpParsePropValue : M σ Int
  ptpEosGetEvent : M σ Int
  ptpEosEvents : M σ { events : List PtpGenericEvent // ∀ event ∈ events, PlainEvent event }
  ptpGetEvent : M σ Int
  ptpLiveviewType : M σ Int
  ptpLiveviewInit : M σ Int
  ptpLiveviewDeinit : M σ Int
  ptpEosSetRemoteMode : (mode : Int) → M σ Int
  ptpEosSetEventMode : (mode : Int) → M σ Int
  ptpEnums : List { entry : Int × Int × String × Int // PlainText entry.2.2.1 }
  enumNames : EnumNames
  ptpEosRemoteReleaseOn : (mode : Int) → M σ Int
  ptpEosRemoteReleaseOff : (mode : Int) → M σ Int
  ptpPreTakePicture : M σ Int
  ptpTakePicture : M σ Int
  ptpCheckOpcode : (op : Int) → M σ Bool
  ptpEosCancelAf : M σ Int
  ptpDeviceReset : M σ Int
  ptpGetThumbnail : (handle : Int) → M σ Int
  fopen : (path : List UInt8) → M σ (Option Stream)
  ptpReadInt : M σ Int

/-- The texts that a binding passes to `bind->out`, in order. -/
abbrev Texts := List (List UInt8)

abbrev Binding (σ : Type) := BindReq → M σ Texts

/-! ## Texts -/

/-- `"{\"error\": %d}"`. -/
def errorText (x : Int) : List UInt8 := ascii "\x7b\"error\": " ++ signed x ++ ascii "\x7d"

/-- The items of a loop that prints a comma in front of every item but the first. -/
def commaTexts : Texts → Texts
  | [] => []
  | item :: items => item :: items.map fun item => ascii "," ++ item

/-- The items of a loop that prints a comma behind every item but the last. -/
def endedTexts : Texts → Texts
  | [] => []
  | [item] => [item]
  | item :: items => (item ++ ascii ",") :: endedTexts items

def wordTexts (words : List UInt32) : Texts := words.map fun word => decimal word.toNat

def byteTexts (bytes : List UInt8) : Texts := bytes.map fun byte => decimal byte.toNat

/-- A number in upper-case hexadecimal digits. -/
def upperHex (n : Nat) : List UInt8 :=
  if n = 0 then [0x30]
  else (Nat.digits 16 n).reverse.map fun digit =>
    UInt8.ofNat (if digit < 10 then 0x30 + digit else 0x37 + digit)

/-- What a serialiser has left in a buffer of the size. -/
def inBuffer (max : Int) (text : List UInt8) : List UInt8 := text.take (max - 1).toNat

section Bindings

variable {σ : Type}

/-- An `int` that is passed as `uint32_t`. -/
def uint32Of (value : Int) : UInt32 := UInt32.ofNat (toUInt32 value)

/-- `ptp_get_payload(r)[i]` for every `i` up to the length of the payload. -/
def payloadBytes : M σ (List UInt8) := do
  let length ← inspect ptpGetPayloadLength
  if length ≤ 0 then return []
  else inspect fun r => do
    let payload ← ptpGetPayload r
    r.load payload length

/-- A binding that prints the result of a call. -/
def printsError (call : BindReq → M σ Int) : Binding σ := fun bind => do
  let x ← call bind
  return [errorText x]

variable (lib : BindLibrary σ)

/-- `ptp_get_return_code(r) != PTP_RC_OK` behind a call leads to `PTP_CHECK_CODE`. -/
def checkedCall (call next : M σ Int) : M σ Int := do
  let _ ← call
  let code ← inspect ptpGetReturnCode
  if code ≠ ptpRcOk then return PtpGeneralError.checkCode else next

/-- A call that only an EOS camera supports. -/
def onEos (call : M σ Int) : M σ Int := do
  let dev ← lib.ptpDeviceType
  if dev = .eos then call else return PtpGeneralError.unsupported

/-! ## The bindings -/

/-- `bind_status`. -/
def bindStatus : Binding σ := fun _ => do
  let r ← runtime
  return [ascii "\x7b\"error\": 0, \"connected\": " ++ signed (if r.ioKillSwitch then 0 else 1) ++
    ascii ", \"platform\": \"linux\", \"version\": \"_date_\"\x7d"]

/-- `bind_init`. -/
def bindInit : Binding σ := fun _ => do
  let initialized ← lib.bindInitialized
  if initialized then lib.ptpClose
  lib.ptpInit
  lib.setBindInitialized
  let r ← runtime
  return [ascii "\x7b\"error\": " ++ signed 0 ++ ascii ", \"buffer\": " ++ signed r.dataLength ++
    ascii "\x7d"]

/-- `bind_connect`. -/
def bindConnect : Binding σ := printsError fun _ => do
  let r ← runtime
  if r.dataLength ≠ ptpDefaultSize then return PtpGeneralError.outOfMem
  else do
    updateRuntime fun r => { r with transaction := 0 }
    lib.ptpDeviceInit

/-- `bind_disconnect`. -/
def bindDisconnect : Binding σ := printsError fun _ => lib.ptpDeviceClose

/-- `bind_open_session`. -/
def bindOpenSession : Binding σ := printsError fun _ => lib.ptpOpenSession

/-- `bind_close_session`. -/
def bindCloseSession : Binding σ := printsError fun _ => lib.ptpCloseSession

/-- `bind_get_device_info`; the text is printed into the runtime's buffer. -/
def bindGetDeviceInfo : Binding σ := fun _ => do
  let (x, di) ← lib.ptpGetDeviceInfo
  lib.ptpDump
  if x ≠ 0 then return [errorText x]
  else do
    let r ← runtime
    let text ← inspect fun r => ptpDeviceInfoJson r.dataLength di
    return [ascii "\x7b\"error\": " ++ signed x ++ ascii ", \"resp\": " ++
      inBuffer r.dataLength text ++ ascii "\x7d"]

/-- A binding that prints the words of an array. -/
def printsWords (call : BindReq → M σ (Int × Option (List UInt32))) : Binding σ := fun bind => do
  let (x, arr) ← call bind
  if x ≠ 0 then return [errorText x]
  else
    match arr with
    | none => halt .undefined
    | some arr => return (ascii "\x7b\"error\": " ++ signed x ++ ascii ", \"resp\": [") ::
        (commaTexts (wordTexts arr) ++ [ascii "]\x7d"])

/-- `bind_get_storage_ids`. -/
def bindGetStorageIds : Binding σ := printsWords fun _ =>
  ptpGetStorageIds lib.backend lib.fuel lib.memory lib.allocations

/-- A binding that prints a structure into a buffer of its own, where it stays. -/
def printsInfo {α : Type} (call : BindReq → M σ (Int × α)) (json : α → Except Halt (List UInt8)) :
    Binding σ := fun bind => do
  let (x, info) ← call bind
  if x ≠ 0 then return [errorText x]
  else do
    let _ ← inspect fun _ => json info
    return [ascii "\x7b\"error\": " ++ signed x ++ ascii ", \"resp\": ", ascii "\x7d"]

/-- The call of `bind_get_storage_info`. -/
def storageInfoCall (bind : BindReq) : M σ (Int × PtpStorageInfo) :=
  ptpGetStorageInfo lib.backend lib.fuel (uint32Of (bind.param 0)) lib.storageInfo

/-- `bind_get_storage_info`. -/
def bindGetStorageInfo : Binding σ := printsInfo (storageInfoCall lib) (ptpStorageInfoJson 1024)

/-- `bind_get_object_handles`. -/
def bindGetObjectHandles : Binding σ := printsWords fun bind =>
  ptpGetObjectHandles lib.backend lib.fuel lib.memory lib.allocations (uint32Of (bind.param 0))
    (uint32Of (bind.param 1)) (uint32Of (bind.param 2)) none

/-- The call of `bind_get_object_info`. -/
def objectInfoCall (bind : BindReq) : M σ (Int × PtpObjectInfo) :=
  lib.ptpGetObjectInfo (bind.param 0)

/-- `bind_get_object_info`. -/
def bindGetObjectInfo : Binding σ :=
  printsInfo (objectInfoCall lib) (ptpObjectInfoJson 1024 lib.enumNames)

/-- `bind_send_object_info`. -/
def bindSendObjectInfo : Binding σ :=
  printsError fun _ => lib.ptpSendObjectInfo (ascii "FOO_BAR.JPG")

/-- The command of `bind_custom`; it has the parameters behind the first one, which there are
only five of. -/
def customCall (bind : BindReq) : M σ Int := do
  if bind.paramsLength > 5 then halt .undefined
  else do
    let params := (bind.params.toList.take bind.paramsLength.toNat).drop 1
    match bind.bytes with
    | some bytes => lib.ptpSendData (bind.param 0) params (bind.paramsLength - 1) bytes
    | none => lib.ptpSend (bind.param 0) params (bind.paramsLength - 1)

/-- `bind_custom`. -/
def bindCustom : Binding σ := fun bind => do
  let x ← customCall lib bind
  if x ≠ 0 then return [errorText x]
  else do
    let length ← inspect ptpGetPayloadLength
    let bytes ← payloadBytes
    return (ascii "\x7b\"error\": " ++ signed x ++ ascii ", \"resp\": " ++
      upperHex (toUInt32 length) ++ ascii ", bytes: [") ::
        (commaTexts (byteTexts bytes) ++ [ascii "]\x7d"])

/-- `bind_drive_lens`. -/
def bindDriveLens : Binding σ :=
  printsError fun bind => onEos lib (lib.ptpEosDriveLens (bind.param 0))

/-- `bind_get_liveview_frame`; a frame of more bytes than there are is read on behind them. -/
def bindGetLiveviewFrame : Binding σ := fun _ => do
  let _ ← lib.ptpLiveviewSize
  let (x, lv) ← lib.ptpLiveviewFrame
  if lv.length < x.toNat then halt .undefined
  else return (ascii "\x7b\"error\": " ++ signed (if x > 0 then 0 else x) ++
      ascii ", \"resp\": [") ::
    (endedTexts (byteTexts (lv.take x.toNat)) ++ [ascii "]\x7d"])

/-- `bind_ml_init_bmp_lv`. -/
def bindMlInitBmpLv : Binding σ := printsError fun _ => lib.ptpMlInitBmpLv

/-- `bind_ml_get_bmp_lv`; without a frame the words are read at NULL. -/
def bindMlGetBmpLv : Binding σ := fun _ => do
  let (x, buffer) ← lib.ptpMlGetBmpLv
  match buffer with
  | none => halt .undefined
  | some buffer => return (ascii "\x7b\"error\": " ++ signed x ++ ascii ", \"resp\": [") ::
      (endedTexts (wordTexts buffer.toList) ++ [ascii "]\x7d"])

/-- `bind_set_property`. -/
def bindSetProperty : Binding σ := printsError fun bind => do
  let dev ← lib.ptpDeviceType
  match bind.string with
  | none =>
      if dev = .eos then ptpEosSetPropValue lib.backend lib.fuel (bind.param 0) (bind.param 1)
      else lib.ptpSetPropValue (bind.param 0) (bind.param 1)
  | some string => lib.ptpSetGenericProperty string (bind.param 0)

/-- `bind_get_property`. -/
def bindGetProperty : Binding σ := fun bind => do
  let x ← lib.ptpGetPropValue (bind.param 0)
  if x ≠ 0 then return [errorText x]
  else do
    let value ← lib.ptpParsePropValue
    return [ascii "\x7b\"error\": " ++ signed x ++ ascii ", \"value\": " ++
      decimal (toUInt32 value) ++ ascii "\x7d"]

/-- `bind_get_events`. -/
def bindGetEvents : Binding σ := fun _ => do
  let dev ← lib.ptpDeviceType
  if dev = .eos then do
    let x ← lib.ptpEosGetEvent
    if x ≠ 0 then return [errorText x]
    else do
      let events ← lib.ptpEosEvents
      let text ← inspect fun _ => printEventList 10000 events.val.length events.val
      return [ascii "\x7b\"error\": 0, \"resp\": ", inBuffer 10000 text, ascii "\x7d"]
  else do
    let x ← lib.ptpGetEvent
    if x = 0 then return [ascii "\x7b\"error\": 0, \"resp\": []\x7d"]
    else if x < 0 then return [errorText x]
    else return [errorText 0]

/-- `bind_get_all_props`. -/
def bindGetAllProps : Binding σ := fun bind => do
  let dev ← lib.ptpDeviceType
  if dev = .eos then bindGetEvents lib bind
  else return [ascii "\x7b\"error\": 0, \"resp\": []\x7d"]

/-- A binding that prints a number behind `"error"`. -/
def printsNumber (call : M σ Int) : Binding σ := fun _ => do
  let y ← call
  return [ascii "\x7b\"error\": " ++ signed 0 ++ ascii ", \"resp\": " ++ signed y ++ ascii "\x7d"]

/-- `bind_get_liveview_type`. -/
def bindGetLiveviewType : Binding σ := printsNumber lib.ptpLiveviewType

/-- `bind_get_liveview_frame_jpg`. -/
def bindGetLiveviewFrameJpg : Binding σ := fun _ => return []

/-- `bind_liveview_init`. -/
def bindLiveviewInit : Binding σ := printsError fun _ => lib.ptpLiveviewInit

/-- `bind_liveview_deinit`. -/
def bindLiveviewDeinit : Binding σ := printsError fun _ => lib.ptpLiveviewDeinit

/-- The value of `enum PtpVendors`. -/
def PtpVendor.value : PtpVendor → Int
  | .empty => 0
  | .eos => 1
  | .canon => 2
  | .nikon => 3
  | .sony => 4
  | .fuji => 5

/-- `bind_get_device_type`. -/
def bindGetDeviceType : Binding σ := printsNumber do
  let dev ← lib.ptpDeviceType
  return dev.value

/-- `bind_eos_set_remote_mode`. -/
def bindEosSetRemoteMode : Binding σ :=
  printsError fun bind => lib.ptpEosSetRemoteMode (bind.param 0)

/-- `bind_eos_set_event_mode`. -/
def bindEosSetEventMode : Binding σ :=
  printsError fun bind => lib.ptpEosSetEventMode (bind.param 0)

/-- `bind_hello_world`; the name and the string are printed as they are. -/
def bindHelloWorld : Binding σ := fun bind => do
  let string := bind.string.getD (ascii "null")
  if bind.paramsLength > 5 then halt .undefined
  else return (ascii "\x7b\"name\": \"" ++ ascii bind.name ++ ascii "\", \"string\": \"" ++
      string ++ ascii "\", \"params\": [") ::
      (commaTexts ((bind.params.toList.take bind.paramsLength.toNat).map signed) ++ [ascii "]\x7d"])

/-- `bind_get_enums`. -/
def bindGetEnums : Binding σ := fun _ => do
  return (ascii "\x7b\"error\": " ++ signed 0 ++ ascii ", \"resp\": [") ::
    (commaTexts (lib.ptpEnums.map fun entry =>
      ascii "\x7b\"type\": " ++ signed entry.val.1 ++ ascii ", \"vendor\": " ++
        signed entry.val.2.1 ++ ascii ", \"name\": \"" ++ ascii entry.val.2.2.1 ++
        ascii "\", \"value\": " ++ signed entry.val.2.2.2 ++ ascii "\x7d") ++ [ascii "]\x7d"])

/-- `bind_get_status`. -/
def bindGetStatus : Binding σ := fun _ => do
  let r ← runtime
  return [ascii "\x7b\"error\": 0, \"connected\": " ++ signed (if r.ioKillSwitch then 0 else 1) ++
    ascii "\x7d"]

/-- `bind_bulb_start`. -/
def bindBulbStart : Binding σ := printsError fun _ => onEos lib
  (checkedCall (lib.ptpEosRemoteReleaseOn 1) do
    let x ← lib.ptpEosRemoteReleaseOn 2
    checkedCall (return x) (return x))

/-- `bind_bulb_stop`. -/
def bindBulbStop : Binding σ := printsError fun _ => onEos lib
  (checkedCall (lib.ptpEosRemoteReleaseOff 2) do
    let x ← lib.ptpEosRemoteReleaseOff 1
    checkedCall (return x) (return x))

/-- `bind_pre_take_picture`. -/
def bindPreTakePicture : Binding σ := printsError fun _ => lib.ptpPreTakePicture

/-- `bind_take_picture`. -/
def bindTakePicture : Binding σ := printsError fun _ => lib.ptpTakePicture

/-- `bind_cancel_af`. -/
def bindCancelAf : Binding σ := printsError fun _ => do
  let supported ← lib.ptpCheckOpcode 0x9160
  if supported then do
    let x ← lib.ptpEosCancelAf
    checkedCall (return x) (return x)
  else return PtpGeneralError.unsupported

/-- `bind_mirror_up`. -/
def bindMirrorUp : Binding σ :=
  printsError fun _ => onEos lib (ptpEosSetPropValue lib.backend lib.fuel 0xD1B0 3)

/-- `bind_mirror_down`. -/
def bindMirrorDown : Binding σ :=
  printsError fun _ => onEos lib (ptpEosSetPropValue lib.backend lib.fuel 0xD1B0 0)

/-- `bind_get_return_code`. -/
def bindGetReturnCode : Binding σ := fun _ => do
  let code ← inspect ptpGetReturnCode
  let length ← inspect ptpGetParamLength
  let params ← inspect fun r => (List.range length.toNat).mapM fun index => ptpGetParam r index
  return (ascii "\x7b\"error\": 0, \"code\": " ++ signed code ++ ascii ", \"params\": [") ::
    (commaTexts (params.map decimal) ++ [ascii "]\x7d"])

/-- `bind_reset`. -/
def bindReset : Binding σ := printsError fun _ => lib.ptpDeviceReset

/-- A binding that prints the bytes of the payload, if there are any. -/
def printsPayload (start : List UInt8) (call : BindReq → M σ Int) : Binding σ := fun bind => do
  let x ← call bind
  if x ≠ 0 then return [errorText x]
  else do
    let length ← inspect ptpGetPayloadLength
    if length ≤ 0 then return [errorText PtpGeneralError.checkCode]
    else do
      let bytes ← payloadBytes
      return start :: (commaTexts (byteTexts bytes) ++ [ascii "]\x7d"])

/-- `bind_get_thumbnail`. -/
def bindGetThumbnail : Binding σ :=
  printsPayload (ascii "\x7b\"error\": 0, \"jpeg\": [") fun bind =>
    lib.ptpGetThumbnail (bind.param 0)

/-- `bind_get_partial_object`. -/
def bindGetPartialObject : Binding σ :=
  printsPayload (ascii "\x7b\"error\": 0, \"data\": [") fun bind =>
    ptpGetPartialObject lib.backend lib.fuel (uint32Of (bind.param 0)) (bind.param 1)
      (bind.param 2)

/-- The file of `bind_download_file`; neither `fopen` nor `fclose` gets a NULL. -/
def openFile (bind : BindReq) : M σ Stream :=
  match bind.string with
  | none => halt .undefined
  | some path => do
      match ← lib.fopen path with
      | none => halt .undefined
      | some f => return f

/-- `bind_download_file`; the download makes at most `fuel` rounds. -/
def bindDownloadFile : Binding σ := fun bind => do
  let f ← openFile lib bind
  let (x, _) ← ptpDownloadObject lib.backend lib.fuel (uint32Of (bind.param 0)) 0x100000 lib.fuel f
  if x < 0 then return [errorText (-1)]
  else return [ascii "\x7b\"error\": 0, \"read\": " ++ signed x ++ ascii "\x7d"]

/-- `bind_read_int`. -/
def bindReadInt : Binding σ := printsError fun _ => lib.ptpReadInt

/-! ## Requests -/

/-- `routes`. -/
def routes : List (String × Binding σ) :=
  [("ptp_hello_world", bindHelloWorld),
    ("ptp_read_int", bindReadInt lib),
    ("ptp_status", bindStatus),
    ("ptp_reset", bindReset lib),
    ("ptp_init", bindInit lib),
    ("ptp_connect", bindConnect lib),
    ("ptp_disconnect", bindDisconnect lib),
    ("ptp_open_session", bindOpenSession lib),
    ("ptp_close_session", bindCloseSession lib),
    ("ptp_get_device_info", bindGetDeviceInfo lib),
    ("ptp_pre_take_picture", bindPreTakePicture lib),
    ("ptp_take_picture", bindTakePicture lib),
    ("ptp_bulb_start", bindBulbStart lib),
    ("ptp_bulb_stop", bindBulbStop lib),
    ("ptp_eos_set_remote_mode", bindEosSetRemoteMode lib),
    ("ptp_eos_set_event_mode", bindEosSetEventMode lib),
    ("ptp_cancel_af", bindCancelAf lib),
    ("ptp_mirror_up", bindMirrorUp lib),
    ("ptp_mirror_down", bindMirrorDown lib),
    ("ptp_drive_lens", bindDriveLens lib),
    ("ptp_get_liveview_frame", bindGetLiveviewFrame lib),
    ("ptp_get_liveview_type", bindGetLiveviewType lib),
    ("ptp_get_liveview_frame.jpg", bindGetLiveviewFrameJpg),
    ("ptp_ml_get_bmp_lv", bindMlGetBmpLv lib),
    ("ptp_ml_init_bmp_lv", bindMlInitBmpLv lib),
    ("ptp_init_liveview", bindLiveviewInit lib),
    ("ptp_deinit_liveview", bindLiveviewDeinit lib),
    ("ptp_get_device_type", bindGetDeviceType lib),
    ("ptp_get_events", bindGetEvents lib),
    ("ptp_get_all_props", bindGetAllProps lib),
    ("ptp_set_property", bindSetProperty lib),
    ("ptp_get_property", bindGetProperty lib),
    ("ptp_get_enums", bindGetEnums lib),
    ("ptp_get_status", bindGetStatus),
    ("ptp_get_return_code", bindGetReturnCode),
    ("ptp_get_storage_ids", bindGetStorageIds lib),
    ("ptp_get_storage_info", bindGetStorageInfo lib),
    ("ptp_get_object_handles", bindGetObjectHandles lib),
    ("ptp_get_object_info", bindGetObjectInfo lib),
    ("ptp_send_object_info", bindSendObjectInfo lib),
    ("ptp_get_thumbnail", bindGetThumbnail lib),
    ("ptp_get_partial_object", bindGetPartialObject lib),
    ("ptp_download_file", bindDownloadFile lib),
    ("ptp_custom", bindCustom lib)]

/-- `bind_run_req`; a name that is not in the table prints nothing. -/
def bindRunReq : Binding σ := fun bind =>
  match (routes lib).find? fun route => route.1 = bind.name with
  | some route => route.2 bind
  | none => return []

end Bindings

end Libpict
