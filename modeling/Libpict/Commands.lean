import Libpict.Base.Sequence
import Libpict.GenericProperty
import Libpict.Overlay

/-! # Commands

The functions that fill in a command and send it, and those that send several commands in
a row and stop at the first that fails.
-/

namespace Libpict

open Bytes CInt Exec

variable {σ : Type}

/-! ## Commands with few parameters -/

namespace PtpCommand

theorem noParams : 0 ≤ 5 := by decide

theorem oneParam : 1 ≤ 5 := by decide

theorem twoParams : 2 ≤ 5 := by decide

theorem threeParams : 3 ≤ 5 := by decide

/-- A command without parameters. -/
def plain (code : UInt16) : PtpCommand := ⟨code, #v[0, 0, 0, 0, 0], 0, noParams⟩

def one (code : UInt16) (a : UInt32) : PtpCommand := ⟨code, #v[a, 0, 0, 0, 0], 1, oneParam⟩

def two (code : UInt16) (a b : UInt32) : PtpCommand := ⟨code, #v[a, b, 0, 0, 0], 2, twoParams⟩

def three (code : UInt16) (a b c : UInt32) : PtpCommand :=
  ⟨code, #v[a, b, c, 0, 0], 3, threeParams⟩

end PtpCommand

/-- An `int` that is passed as a parameter. -/
def paramOf (value : Int) : UInt32 := UInt32.ofNat (toUInt32 value)

open PtpCommand

section Functions

variable (B : Backend σ) (fuel : Nat)

/-! ## operations.c -/

/-- `ptp_close_session`. -/
def ptpCloseSession : M σ Int := ptpSend B fuel (plain 0x1003)

/-- `ptp_init_capture`. -/
def ptpInitCapture (storageId objectFormat : Int) : M σ Int :=
  ptpSend B fuel (two 0x100E (paramOf storageId) (paramOf objectFormat))

/-- `ptp_init_open_capture`. -/
def ptpInitOpenCapture (storageId objectFormat : Int) : M σ Int :=
  ptpSend B fuel (two 0x101C (paramOf storageId) (paramOf objectFormat))

/-- `ptp_terminate_open_capture`. -/
def ptpTerminateOpenCapture (trans : Int) : M σ Int :=
  ptpSend B fuel (one 0x1018 (paramOf trans))

/-- `ptp_get_num_objects`. -/
def ptpGetNumObjects (id format inside : Int) : M σ Int :=
  ptpSend B fuel (three 0x1006 (paramOf id) (paramOf format) (paramOf inside))

/-- `ptp_get_prop_value`. -/
def ptpGetPropValue (code : Int) : M σ Int := ptpSend B fuel (one 0x1015 (paramOf code))

/-- `ptp_get_thumbnail`. -/
def ptpGetThumbnail (handle : Int) : M σ Int := ptpSend B fuel (one 0x100A (paramOf handle))

/-- `ptp_move_object`, with the code of `ptp_get_thumbnail`. -/
def ptpMoveObject (storageId handle folder : Int) : M σ Int :=
  ptpSend B fuel (three 0x100A (paramOf handle) (paramOf storageId) (paramOf folder))

/-- `ptp_set_prop_value`. -/
def ptpSetPropValue (code value : Int) : M σ Int :=
  ptpSendData B fuel (one 0x1016 (paramOf code)) (leBytes 4 (toUInt32 value))

/-- `ptp_set_prop_value16`. -/
def ptpSetPropValue16 (code : Int) (value : UInt16) : M σ Int :=
  ptpSendData B fuel (one 0x1016 (paramOf code)) (leBytes 2 value.toNat)

/-- `ptp_set_prop_value_data`. -/
def ptpSetPropValueData (code : Int) (data : List UInt8) : M σ Int :=
  ptpSendData B fuel (one 0x1016 (paramOf code)) data

/-- `ptp_delete_object`. -/
def ptpDeleteObject (handle : Int) : M σ Int := ptpSend B fuel (one 0x100B (paramOf handle))

/-- `ptp_get_object`. -/
def ptpGetObject (handle : Int) : M σ Int := ptpSend B fuel (one 0x1009 (paramOf handle))

/-! ## canon.c -/

/-- `ptp_eos_get_storage_ids`. -/
def ptpEosGetStorageIds : M σ Int := ptpSend B fuel (plain 0x9101)

/-- `ptp_eos_get_storage_info`. -/
def ptpEosGetStorageInfo (id : Int) : M σ Int := ptpSend B fuel (one 0x9102 (paramOf id))

/-- The command of `ptp_eos_remote_release_on`. -/
def eosRemoteReleaseOn (mode : Int) : PtpCommand := two 0x9128 (paramOf mode) 0

/-- `ptp_eos_remote_release_on`. -/
def ptpEosRemoteReleaseOn (mode : Int) : M σ Int := ptpSend B fuel (eosRemoteReleaseOn mode)

/-- The command of `ptp_eos_remote_release_off`. -/
def eosRemoteReleaseOff (mode : Int) : PtpCommand := one 0x9129 (paramOf mode)

/-- `ptp_eos_remote_release_off`. -/
def ptpEosRemoteReleaseOff (mode : Int) : M σ Int := ptpSend B fuel (eosRemoteReleaseOff mode)

/-- `ptp_eos_cancel_af`. -/
def ptpEosCancelAf : M σ Int := ptpSend B fuel (plain 0x9160)

/-- `ptp_eos_drive_lens`: a negative number of steps is sent as its magnitude with the bit
0x8000 added. -/
def ptpEosDriveLens (steps : Int) : M σ Int := do
  let steps ← (if steps < 0 then intAdd 0x8000 (steps * -1) else pure steps)
  ptpSend B fuel (one 0x9155 (paramOf steps))

/-- `ptp_eos_set_event_mode`. -/
def ptpEosSetEventMode (mode : Int) : M σ Int := ptpSend B fuel (one 0x9115 (paramOf mode))

/-- `ptp_eos_set_remote_mode`. -/
def ptpEosSetRemoteMode (mode : Int) : M σ Int := ptpSend B fuel (one 0x9114 (paramOf mode))

/-- `ptp_eos_get_viewfinder_data`. -/
def ptpEosGetViewfinderData : M σ Int := ptpSend B fuel (one 0x9153 0x200000)

/-- `ptp_eos_get_prop_value`. -/
def ptpEosGetPropValue (code : Int) : M σ Int := ptpSend B fuel (one 0x9127 (paramOf code))

/-- `ptp_eos_get_event`. -/
def ptpEosGetEvent : M σ Int := ptpSend B fuel (plain 0x9116)

/-- `ptp_eos_ping`. -/
def ptpEosPing : M σ Int := ptpSend B fuel (plain 0x911D)

/-- The command of `ptp_eos_hdd_capacity_push`. -/
def eosHddCapacityPush : PtpCommand := three 0x911A 0xfffffff7 0x1000 0x0

/-- `ptp_eos_hdd_capacity_push`. -/
def ptpEosHddCapacityPush : M σ Int := ptpSend B fuel eosHddCapacityPush

/-- `ptp_eos_hdd_capacity_pop`. -/
def ptpEosHddCapacityPop : M σ Int := ptpSend B fuel (three 0x911A 0x332d2d 0x1000 0x1)

/-- `ptp_eos_bulb_start`. -/
def ptpEosBulbStart : M σ Int := ptpSend B fuel (plain 0x9125)

/-- `ptp_eos_bulb_stop`. -/
def ptpEosBulbStop : M σ Int := ptpSend B fuel (plain 0x9126)

/-- `ptp_eos_set_ui_lock`. -/
def ptpEosSetUiLock : M σ Int := ptpSend B fuel (one 0x911B 0)

/-- `ptp_eos_reset_ui_lock`. -/
def ptpEosResetUiLock : M σ Int := ptpSend B fuel (plain 0x911C)

/-- `ptp_eos_get_liveview`: how long the image is that the reply starts with. -/
def ptpEosGetLiveview : M σ Int := do
  let rc ← ptpEosGetViewfinderData B fuel
  if rc = PtpGeneralError.checkCode then do
    let code ← inspect ptpGetReturnCode
    if code = 0xA102 then pure 0 else pure rc
  else if rc ≠ 0 then pure rc
  else do
    let payload ← inspect ptpGetPayload
    let length ← inspect (·.loadU32 payload)
    let _ ← inspect (·.loadU32 (payload + 4))
    if length = 0 then pure 0 else pure (toInt32 length)

/-! ## ml.c -/

/-- `ptp_ml_get_liveview_v1`. -/
def ptpMlGetLiveviewV1 : M σ Int := ptpSend B fuel (plain 0x9997)

/-- `ptp_chdk_get_version`. -/
def ptpChdkGetVersion : M σ Int := ptpSend B fuel (one 0x9999 0)

/-! ## generic.c -/

/-- `ptp_pre_take_picture`: the shutter half down, with up to ten attempts to hear of it. -/
def ptpPreTakePicture (di : Option PtpDeviceInfo) : M σ Int := do
  let dev ← inspect fun _ => ptpDeviceType di
  if dev = .eos then do
    updateRuntime fun r => { r with waitForResponse := 10 }
    let rc ← ptpEosRemoteReleaseOn B fuel 1
    if rc ≠ 0 then pure rc else pure 0
  else pure 0

/-- `ptp_take_picture`. -/
def ptpTakePicture (di : Option PtpDeviceInfo) : M σ Int := do
  let dev ← inspect fun _ => ptpDeviceType di
  if dev = .eos then do
    updateRuntime fun r => { r with waitForResponse := 3 }
    let rc ← ptpEosRemoteReleaseOn B fuel 2
    if rc ≠ 0 then pure rc
    else do
      let rc ← ptpEosRemoteReleaseOff B fuel 2
      if rc ≠ 0 then pure rc
      else do
        let rc ← ptpEosRemoteReleaseOff B fuel 1
        if rc ≠ 0 then pure rc else pure 0
  else pure PtpGeneralError.unsupported

end Functions

/-! ## liveview.c -/

/-- `enum PtpLiveViewType`. -/
inductive PtpLiveViewType
  | none
  | eos
  | canon
  | ml
  | eosMlBmp
  deriving DecidableEq, Repr

abbrev ptpOcMlLive360x240 : Int := 0x9997

abbrev ptpOcEosGetViewFinderData : Int := 0x9153

abbrev ptpOcCanonGetViewFinderImage : Int := 0x901D

/-- `ptp_liveview_type`. -/
def ptpLiveviewType (di : Option PtpDeviceInfo) : Except Halt PtpLiveViewType := do
  let dev ← ptpDeviceType di
  if dev = .canon ∨ dev = .eos then do
    if (← ptpCheckOpcode di ptpOcMlLive360x240) ≠ 0 then return .ml
    else if (← ptpCheckOpcode di (ptpOcMlLiveBmpRam.toNat : Int)) ≠ 0 then return .eosMlBmp
    else if (← ptpCheckOpcode di ptpOcEosGetViewFinderData) ≠ 0 then return .eos
    else if (← ptpCheckOpcode di ptpOcCanonGetViewFinderImage) ≠ 0 then return .canon
    else return .none
  else return .none

abbrev ptpDpcEosCaptureDestination : Int := 0xD11C

section Liveview

variable (B : Backend σ) (fuel : Nat)

/-- What `ptp_liveview_init` does from the case of an EOS camera on. -/
def liveviewInitEos : M σ Int := do
  let x ← ptpEosSetPropValue B fuel ptpDpcEosVfOutput 3
  if x ≠ 0 then pure x
  else do
    let x ← ptpEosSetPropValue B fuel ptpDpcEosCaptureDestination 4
    if x ≠ 0 then pure x else pure 0

/-- `ptp_liveview_init`; the case of the overlay falls through to that of an EOS camera. -/
def ptpLiveviewInit (di : Option PtpDeviceInfo) (s : MlStatics) : M σ (Int × MlStatics) := do
  let type ← inspect fun _ => ptpLiveviewType di
  match type with
  | .ml => pure (0, s)
  | .eosMlBmp => do
      let (x, s) ← ptpMlInitBmpLv B fuel s
      if x ≠ 0 then pure (x, s)
      else do
        let x ← liveviewInitEos B fuel
        pure (x, s)
  | .eos => do
      let x ← liveviewInitEos B fuel
      pure (x, s)
  | _ => pure (PtpGeneralError.runtimeErr, s)

/-- `ptp_liveview_deinit`. -/
def ptpLiveviewDeinit (di : Option PtpDeviceInfo) : M σ Int := do
  let type ← inspect fun _ => ptpLiveviewType di
  match type with
  | .ml | .eosMlBmp => pure 0
  | .eos => do
      let x ← ptpEosSetPropValue B fuel ptpDpcEosCaptureDestination 2
      if x ≠ 0 then pure x
      else do
        let x ← ptpEosHddCapacityPush B fuel
        if x ≠ 0 then pure x else pure 0
  | _ => pure PtpGeneralError.runtimeErr

end Liveview

end Libpict
