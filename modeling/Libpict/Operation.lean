import Libpict.Transport

/-! # Operations

`ptp_send` and `ptp_send_data` run one transaction under the mutex: they write
the packets of the command, receive the reply, and try the whole exchange once
more when nothing came back.
-/

namespace Libpict

open Bytes CInt

variable {σ : Type} (B : Backend σ)

/-! ## The mutex -/

/-- `ptp_mutex_lock`; a runtime without a mutex is left alone. -/
def ptpMutexLock : M σ Unit := updateRuntime fun r => { r with mutex := r.mutex.map (· + 1) }

/-- `ptp_mutex_unlock`. -/
def ptpMutexUnlock : M σ Unit := updateRuntime fun r => { r with mutex := r.mutex.map (· - 1) }

/-! ## Transactions -/

/-- `ptp_check_rc`. -/
def ptpCheckRc : M σ Int := do
  let code ← inspect ptpGetReturnCode
  if code = 0xffff then pure PtpGeneralError.ioErr
  else if code ≠ ptpRcOk then do
    -- the log message reads the code once more
    let _ ← inspect ptpGetReturnCode
    pure PtpGeneralError.checkCode
  else pure 0

/-- Send one packet that a builder has put in the buffer, then go on. -/
def sendThen (fuel : Nat) (length : Int) (next : M σ Int) : M σ Int := do
  let sent ← ptpSendPacket B fuel length
  if sent ≠ length then pure PtpGeneralError.ioErr else next

/-- The receiving end of `ptp_send_try` and `ptp_send_data_try`. -/
def receiveReply (fuel : Nat) : M σ Int := do
  let rc ← ptpReceiveAllPackets B fuel
  if rc < 0 then pure rc else pure 0

/-- `ptp_send_try`. -/
def ptpSendTry (fuel : Nat) (cmd : PtpCommand) : M σ Int := do
  let length ← ptpNewCmdPacket cmd
  sendThen B fuel length (receiveReply B fuel)

/-- `ptp_send_data_try`. -/
def ptpSendDataTry (fuel : Nat) (cmd : PtpCommand) (data : List UInt8) : M σ Int := do
  let plength ← ptpNewCmdPacket cmd
  sendThen B fuel plength do
    let r ← runtime
    match r.connectionType with
    | .ip => do
        let plength ← ptpipDataStartPacket data.length
        sendThen B fuel plength do
          let plength ← ptpipDataEndPacket data
          sendThen B fuel plength (receiveReply B fuel)
    | _ => do
        let plength ← ptpusbNewDataPacket cmd data
        sendThen B fuel plength (receiveReply B fuel)

/-- `r->transaction++`; the counter is an `int`. -/
def countTransaction : M σ Unit := do
  let r ← runtime
  if Fits (r.transaction + 1) then
    updateRuntime fun r => { r with transaction := r.transaction + 1 }
  else halt .counterOverflow

/-- The end of a transaction whose exchange went through. -/
def finishTransaction : M σ Int := do
  countTransaction
  let rc ← ptpCheckRc
  ptpMutexUnlock
  pure rc

/-- What `ptp_send` and `ptp_send_data` do about the result of the first attempt: try
again if the command was ignored, and end the transaction. -/
def afterAttempt (attempt : M σ Int) (rc : Int) : M σ Int := do
  if rc = PtpGeneralError.commandIgnored then do
    let rc ← attempt
    if rc ≠ 0 then do
      updateRuntime fun r => { r with operationKillSwitch := true }
      ptpMutexUnlock
      pure PtpGeneralError.ioErr
    else finishTransaction
  else if rc ≠ 0 then do
    ptpMutexUnlock
    updateRuntime fun r => { r with operationKillSwitch := true }
    pure PtpGeneralError.ioErr
  else finishTransaction

/-- The attempts of `ptp_send` and `ptp_send_data`. The mutex is held. -/
def attemptTwice (attempt : M σ Int) : M σ Int := do
  let rc ← attempt
  afterAttempt attempt rc

/-- The transaction shared by `ptp_send` and `ptp_send_data`: `prepare` runs once
under the mutex, before the attempts. -/
def ptpTransaction (prepare : M σ Unit) (attempt : M σ Int) : M σ Int := do
  let r ← runtime
  if r.operationKillSwitch then pure PtpGeneralError.ioErr
  else do
    ptpMutexLock
    let r ← runtime
    if r.operationKillSwitch then do
      ptpMutexUnlock
      pure PtpGeneralError.ioErr
    else do
      prepare
      attemptTwice attempt

/-- `ptp_send`. -/
def ptpSend (fuel : Nat) (cmd : PtpCommand) : M σ Int :=
  ptpTransaction (updateRuntime fun r => { r with dataPhaseLength := 0 }) (ptpSendTry B fuel cmd)

/-- What `ptp_send_data` does before its first attempt. The result of the
reallocation is not looked at. -/
def prepareData (data : List UInt8) : M σ Unit := do
  updateRuntime fun r => { r with dataPhaseLength := data.length }
  let r ← runtime
  let need ← intAdd data.length 50
  if need > r.dataLength then do
    let size ← intAdd 100 data.length
    let _ ← ptpBufferResize B (toSize size)
    pure ()
  else pure ()

/-- `ptp_send_data`. -/
def ptpSendData (fuel : Nat) (cmd : PtpCommand) (data : List UInt8) : M σ Int :=
  ptpTransaction (prepareData B data) (ptpSendDataTry B fuel cmd data)

/-! ## PTP/IP initialisation -/

/-- `ptp_write_unicode_string`: of the two-byte terminator only the second byte is
written. -/
def ptpWriteUnicodeString (offset : Int) (string : List UInt8) : M σ Int := do
  storeData offset (string.flatMap fun char => [char, 0])
  storeData (offset + string.length * 2 + 1) [0]
  pure string.length

/-- `ptpip_init_command_request`. The name goes to its 8-byte field after the
version behind that field has been set. -/
def ptpipInitCommandRequest (deviceName : List UInt8) : M σ Int := do
  storeData 0 (leBytes 4 36 ++ leBytes 4 ptpipInitCommandReq ++ List.replicate 16 0xff ++
    List.replicate 8 0 ++ leBytes 2 0 ++ leBytes 2 1)
  let _ ← ptpWriteUnicodeString 24 deviceName
  let length ← inspect (·.loadU32 0)
  let rc ← cmdWrite B .socket 0 (toInt32 length)
  if rc.map (toUInt32 ·) ≠ some length then pure PtpGeneralError.ioErr
  else do
    let rc ← cmdRead B .socket 0 4
    if rc.isNone then pure PtpGeneralError.ioErr
    else do
      let length ← inspect (·.loadU32 0)
      let rc ← cmdRead B .socket 4 (toInt32 (toUInt32 (length - 4)))
      if rc.isNone then pure PtpGeneralError.ioErr
      else do
        let type ← inspect (·.loadU32 4)
        if type = ptpipInitFail then pure PtpGeneralError.checkCode else pure 0

end Libpict
