import Libpict.Runtime

/-! # Packet generation and parsing

Builders write a packet to the start of `r->data` and return its size. Accessors
recompute, from the packets found in `r->data`, where the response container and
the payload are; they return offsets where the C functions return pointers. Struct
fields are stored and loaded little-endian, as on the hosts the library supports.
-/

namespace Libpict

open Bytes CInt

def ptpPacketTypeCommand : Nat := 0x1
def ptpPacketTypeData : Nat := 0x2
def ptpPacketTypeResponse : Nat := 0x3

def ptpipInitCommandReq : Nat := 0x1
def ptpipInitFail : Nat := 0x5
def ptpipPacketCommandRequest : Nat := 0x6
def ptpipCommandResponse : Nat := 0x7
def ptpipDataPacketStart : Nat := 0x9
def ptpipDataPacketEnd : Nat := 0xC

def ptpRcOk : Nat := 0x2001

variable {σ : Type}

/-! ## Builders -/

/-- The parameters a command really carries. -/
def PtpCommand.paramList (cmd : PtpCommand) : List UInt32 := cmd.params.toList.take cmd.paramLength

/-- `ptpip_bulk_packet`: all five parameters are copied to the local structure,
but only `size` bytes of it to the buffer. -/
def ptpipBulkPacket (cmd : PtpCommand) (type : Nat) (dataLength : Int) : M σ Int := do
  let r ← runtime
  let size : Nat := 18 + 4 * cmd.paramLength
  let dataPhase := if r.dataPhaseLength = 0 then 1 else 2
  let bulk := leBytes 4 (toUInt32 (size + dataLength)) ++ leBytes 4 type ++ leBytes 4 dataPhase ++
    leBytes 2 cmd.code.toNat ++ leBytes 4 r.transactionId.toNat ++
    cmd.params.toList.flatMap fun param => leBytes 4 param.toNat
  storeData 0 (bulk.take size)
  pure size

/-- `ptpip_data_start_packet`. -/
def ptpipDataStartPacket (dataLength : Int) : M σ Int := do
  let r ← runtime
  storeData 0 (leBytes 4 20 ++ leBytes 4 ptpipDataPacketStart ++ leBytes 4 r.transactionId.toNat ++
    leBytes 8 (toSize dataLength))
  pure 20

/-- `ptpip_data_end_packet`. -/
def ptpipDataEndPacket (data : List UInt8) : M σ Int := do
  let r ← runtime
  let length ← intAdd 12 data.length
  storeData 0 (leBytes 4 (toUInt32 length) ++ leBytes 4 ptpipDataPacketEnd ++
    leBytes 4 r.transactionId.toNat)
  storeData 12 data
  pure length

/-- The header of a local `struct PtpBulkContainer`, stored field by field with
32-bit stores: `type` and `code` are 16-bit fields, so each of their stores also
clears the two bytes behind, which the next store then fills. -/
def bulkContainer (size type : Nat) (code : UInt16) (transaction : UInt32) : Buffer :=
  ((((⟨32, fun _ => 0⟩ : Buffer).store 0 (leBytes 4 size)).store 4 (leBytes 4 type)).store 6
    (leBytes 4 code.toNat)).store 8 (leBytes 4 transaction.toNat)

/-- Store 32-bit parameters one after the other. -/
def storeParams (bulk : Buffer) (offset : Nat) : List UInt32 → Buffer
  | [] => bulk
  | param :: rest => storeParams (bulk.store offset (leBytes 4 param.toNat)) (offset + 4) rest

/-- `ptpusb_new_data_packet`. -/
def ptpusbNewDataPacket (cmd : PtpCommand) (data : List UInt8) : M σ Int := do
  let r ← runtime
  let length ← intAdd 12 data.length
  let size := toUInt32 length
  let bulk := bulkContainer size ptpPacketTypeData cmd.code r.transactionId
  storeData 0 (bulk.slice 0 12)
  storeData 12 data
  pure (toInt32 size)

/-- `ptpusb_new_cmd_packet`. -/
def ptpusbNewCmdPacket (cmd : PtpCommand) : M σ Int := do
  let r ← runtime
  let size := 12 + 4 * cmd.paramLength
  let bulk := storeParams (bulkContainer size ptpPacketTypeCommand cmd.code r.transactionId) 12
    cmd.paramList
  storeData 0 (bulk.slice 0 size)
  pure size

/-- `ptp_new_cmd_packet`. -/
def ptpNewCmdPacket (cmd : PtpCommand) : M σ Int := do
  let r ← runtime
  match r.connectionType with
  | .ip => ptpipBulkPacket cmd ptpipPacketCommandRequest 0
  | _ => ptpusbNewCmdPacket cmd

/-! ## Accessors -/

/-- `ptpip_get_response_packet`: the offset of the response packet. -/
def ptpipGetResponsePacket (r : PtpRuntime) : Except Halt Int := do
  let startType ← r.loadU32 4
  if startType = ptpipCommandResponse then
    pure 0
  else if startType ≠ ptpipDataPacketStart then
    throw (.panic "ptpip_get_response_packet(): didn't get data start packet")
  else do
    let startLength ← r.loadU32 0
    let endType ← r.loadU32 (startLength + 4)
    if endType ≠ ptpipDataPacketEnd then
      throw (.panic "ptpip_get_response_packet(): didn't get data end packet")
    else do
      let endLength ← r.loadU32 startLength
      let type ← r.loadU32 (startLength + endLength + 4)
      if type ≠ ptpipCommandResponse then
        throw (.panic "ptpip_get_response_packet(): didn't get response packet")
      else pure (startLength + endLength)

/-- The `bulk` pointer of the USB-style accessors: the response container, which
the backend stores after the data container. -/
def bulkResponse (r : PtpRuntime) : Except Halt Int := do
  let type ← r.loadU16 4
  if type = ptpPacketTypeData then do
    let length ← r.loadU32 0
    pure length
  else pure 0

/-- `ptp_get_return_code`. -/
def ptpGetReturnCode (r : PtpRuntime) : Except Halt Int :=
  match r.connectionType with
  | .ip => do
      let resp ← ptpipGetResponsePacket r
      let code ← r.loadU16 (resp + 8)
      pure code
  | _ => do
      let bulk ← bulkResponse r
      let code ← r.loadU16 (bulk + 6)
      pure code

/-- `ptp_get_payload`: the offset of the payload in `r->data`. -/
def ptpGetPayload (r : PtpRuntime) : Except Halt Int :=
  match r.connectionType with
  | .ip => do
      let startType ← r.loadU32 4
      if startType ≠ ptpipDataPacketStart then
        throw (.panic "ptp_get_payload(): non data start packet")
      else do
        let startLength ← r.loadU32 0
        let endType ← r.loadU32 (startLength + 4)
        if endType ≠ ptpipDataPacketEnd then
          throw (.panic "ptp_get_payload(): non data end packet")
        else pure (startLength + 12)
  | _ => do
      let type ← r.loadU16 4
      if type = ptpPacketTypeResponse then pure 12
      else if type = ptpPacketTypeCommand then pure 28
      else pure 12

/-- `ptp_get_payload_length`. -/
def ptpGetPayloadLength (r : PtpRuntime) : Except Halt Int :=
  match r.connectionType with
  | .ip => do
      let startType ← r.loadU32 4
      if startType ≠ ptpipDataPacketStart then
        throw (.panic "ptp_get_payload_length(): non data start packet")
      else do
        let payloadLength ← r.loadU64 12
        pure (toInt32 payloadLength)
  | _ => do
      let length ← r.loadU32 0
      pure (toInt32 (toUInt32 (length - 12)))

/-- `ptp_get_param_length`. -/
def ptpGetParamLength (r : PtpRuntime) : Except Halt Int :=
  match r.connectionType with
  | .ip => do
      let resp ← ptpipGetResponsePacket r
      let length ← r.loadU32 resp
      pure (toInt32 (toUInt32 (length - 14) / 4))
  | _ => do
      let bulk ← bulkResponse r
      let length ← r.loadU32 bulk
      pure (toInt32 (toUInt32 (length - 12) / 4))

/-- `ptp_get_param`: with a data container in front, the USB-style branch returns
the code of the response whatever the index. -/
def ptpGetParam (r : PtpRuntime) (index : Int) : Except Halt Nat :=
  match r.connectionType with
  | .ip => do
      let resp ← ptpipGetResponsePacket r
      r.loadU32 (resp + 14 + 4 * index)
  | _ => do
      let type ← r.loadU16 4
      if type = ptpPacketTypeData then do
        let length ← r.loadU32 0
        r.loadU16 (length + 6)
      else r.loadU32 (12 + 4 * index)

/-- `ptp_get_last_transaction_id`. -/
def ptpGetLastTransactionId (r : PtpRuntime) : Except Halt Int :=
  match r.connectionType with
  | .ip => do
      let resp ← ptpipGetResponsePacket r
      let transaction ← r.loadU32 (resp + 10)
      pure (toInt32 transaction)
  | _ => do
      let bulk ← bulkResponse r
      let transaction ← r.loadU32 (bulk + 8)
      pure (toInt32 transaction)

end Libpict
