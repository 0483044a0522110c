import Libpict.Packet

/-! # Packet transport

The send loop, and the two receive functions: `ptpusb_read_all_packets` reads
chunks of up to `max_packet_size` bytes and looks at the containers received so
far after each; `ptpip_receive_bulk_packets` reads packet by packet, a length
field first and the rest of the packet in a loop. Loops take a bound on their
iterations.
-/

namespace Libpict

open Bytes CInt

variable {σ : Type} (B : Backend σ)

/-! ## Sending -/

/-- The backend function that the send loop and the USB-style receive loop select. -/
def bulkEndpoint : PtpConnType → Option Endpoint
  | .usb => some .usb
  | .ipUsb => some .socket
  | _ => none

/-- One round of `ptp_send_packet`; the loop state is `sent`. -/
def ptpSendPacketBody (length : Int) (sent : Nat) : M σ (Nat ⊕ Int) := do
  let r ← runtime
  let max := if length - sent > r.maxPacketSize then r.maxPacketSize else length - sent
  match bulkEndpoint r.connectionType with
  | none => halt (.panic "illegal connection_type")
  | some endpoint => do
      let rc ← cmdWrite B endpoint sent max
      match rc with
      | none => pure (.inr PtpGeneralError.ioErr)
      | some count =>
          let sent := sent + count
          if (sent : Int) > length then halt (.panic "BUG: Sent too many bytes (?)")
          else if (sent : Int) = length then pure (.inr sent)
          else pure (.inl sent)

/-- `ptp_send_packet`. -/
def ptpSendPacket (fuel : Nat) (length : Int) : M σ Int :=
  Exec.iterate .spent (ptpSendPacketBody B length) fuel 0

/-! ## PTP/IP packets -/

/-- The loop of `ptpip_read_packet` that reads the length field; the first argument
is `r->wait_for_response`, the second the result of the last read. -/
def ptpipReadLength (offset : Int) : Nat → Option Nat → M σ (Option Nat)
  | 0, rc => pure rc
  | waitForResponse + 1, _ => do
      let rc ← cmdRead B .socket offset 4
      updateRuntime fun r => { r with waitForResponse := waitForResponse }
      if 0 < rc.getD 0 then pure rc else ptpipReadLength offset waitForResponse rc

/-- One round of the loop of `ptpip_read_packet` that reads the rest of the packet;
the loop state is `read`. -/
def ptpipReadRestBody (offset : Int) (read : Int) : M σ (Int ⊕ Int) := do
  let length ← inspect (·.loadU32 offset)
  let rc ← cmdRead B .socket (offset + read) (toInt32 (toUInt32 (length - read)))
  match rc with
  | none => pure (.inr PtpGeneralError.ioErr)
  | some count => do
      let read ← intAdd read count
      let length ← inspect (·.loadU32 offset)
      if toUInt32 (length - read) = 0 then pure (.inr read) else pure (.inl read)

/-- The part of `ptpip_read_packet` after the four bytes of the length field: make
room for the packet and read the rest of it. The size test adds modulo 2^32. -/
def ptpipReadRest (fuel : Nat) (offset : Int) : M σ Int := do
  let length ← inspect (·.loadU32 offset)
  if toUInt32 (length - 4) = 0 then pure 4
  else do
    let front ← intAdd offset 4
    let need := toUInt32 (front + length)
    let r ← runtime
    let rc ← (if need ≥ toUInt32 r.dataLength then ptpBufferResize B need else pure 0)
    if rc ≠ 0 then pure rc
    else Exec.iterate .spent (ptpipReadRestBody B offset) fuel 4

/-- `ptpip_read_packet`. -/
def ptpipReadPacket (fuel : Nat) (offset : Int) : M σ Int := do
  let r ← runtime
  let rc ← ptpipReadLength B offset r.waitForResponse (some 0)
  updateRuntime fun r => { r with waitForResponse := r.responseWaitDefault }
  match rc with
  | none => pure PtpGeneralError.commandIgnored
  | some count => if count < 4 then pure PtpGeneralError.ioErr else ptpipReadRest B fuel offset

/-- The last packet of a reply with a data phase in `ptpip_receive_bulk_packets`. The
log message at the end reads the return code. -/
def ptpipReceiveResponse (fuel : Nat) (third : Int) : M σ Int := do
  let rc ← ptpipReadPacket B fuel third
  if rc < 0 then pure rc
  else do
    let type ← inspect (·.loadU32 (third + 4))
    if type ≠ ptpipCommandResponse then pure PtpGeneralError.ioErr
    else do
      let _ ← inspect ptpGetReturnCode
      pure 0

/-- The packets behind a start-data packet in `ptpip_receive_bulk_packets`. -/
def ptpipReceiveData (fuel : Nat) (second : Int) : M σ Int := do
  let rc ← ptpipReadPacket B fuel second
  if rc < 0 then pure rc
  else do
    let type ← inspect (·.loadU32 (second + 4))
    if type ≠ ptpipDataPacketEnd then pure PtpGeneralError.ioErr
    else do
      let length ← inspect (·.loadU32 second)
      let third ← intAdd second (toInt32 length)
      ptpipReceiveResponse B fuel third

/-- `ptpip_receive_bulk_packets`. -/
def ptpipReceiveBulkPackets (fuel : Nat) : M σ Int := do
  let rc ← ptpipReadPacket B fuel 0
  if rc < 0 then pure rc
  else do
    let type ← inspect (·.loadU32 4)
    if type = ptpipDataPacketStart then ptpipReceiveData B fuel rc
    else if type = ptpipCommandResponse then do
      let _ ← inspect ptpGetReturnCode
      pure 0
    else pure PtpGeneralError.ioErr

/-! ## USB-style containers -/

/-- What the containers received so far mean for the USB-style receive loop. -/
inductive Verdict
  /-- Read on. -/
  | more
  /-- The reply is complete. -/
  | done
  /-- The reply is malformed. -/
  | reject
  deriving DecidableEq, Repr

/-- The inspection at the end of each round of `ptpusb_read_all_packets`, with
`read` bytes received; the comparisons are between 32-bit unsigned values. -/
def bulkVerdict (read : Nat) (r : PtpRuntime) : Except Halt Verdict := do
  if read < 12 then pure .more
  else do
    let length ← r.loadU32 0
    let type ← r.loadU16 4
    if read < length then pure .more
    else if type = ptpPacketTypeResponse then pure .done
    else if type = ptpPacketTypeData then do
      if toUInt32 (length + 12) > read then pure .more
      else do
        let dataLength ← r.loadU32 length
        let type ← r.loadU16 (length + 4)
        if type ≠ ptpPacketTypeResponse then pure .reject
        else if read = toUInt32 (dataLength + length) then pure .done
        else if read > toUInt32 (dataLength + length) then pure .reject
        else pure .more
    else pure .more

/-- The local variables of the USB-style receive loop. -/
structure BulkRead where
  read : Nat
  readAttempts : Nat

/-- A round of `ptpusb_read_all_packets` after its read. -/
def ptpusbReadResult (s : BulkRead) (rc : Option Nat) : M σ (BulkRead ⊕ Int) := do
  let r ← runtime
  if rc.getD 0 = 0 ∧ r.waitForResponse ≠ 0 then do
    -- a failed or an empty read, with attempts left
    updateRuntime fun r => { r with waitForResponse := r.waitForResponse - 1 }
    pure (.inl { s with readAttempts := s.readAttempts + 1 })
  else
    match rc with
    | none => pure (.inr PtpGeneralError.ioErr)
    | some count =>
        let s := { s with read := s.read + count }
        if r.waitForResponse = 0 ∧ s.readAttempts ≠ 0 then
          pure (.inr PtpGeneralError.commandIgnored)
        else do
          let verdict ← inspect (bulkVerdict s.read)
          match verdict with
          | .more => pure (.inl s)
          | .done => pure (.inr 0)
          | .reject => pure (.inr PtpGeneralError.ioErr)

/-- One round of `ptpusb_read_all_packets`. `read + rc` cannot overflow, being at
most the sum already checked. -/
def ptpusbReadBody (s : BulkRead) : M σ (BulkRead ⊕ Int) := do
  let r ← runtime
  let need ← intAdd s.read r.maxPacketSize
  let rc ← (if r.dataLength < need then ptpBufferResize B (toSize need) else pure 0)
  if rc ≠ 0 then pure (.inr rc)
  else
    match bulkEndpoint r.connectionType with
    | none => halt (.panic "illegal connection type")
    | some endpoint => do
        let rc ← cmdRead B endpoint s.read r.maxPacketSize
        ptpusbReadResult s rc

/-- `ptpusb_read_all_packets`. -/
def ptpusbReadAllPackets (fuel : Nat) : M σ Int := do
  updateRuntime fun r => { r with waitForResponse := r.responseWaitDefault }
  Exec.iterate .spent (ptpusbReadBody B) fuel ⟨0, 0⟩

/-- `ptp_receive_all_packets`. -/
def ptpReceiveAllPackets (fuel : Nat) : M σ Int := do
  let r ← runtime
  match r.connectionType with
  | .ip => ptpipReceiveBulkPackets B fuel
  | .usb | .ipUsb => ptpusbReadAllPackets B fuel
  | .ble => halt (.panic "Unknown connection type %d")

end Libpict
