import Libpict.Base.Buffer
import Libpict.Base.CInt
import Libpict.Base.Exec

/-! # The runtime structure and its backend

`PtpRuntime` is the part of the C structure that the transport and the operations
read and write. A computation of the library runs in a `World`: the runtime, the
device behind the backend, and the log of all backend calls made so far. The
backend and the allocator are parameters: a backend answers every read and write
in whatever way its device state says, within the sizes it is asked for.

A computation stops in `Halt` when the C program has no return value to give.
-/

namespace Libpict

open Bytes CInt

/-- `enum PtpConnType`. -/
inductive PtpConnType
  | ip
  | ipUsb
  | usb
  | ble
  deriving DecidableEq, Repr

/-! `enum PtpGeneralError`: library errors, not PTP return codes. -/

namespace PtpGeneralError

abbrev outOfMem : Int := -4
abbrev ioErr : Int := -5
abbrev runtimeErr : Int := -6
abbrev unsupported : Int := -7
abbrev checkCode : Int := -8
abbrev commandIgnored : Int := -10

end PtpGeneralError

/-- `PTP_DEFAULT_SIZE`: 1mb default buffer size. -/
def ptpDefaultSize : Nat := 1000000

/-- Ways for a call not to return. -/
inductive Halt
  /-- `ptp_panic` or `abort`. -/
  | panic (message : String)
  /-- Undefined behaviour: an access outside `r->data` or through NULL, or signed overflow. -/
  | undefined
  /-- Signed overflow of the `int` that counts the transactions, which is undefined as well. -/
  | counterOverflow
  /-- The loop bound of the model is spent and the loop is still going. -/
  | spent
  deriving DecidableEq, Repr

/-- The fields of `struct PtpRuntime` that the transport and the operations use.
`mutex` holds the recursion depth of the calling thread, or NULL. -/
structure PtpRuntime where
  ioKillSwitch : Bool
  operationKillSwitch : Bool
  connectionType : PtpConnType
  transaction : Int
  data : Option Buffer
  dataLength : Int
  maxPacketSize : Int
  dataPhaseLength : Int
  mutex : Option Nat
  waitForResponse : Nat
  responseWaitDefault : Nat

/-- `struct PtpCommand`; callers pass at most the five parameters it has room for. -/
structure PtpCommand where
  code : UInt16
  params : Vector UInt32 5
  paramLength : Nat
  paramLength_le : paramLength ≤ 5

namespace PtpRuntime

/-- The 32 bits of `r->transaction`, as the packets carry them. -/
def transactionId (r : PtpRuntime) : UInt32 := UInt32.ofNat (toUInt32 r.transaction)

/-- Read `size` bytes at `r->data + offset`. -/
def load (r : PtpRuntime) (offset size : Int) : Except Halt (List UInt8) :=
  match r.data with
  | none => .error .undefined
  | some buffer =>
      if 0 ≤ offset ∧ 0 ≤ size ∧ offset + size ≤ buffer.size then
        .ok (buffer.slice offset.toNat size.toNat)
      else .error .undefined

/-- `memcpy` to `r->data + offset`. -/
def store (r : PtpRuntime) (offset : Int) (bytes : List UInt8) : Except Halt PtpRuntime :=
  match r.data with
  | none => .error .undefined
  | some buffer =>
      if 0 ≤ offset ∧ offset + bytes.length ≤ buffer.size then
        .ok { r with data := some (buffer.store offset.toNat bytes) }
      else .error .undefined

/-- The little-endian field of `size` bytes at `r->data + offset`. -/
def loadLe (r : PtpRuntime) (size : Nat) (offset : Int) : Except Halt Nat :=
  (r.load offset size).map leValue

abbrev loadU16 (r : PtpRuntime) (offset : Int) : Except Halt Nat := r.loadLe 2 offset

abbrev loadU32 (r : PtpRuntime) (offset : Int) : Except Halt Nat := r.loadLe 4 offset

abbrev loadU64 (r : PtpRuntime) (offset : Int) : Except Halt Nat := r.loadLe 8 offset

end PtpRuntime

/-! ## Setting up a runtime -/

/-- `ptp_reset`. -/
def ptpReset (r : PtpRuntime) : PtpRuntime :=
  { r with
    ioKillSwitch := true
    operationKillSwitch := true
    transaction := 0
    connectionType := .usb
    responseWaitDefault := 1
    waitForResponse := 1 }

/-- `ptp_init`: `memory` is what `malloc` finds at the buffer's address, or NULL. -/
def ptpInit (memory : Option (Nat → UInt8)) : PtpRuntime :=
  let zeroed : PtpRuntime :=
    { ioKillSwitch := false, operationKillSwitch := false, connectionType := .usb,
      transaction := 0, data := none, dataLength := 0, maxPacketSize := 0,
      dataPhaseLength := 0, mutex := none, waitForResponse := 0, responseWaitDefault := 0 }
  { ptpReset zeroed with
    data := memory.map fun contents => ⟨ptpDefaultSize, contents⟩
    dataLength := ptpDefaultSize
    mutex := some 0 }

/-- `ptp_new`: the options are a bitmask of connection types. -/
def ptpNew (memory : Option (Nat → UInt8)) (options : UInt32) : PtpRuntime :=
  let r := ptpInit memory
  if options &&& 1 ≠ 0 then { r with connectionType := .ip }
  else if options &&& 4 ≠ 0 then { r with connectionType := .usb }
  else if options &&& 2 ≠ 0 then { r with connectionType := .ipUsb }
  else r

/-! ## The backend interface -/

/-- The two pairs of command functions of the backend: `ptp_cmd_*` and `ptpip_cmd_*`. -/
inductive Endpoint
  | usb
  | socket
  deriving DecidableEq, Repr

namespace PtpRuntime

/-- `r->max_packet_size` behind a backend call. Each `ptpip_cmd_*` of a live connection
calls `init_comm` of ip.c, which sets it for TCP. -/
def packetSize (r : PtpRuntime) : Endpoint → Int
  | .usb => r.maxPacketSize
  | .socket => if r.ioKillSwitch then r.maxPacketSize else 65535

def initComm (r : PtpRuntime) (endpoint : Endpoint) : PtpRuntime :=
  { r with maxPacketSize := r.packetSize endpoint }

end PtpRuntime

/-- A backend over devices in states `σ`, and the allocator. `none` is a negative
return value, of which the library only looks at the sign; `realloc` says whether
the given reallocation, counted from the start, can provide the given size. -/
structure Backend (σ : Type) where
  cmdWrite : Endpoint → List UInt8 → σ → Option Nat × σ
  cmdRead : Endpoint → (size : Nat) → σ → Option { bytes : List UInt8 // bytes.length ≤ size } × σ
  realloc : Nat → Nat → Bool

/-- A backend call: what was asked for and what came of it. Reads record the
buffer length that the runtime held at the time. -/
inductive Call
  | write (endpoint : Endpoint) (bytes : List UInt8) (sent : Option Nat)
  | read (endpoint : Endpoint) (offset size dataLength : Int) (got : Option (List UInt8))
  deriving DecidableEq

structure World (σ : Type) where
  r : PtpRuntime
  device : σ
  reallocs : Nat
  log : List Call

/-- Computations of the library. -/
abbrev M (σ : Type) := EStateM Halt (World σ)

variable {σ : Type}

def halt {α : Type} (reason : Halt) : M σ α := fun w => .error reason w

def runtime : M σ PtpRuntime := fun w => .ok w.r w

def updateRuntime (f : PtpRuntime → PtpRuntime) : M σ Unit := fun w => .ok () { w with r := f w.r }

/-- Read something off the runtime. -/
def inspect {α : Type} (read : PtpRuntime → Except Halt α) : M σ α := fun w =>
  match read w.r with
  | .ok a => .ok a w
  | .error reason => .error reason w

/-- `memcpy` to `r->data + offset`. -/
def storeData (offset : Int) (bytes : List UInt8) : M σ Unit := fun w =>
  match w.r.store offset bytes with
  | .ok r => .ok () { w with r := r }
  | .error reason => .error reason w

/-- Signed addition. -/
def intAdd (a b : Int) : M σ Int := if Fits (a + b) then pure (a + b) else halt .undefined

/-- A backend write of the `size` bytes at `r->data + offset`. -/
def cmdWrite (B : Backend σ) (endpoint : Endpoint) (offset size : Int) : M σ (Option Nat) := fun w =>
  match w.r.load offset size with
  | .error reason => .error reason w
  | .ok bytes =>
      let (sent, device) := B.cmdWrite endpoint bytes w.device
      .ok sent
        { w with
          r := w.r.initComm endpoint
          device := device
          log := w.log ++ [.write endpoint bytes sent] }

/-- A backend read of at most `size` bytes to `r->data + offset`. A request that
does not lie inside the allocation is undefined, whatever the device would send. -/
def cmdRead (B : Backend σ) (endpoint : Endpoint) (offset size : Int) : M σ (Option Nat) := fun w =>
  let call := Call.read endpoint offset size w.r.dataLength
  match w.r.load offset size with
  | .error reason => .error reason { w with log := w.log ++ [call none] }
  | .ok _ =>
      match B.cmdRead endpoint size.toNat w.device with
      | (none, device) =>
          .ok none
            { w with r := w.r.initComm endpoint, device := device, log := w.log ++ [call none] }
      | (some bytes, device) =>
          .ok (some bytes.1.length)
            { w with
              r := { w.r.initComm endpoint with
                data := w.r.data.map fun buffer => buffer.store offset.toNat bytes }
              device := device
              log := w.log ++ [call (some bytes)] }

/-- `ptp_buffer_resize`: `realloc` with a little extra space. -/
def ptpBufferResize (B : Backend σ) (size : Nat) : M σ Int := fun w =>
  if size < toSize w.r.dataLength then
    .error (.panic "You cannot downsize the data buffer (%u -> %u)") w
  else
    let target := toSize (size + 100)
    let dataLength := toInt32 (size + 100)
    if B.realloc w.reallocs target then
      let data := some ((w.r.data.getD ⟨0, fun _ => 0⟩).resize target)
      .ok 0 { w with r := { w.r with data := data, dataLength := dataLength },
                     reallocs := w.reallocs + 1 }
    else
      .ok PtpGeneralError.outOfMem
        { w with r := { w.r with data := none, dataLength := dataLength },
                 reallocs := w.reallocs + 1 }

end Libpict
