import Libpict.Container
import Libpict.Payload

/-! # The traffic decoder

The decoder is handed the frames of a capture one after the other and prints the container at
the beginning of each; the data of data containers also goes to a raw file. A container that is
longer than its frame is to be followed by the rest of it, which is counted and left out.
-/

namespace Libpict

open Bytes CInt

/-! ## Containers in frames -/

abbrev ptpOcOpenSession : Nat := 0x1002

/-- What the decoder reports of a container. -/
structure Reported where
  type : Nat
  length : Nat
  code : Nat
  transaction : Nat
  deriving DecidableEq, Repr

/-- What is printed for a frame: that it goes on with a container, or the container that it
starts with, with its parameters or the first bytes of its data. -/
inductive DumpText
  | split (length : Nat) (unfinishedPacket : Int)
  | container (heading : String) (fileOf : Nat) (reported : Reported) (name : String)
      (params : List Nat) (data : List UInt8)
  deriving DecidableEq, Repr

/-- `struct Context`; `f` and `rawOut` are what has been written to the two files, and a raw
file that could not be opened is NULL. -/
structure DecContext where
  vendor : Int
  lastTransaction : Int
  unfinishedPacket : Int
  transaction : Int
  lastType : Nat
  f : List DumpText
  rawOut : Option (List UInt8)
  deriving DecidableEq, Repr

/-- The context that `ptp_decode_output` starts with; the vendor is that of EOS devices. -/
def DecContext.initial : DecContext := ⟨1, 0, 0, -1, ptpPacketTypeResponse, [], some []⟩

/-- `ptp_get_enum`: the name of a code, among those of responses or of operations. -/
abbrev CodeNames := (response : Bool) → (vendor : Int) → (code : Nat) → Option String

/-- The line above a container. -/
def dumpHeading (ctx : DecContext) (type : Nat) : String :=
  let newline := if ctx.transaction = -1 then "" else "\n"
  if type = ptpPacketTypeCommand then newline ++ "--- COMMAND Container --- \n"
  else if type = ptpPacketTypeData then
    if ctx.lastType = ptpPacketTypeCommand then "--- DATA Container ---\n"
    else if ctx.lastType = ptpPacketTypeData then newline ++ "--- Random DATA Container\n"
    else ""
  else if type = ptpPacketTypeResponse then newline ++ "--- RESPONSE Container ---\n"
  else ""

/-- The parameters of a command from the `i`-th on, with `left` of them to go. -/
def dumpParams (bytes : Int) : (left i : Nat) → Reader UInt8 Halt (List Nat)
  | 0, _ => return []
  | left + 1, i => do
      let param ← ptpReadU32 (bytes + (12 + 4 * i : Nat))
      let rest ← dumpParams bytes left (i + 1)
      return param :: rest

/-- The data of a container of which `length` bytes are in the frame: the raw file is written
what the container's own length says, and at most 51 bytes are printed. -/
def dumpData (ctx : DecContext) (bytes : Int) (length containerLength : Nat) :
    Reader UInt8 Halt (List UInt8 × DecContext) := do
  let pl := toInt32 ((containerLength : Int) - 12)
  let unfinished := if length < containerLength then toInt32 ((containerLength : Int) - length)
    else ctx.unfinishedPacket
  let rawOut ← match ctx.rawOut with
    | none => pure none
    | some written => do
        let payload ← Reader.read (bytes + 12) (toSize pl)
        pure (some (written ++ payload))
  let data ← Reader.read (bytes + 12) (min pl.toNat 51 : Nat)
  return (data, { ctx with unfinishedPacket := unfinished, rawOut := rawOut })

/-- The last line of a container: its parameters, or its data. -/
def dumpItems (ctx : DecContext) (bytes : Int) (length : Nat) (c : Reported) :
    Reader UInt8 Halt (List Nat × List UInt8 × DecContext) :=
  if c.type = ptpPacketTypeCommand then do
    let params ← dumpParams bytes ((c.length - 12) / 4) 0
    return (params, [], if c.code = ptpOcOpenSession then { ctx with transaction := 0 } else ctx)
  else if c.type = ptpPacketTypeData then do
    let (data, dumped) ← dumpData ctx bytes length c.length
    return ([], data, { dumped with lastTransaction := toInt32 c.transaction })
  else return ([], [], ctx)

/-- The rest of `ptp_dump_packet`, once the header has been read. -/
def dumpBody (names : CodeNames) (ctx : DecContext) (fileOf : Nat) (bytes : Int) (length : Nat)
    (c : Reported) : Reader UInt8 Halt (Int × DecContext) := do
  let name := (names (c.type = ptpPacketTypeResponse) ctx.vendor c.code).getD "??"
  let (params, data, dumped) ← dumpItems ctx bytes length c
  let text := DumpText.container (dumpHeading ctx c.type) fileOf c name params data
  let transaction := if dumped.transaction = -1 then -1 else dumped.transaction + 1
  return (0, { dumped with f := dumped.f ++ [text], lastType := c.type, transaction := transaction })

/-- `ptp_dump_packet` behind the test for an unfinished packet; a command of another size than
the structure can have is an error. -/
def dumpContainer (names : CodeNames) (ctx : DecContext) (fileOf : Nat) (bytes : Int)
    (length : Nat) : Reader UInt8 Halt (Int × DecContext) := do
  let type ← ptpReadU16 (bytes + 4)
  let containerLength ← ptpReadU32 bytes
  if type = ptpPacketTypeCommand ∧ (32 < containerLength ∨ containerLength < 12) then return (-1, ctx)
  let code ← ptpReadU16 (bytes + 6)
  let transaction ← ptpReadU32 (bytes + 8)
  dumpBody names ctx fileOf bytes length ⟨type, containerLength, code, transaction⟩

/-- `ptp_dump_packet`. The count is cleared before the frame is moved on by it. -/
def ptpDumpPacket (names : CodeNames) (ctx : DecContext) (fileOf length : Nat) :
    Reader UInt8 Halt (Int × DecContext) :=
  if ctx.unfinishedPacket = 0 then dumpContainer names ctx fileOf 0 length
  else
    let ctx := { ctx with f := ctx.f ++ [DumpText.split length ctx.unfinishedPacket] }
    if length > toUInt32 ctx.unfinishedPacket then
      -- Detect a packet sneaking in after long transfers.
      let ctx := { ctx with unfinishedPacket := 0 }
      dumpContainer names ctx fileOf ctx.unfinishedPacket
        (toUInt32 ((length : Int) - ctx.unfinishedPacket))
    else return (0, { ctx with
      unfinishedPacket := toInt32 ((toUInt32 ctx.unfinishedPacket : Int) - length) })

/-- `packet_handler`, for a frame behind a header of some bytes: the offset in the file and the
context that the next frame finds. `none` is a read outside the frame. -/
def packetHandler (names : CodeNames) (header : Nat) (state : Nat × DecContext)
    (frame : List UInt8) : Option (Nat × DecContext) :=
  if frame.length = 0 then some state
  else match (ptpDumpPacket names state.2 state.1 frame.length).view 0 frame with
    | some (.ok (_, ctx)) => some (state.1 + (header + frame.length), ctx)
    | _ => none

/-- The decoder on the frames of a capture. -/
def decodeFrames (names : CodeNames) (header : Nat) (ctx : DecContext) (frames : List (List UInt8)) :
    Option DecContext :=
  (frames.foldlM (packetHandler names header) (0, ctx)).map Prod.snd

/-- The containers that have been reported. -/
def DecContext.reported (ctx : DecContext) : List Reported :=
  ctx.f.filterMap fun text => match text with
    | .split _ _ => none
    | .container _ _ c _ _ _ => some c

/-! ## Cutting containers -/

/-- A container of a capture, with its type. -/
structure Captured where
  type : Nat
  container : Container

namespace Captured

def bytes (c : Captured) : List UInt8 := c.container.bytes c.type

/-- What is to be reported of it. -/
def reported (c : Captured) : Reported :=
  ⟨c.type, 12 + c.container.body.length, c.container.code.toNat, c.container.transaction.toNat⟩

/-- What is to be written to the raw file. -/
def payload (c : Captured) : List UInt8 := if c.type = ptpPacketTypeData then c.container.body else []

/-- A container as the protocol has it: a command or a response has up to five parameters. -/
structure WellFormed (c : Captured) : Prop where
  type : c.type = ptpPacketTypeCommand ∨ c.type = ptpPacketTypeData ∨ c.type = ptpPacketTypeResponse
  length : 12 + c.container.body.length < 4294967296
  params : c.type ≠ ptpPacketTypeData → ∃ n ≤ 5, c.container.body.length = 4 * n

/-- The bytes are the beginning of the container, and the whole of it unless it is a data
container. -/
def Starts (c : Captured) (first rest : List UInt8) : Prop :=
  c.bytes = first ++ rest ∧ first ≠ [] ∧ (rest ≠ [] → c.type = ptpPacketTypeData)

end Captured

/-- Frames that hold the bytes pending of a data container and then some containers, data
containers cut in any way. A frame may start a container behind the end of the one before it. -/
inductive Segmented : (pending : List UInt8) → List Captured → List (List UInt8) → Prop
  | done : Segmented [] [] []
  | start {pending first rest : List UInt8} {c : Captured} {containers : List Captured}
      {frames : List (List UInt8)} (hstarts : c.Starts first rest)
      (hrest : Segmented rest containers frames) :
      Segmented pending (c :: containers) ((pending ++ first) :: frames)
  | goOn {piece rest : List UInt8} {containers : List Captured} {frames : List (List UInt8)}
      (hpiece : piece ≠ []) (hrest : Segmented rest containers frames) :
      Segmented (piece ++ rest) containers (piece :: frames)

end Libpict
