import Libpict.Operation
import Libpict.RuntimeLaws

/-! # Backend traffic

Which backend calls the functions of the library make, and which fields of the
runtime they leave alone, however they end.
-/

namespace Libpict

open Bytes CInt Exec

variable {σ : Type}

/-! ## Calls -/

def Call.isWrite : Call → Bool
  | .write .. => true
  | .read .. => false

/-- The bytes that the device sent in a list of calls. -/
def readBytes (calls : List Call) : List UInt8 := calls.flatMap fun
  | .read _ _ _ _ got => got.getD []
  | .write .. => []

/-- The bytes that the device accepted in a list of calls. -/
def writtenBytes (calls : List Call) : List UInt8 := calls.flatMap fun
  | .write _ bytes sent => bytes.take (sent.getD 0)
  | .read .. => []

@[simp] theorem readBytes_append (first second : List Call) :
    readBytes (first ++ second) = readBytes first ++ readBytes second := List.flatMap_append ..

@[simp] theorem writtenBytes_append (first second : List Call) :
    writtenBytes (first ++ second) = writtenBytes first ++ writtenBytes second :=
  List.flatMap_append ..

theorem readBytes_of_writes {calls : List Call} (hcalls : ∀ call ∈ calls, call.isWrite = true) :
    readBytes calls = [] := by
  refine List.flatMap_eq_nil_iff.mpr fun call hcall => ?_
  have hwrite := hcalls call hcall
  cases call with
  | write => rfl
  | read => cases hwrite

theorem writtenBytes_of_reads {calls : List Call} (hcalls : ∀ call ∈ calls, call.isWrite = false) :
    writtenBytes calls = [] := by
  refine List.flatMap_eq_nil_iff.mpr fun call hcall => ?_
  have hread := hcalls call hcall
  cases call with
  | read => rfl
  | write => cases hread

/-! ## What a computation does to the log -/

/-- The log grows by calls of one kind. -/
def Logs (writes : Bool) (w w' : World σ) : Prop :=
  ∃ calls, w'.log = w.log ++ calls ∧ ∀ call ∈ calls, call.isWrite = writes

instance (writes : Bool) : IsPreorder (World σ) (Logs writes) where
  refl w := ⟨[], (List.append_nil _).symm, by simp⟩
  trans w w' w'' := by
    rintro ⟨first, hfirst, hall⟩ ⟨second, hsecond, hall'⟩
    refine ⟨first ++ second, by rw [hsecond, hfirst, List.append_assoc], fun call hcall => ?_⟩
    rcases List.mem_append.mp hcall with hcall | hcall
    · exact hall call hcall
    · exact hall' call hcall

/-- The runtime is the same but for the buffer, the wait counter and the packet size of a
socket. -/
structure SameSettings (w w' : World σ) : Prop where
  runtime : w'.r = { w.r with
    data := w'.r.data, dataLength := w'.r.dataLength, waitForResponse := w'.r.waitForResponse,
    maxPacketSize := w'.r.maxPacketSize }
  packet : w.r.Resized w'.r

instance : IsPreorder (World σ) SameSettings where
  refl w := ⟨rfl, refl_of PtpRuntime.Resized w.r⟩
  trans w w' w'' := by
    rintro ⟨hfirst, hpacket⟩ ⟨hsecond, hpacket'⟩
    refine ⟨?_, trans_of PtpRuntime.Resized hpacket hpacket'⟩
    rw [hsecond, hfirst]

/-- A stretch of a run that only writes, and leaves the runtime alone but for the packet size of
a socket. -/
structure OnlyWrites (w w' : World σ) : Prop where
  logs : Logs true w w'
  runtime : w'.r = { w.r with maxPacketSize := w'.r.maxPacketSize }
  packet : w.r.Resized w'.r
  reallocs : w'.reallocs = w.reallocs

instance : IsPreorder (World σ) OnlyWrites where
  refl w := ⟨refl_of (Logs true) w, rfl, refl_of PtpRuntime.Resized w.r, rfl⟩
  trans _ _ _ h h' := by
    refine ⟨trans_of (Logs true) h.logs h'.logs, ?_, trans_of PtpRuntime.Resized h.packet h'.packet,
      h'.reallocs.trans h.reallocs⟩
    rw [h'.runtime, h.runtime]

/-- A stretch of a run that only reads, and keeps the settings. -/
def OnlyReads (w w' : World σ) : Prop := Logs false w w' ∧ SameSettings w w'

instance : IsPreorder (World σ) OnlyReads where
  refl w := ⟨refl_of (Logs false) w, refl_of SameSettings w⟩
  trans _ _ _ h h' := ⟨trans_of (Logs false) h.1 h'.1, trans_of SameSettings h.2 h'.2⟩

/-- The runtime is the same but for the contents of the buffer and the packet size of a socket. -/
structure SameBuffer (w w' : World σ) : Prop where
  runtime : w'.r = { w.r with data := w'.r.data, maxPacketSize := w'.r.maxPacketSize }
  size : w'.r.data.map Buffer.size = w.r.data.map Buffer.size
  packet : w.r.Resized w'.r

instance : IsPreorder (World σ) SameBuffer where
  refl w := ⟨rfl, rfl, refl_of PtpRuntime.Resized w.r⟩
  trans w w' w'' := by
    rintro ⟨hfirst, hsize, hpacket⟩ ⟨hsecond, hsize', hpacket'⟩
    refine ⟨?_, hsize'.trans hsize, trans_of PtpRuntime.Resized hpacket hpacket'⟩
    rw [hsecond, hfirst]

/-- A stretch of a run that builds and sends packets. -/
def Sends (w w' : World σ) : Prop := Logs true w w' ∧ SameBuffer w w'

instance : IsPreorder (World σ) Sends where
  refl w := ⟨refl_of (Logs true) w, refl_of SameBuffer w⟩
  trans _ _ _ h h' := ⟨trans_of (Logs true) h.1 h'.1, trans_of SameBuffer h.2 h'.2⟩

theorem OnlyWrites.sends {w w' : World σ} (hwrites : OnlyWrites w w') : Sends w w' := by
  obtain ⟨hlogs, hr, hpacket, _⟩ := hwrites
  refine ⟨hlogs, ?_, ?_, hpacket⟩
  · rw [hr]
  · rw [hr]

/-! ## Primitives -/

section Primitives

variable {R : World σ → World σ → Prop} [IsPreorder (World σ) R] (B : Backend σ)

theorem moves_runtime : Moves R (runtime : M σ PtpRuntime) := fun w => .ok rfl (refl_of R w)

theorem moves_halt {α : Type} (reason : Halt) : Moves R (halt reason : M σ α) :=
  fun w => .error rfl (refl_of R w)

theorem moves_inspect {α : Type} (read : PtpRuntime → Except Halt α) :
    Moves R (inspect read : M σ α) := by
  intro w
  refine Ends.of_match ?_
  unfold inspect
  cases read w.r <;> exact refl_of R w

theorem moves_intAdd (a b : Int) : Moves R (intAdd a b : M σ Int) := by
  unfold intAdd
  split
  · exact Moves.pure _
  · exact moves_halt _

theorem cmdWrite_onlyWrites (endpoint : Endpoint) (offset size : Int) :
    Moves OnlyWrites (cmdWrite B endpoint offset size) := by
  intro w
  refine Ends.of_match ?_
  unfold cmdWrite
  cases w.r.load offset size with
  | error reason => exact refl_of OnlyWrites w
  | ok bytes => exact ⟨⟨_, rfl, by simp [Call.isWrite]⟩, rfl, w.r.resized_initComm endpoint, rfl⟩

theorem cmdRead_onlyReads (endpoint : Endpoint) (offset size : Int) :
    Moves OnlyReads (cmdRead B endpoint offset size) := by
  intro w
  refine Ends.of_match ?_
  unfold cmdRead
  cases w.r.load offset size with
  | error reason => exact ⟨⟨_, rfl, by simp [Call.isWrite]⟩, rfl, refl_of PtpRuntime.Resized w.r⟩
  | ok bytes =>
      have hpacket := w.r.resized_initComm endpoint
      dsimp only
      obtain ⟨got, device⟩ := B.cmdRead endpoint size.toNat w.device
      cases got with
      | none => exact ⟨⟨_, rfl, by simp [Call.isWrite]⟩, rfl, hpacket⟩
      | some bytes => exact ⟨⟨_, rfl, by simp [Call.isWrite]⟩, rfl, hpacket⟩

theorem setWait_onlyReads (wait : PtpRuntime → Nat) : Moves OnlyReads
    (updateRuntime fun r => { r with waitForResponse := wait r } : M σ Unit) :=
  fun w => .ok rfl ⟨refl_of (Logs false) w, rfl, refl_of PtpRuntime.Resized w.r⟩

theorem ptpBufferResize_keeps (size : Nat) :
    Moves (fun w w' => w'.log = w.log ∧ SameSettings w w') (ptpBufferResize B size) := by
  intro w
  refine Ends.of_match ?_
  unfold ptpBufferResize
  by_cases hdown : size < toSize w.r.dataLength
  · rw [if_pos hdown]
    exact ⟨rfl, refl_of SameSettings w⟩
  · rw [if_neg hdown]
    dsimp only
    cases B.realloc w.reallocs (toSize (size + 100)) with
    | true => exact ⟨rfl, rfl, refl_of PtpRuntime.Resized w.r⟩
    | false => exact ⟨rfl, rfl, refl_of PtpRuntime.Resized w.r⟩

theorem ptpBufferResize_onlyReads (size : Nat) : Moves OnlyReads (ptpBufferResize B size) :=
  (ptpBufferResize_keeps B size).mono fun _ _ h =>
    ⟨⟨[], by rw [h.1, List.append_nil], by simp⟩, h.2⟩

theorem storeData_sends (offset : Int) (bytes : List UInt8) :
    Moves Sends (storeData offset bytes : M σ Unit) := by
  intro w
  refine Ends.of_match ?_
  unfold storeData PtpRuntime.store
  cases hdata : w.r.data with
  | none => exact refl_of Sends w
  | some buffer =>
      dsimp only
      by_cases hinside : 0 ≤ offset ∧ offset + bytes.length ≤ buffer.size
      · rw [if_pos hinside]
        exact ⟨refl_of (Logs true) w, rfl, by simp [hdata], refl_of PtpRuntime.Resized w.r⟩
      · rw [if_neg hinside]
        exact refl_of Sends w

end Primitives

/-! ## Sending only writes -/

section Sending

variable (B : Backend σ)

theorem ptpSendPacketBody_onlyWrites (length : Int) (sent : Nat) :
    Moves OnlyWrites (ptpSendPacketBody B length sent) := by
  unfold ptpSendPacketBody
  refine moves_runtime.bind fun r => ?_
  cases bulkEndpoint r.connectionType with
  | none => exact moves_halt _
  | some endpoint =>
      refine (cmdWrite_onlyWrites B endpoint _ _).bind fun rc => ?_
      cases rc with
      | none => exact Moves.pure _
      | some count =>
          dsimp only
          split_ifs
          · exact moves_halt _
          · exact Moves.pure _
          · exact Moves.pure _

theorem ptpSendPacket_onlyWrites (fuel : Nat) (length : Int) :
    Moves OnlyWrites (ptpSendPacket B fuel length) :=
  Moves.iterate (fun sent => ptpSendPacketBody_onlyWrites B length sent) fuel 0

theorem ptpusbNewCmdPacket_sends (cmd : PtpCommand) :
    Moves Sends (ptpusbNewCmdPacket cmd : M σ Int) :=
  moves_runtime.bind fun _ => (storeData_sends _ _).bind fun _ => Moves.pure _

theorem ptpNewCmdPacket_sends (cmd : PtpCommand) : Moves Sends (ptpNewCmdPacket cmd : M σ Int) := by
  refine moves_runtime.bind fun r => ?_
  split
  · exact moves_runtime.bind fun _ => (storeData_sends _ _).bind fun _ => Moves.pure _
  · exact ptpusbNewCmdPacket_sends cmd

theorem ptpusbNewDataPacket_sends (cmd : PtpCommand) (data : List UInt8) :
    Moves Sends (ptpusbNewDataPacket cmd data : M σ Int) :=
  moves_runtime.bind fun _ => (moves_intAdd _ _).bind fun _ =>
    (storeData_sends _ _).bind fun _ => (storeData_sends _ _).bind fun _ => Moves.pure _

end Sending

/-! ## Receiving only reads -/

section Receiving

variable (B : Backend σ)

theorem ptpipReadLength_onlyReads (offset : Int) (wait : Nat) (rc : Option Nat) :
    Moves OnlyReads (ptpipReadLength B offset wait rc) := by
  induction wait generalizing rc with
  | zero => exact Moves.pure _
  | succ wait ih =>
      unfold ptpipReadLength
      refine (cmdRead_onlyReads B .socket offset 4).bind fun rc => ?_
      refine (setWait_onlyReads fun _ => wait).bind fun _ => ?_
      split
      · exact Moves.pure _
      · exact ih rc

theorem ptpipReadRestBody_onlyReads (offset read : Int) :
    Moves OnlyReads (ptpipReadRestBody B offset read) := by
  refine (moves_inspect _).bind fun length => ?_
  refine (cmdRead_onlyReads B .socket _ _).bind fun rc => ?_
  cases rc with
  | none => exact Moves.pure _
  | some count =>
      refine (moves_intAdd _ _).bind fun read => ?_
      refine (moves_inspect _).bind fun length => ?_
      split
      · exact Moves.pure _
      · exact Moves.pure _

theorem ptpipReadRest_onlyReads (fuel : Nat) (offset : Int) :
    Moves OnlyReads (ptpipReadRest B fuel offset) := by
  refine (moves_inspect _).bind fun length => ?_
  split
  · exact Moves.pure _
  · refine (moves_intAdd _ _).bind fun front => moves_runtime.bind fun r => ?_
    refine Moves.bind ?_ fun rc => ?_
    · split
      · exact ptpBufferResize_onlyReads B _
      · exact Moves.pure _
    · split
      · exact Moves.pure _
      · exact Moves.iterate (ptpipReadRestBody_onlyReads B offset) fuel 4

theorem ptpipReadPacket_onlyReads (fuel : Nat) (offset : Int) :
    Moves OnlyReads (ptpipReadPacket B fuel offset) := by
  refine moves_runtime.bind fun r => ?_
  refine (ptpipReadLength_onlyReads B offset _ _).bind fun rc => ?_
  refine (setWait_onlyReads fun r => r.responseWaitDefault).bind fun _ => ?_
  cases rc with
  | none => exact Moves.pure _
  | some count =>
      dsimp only
      split
      · exact Moves.pure _
      · exact ptpipReadRest_onlyReads B fuel offset

theorem ptpipReceiveResponse_onlyReads (fuel : Nat) (third : Int) :
    Moves OnlyReads (ptpipReceiveResponse B fuel third) := by
  refine (ptpipReadPacket_onlyReads B fuel third).bind fun rc => ?_
  split
  · exact Moves.pure _
  refine (moves_inspect _).bind fun type => ?_
  split
  · exact Moves.pure _
  · exact (moves_inspect _).bind fun _ => Moves.pure _

theorem ptpipReceiveData_onlyReads (fuel : Nat) (second : Int) :
    Moves OnlyReads (ptpipReceiveData B fuel second) := by
  refine (ptpipReadPacket_onlyReads B fuel second).bind fun rc => ?_
  split
  · exact Moves.pure _
  refine (moves_inspect _).bind fun type => ?_
  split
  · exact Moves.pure _
  · exact (moves_inspect _).bind fun length => (moves_intAdd _ _).bind fun third =>
      ptpipReceiveResponse_onlyReads B fuel third

theorem ptpipReceiveBulkPackets_onlyReads (fuel : Nat) :
    Moves OnlyReads (ptpipReceiveBulkPackets B fuel) := by
  refine (ptpipReadPacket_onlyReads B fuel 0).bind fun first => ?_
  split
  · exact Moves.pure _
  refine (moves_inspect _).bind fun type => ?_
  split
  · exact ptpipReceiveData_onlyReads B fuel first
  split
  · exact (moves_inspect _).bind fun _ => Moves.pure _
  · exact Moves.pure _

theorem ptpusbReadBody_onlyReads (s : BulkRead) : Moves OnlyReads (ptpusbReadBody B s) := by
  unfold ptpusbReadBody
  refine moves_runtime.bind fun r => (moves_intAdd _ _).bind fun need => ?_
  refine Moves.bind ?_ fun rc => ?_
  · split
    · exact ptpBufferResize_onlyReads B _
    · exact Moves.pure _
  split
  · exact Moves.pure _
  cases bulkEndpoint r.connectionType with
  | none => exact moves_halt _
  | some endpoint =>
      refine (cmdRead_onlyReads B endpoint _ _).bind fun rc => moves_runtime.bind fun r => ?_
      split
      · exact (setWait_onlyReads fun r => r.waitForResponse - 1).bind fun _ => Moves.pure _
      cases rc with
      | none => exact Moves.pure _
      | some count =>
          dsimp only
          split
          · exact Moves.pure _
          refine (moves_inspect _).bind fun verdict => ?_
          cases verdict <;> exact Moves.pure _

theorem ptpusbReadAllPackets_onlyReads (fuel : Nat) :
    Moves OnlyReads (ptpusbReadAllPackets B fuel) :=
  (setWait_onlyReads fun r => r.responseWaitDefault).bind fun _ =>
    Moves.iterate (fun s => ptpusbReadBody_onlyReads B s) fuel _

theorem ptpReceiveAllPackets_onlyReads (fuel : Nat) :
    Moves OnlyReads (ptpReceiveAllPackets B fuel) := by
  refine moves_runtime.bind fun r => ?_
  cases r.connectionType with
  | ip => exact ptpipReceiveBulkPackets_onlyReads B fuel
  | ipUsb => exact ptpusbReadAllPackets_onlyReads B fuel
  | usb => exact ptpusbReadAllPackets_onlyReads B fuel
  | ble => exact moves_halt _

theorem receiveReply_onlyReads (fuel : Nat) : Moves OnlyReads (receiveReply B fuel) := by
  refine (ptpReceiveAllPackets_onlyReads B fuel).bind fun rc => ?_
  split
  · exact Moves.pure _
  · exact Moves.pure _

end Receiving

/-! ## Building makes no calls -/

/-- Nothing is written, and the connection type stays. -/
def Silent (w w' : World σ) : Prop :=
  w'.log = w.log ∧ w'.r.connectionType = w.r.connectionType

instance : IsPreorder (World σ) Silent where
  refl _ := ⟨rfl, rfl⟩
  trans _ _ _ h h' := ⟨h'.1.trans h.1, h'.2.trans h.2⟩

theorem storeData_silent (offset : Int) (bytes : List UInt8) :
    Moves Silent (storeData offset bytes : M σ Unit) := by
  intro w
  refine Ends.of_match ?_
  unfold storeData PtpRuntime.store
  cases w.r.data with
  | none => exact refl_of Silent w
  | some buffer =>
      by_cases hinside : 0 ≤ offset ∧ offset + bytes.length ≤ buffer.size
      · simp only [if_pos hinside]
        exact ⟨rfl, rfl⟩
      · simp only [if_neg hinside]
        exact refl_of Silent w

theorem ptpNewCmdPacket_silent (cmd : PtpCommand) : Moves Silent (ptpNewCmdPacket cmd : M σ Int) := by
  refine moves_runtime.bind fun r => ?_
  split
  · exact moves_runtime.bind fun _ => (storeData_silent _ _).bind fun _ => Moves.pure _
  · exact moves_runtime.bind fun _ => (storeData_silent _ _).bind fun _ => Moves.pure _

theorem prepareData_silent (B : Backend σ) (data : List UInt8) :
    Moves Silent (prepareData B data) := by
  have hresize : ∀ size, Moves Silent (ptpBufferResize B size) := fun size =>
    (ptpBufferResize_keeps B size).mono fun w w' h => ⟨h.1, by
      have hsettings := h.2
      rw [hsettings.runtime]⟩
  refine Moves.bind (fun w => .ok rfl ⟨rfl, rfl⟩) fun _ => moves_runtime.bind fun r => ?_
  refine (moves_intAdd _ _).bind fun need => ?_
  split
  · exact (moves_intAdd _ _).bind fun size => (hresize _).bind fun _ => Moves.pure _
  · exact Moves.pure _

end Libpict
