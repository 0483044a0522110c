import Libpict.Outcome

/-! # Relations that operations keep

An operation is put together from a few primitives: backend calls, stores to the buffer, its
growth, and updates of single fields of the runtime. A relation between worlds that each of
them keeps is kept by every operation, however it ends.
-/

namespace Libpict

open CInt Exec

variable {σ : Type} {B : Backend σ} {R : World σ → World σ → Prop}

/-- Each primitive moves the world along the relation. -/
structure Primitive (B : Backend σ) (R : World σ → World σ → Prop) : Prop where
  write : ∀ endpoint offset size, Moves R (cmdWrite B endpoint offset size)
  read : ∀ endpoint offset size, Moves R (cmdRead B endpoint offset size)
  store : ∀ offset bytes, Moves R (storeData offset bytes : M σ Unit)
  resize : ∀ size, Moves R (ptpBufferResize B size)
  wait : ∀ wait : PtpRuntime → Nat,
    Moves R (updateRuntime fun r => { r with waitForResponse := wait r } : M σ Unit)
  phase : ∀ length, Moves R (updateRuntime fun r => { r with dataPhaseLength := length } : M σ Unit)
  count : Moves R (updateRuntime fun r => { r with transaction := r.transaction + 1 } : M σ Unit)
  switch : Moves R (updateRuntime fun r => { r with operationKillSwitch := true } : M σ Unit)
  lock : Moves R (ptpMutexLock : M σ Unit)
  unlock : Moves R (ptpMutexUnlock : M σ Unit)

namespace Primitive

variable [IsPreorder (World σ) R] (hprimitive : Primitive B R) {fuel : Nat}

include hprimitive

/-! ## Sending -/

theorem sendPacket (length : Int) : Moves R (ptpSendPacket B fuel length) := by
  refine Moves.iterate (fun sent => ?_) fuel 0
  unfold ptpSendPacketBody
  refine moves_runtime.bind fun r => ?_
  cases bulkEndpoint r.connectionType with
  | none => exact moves_halt _
  | some endpoint =>
      refine (hprimitive.write endpoint _ _).bind fun rc => ?_
      cases rc with
      | none => exact Moves.pure _
      | some count =>
          dsimp only
          split_ifs
          · exact moves_halt _
          · exact Moves.pure _
          · exact Moves.pure _

theorem sendThen {length : Int} {next : M σ Int} (hnext : Moves R next) :
    Moves R (Libpict.sendThen B fuel length next) := by
  refine (hprimitive.sendPacket length).bind fun sent => ?_
  split
  · exact Moves.pure _
  · exact hnext

theorem newCmdPacket (cmd : PtpCommand) : Moves R (ptpNewCmdPacket cmd : M σ Int) := by
  refine moves_runtime.bind fun r => ?_
  split
  · exact moves_runtime.bind fun _ => (hprimitive.store _ _).bind fun _ => Moves.pure _
  · exact moves_runtime.bind fun _ => (hprimitive.store _ _).bind fun _ => Moves.pure _

theorem newDataPacket (cmd : PtpCommand) (data : List UInt8) :
    Moves R (ptpusbNewDataPacket cmd data : M σ Int) :=
  moves_runtime.bind fun _ => (moves_intAdd _ _).bind fun _ =>
    (hprimitive.store _ _).bind fun _ => (hprimitive.store _ _).bind fun _ => Moves.pure _

theorem dataStartPacket (length : Nat) : Moves R (ptpipDataStartPacket length : M σ Int) :=
  moves_runtime.bind fun _ => (hprimitive.store _ _).bind fun _ => Moves.pure _

theorem dataEndPacket (data : List UInt8) : Moves R (ptpipDataEndPacket data : M σ Int) :=
  moves_runtime.bind fun _ => (moves_intAdd _ _).bind fun _ => (hprimitive.store _ _).bind fun _ =>
    (hprimitive.store _ _).bind fun _ => Moves.pure _

/-! ## Receiving -/

theorem readLength (offset : Int) (wait : Nat) (rc : Option Nat) :
    Moves R (ptpipReadLength B offset wait rc) := by
  induction wait generalizing rc with
  | zero => exact Moves.pure _
  | succ wait ih =>
      unfold ptpipReadLength
      refine (hprimitive.read .socket offset 4).bind fun rc => ?_
      refine (hprimitive.wait fun _ => wait).bind fun _ => ?_
      split
      · exact Moves.pure _
      · exact ih rc

theorem readRestBody (offset read : Int) : Moves R (ptpipReadRestBody B offset read) := by
  refine (moves_inspect _).bind fun length => ?_
  refine (hprimitive.read .socket _ _).bind fun rc => ?_
  cases rc with
  | none => exact Moves.pure _
  | some count =>
      refine (moves_intAdd _ _).bind fun read => (moves_inspect _).bind fun length => ?_
      split
      · exact Moves.pure _
      · exact Moves.pure _

theorem readPacket (offset : Int) : Moves R (ptpipReadPacket B fuel offset) := by
  refine moves_runtime.bind fun r => (hprimitive.readLength offset _ _).bind fun rc => ?_
  refine (hprimitive.wait fun r => r.responseWaitDefault).bind fun _ => ?_
  cases rc with
  | none => exact Moves.pure _
  | some count =>
      dsimp only
      split
      · exact Moves.pure _
      · refine (moves_inspect _).bind fun length => ?_
        split
        · exact Moves.pure _
        · refine (moves_intAdd _ _).bind fun front => moves_runtime.bind fun r => ?_
          refine Moves.bind ?_ fun rc => ?_
          · split
            · exact hprimitive.resize _
            · exact Moves.pure _
          · split
            · exact Moves.pure _
            · exact Moves.iterate (hprimitive.readRestBody offset) fuel 4

theorem receivePackets : Moves R (ptpipReceiveBulkPackets B fuel) := by
  refine (hprimitive.readPacket 0).bind fun rc => ?_
  split
  · exact Moves.pure _
  refine (moves_inspect _).bind fun type => ?_
  split
  · refine (hprimitive.readPacket _).bind fun rc => ?_
    split
    · exact Moves.pure _
    refine (moves_inspect _).bind fun type => ?_
    split
    · exact Moves.pure _
    refine (moves_inspect _).bind fun length => (moves_intAdd _ _).bind fun third => ?_
    refine (hprimitive.readPacket _).bind fun rc => ?_
    split
    · exact Moves.pure _
    refine (moves_inspect _).bind fun type => ?_
    split
    · exact Moves.pure _
    · exact (moves_inspect _).bind fun _ => Moves.pure _
  · split
    · exact (moves_inspect _).bind fun _ => Moves.pure _
    · exact Moves.pure _

theorem readBody (s : BulkRead) : Moves R (ptpusbReadBody B s) := by
  refine moves_runtime.bind fun r => (moves_intAdd _ _).bind fun need => ?_
  refine Moves.bind ?_ fun rc => ?_
  · split
    · exact hprimitive.resize _
    · exact Moves.pure _
  split
  · exact Moves.pure _
  cases bulkEndpoint r.connectionType with
  | none => exact moves_halt _
  | some endpoint =>
      refine (hprimitive.read endpoint _ _).bind fun rc => moves_runtime.bind fun r => ?_
      split
      · exact (hprimitive.wait fun r => r.waitForResponse - 1).bind fun _ => Moves.pure _
      · cases rc with
        | none => exact Moves.pure _
        | some count =>
            dsimp only
            split
            · exact Moves.pure _
            · refine (moves_inspect _).bind fun verdict => ?_
              cases verdict <;> exact Moves.pure _

theorem receive : Moves R (Libpict.receiveReply B fuel) := by
  have hreceive : Moves R (ptpReceiveAllPackets B fuel) := by
    have hbulk : Moves R (ptpusbReadAllPackets B fuel) :=
      (hprimitive.wait fun r => r.responseWaitDefault).bind fun _ =>
        Moves.iterate hprimitive.readBody fuel _
    refine moves_runtime.bind fun r => ?_
    cases r.connectionType with
    | ip => exact hprimitive.receivePackets
    | ipUsb => exact hbulk
    | usb => exact hbulk
    | ble => exact moves_halt _
  refine hreceive.bind fun rc => ?_
  split
  · exact Moves.pure _
  · exact Moves.pure _

/-! ## Operations -/

theorem sendTry (cmd : PtpCommand) : Moves R (ptpSendTry B fuel cmd) :=
  (hprimitive.newCmdPacket cmd).bind fun _ => hprimitive.sendThen hprimitive.receive

theorem sendDataTry (cmd : PtpCommand) (data : List UInt8) :
    Moves R (ptpSendDataTry B fuel cmd data) := by
  refine (hprimitive.newCmdPacket cmd).bind fun _ => hprimitive.sendThen ?_
  refine moves_runtime.bind fun r => ?_
  have hbulk : Moves R (ptpusbNewDataPacket cmd data >>= fun plength =>
      Libpict.sendThen B fuel plength (receiveReply B fuel)) :=
    (hprimitive.newDataPacket cmd data).bind fun _ => hprimitive.sendThen hprimitive.receive
  cases r.connectionType with
  | ip =>
      exact (hprimitive.dataStartPacket _).bind fun _ => hprimitive.sendThen
        ((hprimitive.dataEndPacket data).bind fun _ => hprimitive.sendThen hprimitive.receive)
  | ipUsb => exact hbulk
  | usb => exact hbulk
  | ble => exact hbulk

theorem finish : Moves R (finishTransaction : M σ Int) := by
  have hcount : Moves R (countTransaction : M σ Unit) := by
    refine moves_runtime.bind fun r => ?_
    split
    · exact hprimitive.count
    · exact moves_halt _
  refine hcount.bind fun _ => Moves.bind ?_ fun rc =>
    hprimitive.unlock.bind fun _ => Moves.pure _
  refine (moves_inspect _).bind fun code => ?_
  split
  · exact Moves.pure _
  split
  · exact (moves_inspect _).bind fun _ => Moves.pure _
  · exact Moves.pure _

theorem transaction {prepare : M σ Unit} {attempt : M σ Int} (hprepare : Moves R prepare)
    (hattempt : Moves R attempt) : Moves R (ptpTransaction prepare attempt) := by
  refine moves_runtime.bind fun r => ?_
  split
  · exact Moves.pure _
  refine hprimitive.lock.bind fun _ => moves_runtime.bind fun r => ?_
  split
  · exact hprimitive.unlock.bind fun _ => Moves.pure _
  refine hprepare.bind fun _ => hattempt.bind fun rc => ?_
  unfold afterAttempt
  split
  · refine hattempt.bind fun rc => ?_
    split
    · exact hprimitive.switch.bind fun _ => hprimitive.unlock.bind fun _ => Moves.pure _
    · exact hprimitive.finish
  split
  · exact hprimitive.unlock.bind fun _ => hprimitive.switch.bind fun _ => Moves.pure _
  · exact hprimitive.finish

/-- What the primitives keep, an operation keeps. -/
theorem exec (op : Operation) : Moves R (op.exec B fuel) := by
  cases op with
  | send cmd => exact hprimitive.transaction (hprimitive.phase 0) (hprimitive.sendTry cmd)
  | sendData cmd data =>
      refine hprimitive.transaction ?_ (hprimitive.sendDataTry cmd data)
      refine (hprimitive.phase _).bind fun _ => moves_runtime.bind fun r => ?_
      refine (moves_intAdd _ _).bind fun need => ?_
      split
      · exact (moves_intAdd _ _).bind fun _ => (hprimitive.resize _).bind fun _ => Moves.pure _
      · exact Moves.pure _

end Primitive

end Libpict
