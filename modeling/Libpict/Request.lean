import Libpict.Scripted
import Libpict.Transaction

/-! # What goes out

Over USB-style framing an operation has written exactly its request when it starts to
receive. A request reaches the backend if and only if the send loop knows the
connection type, which excludes PTP/IP, and the sizes of its data fit.
-/

namespace Libpict

open Bytes CInt Exec PtpRuntime

variable {σ : Type} {B : Backend σ} {w : World σ}

theorem ReceivesAfter.of_refused {prepare : M σ Unit} {attempt : M σ Int} {request : List UInt8}
    (hkill : w.r.operationKillSwitch = true) :
    EndsIn (ptpTransaction prepare attempt) w (ReceivesAfter request w) := by
  exact .ok (ptpTransaction_refused hkill) (receivesAfter_of_log rfl)

/-- When an operation over USB-style framing starts to receive, it has written exactly
its request, in writes within the packet size that is in force at each; with the memory
it asks for, it does start to receive. -/
theorem operations_write_request (haccepts : B.Accepts) {buffer : Buffer}
    (hready : w.r.Ready buffer)
    (hconn : w.r.connectionType = .usb ∨ w.r.connectionType = .ipUsb)
    (hpacket : 0 < w.r.maxPacketSize) (hpacket_le : w.r.maxPacketSize ≤ intMax)
    (cmd : PtpCommand) (data : List UInt8) (hdata : data.length < 2147483648 - 200) {fuel : Nat}
    (hfuel : fuel > 32 + data.length) :
    EndsIn (ptpSend B fuel cmd) w (ReceivesAfter (commandContainer cmd w.r.transactionId) w) ∧
    EndsIn (ptpSendData B fuel cmd data) w (ReceivesAfter
      (commandContainer cmd w.r.transactionId ++ dataContainer cmd w.r.transactionId data) w) ∧
    (w.r.operationKillSwitch = false → (∀ count size, B.realloc count size = true) →
      EndsIn (ptpSend B fuel cmd) w (Requests.ReadsSome w) ∧
      EndsIn (ptpSendData B fuel cmd data) w (Requests.ReadsSome w)) := by
  obtain ⟨endpoint, hendpoint⟩ : ∃ endpoint, bulkEndpoint w.r.connectionType = some endpoint := by
    rcases hconn with hconn | hconn <;> exact ⟨_, by rw [hconn]; rfl⟩
  by_cases hkill : w.r.operationKillSwitch = true
  · refine ⟨ReceivesAfter.of_refused hkill, ReceivesAfter.of_refused hkill, fun hoff => ?_⟩
    rw [hkill] at hoff
    cases hoff
  rw [Bool.not_eq_true] at hkill
  obtain ⟨sent, hsend⟩ := ptpSend_requests haccepts hready hkill hendpoint hpacket cmd
    (show fuel > 32 by omega)
  have hsendHands := hsend.handsOver hendpoint hpacket hpacket_le
  refine ⟨hsendHands.mono (fun _ _ h => h.receivesAfter) (fun _ _ h => h.receivesAfter), ?_, ?_⟩
  · by_cases hfits : DataFits B w data.length
    · obtain ⟨sent, hsendData⟩ := ptpSendData_requests haccepts hready hkill
        hendpoint hpacket cmd data hfits hfuel
      have hhands := hsendData.handsOver hendpoint hpacket hpacket_le
      exact hhands.mono (fun _ _ h => h.receivesAfter) (fun _ _ h => h.receivesAfter)
    · exact (ptpSendData_unfit hready cmd data hfits).mono (fun _ _ h => receivesAfter_of_log h)
        (fun _ _ h => receivesAfter_of_log h)
  · intro _ hrealloc
    have hfits : DataFits B w data.length := by
      refine ⟨?_, .inr ⟨?_, hrealloc _ _⟩⟩ <;> unfold intMax <;> omega
    obtain ⟨sent', hsendData⟩ := ptpSendData_requests haccepts hready hkill
      hendpoint hpacket cmd data hfits hfuel
    have hlimit : ((max buffer.size (data.length + 200) : Nat) : Int) ≤ intMax := by
      have hsize := hready.2.2.1
      unfold intMax at hsize ⊢
      omega
    exact ⟨hsend.readsSome hendpoint hpacket hpacket_le hready.2.2.1 (by omega) hrealloc,
      hsendData.readsSome hendpoint hpacket hpacket_le hlimit (by omega) hrealloc⟩

/-- `GetObjectHandles` of storage 0x10001 and no format, for a packet size of five bytes and a
device that answers nothing. -/
def getHandles : PtpCommand := ⟨0x1007, #v[0x10001, 0, 0, 0, 0], 2, by decide⟩

theorem scripted_accepts : scripted.Accepts := fun _ bytes _ hne =>
  ⟨bytes.length, rfl, List.length_pos_iff.mpr hne, le_rfl⟩

/-- A runtime with a packet size of 5 on a TCP connection with USB-style framing. -/
def socketWorld : World (List (Option (List UInt8))) :=
  { scriptedWorld 5 [some okResponse] with
    r := { (scriptedWorld 5 []).r with connectionType := .ipUsb } }

theorem operations_write_request_getHandles :
    EndsIn (ptpSend scripted 64 getHandles) (scriptedWorld 5 [])
      (ReceivesAfter [20, 0, 0, 0, 1, 0, 7, 16, 0, 0, 0, 0, 1, 0, 1, 0, 0, 0, 0, 0]
        (scriptedWorld 5 [])) ∧
    EndsIn (ptpSendData scripted 64 getHandles [8, 9]) (scriptedWorld 5 [])
      (ReceivesAfter ([20, 0, 0, 0, 1, 0, 7, 16, 0, 0, 0, 0, 1, 0, 1, 0, 0, 0, 0, 0] ++
        [14, 0, 0, 0, 2, 0, 7, 16, 0, 0, 0, 0, 8, 9]) (scriptedWorld 5 [])) ∧
    EndsIn (ptpSend scripted 64 getHandles) (scriptedWorld 5 [])
      (Requests.ReadsSome (scriptedWorld 5 [])) ∧
    EndsIn (ptpSend scripted 64 getHandles) socketWorld
      (ReceivesAfter [20, 0, 0, 0, 1, 0, 7, 16, 0, 0, 0, 0, 1, 0, 1, 0, 0, 0, 0, 0] socketWorld) := by
  have hcommand : commandContainer getHandles (scriptedWorld 5 []).r.transactionId =
      [20, 0, 0, 0, 1, 0, 7, 16, 0, 0, 0, 0, 1, 0, 1, 0, 0, 0, 0, 0] := by decide
  have hdata : dataContainer getHandles (scriptedWorld 5 []).r.transactionId [8, 9] =
      [14, 0, 0, 0, 2, 0, 7, 16, 0, 0, 0, 0, 8, 9] := by decide
  have hrequest := operations_write_request scripted_accepts (scriptedWorld_ready 5 [])
    (.inl rfl) (by decide) (by decide) getHandles [8, 9] (by decide)
    (by decide : 64 > 32 + [8, 9].length)
  have hrequest' := operations_write_request (w := socketWorld) scripted_accepts
    (scriptedWorld_ready 5 []) (.inr rfl) (by decide) (by decide) getHandles [8, 9] (by decide)
    (by decide : 64 > 32 + [8, 9].length)
  rw [hcommand, hdata] at hrequest
  rw [show commandContainer getHandles socketWorld.r.transactionId = _ from hcommand] at hrequest'
  exact ⟨hrequest.1, hrequest.2.1, (hrequest.2.2 rfl fun _ _ => rfl).1, hrequest'.1⟩

/-- The first write over TCP sets the packet size: the second is longer than the 5 bytes that
the operation has started with. -/
theorem operations_write_request_socket : ∃ rc v,
    ptpSend scripted 64 getHandles socketWorld = .ok rc v ∧ rc = 0 ∧
      Call.write .socket [0, 7, 16, 0, 0, 0, 0, 1, 0, 1, 0, 0, 0, 0, 0] (some 15) ∈ v.log ∧
      socketWorld.r.maxPacketSize < 15 := by
  obtain ⟨rc, v, hrun, hhow⟩ := run_of_returnsOn (ptpSend scripted 64 getHandles) socketWorld
    (fun rc v => decide (rc = 0 ∧
      .write .socket [0, 7, 16, 0, 0, 0, 0, 1, 0, 1, 0, 0, 0, 0, 0] (some 15) ∈ v.log))
    (by decide +kernel)
  obtain ⟨rfl, hwrite⟩ := of_decide_eq_true hhow
  exact ⟨0, v, hrun, rfl, hwrite, by decide⟩

/-! ## Which requests reach the backend -/

/-- The operation request packet; `phase` is 2 if data packets follow and 1 otherwise. -/
def ipRequest (cmd : PtpCommand) (transaction : UInt32) (phase : Nat) : List UInt8 :=
  leBytes 4 (18 + 4 * cmd.paramLength) ++ leBytes 4 ptpipPacketCommandRequest ++ leBytes 4 phase ++
    leBytes 2 cmd.code.toNat ++ leBytes 4 transaction.toNat ++ paramBytes cmd.paramList

/-- The start-data packet that announces the length, and the end-data packet. -/
def ipData (transaction : UInt32) (data : List UInt8) : List UInt8 :=
  leBytes 4 20 ++ leBytes 4 ptpipDataPacketStart ++ leBytes 4 transaction.toNat ++
    leBytes 8 data.length ++
  (leBytes 4 (12 + data.length) ++ leBytes 4 ptpipDataPacketEnd ++ leBytes 4 transaction.toNat ++
    data)

/-- The packets of a request without a data phase. -/
def requestPackets (connection : PtpConnType) (cmd : PtpCommand) (transaction : UInt32) :
    List UInt8 :=
  match connection with
  | .ip => ipRequest cmd transaction 1
  | _ => commandContainer cmd transaction

/-- The packets of a request with a data phase. -/
def dataRequestPackets (connection : PtpConnType) (cmd : PtpCommand) (transaction : UInt32)
    (data : List UInt8) : List UInt8 :=
  match connection with
  | .ip => ipRequest cmd transaction 2 ++ ipData transaction data
  | _ => commandContainer cmd transaction ++ dataContainer cmd transaction data

/-- Without an endpoint, the send loop gives up before it writes a byte. -/
theorem transmitCmd_noEndpoint (hconn : bulkEndpoint w.r.connectionType = none) (fuel : Nat)
    (cmd : PtpCommand) :
    ∃ reason w', transmitCmd B fuel cmd w = .error reason w' ∧ w'.log = w.log := by
  have hbuild := ptpNewCmdPacket_silent (σ := σ) cmd
  unfold transmitCmd transmit
  cases hrun : ptpNewCmdPacket cmd w with
  | error reason w' => exact ⟨reason, w', bind_error hrun, (hbuild.of_error hrun).1⟩
  | ok length w' =>
      obtain ⟨hlog, hsame⟩ := hbuild.of_ok hrun
      rw [bind_ok hrun]
      cases fuel with
      | zero => exact ⟨.spent, w', bind_error rfl, hlog⟩
      | succ fuel =>
          have hbody : ptpSendPacketBody B length 0 w' = .error (.panic "illegal connection_type") w' := by
            unfold ptpSendPacketBody
            rw [bind_ok (runtime_run w'), hsame, hconn]
            rfl
          exact ⟨_, w', bind_error (iterate_stop hbody fuel), hlog⟩

theorem ptpSend_noEndpoint (hconn : bulkEndpoint w.r.connectionType = none) (fuel : Nat)
    (cmd : PtpCommand) : EndsIn (ptpSend B fuel cmd) w (fun v => v.log = w.log) := by
  by_cases hkill : w.r.operationKillSwitch = true
  · exact .ok (ptpTransaction_refused hkill) rfl
  · rw [Bool.not_eq_true] at hkill
    refine Ends.congr (Ends.bind (.ok rfl (Ends.bind ?_))) (ptpTransaction_run hkill)
    obtain ⟨reason, v, hsend, hlog⟩ := transmitCmd_noEndpoint (B := B)
      (w := { locked w with r := { (locked w).r with dataPhaseLength := 0 } }) hconn fuel cmd
    rw [ptpSendTry_eq]
    exact .error (bind_error hsend) hlog

theorem ptpSendData_noEndpoint (hconn : bulkEndpoint w.r.connectionType = none) (fuel : Nat)
    (cmd : PtpCommand) (data : List UInt8) :
    EndsIn (ptpSendData B fuel cmd data) w (fun v => v.log = w.log) := by
  by_cases hkill : w.r.operationKillSwitch = true
  · exact .ok (ptpTransaction_refused hkill) rfl
  · rw [Bool.not_eq_true] at hkill
    refine Ends.congr (Ends.bind ?_) (ptpTransaction_run hkill)
    have hprepare : Moves Silent (prepareData B data) := prepareData_silent B data
    refine (hprepare (locked w)).mono (fun _ w₀ h => ?_) (fun _ _ h => h.1)
    obtain ⟨reason, v, hsend, hlog⟩ := transmitCmd_noEndpoint (B := B) (w := w₀)
      (by rw [h.2]; exact hconn) fuel cmd
    have hattempt : ptpSendDataTry B fuel cmd data w₀ = .error reason v := by
      unfold ptpSendDataTry
      rw [sendThen_eq]
      exact bind_error hsend
    exact .error (bind_error hattempt) (hlog.trans h.1)

theorem HandsOver.of_log {request : List UInt8} {w' : World σ} (hhands : HandsOver request w w')
    (hlog : w'.log = w.log) : request = [] := by
  obtain ⟨writes, rest, hcalls, hbytes, _, _⟩ := hhands
  rw [hlog] at hcalls
  have hnil := List.append_right_eq_self.mp hcalls.symm
  rw [(List.append_eq_nil_iff.mp hnil).1] at hbytes
  exact hbytes.symm

theorem requestPackets_ne_nil (connection : PtpConnType) (cmd : PtpCommand)
    (transaction : UInt32) : requestPackets connection cmd transaction ≠ [] := by
  refine List.ne_nil_of_length_pos ?_
  cases connection <;> simp [requestPackets, ipRequest, commandContainer, Container.bytes]

theorem dataRequestPackets_ne_nil (connection : PtpConnType) (cmd : PtpCommand)
    (transaction : UInt32) (data : List UInt8) :
    dataRequestPackets connection cmd transaction data ≠ [] := by
  refine List.ne_nil_of_length_pos ?_
  cases connection <;> simp [dataRequestPackets, ipRequest, commandContainer, Container.bytes]

theorem requestPackets_bulk {connection : PtpConnType} (hip : connection ≠ .ip) (cmd : PtpCommand)
    (transaction : UInt32) :
    requestPackets connection cmd transaction = commandContainer cmd transaction := by
  cases connection with
  | ip => contradiction
  | ipUsb => rfl
  | usb => rfl
  | ble => rfl

theorem dataRequestPackets_bulk {connection : PtpConnType} (hip : connection ≠ .ip)
    (cmd : PtpCommand) (transaction : UInt32) (data : List UInt8) :
    dataRequestPackets connection cmd transaction data =
      commandContainer cmd transaction ++ dataContainer cmd transaction data := by
  cases connection with
  | ip => contradiction
  | ipUsb => rfl
  | usb => rfl
  | ble => rfl

theorem bulkEndpoint_of_ne {connection : PtpConnType} (hip : connection ≠ .ip)
    (hble : connection ≠ .ble) : ∃ endpoint, bulkEndpoint connection = some endpoint := by
  cases connection with
  | ip => contradiction
  | ipUsb => exact ⟨_, rfl⟩
  | usb => exact ⟨_, rfl⟩
  | ble => contradiction

/-- The request of an operation reaches the backend exactly if the connection is not
PTP/IP and, with a data phase, the sizes of the data fit. -/
theorem operations_reach_backend (haccepts : B.Accepts) {buffer : Buffer}
    (hready : w.r.Ready buffer) (hkill : w.r.operationKillSwitch = false)
    (hconn : w.r.connectionType ≠ .ble) (hpacket : 0 < w.r.maxPacketSize)
    (hpacket_le : w.r.maxPacketSize ≤ intMax) (cmd : PtpCommand) (data : List UInt8) :
    ((∃ enough, ∀ fuel ≥ enough, EndsIn (ptpSend B fuel cmd) w
        (HandsOver (requestPackets w.r.connectionType cmd w.r.transactionId) w)) ↔
      w.r.connectionType ≠ .ip) ∧
    ((∃ enough, ∀ fuel ≥ enough, EndsIn (ptpSendData B fuel cmd data) w
        (HandsOver (dataRequestPackets w.r.connectionType cmd w.r.transactionId data) w)) ↔
      w.r.connectionType ≠ .ip ∧ DataFits B w data.length) := by
  constructor
  · constructor
    · rintro ⟨enough, hhands⟩ hip
      obtain ⟨v, hhands, hlog⟩ := (hhands enough le_rfl).meet
          (ptpSend_noEndpoint (by rw [hip]; rfl) enough cmd)
      exact requestPackets_ne_nil _ _ _ (hhands.of_log hlog)
    · intro hip
      obtain ⟨endpoint, hendpoint⟩ := bulkEndpoint_of_ne hip hconn
      refine ⟨33, fun fuel hfuel => ?_⟩
      obtain ⟨sent, hrequests⟩ := ptpSend_requests haccepts hready hkill hendpoint hpacket cmd
        (show fuel > 32 by omega)
      rw [requestPackets_bulk hip]
      exact hrequests.handsOver hendpoint hpacket hpacket_le
  · constructor
    · rintro ⟨enough, hhands⟩
      refine ⟨fun hip => ?_, ?_⟩
      · obtain ⟨v, hhands, hlog⟩ := (hhands enough le_rfl).meet
          (ptpSendData_noEndpoint (by rw [hip]; rfl) enough cmd data)
        exact dataRequestPackets_ne_nil _ _ _ _ (hhands.of_log hlog)
      · by_contra hfits
        obtain ⟨v, hhands, hlog⟩ := (hhands enough le_rfl).meet
          (ptpSendData_unfit hready cmd data hfits)
        exact dataRequestPackets_ne_nil _ _ _ _ (hhands.of_log hlog)
    · rintro ⟨hip, hfits⟩
      obtain ⟨endpoint, hendpoint⟩ := bulkEndpoint_of_ne hip hconn
      refine ⟨33 + data.length, fun fuel hfuel => ?_⟩
      obtain ⟨sent, hrequests⟩ := ptpSendData_requests haccepts hready hkill hendpoint hpacket cmd
        data hfits (show fuel > 32 + data.length by omega)
      rw [dataRequestPackets_bulk hip]
      exact hrequests.handsOver hendpoint hpacket hpacket_le

/-- Over USB a request reaches the backend. -/
theorem operations_reach_backend_usb :
    (∃ enough, ∀ fuel ≥ enough, EndsIn (ptpSend scripted fuel getHandles) (scriptedWorld 512 [])
      (HandsOver (requestPackets .usb getHandles 0) (scriptedWorld 512 []))) ∧
    (∃ enough, ∀ fuel ≥ enough,
      EndsIn (ptpSendData scripted fuel getHandles [8, 9]) (scriptedWorld 512 [])
        (HandsOver (dataRequestPackets .usb getHandles 0 [8, 9]) (scriptedWorld 512 []))) := by
  have hreach := operations_reach_backend scripted_accepts (scriptedWorld_ready 512 []) rfl
    (by decide) (by decide) (by decide) getHandles [8, 9]
  exact ⟨hreach.1.mpr (by decide), hreach.2.mpr ⟨by decide, by decide, .inl (by decide)⟩⟩

/-- Over PTP/IP, the send loop aborts on the first packet. -/
theorem ptpSend_aborts_on_ip :
    let w : World (List (Option (List UInt8))) :=
      { scriptedWorld 512 [] with r := { (scriptedWorld 512 []).r with connectionType := .ip } }
    ¬∃ enough, ∀ fuel ≥ enough, EndsIn (ptpSend scripted fuel getHandles) w
      (HandsOver (requestPackets .ip getHandles 0) w) := by
  rintro w ⟨enough, hhands⟩
  obtain ⟨v, hhands, hlog⟩ := (hhands enough le_rfl).meet (ptpSend_noEndpoint rfl enough getHandles)
  exact requestPackets_ne_nil _ _ _ (hhands.of_log hlog)

end Libpict
