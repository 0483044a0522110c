import Libpict.Container
import Libpict.Traffic

/-! # Transmission over USB-style framing

What the builders put in the buffer, what the send loop then writes, and the two
attempts of an operation as a transmission followed by a receive.
-/

namespace Libpict

open Bytes CInt Exec PtpRuntime

variable {σ : Type}

/-! ## Builders -/

theorem PtpCommand.paramList_length (cmd : PtpCommand) :
    cmd.paramList.length = cmd.paramLength := by
  have hle := cmd.paramLength_le
  simp only [PtpCommand.paramList, List.length_take, Vector.length_toList]
  omega

/-- The parameters of a command or response, as they are sent. -/
def paramBytes (params : List UInt32) : List UInt8 := params.flatMap fun param =>
  leBytes 4 param.toNat

@[simp] theorem paramBytes_length (params : List UInt32) :
    (paramBytes params).length = 4 * params.length := by
  induction params with
  | nil => rfl
  | cons param rest ih =>
      rw [paramBytes, List.flatMap_cons, List.length_append, leBytes_length, List.length_cons]
      change 4 + (paramBytes rest).length = _
      omega

/-- The command container of a request. -/
def commandContainer (cmd : PtpCommand) (transaction : UInt32) : List UInt8 :=
  Container.bytes ptpPacketTypeCommand ⟨cmd.code, transaction, paramBytes cmd.paramList⟩

/-- The data container that follows the command container of a request. -/
def dataContainer (cmd : PtpCommand) (transaction : UInt32) (data : List UInt8) : List UInt8 :=
  Container.bytes ptpPacketTypeData ⟨cmd.code, transaction, data⟩

theorem commandContainer_length (cmd : PtpCommand) (transaction : UInt32) :
    (commandContainer cmd transaction).length = 12 + 4 * cmd.paramLength := by
  rw [commandContainer, Container.bytes_length, paramBytes_length, cmd.paramList_length]

theorem dataContainer_length (cmd : PtpCommand) (transaction : UInt32) (data : List UInt8) :
    (dataContainer cmd transaction data).length = 12 + data.length := by
  rw [dataContainer, Container.bytes_length]

/-- What a field keeps of a store that is wider than the field. -/
theorem store_field (buffer : Buffer) (offset : Nat) {count total : Nat} (hle : count ≤ total)
    (value : Nat) :
    (buffer.store offset (leBytes total value)).slice offset count = leBytes count value := by
  rw [Buffer.store_slice_take _ _ _ _ (by simpa using hle), leBytes_take hle]

/-- The overlapping 32-bit stores leave each field with its own bytes. -/
theorem bulkContainer_slice (size type : Nat) (code : UInt16) (transaction : UInt32) :
    (bulkContainer size type code transaction).slice 0 12 =
      leBytes 4 size ++ (leBytes 2 type ++ (leBytes 2 code.toNat ++ leBytes 4 transaction.toNat)) := by
  unfold bulkContainer
  generalize hfirst : (⟨32, fun _ => 0⟩ : Buffer).store 0 (leBytes 4 size) = first
  generalize hsecond : first.store 4 (leBytes 4 type) = second
  generalize hthird : second.store 6 (leBytes 4 code.toNat) = third
  have hsize : first.slice 0 4 = leBytes 4 size := by rw [← hfirst, store_field _ _ le_rfl]
  have htype : second.slice 4 2 = leBytes 2 type := by
    rw [← hsecond, store_field _ _ (by decide)]
  have hcode : third.slice 6 2 = leBytes 2 code.toNat := by
    rw [← hthird, store_field _ _ (by decide)]
  rw [Buffer.slice_add _ 0 8 4, Buffer.store_slice_disjoint _ 8 _ 0 8 (by simp),
    store_field _ _ le_rfl, ← hthird, Buffer.slice_add _ 0 6 2,
    Buffer.store_slice_disjoint _ 6 _ 0 6 (by simp), hthird, hcode, ← hsecond,
    Buffer.slice_add _ 0 4 2, Buffer.store_slice_disjoint _ 4 _ 0 4 (by simp), hsecond, htype,
    hsize]
  simp only [List.append_assoc]

/-- Storing parameters one after the other appends them to what is in front. -/
theorem storeParams_slice (bulk : Buffer) (offset : Nat) (params : List UInt32) :
    (storeParams bulk offset params).slice 0 (offset + 4 * params.length) =
      bulk.slice 0 offset ++ paramBytes params := by
  induction params generalizing bulk offset with
  | nil => simp [storeParams, paramBytes]
  | cons param rest ih =>
      have hextend := bulk.store_slice_extend 0 offset (leBytes 4 param.toNat)
      rw [Nat.zero_add, leBytes_length] at hextend
      rw [storeParams, List.length_cons, show offset + 4 * (rest.length + 1) =
        offset + 4 + 4 * rest.length by omega, ih, hextend, List.append_assoc]
      rfl

section Builders

variable {w : World σ} {buffer : Buffer} (hdata : w.r.data = some buffer) (cmd : PtpCommand)

include hdata

/-- `ptpusb_new_cmd_packet` puts the command container at the start of the buffer. -/
theorem ptpusbNewCmdPacket_ok (hsize : 32 ≤ buffer.size) :
    ptpusbNewCmdPacket cmd w = .ok (12 + 4 * cmd.paramLength : Nat)
      { w with r := { w.r with
        data := some (buffer.store 0 (commandContainer cmd w.r.transactionId)) } } := by
  have hle := cmd.paramLength_le
  have hbytes : (storeParams (bulkContainer (12 + 4 * cmd.paramLength) ptpPacketTypeCommand cmd.code
      w.r.transactionId) 12 cmd.paramList).slice 0 (12 + 4 * cmd.paramLength) =
      commandContainer cmd w.r.transactionId := by
    have hslice := storeParams_slice (bulkContainer (12 + 4 * cmd.paramLength) ptpPacketTypeCommand
      cmd.code w.r.transactionId) 12 cmd.paramList
    rw [cmd.paramList_length, bulkContainer_slice] at hslice
    rw [hslice, commandContainer, Container.bytes, paramBytes_length, cmd.paramList_length]
    simp only [List.append_assoc]
  unfold ptpusbNewCmdPacket
  rw [bind_ok (runtime_run w), hbytes,
    bind_ok (storeData_ok hdata 0 _ (rfl : (0 : Int) = (0 : Nat)) (by rw [commandContainer_length]; omega))]
  rfl

theorem ptpNewCmdPacket_ok {endpoint : Endpoint}
    (hendpoint : bulkEndpoint w.r.connectionType = some endpoint) (hsize : 32 ≤ buffer.size) :
    ptpNewCmdPacket cmd w = .ok (12 + 4 * cmd.paramLength : Nat)
      { w with r := { w.r with
        data := some (buffer.store 0 (commandContainer cmd w.r.transactionId)) } } := by
  unfold ptpNewCmdPacket
  rw [bind_ok (runtime_run w), ← ptpusbNewCmdPacket_ok hdata cmd hsize]
  cases htype : w.r.connectionType with
  | ip => rw [htype] at hendpoint; cases hendpoint
  | ipUsb => rfl
  | usb => rfl
  | ble => rfl

/-- `ptpusb_new_data_packet` puts the data container there. -/
theorem ptpusbNewDataPacket_ok (data : List UInt8) (hsize : 12 + data.length ≤ buffer.size)
    (hfits : (12 + data.length : Int) ≤ intMax) :
    ∃ buffer', buffer'.size = buffer.size ∧
      buffer'.slice 0 (12 + data.length) = dataContainer cmd w.r.transactionId data ∧
      ptpusbNewDataPacket cmd data w = .ok (12 + data.length : Nat)
        { w with r := { w.r with data := some buffer' } } := by
  unfold intMax at hfits
  have hheader := bulkContainer_slice (12 + data.length) ptpPacketTypeData cmd.code w.r.transactionId
  have hlength : toUInt32 (12 + data.length : Int) = 12 + data.length := by
    unfold toUInt32
    omega
  have hback : toInt32 (12 + data.length : Nat) = (12 + data.length : Nat) :=
    toInt32_of_fits ⟨by omega, by omega⟩
  generalize hheaderBytes : (bulkContainer (12 + data.length) ptpPacketTypeData cmd.code
    w.r.transactionId).slice 0 12 = header at hheader
  have hheaderLength : header.length = 12 := by rw [← hheaderBytes, Buffer.slice_length]
  refine ⟨(buffer.store 0 header).store 12 data, rfl, ?_, ?_⟩
  · have hextend := (buffer.store 0 header).store_slice_extend 0 12 data
    have hself := buffer.store_slice_self 0 header
    rw [hheaderLength] at hself
    rw [Nat.zero_add, hself] at hextend
    rw [hextend, hheader, dataContainer, Container.bytes]
    simp only [List.append_assoc]
  · have hsize' : 12 + data.length ≤ (buffer.store 0 header).size := hsize
    unfold ptpusbNewDataPacket
    rw [bind_ok (runtime_run w), bind_ok (intAdd_ok ⟨by omega, by omega⟩ w)]
    dsimp only
    rw [hlength, hheaderBytes, bind_ok (storeData_ok hdata 0 _ (rfl : (0 : Int) = (0 : Nat)) (by omega)),
      bind_ok (storeData_ok rfl 12 data (rfl : (12 : Int) = (12 : Nat)) hsize'), hback]
    rfl

end Builders

/-! ## The send loop -/

/-- Every write of at least one byte accepts between one and all of its bytes. -/
def Backend.Accepts (B : Backend σ) : Prop := ∀ endpoint bytes device, bytes ≠ [] →
  ∃ count, (B.cmdWrite endpoint bytes device).1 = some count ∧ 1 ≤ count ∧ count ≤ bytes.length

/-- A write of at most `limit` bytes. -/
def Call.SmallWrite (limit : Int) : Call → Prop
  | .write _ bytes _ => (bytes.length : Int) ≤ limit
  | .read .. => False

/-- Writes of at most `first` bytes, and behind the first one of at most `later` bytes. -/
def SmallWrites (first later : Int) : List Call → Prop
  | [] => True
  | call :: rest => call.SmallWrite first ∧ ∀ call ∈ rest, call.SmallWrite later

theorem SmallWrites.append {first later : Int} {calls calls' : List Call}
    (hsmall : SmallWrites first later calls) (hne : calls ≠ [])
    (hsmall' : SmallWrites later later calls') : SmallWrites first later (calls ++ calls') := by
  cases calls with
  | nil => exact absurd rfl hne
  | cons call rest =>
      refine ⟨hsmall.1, fun call' hcall => ?_⟩
      rcases List.mem_append.mp hcall with hcall | hcall
      · exact hsmall.2 call' hcall
      · cases calls' with
        | nil => cases hcall
        | cons head tail =>
            rcases List.mem_cons.mp hcall with rfl | hcall
            · exact hsmall'.1
            · exact hsmall'.2 call' hcall

/-- The packet size behind the first backend call of a connection with USB-style framing. -/
def PtpRuntime.nextPacketSize (r : PtpRuntime) : Int :=
  (bulkEndpoint r.connectionType).elim r.maxPacketSize r.packetSize

theorem PtpRuntime.nextPacketSize_eq {r : PtpRuntime} {endpoint : Endpoint}
    (hendpoint : bulkEndpoint r.connectionType = some endpoint) :
    r.nextPacketSize = r.packetSize endpoint := by
  unfold nextPacketSize
  rw [hendpoint]
  rfl

/-- The calls between two worlds write the given bytes to the endpoint, in small writes only. -/
def Writes (endpoint : Endpoint) (bytes : List UInt8) (w w' : World σ) : Prop :=
  w'.reallocs = w.reallocs ∧ ∃ calls, w'.log = w.log ++ calls ∧ writtenBytes calls = bytes ∧
    SmallWrites w.r.maxPacketSize (w.r.packetSize endpoint) calls ∧
    (calls = [] ∧ w'.r = w.r ∨ calls ≠ [] ∧ w'.r = w.r.initComm endpoint)

section Writes

variable {endpoint : Endpoint} {bytes : List UInt8} {w w' : World σ}

theorem SmallWrites.isWrite {first later : Int} {calls : List Call}
    (hsmall : SmallWrites first later calls) : ∀ call ∈ calls, call.isWrite = true := by
  have hwrite : ∀ {limit : Int} {call : Call}, call.SmallWrite limit → call.isWrite = true := by
    intro limit call hcall
    cases call with
    | write => rfl
    | read => exact hcall.elim
  cases calls with
  | nil => simp
  | cons call rest =>
      intro call' hcall
      rcases List.mem_cons.mp hcall with rfl | hcall
      · exact hwrite hsmall.1
      · exact hwrite (hsmall.2 call' hcall)

theorem Writes.refl (w : World σ) : Writes endpoint [] w w :=
  ⟨rfl, [], (List.append_nil _).symm, rfl, trivial, .inl ⟨rfl, rfl⟩⟩

theorem Writes.trans {second : List UInt8} {w'' : World σ} (hfirst : Writes endpoint bytes w w')
    (hsecond : Writes endpoint second w' w'') : Writes endpoint (bytes ++ second) w w'' := by
  obtain ⟨hreallocs, calls, hlog, hbytes, hsmall, hr⟩ := hfirst
  obtain ⟨hreallocs', calls', hlog', hbytes', hsmall', hr'⟩ := hsecond
  refine ⟨hreallocs'.trans hreallocs, calls ++ calls', ?_, ?_, ?_⟩
  · rw [hlog', hlog, List.append_assoc]
  · rw [writtenBytes_append, hbytes, hbytes']
  · rcases hr with ⟨rfl, hr⟩ | ⟨hne, hr⟩
    · rw [hr] at hsmall' hr'
      exact ⟨hsmall', hr'⟩
    · -- the first write has left the packet size of all that follow
      have hlater : SmallWrites (w.r.packetSize endpoint) (w.r.packetSize endpoint) calls' := by
        rw [hr, PtpRuntime.packetSize_initComm] at hsmall'
        exact hsmall'
      refine ⟨hsmall.append hne hlater, .inr ⟨by simp [hne], ?_⟩⟩
      rcases hr' with ⟨_, hr'⟩ | ⟨_, hr'⟩
      · exact hr'.trans hr
      · rw [hr', hr]
        unfold PtpRuntime.initComm
        congr 1
        exact w.r.packetSize_initComm endpoint

/-- Of the runtime only the packet size changes. -/
theorem Writes.runtime (hwrites : Writes endpoint bytes w w') :
    w'.r = { w.r with maxPacketSize := w'.r.maxPacketSize } ∧ w.r.Resized w'.r := by
  obtain ⟨_, _, _, _, _, hr⟩ := hwrites
  rcases hr with ⟨_, hr⟩ | ⟨_, hr⟩
  · rw [hr]
    exact ⟨rfl, refl_of PtpRuntime.Resized w.r⟩
  · rw [hr]
    exact ⟨rfl, w.r.resized_initComm endpoint⟩

theorem Writes.packet (hwrites : Writes endpoint bytes w w') :
    w'.r.maxPacketSize = w.r.maxPacketSize ∨ w'.r.maxPacketSize = w.r.packetSize endpoint := by
  obtain ⟨_, _, _, _, _, hr⟩ := hwrites
  rcases hr with ⟨_, hr⟩ | ⟨_, hr⟩
  · exact .inl (by rw [hr])
  · exact .inr (by rw [hr]; rfl)

/-- The contents of the buffer do not matter for what has been written. -/
theorem Writes.withData (hwrites : Writes endpoint bytes w w') (data : Option Buffer) :
    Writes endpoint bytes { w with r := { w.r with data := data } }
      { w' with r := { w'.r with data := data } } := by
  obtain ⟨hreallocs, calls, hlog, hbytes, hsmall, hr⟩ := hwrites
  refine ⟨hreallocs, calls, hlog, hbytes, hsmall, hr.imp ?_ ?_⟩
  · rintro ⟨hnil, hr⟩
    exact ⟨hnil, by rw [hr]⟩
  · rintro ⟨hne, hr⟩
    exact ⟨hne, by rw [hr]; rfl⟩

end Writes

section SendLoop

variable {B : Backend σ} {w : World σ} {buffer : Buffer} {endpoint : Endpoint}

theorem ptpSendPacketBody_accepts (haccepts : B.Accepts) (hdata : w.r.data = some buffer)
    (hendpoint : bulkEndpoint w.r.connectionType = some endpoint) (hpacket : 0 < w.r.maxPacketSize)
    {length sent : Nat} (hsent : sent < length) (hlength : length ≤ buffer.size) :
    ∃ count w', 1 ≤ count ∧ sent + count ≤ length ∧
      Writes endpoint (buffer.slice sent count) w w' ∧
      ptpSendPacketBody B length sent w =
        .ok (if sent + count = length then .inr (sent + count : Nat) else .inl (sent + count)) w' := by
  obtain ⟨max, hmax⟩ : ∃ max : Nat, (max : Int) =
      if (length : Int) - sent > w.r.maxPacketSize then w.r.maxPacketSize else length - sent := by
    refine ⟨(if (length : Int) - sent > w.r.maxPacketSize then w.r.maxPacketSize
      else length - sent).toNat, Int.toNat_of_nonneg ?_⟩
    split_ifs <;> omega
  have hbounds : 0 < max ∧ sent + max ≤ length ∧ (max : Int) ≤ w.r.maxPacketSize := by
    split_ifs at hmax <;> omega
  obtain ⟨hpos, hle, hsmall⟩ := hbounds
  have hne : buffer.slice sent max ≠ [] := by
    refine List.ne_nil_of_length_pos ?_
    rw [Buffer.slice_length]
    exact hpos
  obtain ⟨count, haccepted, hcount, hcount_le⟩ := haccepts endpoint _ w.device hne
  rw [Buffer.slice_length] at hcount_le
  have hwritten : (buffer.slice sent max).take count = buffer.slice sent count := by
    have htake := buffer.slice_drop_take sent max 0 count (by omega)
    rwa [List.drop_zero, Nat.add_zero] at htake
  refine ⟨count, { w with
    r := w.r.initComm endpoint
    device := (B.cmdWrite endpoint (buffer.slice sent max) w.device).2
    log := w.log ++ [.write endpoint (buffer.slice sent max) (some count)] }, hcount, by omega,
    ⟨rfl, [.write endpoint (buffer.slice sent max) (some count)], rfl, ?_, ?_,
      .inr ⟨by simp, rfl⟩⟩, ?_⟩
  · simp [writtenBytes, hwritten]
  · simp [SmallWrites, Call.SmallWrite, hsmall]
  · have hover : ¬((sent + count : Nat) : Int) > length := by omega
    unfold ptpSendPacketBody
    rw [bind_ok (runtime_run w), ← hmax, hendpoint]
    dsimp only
    rw [bind_ok (cmdWrite_ok hdata endpoint sent max (by omega)), haccepted]
    dsimp only
    rw [if_neg hover]
    by_cases hdone : sent + count = length
    · rw [if_pos (by exact_mod_cast hdone), if_pos hdone]
      rfl
    · rw [if_neg (by exact_mod_cast hdone), if_neg hdone]
      rfl

/-- Whatever partial writes the backend makes, the send loop writes the packet. -/
theorem ptpSendPacket_accepts (haccepts : B.Accepts) (hdata : w.r.data = some buffer)
    (hendpoint : bulkEndpoint w.r.connectionType = some endpoint) (hpacket : 0 < w.r.maxPacketSize)
    {length : Nat} (hpos : 0 < length) (hlength : length ≤ buffer.size) :
    ∃ w', Writes endpoint (buffer.slice 0 length) w w' ∧
      ∀ fuel > length, ptpSendPacket B fuel length w = .ok length w' := by
  have hstep : ∀ sent v, sent < length ∧ Writes endpoint (buffer.slice 0 sent) w v →
      (∃ a v', ptpSendPacketBody B length sent v = .ok (.inr a) v' ∧
        a = (length : Int) ∧ Writes endpoint (buffer.slice 0 length) w v') ∨
      ∃ next v', ptpSendPacketBody B length sent v = .ok (.inl next) v' ∧
        (next < length ∧ Writes endpoint (buffer.slice 0 next) w v') ∧
          length - next < length - sent := by
    rintro sent v ⟨hsent, hwrites⟩
    obtain ⟨hr, hresized⟩ := hwrites.runtime
    have hdata' : v.r.data = some buffer := by rw [hr, hdata]
    have hendpoint' : bulkEndpoint v.r.connectionType = some endpoint := by rw [hr, hendpoint]
    have hpacket' : 0 < v.r.maxPacketSize := hresized.pos hpacket
    obtain ⟨count, v', hcount, hle, hmore, hbody⟩ :=
      ptpSendPacketBody_accepts haccepts hdata' hendpoint' hpacket' hsent hlength
    have hall : Writes endpoint (buffer.slice 0 (sent + count)) w v' := by
      rw [Buffer.slice_add, Nat.zero_add]
      exact hwrites.trans hmore
    by_cases hdone : sent + count = length
    · rw [if_pos hdone] at hbody
      rw [hdone] at hbody hall
      exact .inl ⟨_, v', hbody, rfl, hall⟩
    · rw [if_neg hdone] at hbody
      exact .inr ⟨_, v', hbody, ⟨by omega, hall⟩, by omega⟩
  obtain ⟨a, w', ⟨rfl, hwrites⟩, hrun⟩ := iterate_total Halt.spent
    (fun sent v => sent < length ∧ Writes endpoint (buffer.slice 0 sent) w v) (fun sent => length - sent)
    (fun a v => a = (length : Int) ∧ Writes endpoint (buffer.slice 0 length) w v) hstep
    ⟨hpos, Writes.refl w⟩
  exact ⟨w', hwrites, fun fuel hfuel => hrun fuel hfuel⟩

end SendLoop

/-! ## Transmissions -/

section Transmit

variable (B : Backend σ) (fuel : Nat) (cmd : PtpCommand) (data : List UInt8)

/-- Build a packet and send it; the result says whether all of it was sent. -/
def transmit (build : M σ Int) : M σ Bool := do
  let length ← build
  let sent ← ptpSendPacket B fuel length
  pure (decide (sent = length))

/-- The packets of `ptp_send_try`. -/
def transmitCmd : M σ Bool := transmit B fuel (ptpNewCmdPacket cmd)

/-- The packets of `ptp_send_data_try` over USB-style framing. -/
def transmitData : M σ Bool := do
  let sent ← transmitCmd B fuel cmd
  if sent then transmit B fuel (ptpusbNewDataPacket cmd data) else pure false

/-- A transmission, and the receive that follows it if it is complete. -/
def attemptOf (transmission : M σ Bool) : M σ Int := do
  let sent ← transmission
  if sent then receiveReply B fuel else pure PtpGeneralError.ioErr

theorem sendThen_eq (build next : M σ Int) : (do
      let length ← build
      sendThen B fuel length next) = (do
      let sent ← transmit B fuel build
      if sent then next else pure PtpGeneralError.ioErr) := by
  unfold transmit sendThen
  simp only [bind_assoc, pure_bind]
  congr 1
  funext length
  congr 1
  funext sent
  by_cases hsent : sent = length <;> simp [hsent]

theorem ptpSendTry_eq : ptpSendTry B fuel cmd = attemptOf B fuel (transmitCmd B fuel cmd) :=
  sendThen_eq B fuel (ptpNewCmdPacket cmd) (receiveReply B fuel)

variable {B fuel}

theorem transmit_sends {build : M σ Int} (hbuild : Moves Sends build) :
    Moves Sends (transmit B fuel build) :=
  hbuild.bind fun length => ((ptpSendPacket_onlyWrites B fuel length).mono
    fun _ _ hwrites => hwrites.sends).bind fun _ => Moves.pure _

theorem transmitCmd_sends : Moves Sends (transmitCmd B fuel cmd) :=
  transmit_sends (ptpNewCmdPacket_sends cmd)

theorem transmitData_sends : Moves Sends (transmitData B fuel cmd data) := by
  refine (transmitCmd_sends cmd).bind fun sent => ?_
  split
  · exact transmit_sends (ptpusbNewDataPacket_sends cmd data)
  · exact Moves.pure _

theorem ptpSendDataTry_eq {w : World σ} (hconn : w.r.connectionType ≠ .ip) :
    ptpSendDataTry B fuel cmd data w = attemptOf B fuel (transmitData B fuel cmd data) w := by
  unfold ptpSendDataTry attemptOf transmitData
  rw [sendThen_eq, bind_assoc]
  change (transmitCmd B fuel cmd >>= _) w = (transmitCmd B fuel cmd >>= _) w
  cases hsend : transmitCmd B fuel cmd w with
  | error reason w' => rw [bind_error hsend, bind_error hsend]
  | ok sent w' =>
      rw [bind_ok hsend, bind_ok hsend]
      cases sent with
      | false => rfl
      | true =>
          have hsame := ((transmitCmd_sends cmd).of_ok hsend).2.runtime
          have hconn' : w'.r.connectionType ≠ .ip := by
            rw [hsame]
            exact hconn
          simp only [if_true]
          rw [bind_ok (runtime_run w')]
          have husb := sendThen_eq B fuel (ptpusbNewDataPacket cmd data) (receiveReply B fuel)
          cases htype : w'.r.connectionType with
          | ip => exact absurd htype hconn'
          | ipUsb => exact congrFun husb w'
          | usb => exact congrFun husb w'
          | ble => exact congrFun husb w'

/-- The calls between two worlds write the given bytes; the packets built for that are
left in the buffer. -/
def Transmits (endpoint : Endpoint) (bytes : List UInt8) (w w' : World σ) (buffer' : Buffer) :
    Prop := Writes endpoint bytes { w with r := { w.r with data := some buffer' } } w'

theorem Transmits.trans {endpoint : Endpoint} {first second : List UInt8} {w w' w'' : World σ}
    {buffer buffer' : Buffer} (hfirst : Transmits endpoint first w w' buffer)
    (hsecond : Transmits endpoint second w' w'' buffer') :
    Transmits endpoint (first ++ second) w w'' buffer' :=
  Writes.trans (Writes.withData hfirst (some buffer')) hsecond

section Accepted

variable {w : World σ} {buffer : Buffer} {endpoint : Endpoint} (haccepts : B.Accepts)
  (hdata : w.r.data = some buffer) (hendpoint : bulkEndpoint w.r.connectionType = some endpoint)
  (hpacket : 0 < w.r.maxPacketSize)

include haccepts hdata hendpoint hpacket

theorem transmitCmd_accepts (hsize : 32 ≤ buffer.size) :
    ∃ buffer' w', buffer'.size = buffer.size ∧
      Transmits endpoint (commandContainer cmd w.r.transactionId) w w' buffer' ∧
      ∀ fuel > 32, transmitCmd B fuel cmd w = .ok true w' := by
  have hle := cmd.paramLength_le
  have hlength := commandContainer_length cmd w.r.transactionId
  have hbuild := ptpNewCmdPacket_ok hdata cmd hendpoint hsize
  have hslice : (buffer.store 0 (commandContainer cmd w.r.transactionId)).slice 0
      (12 + 4 * cmd.paramLength) = commandContainer cmd w.r.transactionId := by
    rw [← hlength, Buffer.store_slice_self]
  have hroom : 12 + 4 * cmd.paramLength ≤
      (buffer.store 0 (commandContainer cmd w.r.transactionId)).size := by
    rw [Buffer.store_size]
    omega
  obtain ⟨w', hwrites, hrun⟩ := ptpSendPacket_accepts (w := { w with r := { w.r with
    data := some (buffer.store 0 (commandContainer cmd w.r.transactionId)) } })
    haccepts rfl hendpoint hpacket (by omega) hroom
  rw [hslice] at hwrites
  refine ⟨_, w', Buffer.store_size .., hwrites, fun fuel hfuel => ?_⟩
  unfold transmitCmd transmit
  rw [bind_ok hbuild, bind_ok (hrun fuel (by omega)), decide_eq_true rfl]
  rfl

theorem transmitData_accepts (hsize : 32 ≤ buffer.size) (hroom : 12 + data.length ≤ buffer.size)
    (hfits : (12 + data.length : Int) ≤ intMax) :
    ∃ buffer' w', buffer'.size = buffer.size ∧
      Transmits endpoint
        (commandContainer cmd w.r.transactionId ++ dataContainer cmd w.r.transactionId data) w w'
        buffer' ∧
      ∀ fuel > 32 + data.length, transmitData B fuel cmd data w = .ok true w' := by
  obtain ⟨first, w', hfirstSize, hcommand, hfirst⟩ :=
    transmitCmd_accepts cmd haccepts hdata hendpoint hpacket hsize
  obtain ⟨hr, hresized⟩ := Writes.runtime hcommand
  have hdata' : w'.r.data = some first := by rw [hr]
  obtain ⟨second, hsecondSize, hslice, hbuild⟩ :=
    ptpusbNewDataPacket_ok hdata' cmd data (by omega) hfits
  obtain ⟨w'', hwrites, hsecond⟩ := ptpSendPacket_accepts
    (w := { w' with r := { w'.r with data := some second } }) haccepts rfl
    (by dsimp only; rw [hr]; exact hendpoint) (hresized.pos hpacket)
    (by omega : 0 < 12 + data.length) (by omega)
  rw [hslice] at hwrites
  have htransaction : w'.r.transactionId = w.r.transactionId := by rw [hr]; rfl
  rw [htransaction] at hwrites
  refine ⟨second, w'', by omega, hcommand.trans hwrites, fun fuel hfuel => ?_⟩
  unfold transmitData
  rw [bind_ok (hfirst fuel (by omega)), if_pos rfl, transmit, bind_ok hbuild,
    bind_ok (hsecond fuel (by omega)), decide_eq_true rfl]
  rfl

end Accepted

end Transmit

end Libpict
