import Mathlib.Data.List.DropRight
import Libpict.Exposure
import Libpict.Request
import Libpict.Retransmission

/-! # The outcome of an operation

What an operation that returns has done, whatever the device: it was refused, its
exchange failed, or it has received a reply. An operation that was not refused
completes exactly if the reads since its last write have brought a complete reply
in time.
-/

namespace Libpict

open Bytes CInt Exec PtpRuntime

variable {σ : Type} {B : Backend σ} {w w' : World σ} {fuel : Nat}

/-- A call of `ptp_send` or `ptp_send_data`. -/
inductive Operation
  | send (cmd : PtpCommand)
  | sendData (cmd : PtpCommand) (data : List UInt8)

namespace Operation

def exec (B : Backend σ) (fuel : Nat) : Operation → M σ Int
  | send cmd => ptpSend B fuel cmd
  | sendData cmd data => ptpSendData B fuel cmd data

/-- What the operation does once, before its attempts. -/
def prepare (B : Backend σ) : Operation → M σ Unit
  | send _ => updateRuntime fun r => { r with dataPhaseLength := 0 }
  | sendData _ data => prepareData B data

/-- The transmission of an attempt, other than over PTP/IP. -/
def transmission (B : Backend σ) (fuel : Nat) : Operation → M σ Bool
  | send cmd => transmitCmd B fuel cmd
  | sendData cmd data => transmitData B fuel cmd data

def attempt (B : Backend σ) (fuel : Nat) (op : Operation) : M σ Int :=
  attemptOf B fuel (op.transmission B fuel)

theorem exec_eq (op : Operation) (hconn : w.r.connectionType ≠ .ip) :
    op.exec B fuel w = ptpTransaction (op.prepare B) (op.attempt B fuel) w := by
  cases op with
  | send cmd =>
      change ptpSend B fuel cmd w = _
      unfold ptpSend
      rw [ptpSendTry_eq]
      rfl
  | sendData cmd data => exact ptpSendData_eq cmd data hconn

theorem prepare_silent (op : Operation) : Moves Silent (op.prepare B) := by
  cases op with
  | send => exact fun w => .ok rfl ⟨rfl, rfl⟩
  | sendData _ data => exact prepareData_silent B data

theorem transmission_sends (op : Operation) : Moves Sends (op.transmission B fuel) := by
  cases op with
  | send cmd => exact transmitCmd_sends cmd
  | sendData cmd data => exact transmitData_sends cmd data

end Operation

/-! ## Operations only add to the log -/

theorem sendThen_extends {length : Int} {next : M σ Int} (hnext : Moves Extends next) :
    Moves Extends (sendThen B fuel length next) := by
  have hsend : Moves Extends (ptpSendPacket B fuel length) :=
    (ptpSendPacket_onlyWrites B fuel length).mono fun _ _ h => h.sends.extends
  refine hsend.bind fun sent => ?_
  split
  · exact Moves.pure _
  · exact hnext

theorem Silent.extends {w w' : World σ} (hsilent : Silent w w') : Extends w w' := by
  have hlog := hsilent.1
  simp [Extends, hlog]

theorem ptpSendDataTry_extends (cmd : PtpCommand) (data : List UInt8) :
    Moves Extends (ptpSendDataTry B fuel cmd data) := by
  have hreceive : Moves Extends (receiveReply B fuel) :=
    (receiveReply_onlyReads B fuel).mono fun _ _ h => h.extends
  have hcommand : Moves Extends (ptpNewCmdPacket cmd : M σ Int) :=
    (ptpNewCmdPacket_sends cmd).mono fun _ _ h => h.extends
  have hdata : Moves Extends (ptpusbNewDataPacket cmd data : M σ Int) :=
    (ptpusbNewDataPacket_sends cmd data).mono fun _ _ h => h.extends
  have hstore : ∀ offset bytes, Moves Extends (storeData offset bytes : M σ Unit) :=
    fun offset bytes => (storeData_silent offset bytes).mono fun _ _ h => h.extends
  have husb : Moves Extends (ptpusbNewDataPacket cmd data >>= fun plength =>
      sendThen B fuel plength (receiveReply B fuel)) :=
    hdata.bind fun _ => sendThen_extends hreceive
  refine hcommand.bind fun plength => sendThen_extends (moves_runtime.bind fun r => ?_)
  cases r.connectionType with
  | ip =>
      refine (moves_runtime.bind fun _ => (hstore _ _).bind fun _ => Moves.pure _ :
        Moves Extends (ptpipDataStartPacket data.length)).bind fun _ => sendThen_extends ?_
      refine (moves_runtime.bind fun _ => (moves_intAdd _ _).bind fun _ => (hstore _ _).bind fun _ =>
        (hstore _ _).bind fun _ => Moves.pure _ : Moves Extends (ptpipDataEndPacket data)).bind
          fun _ => sendThen_extends hreceive
  | ipUsb => exact husb
  | usb => exact husb
  | ble => exact husb

theorem ptpTransaction_extends {prepare : M σ Unit} {attempt : M σ Int}
    (hprepare : Moves Extends prepare) (hattempt : Moves Extends attempt) :
    Moves Extends (ptpTransaction prepare attempt) := by
  have hlock : Moves Extends (ptpMutexLock : M σ Unit) := fun w => .ok rfl (refl_of Extends w)
  have hunlock : Moves Extends (ptpMutexUnlock : M σ Unit) := fun w => .ok rfl (refl_of Extends w)
  refine moves_runtime.bind fun r => ?_
  split
  · exact Moves.pure _
  · refine hlock.bind fun _ => moves_runtime.bind fun r => ?_
    split
    · exact hunlock.bind fun _ => Moves.pure _
    · exact hprepare.bind fun _ => hattempt.bind fun rc => afterAttempt_extends hattempt rc

theorem Operation.exec_extends (op : Operation) : Moves Extends (op.exec B fuel) := by
  cases op with
  | send cmd =>
      refine ptpTransaction_extends (fun w => .ok rfl (refl_of Extends w)) ?_
      rw [ptpSendTry_eq]
      exact attemptOf_extends ((transmitCmd_sends cmd).mono fun _ _ h => h.extends)
  | sendData cmd data =>
      exact ptpTransaction_extends ((prepareData_silent B data).mono fun _ _ h => h.extends)
        (ptpSendDataTry_extends cmd data)

/-! ## The end of a transaction -/

/-- The attempts of an operation, up to the one that settles it. -/
inductive Attempts (attempt : M σ Int) (w : World σ) : Int → World σ → Prop
  | first {rc : Int} {v : World σ} : attempt w = .ok rc v →
      rc ≠ PtpGeneralError.commandIgnored → Attempts attempt w rc v
  | second {rc : Int} {u v : World σ} : attempt w = .ok PtpGeneralError.commandIgnored u →
      attempt u = .ok rc v → Attempts attempt w rc v

/-- The world behind an exchange that failed. -/
def failed (v : World σ) : World σ :=
  { v with r := { v.r with operationKillSwitch := true, mutex := v.r.mutex.map (· - 1) } }

/-- The world behind an exchange that went through. -/
def finished (v : World σ) : World σ :=
  { v with r := { v.r with transaction := v.r.transaction + 1, mutex := v.r.mutex.map (· - 1) } }

/-- What `ptp_check_rc` makes of a response code. -/
def checked (code : Int) : Int :=
  if code = 0xffff then PtpGeneralError.ioErr
  else if code ≠ ptpRcOk then PtpGeneralError.checkCode else 0

theorem ptpCheckRc_ok {code : Int} (hcode : ptpGetReturnCode w.r = .ok code) :
    ptpCheckRc w = .ok (checked code) w := by
  have hload := inspect_ok hcode
  refine (bind_ok hload).trans ?_
  unfold checked
  split
  next => rfl
  next =>
    split
    next => exact bind_ok hload
    next => rfl

theorem countTransaction_ok {v : World σ} (hfits : Fits (v.r.transaction + 1)) :
    countTransaction v =
      .ok () { v with r := { v.r with transaction := v.r.transaction + 1 } } := by
  unfold countTransaction
  rw [bind_ok (runtime_run v), if_pos hfits]
  rfl

theorem countTransaction_eq_ok {v : World σ} (hrun : countTransaction v = .ok () w') :
    Fits (v.r.transaction + 1) ∧
      w' = { v with r := { v.r with transaction := v.r.transaction + 1 } } := by
  have hrest := (bind_ok (runtime_run v)).symm.trans hrun
  by_cases hfits : Fits (v.r.transaction + 1)
  · rw [if_pos hfits] at hrest
    exact ⟨hfits, (EStateM.Result.ok.inj hrest).2.symm⟩
  · rw [if_neg hfits] at hrest
    cases hrest

/-- A counter that is spent cannot be counted on. -/
theorem finishTransaction_overflow {v : World σ} (hover : ¬Fits (v.r.transaction + 1)) :
    finishTransaction v = .error .counterOverflow v := by
  have hcount : countTransaction v = .error .counterOverflow v := by
    unfold countTransaction
    rw [bind_ok (runtime_run v), if_neg hover]
    rfl
  exact bind_error hcount

theorem finishTransaction_ok {v : World σ} (hfits : Fits (v.r.transaction + 1)) {code : Int}
    (hcode : ptpGetReturnCode { v.r with transaction := v.r.transaction + 1 } = .ok code) :
    finishTransaction v = .ok (checked code) (finished v) := by
  let u : World σ := { v with r := { v.r with transaction := v.r.transaction + 1 } }
  unfold finishTransaction
  rw [bind_ok (countTransaction_ok hfits)]
  exact (bind_ok (ptpCheckRc_ok (w := u) hcode)).trans rfl

theorem finishTransaction_cases {v : World σ} {rc : Int}
    (hrun : finishTransaction v = .ok rc w') : Fits (v.r.transaction + 1) ∧ ∃ code,
      ptpGetReturnCode { v.r with transaction := v.r.transaction + 1 } = .ok code ∧
        rc = checked code ∧ w' = finished v := by
  obtain ⟨_, _, hcount, hrest⟩ := bind_eq_ok.mp hrun
  obtain ⟨hfits, rfl⟩ := countTransaction_eq_ok hcount
  obtain ⟨_, _, hcheck, _⟩ := bind_eq_ok.mp hrest
  obtain ⟨code, _, hcode, _⟩ := bind_eq_ok.mp hcheck
  have hload := (inspect_eq_ok hcode).1
  rw [finishTransaction_ok hfits hload] at hrun
  obtain ⟨rfl, rfl⟩ := EStateM.Result.ok.inj hrun
  exact ⟨hfits, code, hload, rfl, rfl⟩

/-- The attempts of an operation fail, or one goes through. -/
theorem attemptTwice_cases {attempt : M σ Int} {w₀ : World σ} {rc : Int}
    (hrun : attemptTwice attempt w₀ = .ok rc w') : ∃ rc' v, Attempts attempt w₀ rc' v ∧
      (rc' ≠ 0 ∧ rc = PtpGeneralError.ioErr ∧ w' = failed v ∨
        rc' = 0 ∧ finishTransaction v = .ok rc w') := by
  obtain ⟨rc₁, u, hfirst, hrest⟩ := bind_eq_ok.mp hrun
  unfold afterAttempt at hrest
  by_cases hignored : rc₁ = PtpGeneralError.commandIgnored
  · rw [if_pos hignored] at hrest
    obtain ⟨rc₂, v, hsecond, hrest'⟩ := bind_eq_ok.mp hrest
    refine ⟨rc₂, v, .second (hignored ▸ hfirst) hsecond, ?_⟩
    by_cases hfailed : rc₂ ≠ 0
    · rw [if_pos hfailed] at hrest'
      obtain ⟨rfl, rfl⟩ := EStateM.Result.ok.inj hrest'
      exact .inl ⟨hfailed, rfl, rfl⟩
    · rw [if_neg hfailed] at hrest'
      exact .inr ⟨not_not.mp hfailed, hrest'⟩
  · rw [if_neg hignored] at hrest
    refine ⟨rc₁, u, .first hfirst hignored, ?_⟩
    by_cases hfailed : rc₁ ≠ 0
    · rw [if_pos hfailed] at hrest
      obtain ⟨rfl, rfl⟩ := EStateM.Result.ok.inj hrest
      exact .inl ⟨hfailed, rfl, rfl⟩
    · rw [if_neg hfailed] at hrest
      exact .inr ⟨not_not.mp hfailed, hrest⟩

/-- What an operation that returns has done. -/
inductive Operation.Outcome (op : Operation) (B : Backend σ) (fuel : Nat) (w : World σ) (rc : Int)
    (w' : World σ) : Prop
  /-- The switch was set. -/
  | refused : w.r.operationKillSwitch = true → rc = PtpGeneralError.ioErr → w' = w →
      Outcome op B fuel w rc w'
  /-- The last attempt failed. -/
  | failed {w₀ v : World σ} {rc' : Int} : w.r.operationKillSwitch = false →
      op.prepare B (locked w) = .ok () w₀ → Attempts (op.attempt B fuel) w₀ rc' v → rc' ≠ 0 →
      rc = PtpGeneralError.ioErr → w' = Libpict.failed v → Outcome op B fuel w rc w'
  /-- The last attempt has received a reply. -/
  | completed {w₀ v : World σ} {code : Int} : w.r.operationKillSwitch = false →
      op.prepare B (locked w) = .ok () w₀ → Attempts (op.attempt B fuel) w₀ 0 v →
      ptpGetReturnCode { v.r with transaction := v.r.transaction + 1 } = .ok code →
      rc = checked code → w' = finished v → Outcome op B fuel w rc w'

/-- Without an endpoint no operation gets through its first transmission. -/
theorem Operation.exec_noEndpoint (op : Operation) (hconn : bulkEndpoint w.r.connectionType = none)
    (hkill : w.r.operationKillSwitch = false) {rc : Int} : op.exec B fuel w ≠ .ok rc w' := by
  cases op with
  | send cmd =>
      obtain ⟨reason, v, hsend, _⟩ := transmitCmd_noEndpoint (B := B)
        (w := { locked w with r := { (locked w).r with dataPhaseLength := 0 } }) hconn fuel cmd
      have hattempt : ptpSendTry B fuel cmd
          { locked w with r := { (locked w).r with dataPhaseLength := 0 } } = .error reason v := by
        rw [ptpSendTry_eq]
        exact bind_error hsend
      intro hrun
      have hstop : ptpSend B fuel cmd w = .error reason v :=
        (ptpTransaction_run hkill).trans ((bind_ok (updateRuntime_run _ _)).trans
          (bind_error hattempt))
      cases hstop.symm.trans hrun
  | sendData cmd data =>
      intro hrun
      change ptpTransaction _ _ w = _ at hrun
      rw [ptpTransaction_run hkill] at hrun
      obtain ⟨_, w₀, hprepare, hrest⟩ := bind_eq_ok.mp hrun
      have hsame := ((prepareData_silent B data).of_ok hprepare).2
      obtain ⟨reason, v, hsend, _⟩ := transmitCmd_noEndpoint (B := B) (w := w₀)
        (by rw [hsame]; exact hconn) fuel cmd
      have hattempt : ptpSendDataTry B fuel cmd data w₀ = .error reason v := by
        unfold ptpSendDataTry
        rw [sendThen_eq]
        exact bind_error hsend
      cases (bind_error hattempt).symm.trans hrest

theorem Operation.outcome (op : Operation) {rc : Int} (hrun : op.exec B fuel w = .ok rc w') :
    op.Outcome B fuel w rc w' := by
  by_cases hkill : w.r.operationKillSwitch = true
  · have hrefused : op.exec B fuel w = .ok PtpGeneralError.ioErr w := by
      cases op with
      | send => exact ptpTransaction_refused hkill
      | sendData => exact ptpTransaction_refused hkill
    rw [hrefused] at hrun
    obtain ⟨rfl, rfl⟩ := EStateM.Result.ok.inj hrun
    exact .refused hkill rfl rfl
  rw [Bool.not_eq_true] at hkill
  have hconn : w.r.connectionType ≠ .ip := by
    intro hip
    exact op.exec_noEndpoint (by rw [hip]; rfl) hkill hrun
  rw [op.exec_eq hconn, ptpTransaction_run hkill] at hrun
  obtain ⟨_, w₀, hprepare, htwice⟩ := bind_eq_ok.mp hrun
  obtain ⟨rc', v, hattempts, hend⟩ := attemptTwice_cases htwice
  rcases hend with ⟨hfailed, rfl, rfl⟩ | ⟨rfl, hfinish⟩
  · exact .failed hkill hprepare hattempts hfailed rfl rfl
  · obtain ⟨_, code, hcode, rfl, rfl⟩ := finishTransaction_cases hfinish
    exact .completed hkill hprepare hattempts hcode rfl rfl

/-! ## What a completed exchange has received -/

/-- The runtime has a buffer, and its length field is the size up to overflow. -/
def Sized (r : PtpRuntime) : Prop := ∃ buffer, r.data = some buffer ∧
  r.dataLength = toInt32 buffer.size ∧ (buffer.size : Int) ≤ intMax + 100 ∧
  ptpDefaultSize ≤ buffer.size

theorem PtpRuntime.Ready.sized {r : PtpRuntime} {buffer : Buffer} (hready : r.Ready buffer) :
    Sized r := by
  obtain ⟨hdata, hlength, hsize, hdefault⟩ := hready
  refine ⟨buffer, hdata, ?_, by omega, hdefault⟩
  rw [toInt32_of_fits ⟨by omega, hsize⟩]
  exact hlength

theorem Sized.sends (hsized : Sized w.r) (hsends : Sends w w') : Sized w'.r := by
  obtain ⟨buffer, hdata, hlength, hbound, hdefault⟩ := hsized
  obtain ⟨_, hr, hsame, _⟩ := hsends
  rw [hdata, Option.map_some, Option.map_eq_some_iff] at hsame
  obtain ⟨buffer', hdata', hsize⟩ := hsame
  refine ⟨buffer', hdata', ?_, by omega, by omega⟩
  rw [hr, hsize]
  exact hlength

/-- What has been sent has been written, within the packet size. -/
theorem ptpSendPacket_settings {length : Nat} {rc : Int}
    (hrun : ptpSendPacket B fuel length w = .ok rc w') :
    0 ≤ w.r.maxPacketSize ∧ ∃ endpoint, bulkEndpoint w.r.connectionType = some endpoint := by
  cases fuel with
  | zero => cases hrun
  | succ fuel =>
      obtain ⟨r, v, hbody, _⟩ := bind_eq_ok.mp hrun
      unfold ptpSendPacketBody at hbody
      rw [bind_ok (runtime_run w)] at hbody
      dsimp only at hbody
      cases hendpoint : bulkEndpoint w.r.connectionType with
      | none =>
          rw [hendpoint] at hbody
          cases hbody
      | some endpoint =>
          rw [hendpoint] at hbody
          obtain ⟨count, u, hwrite, _⟩ := bind_eq_ok.mp hbody
          refine ⟨?_, endpoint, rfl⟩
          by_contra hnegative
          have hsize := size_of_cmdWrite hwrite
          rw [if_pos (by omega)] at hsize
          exact hnegative hsize

theorem ptpNewCmdPacket_nonneg (cmd : PtpCommand) {rc : Int}
    (hrun : ptpNewCmdPacket cmd w = .ok rc w') : 0 ≤ rc := by
  have husb : ∀ {v : World σ}, ptpusbNewCmdPacket cmd v = .ok rc w' → 0 ≤ rc := by
    intro v hrun
    obtain ⟨_, u, _, hrest⟩ := bind_eq_ok.mp hrun
    obtain ⟨_, u', _, hdone⟩ := bind_eq_ok.mp hrest
    obtain ⟨rfl, _⟩ := EStateM.Result.ok.inj hdone
    exact Int.natCast_nonneg _
  unfold ptpNewCmdPacket at hrun
  rw [bind_ok (runtime_run w)] at hrun
  cases hconn : w.r.connectionType with
  | ip =>
      rw [hconn] at hrun
      obtain ⟨_, u, _, hrest⟩ := bind_eq_ok.mp hrun
      obtain ⟨_, u', _, hdone⟩ := bind_eq_ok.mp hrest
      obtain ⟨rfl, _⟩ := EStateM.Result.ok.inj hdone
      exact Int.natCast_nonneg _
  | ipUsb =>
      rw [hconn] at hrun
      exact husb hrun
  | usb =>
      rw [hconn] at hrun
      exact husb hrun
  | ble =>
      rw [hconn] at hrun
      exact husb hrun

/-- Building a packet leaves the settings alone. -/
theorem ptpNewCmdPacket_settings (cmd : PtpCommand) : Moves (fun v v' : World σ =>
    v'.r.maxPacketSize = v.r.maxPacketSize ∧ v'.r.connectionType = v.r.connectionType)
      (ptpNewCmdPacket cmd) := by
  have hpre : IsPreorder (World σ) (fun v v' : World σ =>
      v'.r.maxPacketSize = v.r.maxPacketSize ∧ v'.r.connectionType = v.r.connectionType) :=
    { refl := fun _ => ⟨rfl, rfl⟩
      trans := fun _ _ _ h h' => ⟨h'.1.trans h.1, h'.2.trans h.2⟩ }
  have hstore : ∀ offset bytes, Moves (fun v v' : World σ =>
      v'.r.maxPacketSize = v.r.maxPacketSize ∧ v'.r.connectionType = v.r.connectionType)
        (storeData offset bytes) := by
    intro offset bytes v
    refine Ends.of_match ?_
    unfold storeData PtpRuntime.store
    cases v.r.data with
    | none => exact ⟨rfl, rfl⟩
    | some buffer =>
        dsimp only
        by_cases hinside : 0 ≤ offset ∧ offset + bytes.length ≤ buffer.size
        · rw [if_pos hinside]
          exact ⟨rfl, rfl⟩
        · rw [if_neg hinside]
          exact ⟨rfl, rfl⟩
  refine moves_runtime.bind fun r => ?_
  split
  · exact moves_runtime.bind fun _ => (hstore _ _).bind fun _ => Moves.pure _
  · exact moves_runtime.bind fun _ => (hstore _ _).bind fun _ => Moves.pure _

theorem transmitCmd_settings {cmd : PtpCommand} {sent : Bool}
    (hrun : transmitCmd B fuel cmd w = .ok sent w') :
    0 ≤ w.r.maxPacketSize ∧ ∃ endpoint, bulkEndpoint w.r.connectionType = some endpoint := by
  obtain ⟨length, v, hbuilt, hrest⟩ := bind_eq_ok.mp hrun
  obtain ⟨rc, u, hsend, _⟩ := bind_eq_ok.mp hrest
  obtain ⟨count, rfl⟩ := Int.eq_ofNat_of_zero_le (ptpNewCmdPacket_nonneg cmd hbuilt)
  obtain ⟨hpacket, hconn⟩ := (ptpNewCmdPacket_settings cmd).of_ok hbuilt
  rw [← hpacket, ← hconn]
  exact ptpSendPacket_settings hsend

/-- Only a runtime with an endpoint and a packet size transmits. -/
theorem Operation.transmission_settings (op : Operation) {sent : Bool}
    (hrun : op.transmission B fuel w = .ok sent w') :
    0 ≤ w.r.maxPacketSize ∧ ∃ endpoint, bulkEndpoint w.r.connectionType = some endpoint := by
  cases op with
  | send cmd => exact transmitCmd_settings hrun
  | sendData cmd data =>
      obtain ⟨_, v, hcommand, _⟩ := bind_eq_ok.mp hrun
      exact transmitCmd_settings hcommand

theorem BulkCall.outcome_nonpos (c : BulkCall B) {k : Nat} {rc : Int}
    (houtcome : c.outcome k = some rc) : rc ≤ 0 := by
  unfold BulkCall.outcome at houtcome
  split at houtcome
  next => cases houtcome
  next =>
    split at houtcome
    next => exact Option.some.inj houtcome ▸ by decide
    next =>
      split at houtcome
      next => exact Option.some.inj houtcome ▸ by decide
      next =>
        split at houtcome
        next => cases houtcome
        next => exact Option.some.inj houtcome ▸ by decide
        next => exact Option.some.inj houtcome ▸ by decide

/-! ## The setup of a runtime -/

/-- The runtime is the same but for what an exchange changes. -/
structure SameSetup (w w' : World σ) : Prop where
  runtime : w'.r = { w.r with
    data := w'.r.data, dataLength := w'.r.dataLength, waitForResponse := w'.r.waitForResponse,
    dataPhaseLength := w'.r.dataPhaseLength, maxPacketSize := w'.r.maxPacketSize }
  packet : w.r.Resized w'.r

instance : IsPreorder (World σ) SameSetup where
  refl w := ⟨rfl, refl_of PtpRuntime.Resized w.r⟩
  trans w w' w'' := by
    rintro ⟨hfirst, hpacket⟩ ⟨hsecond, hpacket'⟩
    refine ⟨?_, trans_of PtpRuntime.Resized hpacket hpacket'⟩
    rw [hsecond, hfirst]

theorem Sends.sameSetup (hsends : Sends w w') : SameSetup w w' := by
  obtain ⟨_, hr, _, hpacket⟩ := hsends
  refine ⟨?_, hpacket⟩
  rw [hr]

theorem OnlyReads.sameSetup (hreads : OnlyReads w w') : SameSetup w w' := by
  obtain ⟨_, hr, hpacket⟩ := hreads
  refine ⟨?_, hpacket⟩
  rw [hr]

/-- The buffer, if there is one, has the size that the runtime takes it to have. -/
def Allocated (r : PtpRuntime) : Prop := ∃ size : Nat, ptpDefaultSize ≤ size ∧
  (size : Int) ≤ intMax + 100 ∧ r.dataLength = toInt32 size ∧
    ∀ buffer, r.data = some buffer → buffer.size = size

theorem PtpRuntime.Ready.allocated {r : PtpRuntime} {buffer : Buffer} (hready : r.Ready buffer) :
    Allocated r := by
  obtain ⟨hdata, hlength, hsize, hdefault⟩ := hready
  refine ⟨buffer.size, hdefault, by omega, ?_, fun buffer' hdata' => ?_⟩
  · rw [toInt32_of_fits ⟨by omega, hsize⟩]
    exact hlength
  · rw [hdata] at hdata'
    obtain rfl := Option.some.inj hdata'
    rfl

theorem Allocated.sized {r : PtpRuntime} (hallocated : Allocated r) (hdata : r.data ≠ none) :
    Sized r := by
  obtain ⟨size, hdefault, hbound, hlength, hsize⟩ := hallocated
  obtain ⟨buffer, hbuffer⟩ := Option.ne_none_iff_exists'.mp hdata
  obtain rfl := hsize buffer hbuffer
  exact ⟨buffer, hbuffer, hlength, hbound, hdefault⟩

theorem Sized.allocated {r : PtpRuntime} (hsized : Sized r) : Allocated r := by
  obtain ⟨buffer, hdata, hlength, hbound, hdefault⟩ := hsized
  refine ⟨buffer.size, hdefault, hbound, hlength, fun buffer' hdata' => ?_⟩
  rw [hdata] at hdata'
  obtain rfl := Option.some.inj hdata'
  rfl

/-- Growing the buffer within an `int` leaves it with a known size. -/
theorem ptpBufferResize_allocated {need : Nat} (hneed : (need : Int) ≤ intMax)
    (hallocated : Allocated w.r) {rc : Int} (hrun : ptpBufferResize B need w = .ok rc w') :
    Allocated w'.r := by
  obtain ⟨size, hdefault, hbound, hlength, _⟩ := hallocated
  have hgrows := (ptpBufferResize_eq_ok hrun).1
  unfold intMax at hneed hbound
  have hsize : size ≤ need := by
    rw [hlength] at hgrows
    unfold toSize toInt32 at hgrows
    omega
  have htarget : toSize (need + 100) = need + 100 := by
    unfold toSize
    omega
  unfold ptpBufferResize at hrun
  rw [if_neg (not_lt.mpr hgrows)] at hrun
  dsimp only at hrun
  refine ⟨need + 100, by omega, by unfold intMax; omega, ?_⟩
  split at hrun
  next =>
    obtain ⟨_, rfl⟩ := EStateM.Result.ok.inj hrun
    refine ⟨by push_cast; rfl, fun buffer hbuffer => ?_⟩
    obtain rfl := Option.some.inj hbuffer
    exact htarget
  next =>
    obtain ⟨_, rfl⟩ := EStateM.Result.ok.inj hrun
    exact ⟨by push_cast; rfl, fun buffer hbuffer => by cases hbuffer⟩

/-- The same setup with a known buffer size, as far as the run returns. -/
def KeepsAllocated (w w' : World σ) : Prop := SameSetup w w' ∧
  (0 ≤ w.r.maxPacketSize → Allocated w.r → Allocated w'.r)

instance : IsPreorder (World σ) KeepsAllocated where
  refl w := ⟨refl_of SameSetup w, fun _ h => h⟩
  trans w w' w'' := by
    rintro ⟨hfirst, hkeeps⟩ ⟨hsecond, hkeeps'⟩
    refine ⟨trans_of SameSetup hfirst hsecond, fun hpacket hallocated => ?_⟩
    exact hkeeps' (hfirst.packet.nonneg hpacket) (hkeeps hpacket hallocated)

theorem KeepsAllocated.of_same {w w' : World σ} (hsetup : SameSetup w w')
    (hlength : w'.r.dataLength = w.r.dataLength)
    (hsize : w'.r.data.map Buffer.size = w.r.data.map Buffer.size) : KeepsAllocated w w' := by
  refine ⟨hsetup, fun _ ⟨size, hdefault, hbound, hlength', hsizes⟩ => ?_⟩
  refine ⟨size, hdefault, hbound, hlength.trans hlength', fun buffer hbuffer => ?_⟩
  rw [hbuffer, Option.map_some, eq_comm, Option.map_eq_some_iff] at hsize
  obtain ⟨before, hbefore, hsame⟩ := hsize
  exact hsame.symm.trans (hsizes before hbefore)

theorem Sends.keepsAllocated (hsends : Sends w w') : KeepsAllocated w w' :=
  .of_same hsends.sameSetup (by rw [hsends.2.runtime]) hsends.2.size

theorem updateWait_keepsAllocated (wait : PtpRuntime → Nat) : Moves KeepsAllocated
    (updateRuntime fun r => { r with waitForResponse := wait r } : M σ Unit) :=
  fun w => .ok rfl (.of_same ⟨rfl, refl_of PtpRuntime.Resized w.r⟩ rfl rfl)

theorem cmdRead_keepsAllocated (endpoint : Endpoint) (offset size : Int) :
    Moves KeepsAllocated (cmdRead B endpoint offset size) := by
  intro w
  apply Ends.of_match
  unfold cmdRead
  cases w.r.load offset size with
  | error reason => exact .of_same ⟨rfl, refl_of PtpRuntime.Resized w.r⟩ rfl rfl
  | ok bytes =>
      have hpacket := w.r.resized_initComm endpoint
      dsimp only
      obtain ⟨got, device⟩ := B.cmdRead endpoint size.toNat w.device
      cases got with
      | none => exact .of_same ⟨rfl, hpacket⟩ rfl rfl
      | some got =>
          have hsize : (w.r.data.map fun buffer => buffer.store offset.toNat got.1).map
              Buffer.size = w.r.data.map Buffer.size := by cases w.r.data <;> rfl
          exact .of_same ⟨rfl, hpacket⟩ rfl hsize

theorem ptpBufferResize_keepsAllocated {need : Int} (hneed : 0 ≤ need → need ≤ intMax)
    (hnonneg : 0 ≤ w.r.maxPacketSize → 0 ≤ need) :
    EndsIn (ptpBufferResize B (toSize need)) w (KeepsAllocated w) := by
  have hsetup : EndsIn (ptpBufferResize B (toSize need)) w (SameSetup w) :=
    ((ptpBufferResize_onlyReads B _).mono fun _ _ h => h.sameSetup) w
  constructor
  · intro rc v hrun
    refine ⟨hsetup.of_ok hrun, fun hpacket hallocated => ?_⟩
    have hpos := hnonneg hpacket
    apply ptpBufferResize_allocated _ hallocated hrun
    have hle := hneed hpos
    unfold intMax at *
    unfold toSize
    omega
  · intro reason v hrun
    unfold ptpBufferResize at hrun
    split at hrun
    next =>
      obtain ⟨_, rfl⟩ := EStateM.Result.error.inj hrun
      exact refl_of KeepsAllocated w
    next =>
      dsimp only at hrun
      split at hrun <;> cases hrun

/-- A round of the USB-style receive loop only grows the buffer within an `int`. -/
theorem ptpusbReadBody_keepsAllocated (s : BulkRead) :
    Moves KeepsAllocated (ptpusbReadBody B s) := by
  have hresult : ∀ rc, Moves KeepsAllocated (ptpusbReadResult s rc : M σ _) := by
    intro rc
    refine moves_runtime.bind fun r => ?_
    split
    · exact (updateWait_keepsAllocated _).bind fun _ => Moves.pure _
    · split
      · exact Moves.pure _
      · dsimp only
        split
        · exact Moves.pure _
        · refine (moves_inspect _).bind fun verdict => ?_
          split <;> exact Moves.pure _
  intro w
  unfold ptpusbReadBody
  refine Ends.congr ?_ (bind_ok (runtime_run w))
  by_cases hfits : Fits (s.read + w.r.maxPacketSize)
  · refine Ends.congr ?_ (bind_ok (intAdd_ok hfits w))
    have hgrow : EndsIn (if w.r.dataLength < s.read + w.r.maxPacketSize then
        ptpBufferResize B (toSize (s.read + w.r.maxPacketSize)) else pure 0) w
        (KeepsAllocated w) := by
      split
      · refine ptpBufferResize_keepsAllocated (fun _ => hfits.2) fun hpacket => ?_
        omega
      · exact .pure (refl_of KeepsAllocated w)
    refine Ends.bind (hgrow.mono (fun rc v hkeeps => ?_) fun _ _ hkeeps => hkeeps)
    have hrest : ∀ {x : M σ (BulkRead ⊕ Int)}, Moves KeepsAllocated x →
        EndsIn x v (KeepsAllocated w) := fun hx =>
      (hx v).mono (fun _ _ h => trans_of KeepsAllocated hkeeps h)
        fun _ _ h => trans_of KeepsAllocated hkeeps h
    apply hrest
    split
    · exact Moves.pure _
    · split
      · exact moves_halt _
      · exact (cmdRead_keepsAllocated _ _ _).bind hresult
  · exact .error (bind_error (intAdd_overflow hfits w)) (refl_of KeepsAllocated w)

theorem receiveReply_keepsAllocated {endpoint : Endpoint}
    (hendpoint : bulkEndpoint w.r.connectionType = some endpoint) :
    EndsIn (receiveReply B fuel) w (KeepsAllocated w) := by
  have hbulk : Moves KeepsAllocated (ptpusbReadAllPackets B fuel) :=
    (updateWait_keepsAllocated _).bind fun _ => Moves.iterate ptpusbReadBody_keepsAllocated fuel _
  have hreceive : EndsIn (ptpReceiveAllPackets B fuel) w (KeepsAllocated w) :=
    (hbulk w).congr (ptpReceiveAllPackets_bulk hendpoint)
  refine Ends.bind (hreceive.mono (fun rc v h => ?_) fun _ _ h => h)
  split <;> exact .pure h

/-- What an operation keeps at each step that returns. -/
def Keeps (w w' : World σ) : Prop := SameSetup w w' ∧ (Allocated w.r → Allocated w'.r)

instance : IsPreorder (World σ) Keeps where
  refl w := ⟨refl_of SameSetup w, id⟩
  trans _ _ _ h h' := ⟨trans_of SameSetup h.1 h'.1, h'.2 ∘ h.2⟩

theorem Operation.attempt_keeps (op : Operation) {rc : Int}
    (hrun : op.attempt B fuel w = .ok rc w') : Keeps w w' := by
  obtain ⟨done, sent, hsent, hreceive⟩ := bind_eq_ok.mp hrun
  have hsends := op.transmission_sends.of_ok hsent
  obtain ⟨hnonneg, endpoint, hendpoint⟩ := op.transmission_settings hsent
  have hkeeps : KeepsAllocated w w' := by
    cases done with
    | false =>
        rw [if_neg (by simp)] at hreceive
        obtain ⟨_, rfl⟩ := EStateM.Result.ok.inj hreceive
        exact hsends.keepsAllocated
    | true =>
        rw [if_pos rfl] at hreceive
        rw [← show sent.r.connectionType = w.r.connectionType by
          rw [hsends.2.runtime]] at hendpoint
        have hkeeps := (receiveReply_keepsAllocated hendpoint).of_ok hreceive
        exact trans_of KeepsAllocated hsends.keepsAllocated hkeeps
  exact ⟨hkeeps.1, hkeeps.2 hnonneg⟩

theorem prepareData_keeps {data : List UInt8} (hrun : prepareData B data w = .ok () w') :
    Keeps w w' := by
  unfold prepareData at hrun
  rw [bind_ok (updateRuntime_run _ _), bind_ok (runtime_run _)] at hrun
  obtain ⟨need, v, hneed, hrest⟩ := bind_eq_ok.mp hrun
  obtain ⟨rfl, hfits, rfl⟩ := intAdd_eq_ok hneed
  split at hrest
  next =>
    obtain ⟨size, v, hsize, hrest'⟩ := bind_eq_ok.mp hrest
    obtain ⟨rfl, hfits', rfl⟩ := intAdd_eq_ok hsize
    obtain ⟨rc, v, hresize, hdone⟩ := bind_eq_ok.mp hrest'
    obtain ⟨_, rfl⟩ := EStateM.Result.ok.inj hdone
    refine ⟨?_, fun hallocated => ?_⟩
    · have hsetup := ((ptpBufferResize_onlyReads B _).of_ok hresize).sameSetup
      have hphase : SameSetup w
          { w with r := { w.r with dataPhaseLength := data.length } } :=
        ⟨rfl, refl_of PtpRuntime.Resized w.r⟩
      exact trans_of SameSetup hphase hsetup
    · apply ptpBufferResize_allocated _ _ hresize
      · have hle := hfits'.2
        unfold intMax toSize
        omega
      · exact hallocated
  next =>
    obtain ⟨_, rfl⟩ := EStateM.Result.ok.inj hrest
    exact ⟨⟨rfl, refl_of PtpRuntime.Resized w.r⟩, id⟩

theorem Operation.prepare_keeps (op : Operation) (hrun : op.prepare B w = .ok () w') :
    Keeps w w' := by
  cases op with
  | send =>
      obtain ⟨_, rfl⟩ := EStateM.Result.ok.inj hrun
      exact ⟨⟨rfl, refl_of PtpRuntime.Resized w.r⟩, id⟩
  | sendData => exact prepareData_keeps hrun

theorem Attempts.keeps {op : Operation} {rc : Int} (hattempts : Attempts (op.attempt B fuel) w rc w') :
    Keeps w w' := by
  cases hattempts with
  | first hrun _ => exact op.attempt_keeps hrun
  | second hfirst hsecond =>
      exact trans_of Keeps (op.attempt_keeps hfirst) (op.attempt_keeps hsecond)

/-! ## What an exchange has received -/

/-- The reads since the last write. -/
def lastReads (calls : List Call) : List Call := calls.rtakeWhile fun call => !call.isWrite

/-- How many reads of a list delivered nothing. -/
def emptyReads (calls : List Call) : Nat := calls.countP fun
  | .read _ _ _ _ got => (got.getD []).isEmpty
  | .write .. => false

/-- The reads have brought a complete reply while attempts were left; no attempts at all
means to wait for ever. -/
def Answered (wait : Nat) (reads : List Call) : Prop :=
  verdictOf (readBytes reads) = .done ∧ (wait = 0 ∨ emptyReads reads < wait)

instance (wait : Nat) (reads : List Call) : Decidable (Answered wait reads) :=
  inferInstanceAs (Decidable (_ ∧ _))

/-- The code of the response that has arrived. -/
def responseCode (bytes : List UInt8) : Nat := field 2 (bulkResponseOffset bytes + 6) bytes

/-- The transaction ID of the response that has arrived. -/
def responseTransaction (bytes : List UInt8) : Nat := field 4 (bulkResponseOffset bytes + 8) bytes

theorem lastReads_append {front reads : List Call} {last : Call} (hlast : last.isWrite = true)
    (hreads : ∀ call ∈ reads, call.isWrite = false) :
    lastReads (front ++ [last] ++ reads) = reads := by
  induction reads using List.reverseRecOn with
  | nil =>
      rw [List.append_nil]
      exact List.rtakeWhile_concat_neg _ _ _ (by simp [hlast])
  | append_singleton reads call ih =>
      rw [← List.append_assoc, lastReads, List.rtakeWhile_concat_pos _ _ _
        (by simp [hreads call (by simp)])]
      rw [← lastReads, ih fun call' hcall' => hreads call' (by simp [hcall'])]

namespace BulkCall

variable (c : BulkCall B)

theorem emptyReads_calls (k : Nat) : emptyReads (c.calls k) = c.quiet k := by
  induction k with
  | zero => rfl
  | succ k ih =>
      rw [calls_succ, emptyReads, List.countP_append, ← emptyReads, ih]
      have hcall : (match c.call k with
          | .read _ _ _ _ got => (got.getD []).isEmpty
          | .write .. => false) = (ReadStream.chunk c.results k).isEmpty := rfl
      rw [List.countP_singleton, hcall]
      by_cases hnil : ReadStream.chunk c.results k = []
      · have hquiet : c.quiet (k + 1) = c.quiet k + 1 := ReadStream.quiet_succ_of_nil hnil
        rw [hquiet, hnil]
        rfl
      · have hquiet : c.quiet (k + 1) = c.quiet k := ReadStream.quiet_succ_of_ne_nil hnil
        rw [hquiet, if_neg (by simpa using hnil), Nat.add_zero]

theorem calls_reads (k : Nat) : ∀ call ∈ c.calls k, call.isWrite = false := by
  intro call hcall
  obtain ⟨j, _, rfl⟩ := List.mem_map.mp hcall
  rfl

/-- Rounds that go on have not received a complete reply. -/
theorem incomplete_of_goesOn {k : Nat} (hgoesOn : ∀ j < k, c.GoesOn j) :
    verdictOf (c.received k) = .more := by
  induction k with
  | zero => rfl
  | succ k ih =>
      have hbefore := ih fun j hj => hgoesOn j (by omega)
      have houtcome := (hgoesOn k (Nat.lt_succ_self k)).2.2
      unfold outcome at houtcome
      split at houtcome
      next hquiet => rw [received_succ, hquiet.1, List.append_nil, hbefore]
      next =>
        split at houtcome
        next => cases houtcome
        next =>
          split at houtcome
          next => cases houtcome
          next =>
            split at houtcome
            next hverdict => exact hverdict
            next => cases houtcome
            next => cases houtcome

theorem wait_eq : c.wait = c.start.r.responseWaitDefault := rfl

/-- The loop returns 0 exactly if it has received a complete reply in time. -/
theorem answered_iff {n : Nat} {rc : Int} (hstops : c.Stops n rc) :
    Answered c.wait (c.calls (n + 1)) ↔ rc = 0 := by
  have hbefore := c.incomplete_of_goesOn hstops.goesOn
  have houtcome := hstops.outcome
  unfold Answered
  rw [readBytes_calls, emptyReads_calls]
  -- a round that receives nothing leaves the reply as incomplete as it was
  have hchunk : verdictOf (c.received (n + 1)) = .done →
      ReadStream.chunk c.results n ≠ [] := by
    intro hdone hnil
    rw [received_succ, hnil, List.append_nil, hbefore] at hdone
    cases hdone
  unfold outcome at houtcome
  split at houtcome
  next => cases houtcome
  next =>
    split at houtcome
    next hfailed =>
      obtain rfl := Option.some.inj houtcome
      refine iff_of_false (fun h => hchunk h.1 ?_) (by decide)
      unfold ReadStream.chunk
      rw [hfailed]
      rfl
    next =>
      split at houtcome
      next hignored =>
        obtain rfl := Option.some.inj houtcome
        refine iff_of_false (fun h => ?_) (by decide)
        have hmono : c.quiet n ≤ c.quiet (n + 1) := ReadStream.quiet_le_succ n
        rcases h.2 with hzero | hlt
        · exact hignored.1 hzero
        · omega
      next hignored =>
        split at houtcome
        next => cases houtcome
        next hdone =>
          obtain rfl := Option.some.inj houtcome
          refine iff_of_true ⟨hdone, ?_⟩ rfl
          have hquiet : c.quiet (n + 1) = c.quiet n :=
            ReadStream.quiet_succ_of_ne_nil (hchunk hdone)
          omega
        next hreject =>
          obtain rfl := Option.some.inj houtcome
          refine iff_of_false (fun h => ?_) (by decide)
          rw [hreject] at h
          cases h.1

end BulkCall

/-- Without a buffer no operation gets through its first transmission. -/
theorem Operation.data_of_transmission (op : Operation) {sent : Bool}
    (hrun : op.transmission B fuel w = .ok sent w') : w.r.data ≠ none := by
  intro hdata
  cases op with
  | send cmd =>
      obtain ⟨reason, hstop⟩ := transmitCmd_noBuffer (B := B) fuel hdata cmd
      cases hstop.symm.trans hrun
  | sendData cmd data =>
      obtain ⟨reason, hstop⟩ := transmitCmd_noBuffer (B := B) fuel hdata cmd
      cases (bind_error hstop).symm.trans hrun

/-- A transmission that returns has only written, and at least once. -/
theorem Operation.transmission_writes (op : Operation) (hallocated : Allocated w.r) {sent : Bool}
    (hrun : op.transmission B fuel w = .ok sent w') : ∃ front last, w'.log = w.log ++ (front ++ [last]) ∧
      last.isWrite = true ∧ ∀ call ∈ front, call.isWrite = true := by
  obtain ⟨hpacket, endpoint, hendpoint⟩ := op.transmission_settings hrun
  obtain ⟨buffer, hdata, _, _, hdefault⟩ := hallocated.sized (op.data_of_transmission hrun)
  have hsize : 32 ≤ buffer.size := le_trans (by decide) hdefault
  have hfirst : WritesFirst w w' := by
    cases fuel with
    | zero =>
        exfalso
        cases op with
        | send cmd =>
            obtain ⟨_, v, _, hrest⟩ := bind_eq_ok.mp hrun
            cases hrest
        | sendData cmd data =>
            obtain ⟨_, v, hcommand, _⟩ := bind_eq_ok.mp hrun
            obtain ⟨_, u, _, hrest⟩ := bind_eq_ok.mp hcommand
            cases hrest
    | succ fuel =>
        cases op with
        | send cmd => exact (transmitCmd_writesFirst hdata hendpoint hpacket hsize cmd).of_ok hrun
        | sendData cmd data =>
            exact (transmitData_writesFirst hdata hendpoint hpacket hsize cmd data).of_ok hrun
  obtain ⟨calls, hlog, hwrites⟩ := (op.transmission_sends.of_ok hrun).1
  obtain ⟨_, _, _, rest, hlog'⟩ := hfirst
  have hne : calls ≠ [] := by
    rintro rfl
    rw [hlog', List.append_cancel_left_eq] at hlog
    cases hlog
  obtain ⟨front, last, rfl⟩ := List.eq_nil_or_concat calls |>.resolve_left hne
  rw [List.concat_eq_append] at *
  exact ⟨front, last, hlog, hwrites last (by simp), fun call hcall => hwrites call (by simp [hcall])⟩

/-- An attempt that returns has not sent everything, or it has received. -/
theorem Operation.attempt_cases (op : Operation) (hallocated : Allocated w.r)
    (hpacket : w.r.maxPacketSize ≤ intMax) {rc : Int}
    (hrun : op.attempt B fuel w = .ok rc w') :
    op.transmission B fuel w = .ok false w' ∧ rc = PtpGeneralError.ioErr ∨
      ∃ c : BulkCall B, op.transmission B fuel w = .ok true c.start ∧
        c.run fuel = .ok rc w' := by
  obtain ⟨done, sent, hsent, hreceive⟩ := bind_eq_ok.mp hrun
  cases done with
  | false =>
      rw [if_neg (by simp)] at hreceive
      obtain ⟨rfl, rfl⟩ := EStateM.Result.ok.inj hreceive
      exact .inl ⟨hsent, rfl⟩
  | true =>
      rw [if_pos rfl] at hreceive
      have hsends := op.transmission_sends.of_ok hsent
      obtain ⟨hnonneg, endpoint, hendpoint⟩ := op.transmission_settings hsent
      have hr := hsends.2.runtime
      have hendpoint' : bulkEndpoint sent.r.connectionType = some endpoint := by
        rw [hr]
        exact hendpoint
      have hnonneg' := hsends.2.packet.nonneg hnonneg
      have hpacket' := hsends.2.packet.le hpacket (by decide)
      obtain ⟨rc', v, hpackets, hverdict⟩ := bind_eq_ok.mp hreceive
      rw [ptpReceiveAllPackets_bulk hendpoint'] at hpackets
      obtain ⟨buffer, hdata, hlength, hbound, hdefault⟩ :=
        (hallocated.sized (op.data_of_transmission hsent)).sends hsends
      obtain ⟨c, hstart⟩ : ∃ c : BulkCall B, c.start = sent := by
        refine (bulkCall_or_overflown hendpoint' hdata hlength (by omega)).resolve_right ?_
        intro hover
        obtain ⟨reason, u, hstuck⟩ := ptpusbReadAllPackets_overflown (B := B) fuel hlength hover
          hbound (Int.toNat_of_nonneg (by omega)).symm (by omega)
        cases hstuck.symm.trans hpackets
      rw [← hstart] at hpackets hsent
      refine .inr ⟨c, hsent, ?_⟩
      have hnonpos : rc' ≤ 0 := by
        rcases c.ends_of_run hpackets with ⟨n, _, hstops, _⟩ | ⟨rfl, _⟩
        · exact c.outcome_nonpos hstops.outcome
        · decide
      by_cases hneg : rc' < 0
      · rw [if_pos hneg] at hverdict
        obtain ⟨rfl, rfl⟩ := EStateM.Result.ok.inj hverdict
        exact hpackets
      · rw [if_neg hneg] at hverdict
        obtain ⟨rfl, rfl⟩ := EStateM.Result.ok.inj hverdict
        rw [le_antisymm hnonpos (not_lt.mp hneg)] at hpackets
        exact hpackets

/-- What an attempt that returns has added to the log: writes, and then the reads of a
reply, complete and in time exactly if the attempt returns 0. -/
structure Exchanged (wait : Nat) (w : World σ) (rc : Int) (w' : World σ) (front : List Call)
    (last : Call) (reads : List Call) : Prop where
  log : w'.log = w.log ++ (front ++ [last] ++ reads)
  writes : last.isWrite = true ∧ ∀ call ∈ front, call.isWrite = true
  readsOnly : ∀ call ∈ reads, call.isWrite = false
  answered : Answered wait reads ↔ rc = 0
  holds : rc = 0 → w'.r.Holds (readBytes reads) ∧ BulkReply (readBytes reads)

theorem Operation.attempt_exchanged (op : Operation) (hallocated : Allocated w.r)
    (hpacket : w.r.maxPacketSize ≤ intMax) {rc : Int} (hrun : op.attempt B fuel w = .ok rc w') :
    ∃ front last reads, Exchanged w.r.responseWaitDefault w rc w' front last reads := by
  rcases op.attempt_cases hallocated hpacket hrun with ⟨hsent, rfl⟩ | ⟨c, hsent, hreceive⟩
  · obtain ⟨front, last, hlog, hlast, hfront⟩ := op.transmission_writes hallocated hsent
    refine ⟨front, last, [], by rw [hlog, List.append_nil], ⟨hlast, hfront⟩, by simp, ?_, ?_⟩
    · exact iff_of_false (fun h => by cases h.1) (by decide)
    · intro h
      cases h
  · obtain ⟨front, last, hlog, hlast, hfront⟩ := op.transmission_writes hallocated hsent
    have hwait : c.wait = w.r.responseWaitDefault := by
      rw [c.wait_eq, (op.transmission_sends.of_ok hsent).2.runtime]
    rcases c.ends_of_run hreceive with ⟨n, _, hstops, hat⟩ | ⟨rfl, n, hgoesOn, hcalls⟩
    · have hanswered := c.answered_iff hstops
      refine ⟨front, last, c.calls (n + 1), ?_, ⟨hlast, hfront⟩, c.calls_reads _,
        hwait ▸ hanswered, fun hrc => ?_⟩
      · rw [hat.log, hlog, List.append_assoc]
      · have hdone := (hanswered.mpr hrc).1
        rw [c.readBytes_calls] at hdone ⊢
        exact ⟨c.at_holds hat, bulkReply_of_done hdone (c.received_le_of_fitsAt hstops.fits)⟩
    · refine ⟨front, last, c.calls n, ?_, ⟨hlast, hfront⟩, c.calls_reads _, ?_, fun h => by cases h⟩
      · rw [hcalls, hlog, List.append_assoc]
      · refine iff_of_false (fun h => ?_) (by decide)
        have hmore := c.incomplete_of_goesOn hgoesOn
        rw [← c.readBytes_calls, h.1] at hmore
        cases hmore

/-- The attempts of an operation end with an exchange. -/
theorem Attempts.exchanged {op : Operation} {rc : Int}
    (hattempts : Attempts (op.attempt B fuel) w rc w') (hallocated : Allocated w.r)
    (hpacket : w.r.maxPacketSize ≤ intMax) :
    ∃ calls, w'.log = w.log ++ calls ∧
      (Answered w.r.responseWaitDefault (lastReads calls) ↔ rc = 0) ∧
      (rc = 0 → w'.r.Holds (readBytes (lastReads calls)) ∧
        BulkReply (readBytes (lastReads calls))) := by
  cases hattempts with
  | first hrun _ =>
      obtain ⟨front, last, reads, hexchanged⟩ := op.attempt_exchanged hallocated hpacket hrun
      have hreads : lastReads (front ++ [last] ++ reads) = reads :=
        lastReads_append hexchanged.writes.1 hexchanged.readsOnly
      refine ⟨_, hexchanged.log, ?_⟩
      rw [hreads]
      exact ⟨hexchanged.answered, hexchanged.holds⟩
  | second hfirst hsecond =>
      rename_i u
      obtain ⟨front', last', reads', hearlier⟩ := op.attempt_exchanged hallocated hpacket hfirst
      obtain ⟨hsetup, hkeeps⟩ := op.attempt_keeps hfirst
      obtain ⟨front, last, reads, hexchanged⟩ := op.attempt_exchanged (hkeeps hallocated)
        (hsetup.packet.le hpacket (by decide)) hsecond
      have hwait : u.r.responseWaitDefault = w.r.responseWaitDefault := by rw [hsetup.runtime]
      have hreads : lastReads (front' ++ [last'] ++ reads' ++ front ++ [last] ++ reads) = reads :=
        lastReads_append hexchanged.writes.1 hexchanged.readsOnly
      refine ⟨front' ++ [last'] ++ reads' ++ front ++ [last] ++ reads, ?_, ?_⟩
      · rw [hexchanged.log, hearlier.log]
        simp only [List.append_assoc]
      · rw [hreads, ← hwait]
        exact ⟨hexchanged.answered, hexchanged.holds⟩

/-- An operation whose last exchange has brought a reply. -/
structure Completes (w : World σ) (rc : Int) (w' : World σ) (calls : List Call) : Prop where
  answered : Answered w.r.responseWaitDefault (lastReads calls)
  result : rc = checked (responseCode (readBytes (lastReads calls)))
  holds : w'.r.Holds (readBytes (lastReads calls))
  reply : BulkReply (readBytes (lastReads calls))
  setup : SameSetup { w with r := { w.r with transaction := w.r.transaction + 1 } } w'

/-- An operation whose last exchange has not. -/
structure Fails (w : World σ) (rc : Int) (w' : World σ) (calls : List Call) : Prop where
  unanswered : ¬Answered w.r.responseWaitDefault (lastReads calls)
  result : rc = PtpGeneralError.ioErr
  setup : SameSetup { w with r := { w.r with operationKillSwitch := true } } w'

/-- Locking and unlocking leaves the mutex as it was. -/
theorem unlocked_mutex (mutex : Option Nat) : (mutex.map (· + 1)).map (· - 1) = mutex := by
  cases mutex <;> rfl

/-- How an operation that was not refused has run: `w₀` is the world in which its attempts
start and `v` the one in which they end. -/
structure Operation.Ran (op : Operation) (B : Backend σ) (fuel : Nat) (w : World σ) (rc : Int)
    (w' w₀ v : World σ) (rc' : Int) : Prop where
  setup : SameSetup (locked w) w₀
  allocated : Allocated w₀.r
  log : w₀.log = w.log
  attempts : Attempts (op.attempt B fuel) w₀ rc' v
  result : rc' ≠ 0 ∧ rc = PtpGeneralError.ioErr ∧ w' = Libpict.failed v ∨
    rc' = 0 ∧ w' = finished v ∧ ∃ code, rc = checked code ∧
      ptpGetReturnCode { v.r with transaction := v.r.transaction + 1 } = .ok code

theorem Operation.ran (op : Operation) (hallocated : Allocated w.r)
    (hkill : w.r.operationKillSwitch = false) {rc : Int} (hrun : op.exec B fuel w = .ok rc w') :
    ∃ w₀ v rc', op.Ran B fuel w rc w' w₀ v rc' := by
  cases op.outcome hrun with
  | refused hset => cases hkill.symm.trans hset
  | @failed w₀ v rc' _ hprepare hattempts hfailed hrc hworld =>
      obtain ⟨hsetup, hkeeps⟩ := op.prepare_keeps hprepare
      exact ⟨w₀, v, rc', hsetup, hkeeps hallocated, (op.prepare_silent.of_ok hprepare).1, hattempts,
        .inl ⟨hfailed, hrc, hworld⟩⟩
  | @completed w₀ v code _ hprepare hattempts hcode hrc hworld =>
      obtain ⟨hsetup, hkeeps⟩ := op.prepare_keeps hprepare
      exact ⟨w₀, v, 0, hsetup, hkeeps hallocated, (op.prepare_silent.of_ok hprepare).1, hattempts,
        .inr ⟨rfl, hworld, code, hrc, hcode⟩⟩

/-- An operation that was not refused and returns completes or fails. -/
theorem Operation.settled (op : Operation) (hallocated : Allocated w.r)
    (hpacket : w.r.maxPacketSize ≤ intMax) (hkill : w.r.operationKillSwitch = false) {rc : Int}
    (hrun : op.exec B fuel w = .ok rc w') :
    ∃ calls, w'.log = w.log ++ calls ∧ Allocated w'.r ∧
      (Completes w rc w' calls ∨ Fails w rc w' calls) := by
  obtain ⟨w₀, v, rc', hran⟩ := op.ran hallocated hkill hrun
  obtain ⟨calls, hlog, hanswered, hholds⟩ := hran.attempts.exchanged hran.allocated
    (hran.setup.packet.le hpacket (by decide))
  obtain ⟨hsetup, hkeeps⟩ := hran.attempts.keeps
  have hv := trans_of SameSetup hran.setup hsetup
  have hwait : w₀.r.responseWaitDefault = w.r.responseWaitDefault := by
    rw [hran.setup.runtime]
    rfl
  rw [hran.log] at hlog
  rw [hwait] at hanswered
  rcases hran.result with ⟨hfailed, hrc, rfl⟩ | ⟨rfl, rfl, code, hrc, hcode⟩
  · refine ⟨calls, hlog, hkeeps hran.allocated, .inr ⟨hanswered.not.mpr hfailed, hrc, ?_, hv.packet⟩⟩
    unfold Libpict.failed
    dsimp only
    rw [hv.runtime]
    simp only [locked, unlocked_mutex]
  · obtain ⟨hbytes, hreply⟩ := hholds rfl
    have hconn : v.r.connectionType ≠ .ip := by
      intro hip
      rw [hv.runtime] at hip
      exact op.exec_noEndpoint (by rw [show w.r.connectionType = .ip from hip]; rfl) hkill hrun
    have hcode' := ptpGetReturnCode_bulk (r := { v.r with transaction := v.r.transaction + 1 })
      hconn hbytes hreply.header
    obtain rfl := Except.ok.inj (hcode.symm.trans hcode')
    refine ⟨calls, hlog, hkeeps hran.allocated,
      .inl ⟨hanswered.mpr rfl, hrc, hbytes, hreply, ?_, hv.packet⟩⟩
    unfold finished
    dsimp only
    rw [hv.runtime]
    simp only [locked, unlocked_mutex]

end Libpict
