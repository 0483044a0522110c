import Libpict.Sessions

/-! # Sequences of commands

`ptp_take_picture` and its like send several commands in a row and stop at the first that
fails. What the device hears is the commands up to that one, each once and with
consecutive numbers.
-/

namespace Libpict

open Bytes CInt Exec PtpRuntime Transitions Frames

variable {σ : Type} {B : Backend σ} {fuel : Nat} {w w' : World σ}

/-! ## Operations in a row -/

/-- The packets of operations that are numbered from `n` on. -/
def numbered : UInt32 → List Operation → List (List (List UInt8))
  | _, [] => []
  | n, op :: ops => op.packets n :: numbered (n + 1) ops

/-- Two operations in a row differ in their number. -/
theorem numbered_isChain (n : UInt32) (ops : List Operation) : (numbered n ops).IsChain (· ≠ ·) := by
  induction ops generalizing n with
  | nil => exact .nil
  | cons op ops ih =>
      rw [numbered, List.isChain_cons]
      refine ⟨fun behind hbehind hsame => ?_, ih (n + 1)⟩
      cases ops with
      | nil => cases hbehind
      | cons op' ops =>
          obtain rfl := Option.some.inj hbehind
          obtain ⟨_, hnumber, _⟩ := Operation.command_of_packets hsame
          exact absurd (left_eq_add.mp hnumber) (by decide)

/-- Operations do not change the session. -/
theorem transmitted_operations (current : Int) (n : UInt32) (ops : List Operation) :
    transmitted current n (ops.map .operation) = numbered n ops := by
  induction ops generalizing n with
  | nil => rfl
  | cons op ops ih => exact congrArg (_ :: ·) (ih (n + 1))

theorem runs_in_station (current : Int) {events : List (Operation × Int)}
    (hrun : Runs (Yield fun op : Operation => op.exec B fuel) w events w') :
    Runs (Yield (SessionCall.exec B fuel)) ⟨current, w⟩
      (events.map fun event => (.operation event.1, event.2)) ⟨current, w'⟩ := by
  induction hrun with
  | nil => exact .nil _
  | @cons u v _ event _ hstep _ ih =>
      have hfirst : Yield (SessionCall.exec B fuel) ⟨current, u⟩ (.operation event.1, event.2)
          ⟨current, v⟩ := inStation_eq_ok.mpr ⟨hstep, rfl⟩
      exact .cons hfirst ih

/-- Operations are heard as they are run. -/
theorem operations_heard (hcounts : B.Counts) {events : List (Operation × Int)}
    (hrun : Runs (Yield fun op : Operation => op.exec B fuel) w events w')
    (hprovided : Provided w) (hclear : w'.r.operationKillSwitch = false) :
    ∃ calls, w'.log = w.log ++ calls ∧
      heard (writtenBytes calls) = numbered w.r.transactionId (events.map Prod.fst) := by
  have hsame : (events.map fun event => (SessionCall.operation event.1, event.2)).map Prod.fst =
      (events.map Prod.fst).map .operation := by
    rw [List.map_map, List.map_map]
    rfl
  obtain ⟨calls, told, hlog, hrepeated, hbytes, hframes⟩ :=
    transmitted_of_run hcounts (runs_in_station 0 hrun) hprovided hclear
  rw [hsame, transmitted_operations] at hrepeated hframes
  refine ⟨calls, hlog, ?_⟩
  rw [hbytes]
  exact heard_repeated hrepeated hframes (numbered_isChain _ _)

/-- Operations that are run until one fails are, while the switch is clear, heard up to that
one. -/
theorem sequence_heard (hcounts : B.Counts) {ops : List Operation} {rc : Int}
    (hrun : untilFailure (ops.map fun op => op.exec B fuel) w = .ok rc w')
    (hprovided : Provided w) :
    ∃ events, Sequenced (fun op : Operation => op.exec B fuel) ops w rc w' events ∧
      (w'.r.operationKillSwitch = false →
        ∃ calls, w'.log = w.log ++ calls ∧
          heard (writtenBytes calls) = numbered w.r.transactionId (events.map Prod.fst)) := by
  obtain ⟨events, hsequenced⟩ := untilFailure_sequenced hrun
  exact ⟨events, hsequenced, operations_heard hcounts hsequenced.runs hprovided⟩

/-! ## Taking a picture -/

/-- The commands of `ptp_take_picture`: the shutter fully down, then up in two steps. -/
def shutter : List Operation :=
  [.send (eosRemoteReleaseOn 2), .send (eosRemoteReleaseOff 2), .send (eosRemoteReleaseOff 1)]

theorem ptpTakePicture_eos {di : Option PtpDeviceInfo} (hdevice : ptpDeviceType di = .ok .eos) :
    ptpTakePicture B fuel di w = untilFailure (shutter.map fun op => op.exec B fuel)
      { w with r := { w.r with waitForResponse := 3 } } := by
  have hdev : (inspect fun _ => ptpDeviceType di) w = .ok .eos w := inspect_ok hdevice
  refine (bind_ok hdev).trans ?_
  rfl

/-- On an EOS camera, `ptp_take_picture` runs the commands of the shutter until one fails, and
while the kill switch is clear the camera has heard just these. -/
theorem takePicture_heard (hcounts : B.Counts) {di : Option PtpDeviceInfo}
    (hdevice : ptpDeviceType di = .ok .eos) {rc : Int}
    (hrun : ptpTakePicture B fuel di w = .ok rc w') (hprovided : Provided w) :
    ∃ events,
      Sequenced (fun op : Operation => op.exec B fuel) shutter
        { w with r := { w.r with waitForResponse := 3 } } rc w' events ∧
      (w'.r.operationKillSwitch = false →
        ∃ calls, w'.log = w.log ++ calls ∧
          heard (writtenBytes calls) = numbered w.r.transactionId (events.map Prod.fst)) := by
  rw [ptpTakePicture_eos hdevice] at hrun
  exact sequence_heard hcounts hrun hprovided

/-- The camera does not let the shutter up: the rest of the sequence is not sent. -/
theorem takePicture_heard_stuck : ∃ (v w' : World (List (Option (List UInt8))))
    (events : List (Operation × Int)) (calls : List Call),
    ptpTakePicture scripted 64 (some eosDeviceInfo) (scriptedWorld 512
      [some okResponse, some (Container.bytes 3 ⟨0x2019, 0, []⟩)]) = .ok PtpGeneralError.checkCode w' ∧
    Sequenced (fun op : Operation => op.exec scripted 64) shutter v PtpGeneralError.checkCode w' events ∧
    heard (writtenBytes calls) = numbered 0 (events.map Prod.fst) := by
  obtain ⟨rc, w', hrun, hhow⟩ := run_of_returnsOn
    (ptpTakePicture scripted 64 (some eosDeviceInfo))
    (scriptedWorld 512 [some okResponse, some (Container.bytes 3 ⟨0x2019, 0, []⟩)])
    (fun rc w' => decide (rc = PtpGeneralError.checkCode ∧ w'.r.operationKillSwitch = false))
    (by decide +kernel)
  obtain ⟨rfl, hclear⟩ := of_decide_eq_true hhow
  obtain ⟨events, hsequenced, hsent⟩ := takePicture_heard scripted_counts
    ptpDeviceType_eosDeviceInfo hrun (scriptedWorld_provided _)
  obtain ⟨calls, -, hheard⟩ := hsent hclear
  exact ⟨_, w', events, calls, hrun, hsequenced, hheard⟩

end Libpict
