import Libpict.CaptureSequence

/-! # Calls of the API

The functions of operations.c, canon.c and ml.c that make one transaction each. Whatever the
device answers, and whatever a function makes of the answer, the device hears a run of them as
their requests, one each.
-/

namespace Libpict

open Bytes CInt Exec PtpRuntime Transitions Frames PtpCommand

variable {σ : Type} {B : Backend σ} {fuel : Nat} {w w' : World σ}

/-- A call of a function that makes one transaction. -/
inductive ApiCall
  | closeSession
  | initCapture (storageId objectFormat : Int)
  | initOpenCapture (storageId objectFormat : Int)
  | terminateOpenCapture (transaction : Int)
  | getNumObjects (id format inside : Int)
  | getPropValue (code : Int)
  | getThumbnail (handle : Int)
  | moveObject (storageId handle folder : Int)
  | setPropValue (code value : Int)
  | setPropValue16 (code : Int) (value : UInt16)
  | setPropValueData (code : Int) (data : List UInt8)
  | deleteObject (handle : Int)
  | getObject (handle : Int)
  | eosGetStorageIds
  | eosGetStorageInfo (id : Int)
  | eosRemoteReleaseOn (mode : Int)
  | eosRemoteReleaseOff (mode : Int)
  | eosCancelAf
  | eosDriveLens (steps : Int)
  | eosSetEventMode (mode : Int)
  | eosSetRemoteMode (mode : Int)
  | eosGetViewfinderData
  | eosGetPropValue (code : Int)
  | eosSetPropValue (code value : Int)
  | eosGetEvent
  | eosPing
  | eosHddCapacityPush
  | eosHddCapacityPop
  | eosBulbStart
  | eosBulbStop
  | eosSetUiLock
  | eosResetUiLock
  | eosGetLiveview
  | mlGetLiveviewV1
  | chdkGetVersion
  deriving DecidableEq

namespace ApiCall

def exec (B : Backend σ) (fuel : Nat) : ApiCall → M σ Int
  | closeSession => ptpCloseSession B fuel
  | initCapture storageId objectFormat => ptpInitCapture B fuel storageId objectFormat
  | initOpenCapture storageId objectFormat => ptpInitOpenCapture B fuel storageId objectFormat
  | terminateOpenCapture transaction => ptpTerminateOpenCapture B fuel transaction
  | getNumObjects id format inside => ptpGetNumObjects B fuel id format inside
  | getPropValue code => ptpGetPropValue B fuel code
  | getThumbnail handle => ptpGetThumbnail B fuel handle
  | moveObject storageId handle folder => ptpMoveObject B fuel storageId handle folder
  | setPropValue code value => ptpSetPropValue B fuel code value
  | setPropValue16 code value => ptpSetPropValue16 B fuel code value
  | setPropValueData code data => ptpSetPropValueData B fuel code data
  | deleteObject handle => ptpDeleteObject B fuel handle
  | getObject handle => ptpGetObject B fuel handle
  | eosGetStorageIds => ptpEosGetStorageIds B fuel
  | eosGetStorageInfo id => ptpEosGetStorageInfo B fuel id
  | eosRemoteReleaseOn mode => ptpEosRemoteReleaseOn B fuel mode
  | eosRemoteReleaseOff mode => ptpEosRemoteReleaseOff B fuel mode
  | eosCancelAf => ptpEosCancelAf B fuel
  | eosDriveLens steps => ptpEosDriveLens B fuel steps
  | eosSetEventMode mode => ptpEosSetEventMode B fuel mode
  | eosSetRemoteMode mode => ptpEosSetRemoteMode B fuel mode
  | eosGetViewfinderData => ptpEosGetViewfinderData B fuel
  | eosGetPropValue code => ptpEosGetPropValue B fuel code
  | eosSetPropValue code value => ptpEosSetPropValue B fuel code value
  | eosGetEvent => ptpEosGetEvent B fuel
  | eosPing => ptpEosPing B fuel
  | eosHddCapacityPush => ptpEosHddCapacityPush B fuel
  | eosHddCapacityPop => ptpEosHddCapacityPop B fuel
  | eosBulbStart => ptpEosBulbStart B fuel
  | eosBulbStop => ptpEosBulbStop B fuel
  | eosSetUiLock => ptpEosSetUiLock B fuel
  | eosResetUiLock => ptpEosResetUiLock B fuel
  | eosGetLiveview => ptpEosGetLiveview B fuel
  | mlGetLiveviewV1 => ptpMlGetLiveviewV1 B fuel
  | chdkGetVersion => ptpChdkGetVersion B fuel

/-- The request that a call stands for: its code, its parameters and its data. -/
def request : ApiCall → Operation
  | closeSession => .send (plain 0x1003)
  | initCapture storageId objectFormat =>
      .send (two 0x100E (paramOf storageId) (paramOf objectFormat))
  | initOpenCapture storageId objectFormat =>
      .send (two 0x101C (paramOf storageId) (paramOf objectFormat))
  | terminateOpenCapture transaction => .send (one 0x1018 (paramOf transaction))
  | getNumObjects id format inside =>
      .send (three 0x1006 (paramOf id) (paramOf format) (paramOf inside))
  | getPropValue code => .send (one 0x1015 (paramOf code))
  | getThumbnail handle => .send (one 0x100A (paramOf handle))
  -- the source sends the code of a thumbnail here too
  | moveObject storageId handle folder =>
      .send (three 0x100A (paramOf handle) (paramOf storageId) (paramOf folder))
  | setPropValue code value => .sendData (one 0x1016 (paramOf code)) (leBytes 4 (toUInt32 value))
  | setPropValue16 code value => .sendData (one 0x1016 (paramOf code)) (leBytes 2 value.toNat)
  | setPropValueData code data => .sendData (one 0x1016 (paramOf code)) data
  | deleteObject handle => .send (one 0x100B (paramOf handle))
  | getObject handle => .send (one 0x1009 (paramOf handle))
  | eosGetStorageIds => .send (plain 0x9101)
  | eosGetStorageInfo id => .send (one 0x9102 (paramOf id))
  | eosRemoteReleaseOn mode => .send (two 0x9128 (paramOf mode) 0)
  | eosRemoteReleaseOff mode => .send (one 0x9129 (paramOf mode))
  | eosCancelAf => .send (plain 0x9160)
  -- the direction is in bit 15
  | eosDriveLens steps => .send (one 0x9155 (paramOf (if steps < 0 then 0x8000 - steps else steps)))
  | eosSetEventMode mode => .send (one 0x9115 (paramOf mode))
  | eosSetRemoteMode mode => .send (one 0x9114 (paramOf mode))
  | eosGetViewfinderData => .send (one 0x9153 0x200000)
  | eosGetPropValue code => .send (one 0x9127 (paramOf code))
  | eosSetPropValue code value => .sendData (plain 0x9110)
      (leBytes 4 0xc ++ leBytes 4 (toUInt32 code) ++ leBytes 4 (toUInt32 value))
  | eosGetEvent => .send (plain 0x9116)
  | eosPing => .send (plain 0x911D)
  | eosHddCapacityPush => .send (three 0x911A 0xfffffff7 0x1000 0)
  | eosHddCapacityPop => .send (three 0x911A 0x332d2d 0x1000 1)
  | eosBulbStart => .send (plain 0x9125)
  | eosBulbStop => .send (plain 0x9126)
  | eosSetUiLock => .send (one 0x911B 0)
  | eosResetUiLock => .send (plain 0x911C)
  | eosGetLiveview => .send (one 0x9153 0x200000)
  | mlGetLiveviewV1 => .send (plain 0x9997)
  | chdkGetVersion => .send (one 0x9999 0)

end ApiCall

/-! ## One call -/

theorem ptpEosDriveLens_run {steps rc : Int} (hrun : ptpEosDriveLens B fuel steps w = .ok rc w') :
    (ApiCall.eosDriveLens steps).request.exec B fuel w = .ok rc w' := by
  obtain ⟨sent, middle, hsent, hsend⟩ := bind_eq_ok.mp hrun
  by_cases hneg : steps < 0
  · rw [if_pos hneg] at hsent
    obtain ⟨rfl, -, rfl⟩ := intAdd_eq_ok hsent
    have hmagnitude : 0x8000 + steps * -1 = 0x8000 - steps := by ring
    rw [hmagnitude] at hsend
    simpa only [ApiCall.request, Operation.exec, if_pos hneg] using hsend
  · rw [if_neg hneg] at hsent
    obtain ⟨rfl, rfl⟩ := EStateM.Result.ok.inj hsent
    simpa only [ApiCall.request, Operation.exec, if_neg hneg] using hsend

/-- What `ptp_eos_get_liveview` makes of the reply does not touch the runtime. -/
theorem ptpEosGetLiveview_run {rc : Int} (hrun : ptpEosGetLiveview B fuel w = .ok rc w') :
    ∃ rc', ApiCall.eosGetLiveview.request.exec B fuel w = .ok rc' w' := by
  obtain ⟨rc', middle, hsend, hrest⟩ := bind_eq_ok.mp hrun
  have hsame : w' = middle := by
    split_ifs at hrest with hcheck hfailed
    · obtain ⟨code, v₁, hcode, hanswer⟩ := bind_eq_ok.mp hrest
      have hread : v₁ = middle := (inspect_eq_ok hcode).2
      split_ifs at hanswer
      · rw [← (EStateM.Result.ok.inj hanswer).2, hread]
      · rw [← (EStateM.Result.ok.inj hanswer).2, hread]
    · exact (EStateM.Result.ok.inj hrest).2.symm
    · obtain ⟨payload, v₁, hpayload, hrest⟩ := bind_eq_ok.mp hrest
      obtain ⟨length, v₂, hlength, hrest⟩ := bind_eq_ok.mp hrest
      obtain ⟨type, v₃, htype, hrest⟩ := bind_eq_ok.mp hrest
      have hread : v₃ = middle := by
        rw [(inspect_eq_ok htype).2, (inspect_eq_ok hlength).2, (inspect_eq_ok hpayload).2]
      split_ifs at hrest
      · rw [← (EStateM.Result.ok.inj hrest).2, hread]
      · rw [← (EStateM.Result.ok.inj hrest).2, hread]
  exact ⟨rc', hsame ▸ hsend⟩

/-- A call makes the transaction of its request. -/
theorem ApiCall.exec_request {call : ApiCall} {rc : Int} (hrun : call.exec B fuel w = .ok rc w') :
    ∃ rc', call.request.exec B fuel w = .ok rc' w' := by
  cases call with
  | eosDriveLens steps => exact ⟨rc, ptpEosDriveLens_run hrun⟩
  | eosGetLiveview => exact ptpEosGetLiveview_run hrun
  | _ => exact ⟨rc, hrun⟩

/-! ## Runs of calls -/

theorem requests_of_run {events : List (ApiCall × Int)}
    (hrun : Runs (Yield (ApiCall.exec B fuel)) w events w') :
    ∃ requests, Runs (Yield fun op : Operation => op.exec B fuel) w requests w' ∧
      requests.map Prod.fst = events.map (·.1.request) := by
  induction hrun with
  | nil => exact ⟨[], .nil _, rfl⟩
  | @cons u v _ event _ hstep _ ih =>
      obtain ⟨requests, hrequests, hsame⟩ := ih
      obtain ⟨rc, hfirst⟩ := ApiCall.exec_request hstep
      exact ⟨(event.1.request, rc) :: requests, .cons hfirst hrequests, congrArg (_ :: ·) hsame⟩

/-- The device hears a run of calls as their requests: one request each, in order and with
consecutive numbers, however often a command was written and whatever was answered. -/
theorem api_calls_heard (hcounts : B.Counts) {events : List (ApiCall × Int)}
    (hrun : Runs (Yield (ApiCall.exec B fuel)) w events w') (hprovided : Provided w)
    (hclear : w'.r.operationKillSwitch = false) :
    ∃ calls, w'.log = w.log ++ calls ∧
      heard (writtenBytes calls) = numbered w.r.transactionId (events.map (·.1.request)) := by
  obtain ⟨requests, hrequests, hsame⟩ := requests_of_run hrun
  rw [← hsame]
  exact operations_heard hcounts hrequests hprovided hclear

/-- A liveview frame is not ready, and the lens is driven back all the same. -/
theorem api_calls_heard_notReady :
    ∃ (w' : World (List (Option (List UInt8)))) (calls : List Call),
    Runs (Yield (ApiCall.exec scripted 64)) (scriptedWorld 512
      [some (Container.bytes 3 ⟨0xA102, 0, []⟩), some (Container.bytes 3 ⟨0x2001, 1, []⟩)])
      [(.eosGetLiveview, 0), (.eosDriveLens (-3), 0)] w' ∧
    heard (writtenBytes calls) =
      numbered 0 [.send (one 0x9153 0x200000), .send (one 0x9155 0x8003)] := by
  obtain ⟨rc, v, hview, hhow⟩ := run_of_returnsOn (ApiCall.eosGetLiveview.exec scripted 64)
    (scriptedWorld 512
      [some (Container.bytes 3 ⟨0xA102, 0, []⟩), some (Container.bytes 3 ⟨0x2001, 1, []⟩)])
    (fun rc v => decide (rc = 0) && returnsOn ((ApiCall.eosDriveLens (-3)).exec scripted 64) v
      fun rc w' => decide (rc = 0 ∧ w'.r.operationKillSwitch = false))
    (by decide +kernel)
  obtain ⟨hready, hhow⟩ := Bool.and_eq_true_iff.mp hhow
  obtain rfl := of_decide_eq_true hready
  obtain ⟨rc, w', hdrive, hhow⟩ := run_of_returnsOn _ _ _ hhow
  obtain ⟨rfl, hclear⟩ := of_decide_eq_true hhow
  have hrun : Runs (Yield (ApiCall.exec scripted 64)) (scriptedWorld 512
      [some (Container.bytes 3 ⟨0xA102, 0, []⟩), some (Container.bytes 3 ⟨0x2001, 1, []⟩)])
      [(.eosGetLiveview, 0), (.eosDriveLens (-3), 0)] w' := .cons hview (.single hdrive)
  obtain ⟨calls, -, hheard⟩ := api_calls_heard scripted_counts hrun
    (scriptedWorld_provided _) hclear
  exact ⟨w', calls, hrun, hheard⟩

/-! ## Liveview -/

/-- What `ptp_liveview_init` sends to an EOS camera. -/
def liveviewStart : List Operation :=
  [(ApiCall.eosSetPropValue ptpDpcEosVfOutput 3).request,
    (ApiCall.eosSetPropValue ptpDpcEosCaptureDestination 4).request]

/-- What `ptp_liveview_deinit` sends to an EOS camera: the output is left as it is. -/
def liveviewEnd : List Operation :=
  [(ApiCall.eosSetPropValue ptpDpcEosCaptureDestination 2).request,
    ApiCall.eosHddCapacityPush.request]

section Liveview

variable {di : Option PtpDeviceInfo} {s s' : MlStatics}

theorem ptpLiveviewInit_eos (htype : ptpLiveviewType di = .ok .eos) {rc : Int}
    (hrun : ptpLiveviewInit B fuel di s w = .ok (rc, s') w') :
    s' = s ∧ untilFailure (liveviewStart.map fun op => op.exec B fuel) w = .ok rc w' := by
  have hinspect : (inspect fun _ => ptpLiveviewType di) w = .ok .eos w := inspect_ok htype
  have hcase := (bind_ok hinspect).symm.trans hrun
  obtain ⟨x, middle, hstart, hdone⟩ := bind_eq_ok.mp hcase
  obtain ⟨hresult, rfl⟩ := EStateM.Result.ok.inj hdone
  obtain ⟨rfl, rfl⟩ := Prod.mk.inj hresult
  exact ⟨rfl, hstart⟩

theorem ptpLiveviewDeinit_eos (htype : ptpLiveviewType di = .ok .eos) :
    ptpLiveviewDeinit B fuel di w = untilFailure (liveviewEnd.map fun op => op.exec B fuel) w := by
  have hinspect : (inspect fun _ => ptpLiveviewType di) w = .ok .eos w := inspect_ok htype
  refine (bind_ok hinspect).trans ?_
  rfl

/-- A liveview session as an EOS camera hears it: the commands that start it, the requests of
the calls in it, and the commands that end it up to one that fails. -/
theorem liveview_session_heard (hcounts : B.Counts) {u v : World σ}
    (htype : ptpLiveviewType di = .ok .eos) (hinit : ptpLiveviewInit B fuel di s w = .ok (0, s') u)
    {events : List (ApiCall × Int)} (hcalls : Runs (Yield (ApiCall.exec B fuel)) u events v)
    {rc : Int} (hdeinit : ptpLiveviewDeinit B fuel di v = .ok rc w') (hprovided : Provided w)
    (hclear : w'.r.operationKillSwitch = false) :
    ∃ last calls, Sequenced (fun op : Operation => op.exec B fuel) liveviewEnd v rc w' last ∧
      w'.log = w.log ++ calls ∧ heard (writtenBytes calls) = numbered w.r.transactionId
        (liveviewStart ++ events.map (·.1.request) ++ last.map Prod.fst) := by
  obtain ⟨first, hfirst⟩ := untilFailure_sequenced (ptpLiveviewInit_eos htype hinit).2
  obtain ⟨requests, hrequests, hsame⟩ := requests_of_run hcalls
  rw [ptpLiveviewDeinit_eos htype] at hdeinit
  obtain ⟨last, hlast⟩ := untilFailure_sequenced hdeinit
  have hall := (hfirst.runs.append hrequests).append hlast.runs
  obtain ⟨calls, hlog, hheard⟩ := operations_heard hcounts hall hprovided hclear
  have hstarted : first.map Prod.fst = liveviewStart := by
    rw [hfirst.completed rfl, map_fst_codes]
  rw [List.map_append, List.map_append, hstarted, hsame] at hheard
  exact ⟨last, calls, hlast, hlog, hheard⟩

/-- A camera that offers its viewfinder. -/
def liveviewDeviceInfo : PtpDeviceInfo :=
  { eosDeviceInfo with
    opsSupportedLength := 2
    opsSupported := .ofFn fun i => if i.val = 0 then 0x9101 else 0x9153 }

/-- A session without a frame, at the end of which the camera is busy. -/
theorem liveview_session_heard_busy :
    ∃ (s : MlStatics) (u w' : World (List (Option (List UInt8)))) (last : List (Operation × Int))
      (calls : List Call),
    ptpLiveviewInit scripted 64 (some liveviewDeviceInfo) s (scriptedWorld 512
      [some okResponse, some okResponse, some (Container.bytes 3 ⟨0x2019, 0, []⟩)]) = .ok (0, s) u ∧
    ptpLiveviewDeinit scripted 64 (some liveviewDeviceInfo) u = .ok PtpGeneralError.checkCode w' ∧
    heard (writtenBytes calls) = numbered 0 (liveviewStart ++ [] ++ last.map Prod.fst) := by
  have htype : ptpLiveviewType (some liveviewDeviceInfo) = .ok .eos := by decide +kernel
  obtain ⟨⟨rc, s'⟩, u, hinit, hhow⟩ := run_of_returnsOn
    (ptpLiveviewInit scripted 64 (some liveviewDeviceInfo) .initial) (scriptedWorld 512
      [some okResponse, some okResponse, some (Container.bytes 3 ⟨0x2019, 0, []⟩)])
    (fun result u => decide (result.1 = 0) &&
      returnsOn (ptpLiveviewDeinit scripted 64 (some liveviewDeviceInfo)) u fun rc w' =>
        decide (rc = PtpGeneralError.checkCode ∧ w'.r.operationKillSwitch = false))
    (by decide +kernel)
  obtain ⟨hstarted, hend⟩ := Bool.and_eq_true_iff.mp hhow
  obtain rfl : rc = 0 := of_decide_eq_true hstarted
  obtain ⟨rc, w', hdeinit, hbusy⟩ := run_of_returnsOn _ _ _ hend
  obtain ⟨rfl, hclear⟩ := of_decide_eq_true hbusy
  obtain ⟨rfl, -⟩ := ptpLiveviewInit_eos htype hinit
  obtain ⟨last, calls, -, -, hheard⟩ := liveview_session_heard scripted_counts htype hinit (.nil u)
    hdeinit (scriptedWorld_provided _) hclear
  exact ⟨_, u, w', last, calls, hinit, hdeinit, hheard⟩

end Liveview

end Libpict
