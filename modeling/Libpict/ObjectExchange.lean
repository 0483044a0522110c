import Libpict.CaptureSequence
import Libpict.ObjectInfo

/-! # Object infos on the wire

A device that returns, byte for byte, the object info that it has heard is read to the same
object info, exactly if the strings fit into the arrays they are read to.
-/

namespace Libpict

open Bytes CInt Exec PtpRuntime Transitions PtpCommand

section Functions

variable {σ : Type} (B : Backend σ) (fuel : Nat)

/-- `ptp_send_object_info`; `temp` is what the stack has where the dataset is packed. -/
def ptpSendObjectInfo (temp : Nat → UInt8) (storageId handle : Int) (oi : PtpObjectInfo) :
    M σ Int := do
  let packed ← inspect fun _ => ptpPackObjectInfo oi ⟨2048, temp⟩ 2048
  ptpSendData B fuel (two 0x100C (paramOf storageId) (paramOf handle))
    (packed.2.slice 0 packed.1)

/-- `ptp_get_object_info`: the result, and the structure where it has been filled. -/
def ptpGetObjectInfo (handle : UInt32) (oi : PtpObjectInfo) : M σ (Int × PtpObjectInfo) := do
  let rc ← ptpSend B fuel (one 0x1008 handle)
  if rc ≠ 0 then pure (rc, oi)
  else do
    let parsed ← inspect fun r => (ptpParseObjectInfo r oi).run r.load
    pure (0, parsed.2)

end Functions

variable {σ τ : Type} {B : Backend σ} {fuel : Nat} {w w' : World σ} {oi : PtpObjectInfo}
  {s : ObjectStrings}

/-- What is sent is one transaction with the packed dataset. -/
theorem sendObjectInfo_run (hs : s.Of oi) {temp : Nat → UInt8} {storageId handle rc : Int}
    (hrun : ptpSendObjectInfo B fuel temp storageId handle oi w = .ok rc w') :
    (Operation.sendData (two 0x100C (paramOf storageId) (paramOf handle)) (objectBytes oi s)).exec
      B fuel w = .ok rc w' := by
  have hmax : (1024 : Int) ≤ 2048 := by decide
  have hbuf : 1024 ≤ (⟨2048, temp⟩ : Buffer).size := Nat.le_of_ble_eq_true rfl
  obtain ⟨buf, hpack, hslice⟩ := ptpPackObjectInfo_eq hs hmax hbuf
  have hpacked : (inspect fun _ => ptpPackObjectInfo oi ⟨2048, temp⟩ 2048) w =
      .ok ((objectBytes oi s).length, buf) w := inspect_ok hpack
  have hsend := (bind_ok hpacked).symm.trans hrun
  rw [hslice] at hsend
  exact hsend

/-- An operation that succeeds leaves the data that the device has sent as the payload. -/
theorem Operation.reply_payload {op : Operation} {C : Backend τ} {u v : World τ}
    (hprovided : Provided u) (hconn : u.r.connectionType ≠ .ip) (hrun : op.exec C fuel u = .ok 0 v)
    {c : Container} {rest : List UInt8} (hfits : 12 + (c.body.length : Int) ≤ intMax)
    (hreply : readBytes (replyOf u v) = c.bytes ptpPacketTypeData ++ rest) :
    v.r.HasPayload 12 c.body.length c.body := by
  have hkill : u.r.operationKillSwitch = false := by
    rw [← Bool.not_eq_true]
    intro hset
    rw [Operation.exec_refused _ hset] at hrun
    cases (EStateM.Result.ok.inj hrun).1
  obtain ⟨calls, hlog, _, hends⟩ := Operation.settled _ hprovided.1 hprovided.2 hkill hrun
  rcases hends with hcompletes | hfails
  · have hconn' : v.r.connectionType ≠ .ip := by
      rw [hcompletes.setup.runtime]
      exact hconn
    have hholds := hcompletes.holds
    rw [← replyOf_append hlog, hreply] at hholds
    exact PtpRuntime.HasPayload.of_container hconn' hfits hholds
  · cases hfails.result

/-- A dataset that the device has sent in its reply is parsed. -/
theorem getObjectInfo_parsed {C : Backend τ} {u u' : World τ} {handle : UInt32}
    {old oi' : PtpObjectInfo} (hs : s.Of oi) (hprovided : Provided u)
    (hconn : u.r.connectionType ≠ .ip)
    (hrun : ptpGetObjectInfo C fuel handle old u = .ok (0, oi') u') {c : Container}
    {rest : List UInt8} (hbody : c.body = objectBytes oi s)
    (hreply : readBytes (replyOf u u') = c.bytes ptpPacketTypeData ++ rest) :
    oi' = objectInfoAt old (objectBytes oi s) := by
  obtain ⟨rc, v, hsend, hrest⟩ := bind_eq_ok.mp hrun
  have hexec : (Operation.send (one 0x1008 handle)).exec C fuel u = .ok rc v := hsend
  by_cases hrc : rc = 0
  · subst hrc
    obtain ⟨parsed, x, hparse, hreturn⟩ := bind_eq_ok.mp hrest
    obtain ⟨hresult, rfl⟩ := EStateM.Result.ok.inj hreturn
    obtain ⟨hparsed, rfl⟩ := inspect_eq_ok hparse
    have hshort := objectBytes_length hs
    have hfits : 12 + (c.body.length : Int) ≤ intMax := by
      rw [hbody, intMax]
      omega
    have hpayload := Operation.reply_payload hprovided hconn hexec hfits hreply
    rw [hbody] at hpayload
    rw [ptpParseObjectInfo_run hs hpayload] at hparsed
    obtain rfl := Except.ok.inj hparsed
    exact (Prod.mk.inj hresult).2.symm
  · rw [if_pos hrc] at hrest
    exact absurd (Prod.mk.inj (EStateM.Result.ok.inj hrest).1).1 hrc

/-- The device hears one transaction, with the packed dataset. If it returns this later on, what
is read is the object info that was sent, exactly if the strings fit. -/
theorem object_info_mirrored (hcounts : B.Counts) (hs : s.Of oi) {temp : Nat → UInt8}
    {storageId handle rc : Int}
    (hrun : ptpSendObjectInfo B fuel temp storageId handle oi w = .ok rc w')
    (hprovided : Provided w) (hclear : w'.r.operationKillSwitch = false) :
    ∃ calls, w'.log = w.log ++ calls ∧
      heard (writtenBytes calls) = numbered w.r.transactionId
        [.sendData (two 0x100C (paramOf storageId) (paramOf handle)) (objectBytes oi s)] ∧
      ∀ {τ : Type} {C : Backend τ} {fuel : Nat} {u u' : World τ} {handle : UInt32}
        {old oi' : PtpObjectInfo} {c : Container} {rest : List UInt8}, Provided u →
        u.r.connectionType ≠ .ip →
        ptpGetObjectInfo C fuel handle old u = .ok (0, oi') u' → c.body = objectBytes oi s →
        readBytes (replyOf u u') = c.bytes ptpPacketTypeData ++ rest →
        (SameObject oi oi' ↔ TextSlot.Fit (objectSlots old s)) := by
  have hsent := sendObjectInfo_run hs hrun
  have hone : Runs (Yield fun op : Operation => op.exec B fuel) w [(_, rc)] w' := .single hsent
  obtain ⟨calls, hlog, hheard⟩ := operations_heard hcounts hone hprovided hclear
  refine ⟨calls, hlog, hheard, ?_⟩
  intro τ C fuel u u' handle old oi' c rest hready hconn hget hbody hreply
  rw [getObjectInfo_parsed hs hready hconn hget hbody hreply]
  exact sameObject_iff_fit hs

/-- An object with a name of two characters. -/
def shortObject : PtpObjectInfo :=
  filledObject (Slots.put (.replicate _ 0) 0 [0x41, 0x42]) (.replicate _ 0)

/-- The dataset of the object, from a device. -/
def shortReply : Container := ⟨0x1008, 0, objectBytes shortObject ⟨[0x41, 0x42], [], [], []⟩⟩

/-- The object info is sent, and comes back. -/
theorem object_info_mirrored_short : ∃ (w' u' : World (List (Option (List UInt8)))) (calls : List Call)
    (oi' : PtpObjectInfo),
    ptpSendObjectInfo scripted 64 (fun _ => 0) 1 0 shortObject (scriptedWorld 512 [some okResponse]) =
      .ok 0 w' ∧
    heard (writtenBytes calls) = numbered 0 [.sendData (two 0x100C 1 0) shortReply.body] ∧
    ptpGetObjectInfo scripted 64 7 (filledObject (.replicate _ 1) (.replicate _ 1)) (scriptedWorld 512
      [some (shortReply.bytes ptpPacketTypeData ++ okResponse)]) = .ok (0, oi') u' ∧
    SameObject shortObject oi' := by
  have hs : ObjectStrings.Of ⟨[0x41, 0x42], [], [], []⟩ shortObject :=
    ⟨by decide +kernel, by decide +kernel, by decide +kernel, by decide +kernel, by decide +kernel⟩
  obtain ⟨rc, w', hrun, hhow⟩ := run_of_returnsOn
    (ptpSendObjectInfo scripted 64 (fun _ => 0) 1 0 shortObject) (scriptedWorld 512 [some okResponse])
    (fun rc w' => decide (rc = 0 ∧ w'.r.operationKillSwitch = false)) (by decide +kernel)
  obtain ⟨rfl, hclear⟩ := of_decide_eq_true hhow
  obtain ⟨⟨code, oi'⟩, u', hget, hback⟩ := run_of_returnsOn
    (ptpGetObjectInfo scripted 64 7 (filledObject (.replicate _ 1) (.replicate _ 1)))
    (scriptedWorld 512 [some (shortReply.bytes ptpPacketTypeData ++ okResponse)])
    (fun result u' => decide (result.1 = 0 ∧ readBytes (replyOf (scriptedWorld 512
      [some (shortReply.bytes ptpPacketTypeData ++ okResponse)]) u') =
        shortReply.bytes ptpPacketTypeData ++ okResponse)) (by decide +kernel)
  obtain ⟨hcode, hreply⟩ := of_decide_eq_true hback
  dsimp only at hcode
  subst hcode
  obtain ⟨calls, -, hheard, hmirrored⟩ := object_info_mirrored scripted_counts hs hrun
    (scriptedWorld_provided _) hclear
  have hconn : PtpConnType.usb ≠ .ip := by decide
  have hsame := hmirrored (scriptedWorld_provided _) hconn hget rfl hreply
  exact ⟨w', u', calls, oi', hrun, hheard, hget, hsame.mpr
    ⟨.inl (by decide), .inl (by decide), .inl (by decide), .inl (by decide), trivial⟩⟩

end Libpict
