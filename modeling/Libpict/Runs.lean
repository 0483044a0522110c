import Libpict.Written

/-! # Runs of operations

A run is a sequence of operations, each starting where the one before has returned,
with connections in between: opening a device clears the kill switch. Along every run
a failing operation stops the ones behind it, unless a device says goodbye, and the
response that an operation leaves behind is the one that the device sent last.
-/

namespace Libpict

open Bytes CInt Exec PtpRuntime

variable {σ : Type} {B : Backend σ} {w w' : World σ} {fuel : Nat}

/-- What opening or connecting a device may change: all but the buffer. It clears the
kill switch. -/
structure Connects (w v : World σ) : Prop where
  data : v.r.data = w.r.data
  dataLength : v.r.dataLength = w.r.dataLength
  log : v.log = w.log
  killSwitch : v.r.operationKillSwitch = false
  packet : v.r.maxPacketSize ≤ intMax

/-- An operation that has returned `rc`, or a connection. -/
inductive Event (σ : Type)
  | operation (op : Operation) (rc : Int) (before after : World σ)
  | connect (before after : World σ)

inductive Run (B : Backend σ) : World σ → List (Event σ) → World σ → Prop
  | nil (w : World σ) : Run B w [] w
  | operation {op : Operation} {fuel : Nat} {rc : Int} {w v w' : World σ} {events : List (Event σ)} :
      op.exec B fuel w = .ok rc v → Run B v events w' →
      Run B w (.operation op rc w v :: events) w'
  | connect {w v w' : World σ} {events : List (Event σ)} :
      Connects w v → Run B v events w' → Run B w (.connect w v :: events) w'

/-- What every world of a run has in common. -/
def Provided (w : World σ) : Prop := Allocated w.r ∧ w.r.maxPacketSize ≤ intMax

theorem Operation.exec_refused (op : Operation) (hkill : w.r.operationKillSwitch = true) :
    op.exec B fuel w = .ok PtpGeneralError.ioErr w := by
  cases op with
  | send => exact ptpTransaction_refused hkill
  | sendData => exact ptpTransaction_refused hkill

theorem SameSetup.operationKillSwitch (hsetup : SameSetup w w') :
    w'.r.operationKillSwitch = w.r.operationKillSwitch := by rw [hsetup.runtime]

theorem Provided.exec {op : Operation} (hprovided : Provided w) {rc : Int}
    (hrun : op.exec B fuel w = .ok rc w') : Provided w' := by
  by_cases hkill : w.r.operationKillSwitch = true
  · rw [op.exec_refused hkill] at hrun
    obtain ⟨_, rfl⟩ := EStateM.Result.ok.inj hrun
    exact hprovided
  · obtain ⟨calls, _, hallocated, hends⟩ := op.settled hprovided.1 hprovided.2
      (Bool.not_eq_true _ ▸ hkill) hrun
    refine ⟨hallocated, ?_⟩
    rcases hends with hcompletes | hfails
    · exact hcompletes.setup.packet.le hprovided.2 (by decide)
    · exact hfails.setup.packet.le hprovided.2 (by decide)

theorem Connects.provided (hconnects : Connects w w') (hprovided : Provided w) : Provided w' := by
  obtain ⟨⟨size, hdefault, hbound, hlength, hsize⟩, _⟩ := hprovided
  refine ⟨⟨size, hdefault, hbound, hconnects.dataLength.trans hlength, fun buffer hbuffer => ?_⟩,
    hconnects.packet⟩
  exact hsize buffer (hconnects.data ▸ hbuffer)

/-! ## Fail-stop -/

/-- The operations up to the next connection are refused without a backend call. -/
def Stopped : List (Event σ) → Prop
  | [] => True
  | .operation _ rc before after :: rest =>
      rc = PtpGeneralError.ioErr ∧ after.log = before.log ∧ Stopped rest
  | .connect .. :: _ => True

/-- An operation that fails sets the switch and stops those behind it; one that does not
leaves the switch clear. -/
def FailStop : List (Event σ) → Prop
  | [] => True
  | .operation _ rc _ after :: rest =>
      (rc = PtpGeneralError.ioErr → after.r.operationKillSwitch = true ∧ Stopped rest) ∧
      (rc = 0 ∨ rc = PtpGeneralError.checkCode → after.r.operationKillSwitch = false) ∧
      FailStop rest
  | .connect .. :: rest => FailStop rest

/-- What the device has sent in an operation since the last write to it. -/
def replyOf (before after : World σ) : List Call := lastReads (after.log.drop before.log.length)

/-- The device has answered the operation in time, with the goodbye code. -/
def Event.Goodbye : Event σ → Prop
  | .operation _ _ before after =>
      Answered before.r.responseWaitDefault (replyOf before after) ∧
        responseCode (readBytes (replyOf before after)) = 0xffff
  | .connect .. => False

instance (e : Event σ) : Decidable e.Goodbye :=
  match e with
  | .operation _ _ _ _ => inferInstanceAs (Decidable (_ ∧ _))
  | .connect _ _ => inferInstanceAs (Decidable False)

theorem replyOf_append {calls : List Call} (hlog : w'.log = w.log ++ calls) :
    replyOf w w' = lastReads calls := by
  unfold replyOf
  rw [hlog, List.drop_left]

theorem stopped_of_killed {events : List (Event σ)} (hrun : Run B w events w')
    (hkill : w.r.operationKillSwitch = true) : Stopped events := by
  induction hrun with
  | nil => trivial
  | @operation op _ _ _ _ _ _ hexec _ ih =>
      rw [op.exec_refused hkill] at hexec
      obtain ⟨rfl, rfl⟩ := EStateM.Result.ok.inj hexec
      exact ⟨rfl, rfl, ih hkill⟩
  | connect => trivial

theorem checked_eq_ioErr {code : Nat} :
    checked code = PtpGeneralError.ioErr ↔ code = 0xffff := by
  unfold checked
  split
  next hcode => exact iff_of_true rfl (by exact_mod_cast hcode)
  next hcode =>
    refine iff_of_false ?_ (by exact_mod_cast hcode)
    split <;> decide

/-- A run is fail-stop exactly if the device never answers with the goodbye code. -/
theorem failStop_iff {events : List (Event σ)} {buffer : Buffer} (hready : w.r.Ready buffer)
    (hpacket : w.r.maxPacketSize ≤ intMax) (hrun : Run B w events w') :
    FailStop events ↔ ∀ e ∈ events, ¬e.Goodbye := by
  have hprovided : Provided w := ⟨hready.allocated, hpacket⟩
  clear hready hpacket
  induction hrun with
  | nil => exact iff_of_true trivial (by simp)
  | @operation op fuel rc w v w' events hexec hrest ih =>
      refine Iff.trans ?_ List.forall_mem_cons.symm
      rw [FailStop, ← and_assoc]
      refine and_congr ?_ (ih (hprovided.exec hexec))
      by_cases hkill : w.r.operationKillSwitch = true
      · have hstopped := stopped_of_killed hrest
        rw [op.exec_refused hkill] at hexec
        obtain ⟨rfl, rfl⟩ := EStateM.Result.ok.inj hexec
        refine iff_of_true ⟨fun _ => ⟨hkill, hstopped hkill⟩, fun h => ?_⟩ ?_
        · rcases h with h | h <;> cases h
        · rintro ⟨hanswered, _⟩
          rw [replyOf_append (List.append_nil _).symm] at hanswered
          cases hanswered.1
      · rw [Bool.not_eq_true] at hkill
        obtain ⟨calls, hlog, _, hends⟩ := op.settled hprovided.1 hprovided.2 hkill hexec
        rw [Event.Goodbye, replyOf_append hlog]
        rcases hends with hcompletes | hfails
        · have hswitch := hcompletes.setup.operationKillSwitch.trans hkill
          have hcode := @checked_eq_ioErr (responseCode (readBytes (lastReads calls)))
          rw [← hcompletes.result] at hcode
          rw [← hcode, and_iff_right hcompletes.answered]
          constructor
          · rintro ⟨hfail, _⟩ hrc
            have hset := (hfail hrc).1
            rw [hswitch] at hset
            cases hset
          · intro hrc
            exact ⟨fun h => absurd h hrc, fun _ => hswitch⟩
        · have hswitch : v.r.operationKillSwitch = true := hfails.setup.operationKillSwitch
          refine iff_of_true ⟨fun _ => ⟨hswitch, stopped_of_killed hrest hswitch⟩, fun h => ?_⟩
            fun h => hfails.unanswered h.1
          rw [hfails.result] at h
          rcases h with h | h <;> cases h
  | connect hconnects _ ih =>
      refine Iff.trans ?_ List.forall_mem_cons.symm
      exact (ih (hconnects.provided hprovided)).trans (and_iff_right fun h => h).symm

/-- A response with the goodbye code. -/
def goodbyeResponse : List UInt8 := Container.bytes 3 ⟨0xffff, 0, []⟩

/-- A device that answers once and is silent then: the second operation fails, and the third
is refused. -/
theorem failStop_iff_answer : ∃ (answered failed refused : Event (List (Option (List UInt8))))
    (w' : World (List (Option (List UInt8)))),
    Run scripted (scriptedWorld 512 [some okResponse]) [answered, failed, refused] w' ∧
      w'.r.operationKillSwitch = true ∧ FailStop [answered, failed, refused] := by
  let op : Operation := .send getHandles
  let start : World (List (Option (List UInt8))) := scriptedWorld 512 [some okResponse]
  obtain ⟨rc, u, hexec, hhow⟩ := run_of_returnsOn (op.exec scripted 64) start
    (fun rc u => decide (rc = 0 ∧ ¬(Event.operation op rc start u).Goodbye) &&
      returnsOn (op.exec scripted 64) u fun rc v =>
        decide (rc = PtpGeneralError.ioErr ∧ ¬(Event.operation op rc u v).Goodbye) &&
          returnsOn (op.exec scripted 64) v fun rc w' => decide
            (¬(Event.operation op rc v w').Goodbye ∧ w'.r.operationKillSwitch = true))
    (by decide +kernel)
  obtain ⟨hfirst, hhow⟩ := Bool.and_eq_true_iff.mp hhow
  obtain ⟨rc₂, v, hexec₂, hhow⟩ := run_of_returnsOn _ _ _ hhow
  obtain ⟨hsecond, hhow⟩ := Bool.and_eq_true_iff.mp hhow
  obtain ⟨rc₃, w', hexec₃, hhow⟩ := run_of_returnsOn _ _ _ hhow
  obtain ⟨hthird, hkill⟩ := of_decide_eq_true hhow
  have hrun := Run.operation hexec (.operation hexec₂ (.operation hexec₃ (.nil w')))
  refine ⟨_, _, _, w', hrun, hkill,
    (failStop_iff (scriptedWorld_ready _ _) (by decide) hrun).mpr ?_⟩
  simp only [List.forall_mem_cons]
  exact ⟨(of_decide_eq_true hfirst).2, (of_decide_eq_true hsecond).2, hthird,
    List.forall_mem_nil _⟩

/-- After a goodbye the switch is still clear. -/
theorem failStop_goodbye : ∃ (e : Event (List (Option (List UInt8))))
    (w' : World (List (Option (List UInt8)))),
    Run scripted (scriptedWorld 512 [some goodbyeResponse]) [e] w' ∧ ¬FailStop [e] := by
  obtain ⟨rc, v, hexec, hhow⟩ := run_of_returnsOn
    ((Operation.send getHandles).exec scripted 64) (scriptedWorld 512 [some goodbyeResponse])
    (fun rc v => decide (rc = PtpGeneralError.ioErr ∧ v.r.operationKillSwitch = false))
    (by decide +kernel)
  obtain ⟨rfl, hkill⟩ := of_decide_eq_true hhow
  refine ⟨_, v, .operation hexec (.nil v), fun hstop => ?_⟩
  have hset := (hstop.1 rfl).1
  rw [hkill] at hset
  cases hset

/-! ## The response of an operation -/

theorem Run.operation_mem {events : List (Event σ)} (hrun : Run B w events w')
    (hprovided : Provided w) {op : Operation} {rc : Int} {before after : World σ}
    (he : Event.operation op rc before after ∈ events) :
    Provided before ∧ ∃ fuel, op.exec B fuel before = .ok rc after := by
  induction hrun with
  | nil => cases he
  | operation hexec _ ih =>
      rcases List.mem_cons.mp he with heq | he
      · obtain ⟨rfl, rfl, rfl, rfl⟩ := Event.operation.inj heq
        exact ⟨hprovided, _, hexec⟩
      · exact ih (hprovided.exec hexec) he
  | connect hconnects _ ih =>
      rcases List.mem_cons.mp he with heq | he
      · cases heq
      · exact ih (hconnects.provided hprovided) he

/-- The response left by an operation that returns 0 or `PTP_CHECK_CODE` has the ID that the
operation has put in its command. -/
def Event.OwnResponse : Event σ → Prop
  | .operation _ rc before after => rc = 0 ∨ rc = PtpGeneralError.checkCode →
      ptpGetLastTransactionId after.r = .ok (toInt32 before.r.transactionId.toNat)
  | .connect .. => True

/-- The operation has written its own packets, and the device has answered the last of
these in time with the reply that is left in the buffer. -/
structure Leaves (op : Operation) (before after : World σ) : Prop where
  sent : ∀ call ∈ after.log.drop before.log.length, call.PieceOf (op.packets before.r.transactionId)
  answered : Answered before.r.responseWaitDefault (replyOf before after)
  holds : after.r.Holds (readBytes (replyOf before after))
  response : bulkResponse after.r = .ok (bulkResponseOffset (readBytes (replyOf before after)))
  transaction : ptpGetLastTransactionId after.r =
    .ok (toInt32 (responseTransaction (readBytes (replyOf before after))))

theorem toInt32_natCast_inj {a b : Nat} (ha : a < 4294967296) (hb : b < 4294967296) :
    toInt32 a = toInt32 b ↔ a = b := by
  constructor
  · intro h
    have hback := congrArg toUInt32 h
    rwa [toUInt32_toInt32 ha, toUInt32_toInt32 hb] at hback
  · rintro rfl
    rfl

/-- Along every run, the response that an operation leaves is the one that the device has
sent since the last write, and it is the operation's own if and only if the device has
sent it with the ID of the operation. -/
theorem responses_are_the_last {events : List (Event σ)} {buffer : Buffer}
    (hready : w.r.Ready buffer) (hpacket : w.r.maxPacketSize ≤ intMax) (hrun : Run B w events w')
    {op : Operation} {rc : Int} {before after : World σ}
    (he : Event.operation op rc before after ∈ events)
    (hrc : rc = 0 ∨ rc = PtpGeneralError.checkCode) :
    Leaves op before after ∧ ((Event.operation op rc before after).OwnResponse ↔
      responseTransaction (readBytes (replyOf before after)) = before.r.transactionId.toNat) := by
  obtain ⟨⟨hallocated, hpacket'⟩, fuel, hexec⟩ :=
    hrun.operation_mem ⟨hready.allocated, hpacket⟩ he
  have hkill : before.r.operationKillSwitch = false := by
    rw [← Bool.not_eq_true]
    intro hset
    rw [op.exec_refused hset] at hexec
    obtain ⟨rfl, _⟩ := EStateM.Result.ok.inj hexec
    rcases hrc with h | h <;> cases h
  obtain ⟨calls, hlog, _, hends⟩ := op.settled hallocated hpacket' hkill hexec
  obtain ⟨_, calls', hlog', htries⟩ := op.tries hallocated hpacket' hkill hexec
  obtain rfl := List.append_cancel_left (hlog.symm.trans hlog')
  have hreply := replyOf_append hlog
  rcases hends with hcompletes | hfails
  · have hconn : after.r.connectionType ≠ .ip := by
      rw [show after.r.connectionType = before.r.connectionType by
        rw [hcompletes.setup.runtime]]
      intro hip
      exact op.exec_noEndpoint (by rw [hip]; rfl) hkill hexec
    obtain ⟨hanswered, _, hholds, hbulk, _⟩ := hcompletes
    rw [← hreply] at hanswered hholds hbulk
    have htransaction := ptpGetLastTransactionId_bulk hconn hholds hbulk.header
    refine ⟨⟨?_, hanswered, hholds, bulkResponse_holds hholds hbulk.header, htransaction⟩, ?_⟩
    · rw [hlog, List.drop_left]
      exact htries.pieces
    · simp only [Event.OwnResponse]
      rw [htransaction, Except.ok.injEq, toInt32_natCast_inj]
      · exact ⟨fun h => h hrc, fun h _ => h⟩
      · exact field_lt 4 _ _
      · exact before.r.transactionId.toNat_lt
  · rw [hfails.result] at hrc
    rcases hrc with h | h <;> cases h

/-- What a prompt device says to two operations: it has done the one, and is busy. -/
def promptScript : List (Option (List UInt8)) :=
  [some okResponse, some (Container.bytes 3 ⟨0x2019, 1, []⟩)]

/-- A device that answers at once leaves every operation its own response. -/
theorem responses_are_the_last_prompt :
    ∃ (first second : Event (List (Option (List UInt8)))) (w' : World (List (Option (List UInt8)))),
    Run scripted (scriptedWorld 512 promptScript) [first, second] w' ∧
      first.OwnResponse ∧ second.OwnResponse := by
  let op : Operation := .send getHandles
  let start : World (List (Option (List UInt8))) := scriptedWorld 512 promptScript
  obtain ⟨rc, v, hexec, hhow⟩ := run_of_returnsOn (op.exec scripted 64) start
    (fun rc v => decide (rc = 0 ∧
        responseTransaction (readBytes (replyOf start v)) = start.r.transactionId.toNat) &&
      returnsOn (op.exec scripted 64) v fun rc w' => decide (rc = PtpGeneralError.checkCode ∧
        responseTransaction (readBytes (replyOf v w')) = v.r.transactionId.toNat))
    (by decide +kernel)
  obtain ⟨hfirst, hhow⟩ := Bool.and_eq_true_iff.mp hhow
  obtain ⟨rc', w', hexec', hhow⟩ := run_of_returnsOn _ _ _ hhow
  obtain ⟨hrc, hfirst⟩ := of_decide_eq_true hfirst
  obtain ⟨hrc', hsecond⟩ := of_decide_eq_true hhow
  have hrun := Run.operation hexec (.operation hexec' (.nil w'))
  have hready := scriptedWorld_ready 512 promptScript
  have hown := responses_are_the_last hready (by decide) hrun List.mem_cons_self (.inl hrc)
  have hown' := responses_are_the_last hready (by decide) hrun
    (List.mem_cons_of_mem _ List.mem_cons_self) (.inr hrc')
  exact ⟨_, _, w', hrun, hown.2.mpr hfirst, hown'.2.mpr hsecond⟩

/-- A device that first is silent and then answers the same command twice: the second
answer, with the old ID, is taken for the response to the next command. -/
def shiftedScript : List (Option (List UInt8)) := [none, some [], some okResponse, some okResponse]

theorem responses_shifted : ∃ (first second : Event (List (Option (List UInt8))))
    (w' : World (List (Option (List UInt8)))),
    Run scripted (scriptedWorld 512 shiftedScript) [first, second] w' ∧ ¬second.OwnResponse := by
  obtain ⟨rc, v, hexec, hhow⟩ := run_of_returnsOn
    ((Operation.send getHandles).exec scripted 64) (scriptedWorld 512 shiftedScript)
    (fun rc v => returnsOn ((Operation.send getHandles).exec scripted 64) v fun rc' v' =>
      decide (rc' = 0 ∧ ptpGetLastTransactionId v'.r ≠ .ok (toInt32 v.r.transactionId.toNat)))
    (by decide +kernel)
  obtain ⟨rc', v', hexec', hhow'⟩ := run_of_returnsOn _ _ _ hhow
  obtain ⟨rfl, hother⟩ := of_decide_eq_true hhow'
  exact ⟨_, _, v', .operation hexec (.operation hexec' (.nil v')), fun hown => hother (hown (.inl rfl))⟩

end Libpict
