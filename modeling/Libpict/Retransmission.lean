import Libpict.Request

/-! # Retransmission

The receive loop reports an ignored command when its attempts are used up, and an
operation then sends its request once more. This repeats a request that the device
has begun to answer exactly if the read that follows the last attempt delivers: its
bytes are dropped, whatever they are.
-/

namespace Libpict

open Bytes CInt Exec PtpRuntime

variable {σ : Type} {B : Backend σ} {w : World σ} {fuel : Nat}

namespace BulkCall

variable (c : BulkCall B)

/-- The attempts are used up before round `k`, with an incomplete reply or none at all,
and its read succeeds. -/
structure LateAnswer (k : Nat) : Prop where
  room : ∀ j ≤ k, c.FitsAt j ∧ c.Allocates j
  waiting : ∀ j < k, c.quiet j < c.wait
  spent : c.quiet k = c.wait
  incomplete : ∀ j ≤ k, verdictOf (c.received j) = .more
  answered : c.results k ≠ none
  received : c.received (k + 1) ≠ []

/-- While attempts are left, a round goes on exactly if what it has received is an
incomplete reply. -/
theorem outcome_none_iff {k : Nat} (hincomplete : verdictOf (c.received k) = .more)
    (hwait : 1 ≤ c.wait) :
    c.outcome k = none ↔ c.quiet k < c.wait ∧ verdictOf (c.received (k + 1)) = .more := by
  by_cases hquiet : ReadStream.chunk c.results k = [] ∧ c.quiet k < c.wait
  · have hsame : c.received (k + 1) = c.received k := by
      rw [received_succ, hquiet.1, List.append_nil]
    rw [outcome, if_pos hquiet, hsame]
    exact ⟨fun _ => ⟨hquiet.2, hincomplete⟩, fun _ => rfl⟩
  · rw [outcome, if_neg hquiet]
    constructor
    · intro hnone
      split_ifs at hnone with hfailed hignored
      have hleft : c.quiet k < c.wait := by
        by_contra hspent
        exact hignored ⟨by omega, by omega⟩
      refine ⟨hleft, ?_⟩
      cases hverdict : verdictOf (c.received (k + 1)) with
      | more => rfl
      | done => rw [hverdict] at hnone; cases hnone
      | reject => rw [hverdict] at hnone; cases hnone
    · rintro ⟨hleft, hmore⟩
      have hchunk : ReadStream.chunk c.results k ≠ [] := fun hnil => hquiet ⟨hnil, hleft⟩
      have hread : c.results k ≠ none := by
        intro hnone
        rw [ReadStream.chunk, hnone] at hchunk
        exact hchunk rfl
      rw [if_neg hread, if_neg (by omega), hmore]

/-- Rounds that all went on received an incomplete reply with attempts left. -/
theorem goesOn_iff {k : Nat} (hwait : 1 ≤ c.wait) :
    (∀ j < k, c.GoesOn j) ↔ (∀ j < k, c.FitsAt j ∧ c.Allocates j) ∧
      (∀ j < k, c.quiet j < c.wait) ∧ ∀ j ≤ k, verdictOf (c.received j) = .more := by
  induction k with
  | zero =>
      simp only [Nat.not_lt_zero, false_implies, implies_true, Nat.le_zero, true_and, true_iff]
      rintro _ rfl
      rfl
  | succ k ih =>
      have hsucc : ∀ P : Nat → Prop, (∀ j < k + 1, P j) ↔ (∀ j < k, P j) ∧ P k := by
        intro P
        constructor
        · intro h
          exact ⟨fun j hj => h j (by omega), h k (by omega)⟩
        · rintro ⟨h, hk⟩ j hj
          rcases Nat.lt_succ_iff_lt_or_eq.mp hj with hlt | rfl
          · exact h j hlt
          · exact hk
      have hle : (∀ j ≤ k + 1, verdictOf (c.received j) = .more) ↔
          (∀ j ≤ k, verdictOf (c.received j) = .more) ∧
            verdictOf (c.received (k + 1)) = .more := by
        constructor
        · intro h
          exact ⟨fun j hj => h j (by omega), h _ le_rfl⟩
        · rintro ⟨h, hk⟩ j hj
          rcases Nat.le_succ_iff.mp hj with hlt | rfl
          · exact h j hlt
          · exact hk
      rw [hsucc, hsucc, hsucc, hle, ih]
      constructor
      · rintro ⟨⟨hroom, hwaiting, hmore⟩, hfits, hallocates, houtcome⟩
        obtain ⟨hleft, hnext⟩ := (c.outcome_none_iff (hmore k le_rfl) hwait).mp houtcome
        exact ⟨⟨hroom, hfits, hallocates⟩, ⟨hwaiting, hleft⟩, hmore, hnext⟩
      · rintro ⟨⟨hroom, hfits, hallocates⟩, ⟨hwaiting, hleft⟩, hmore, hnext⟩
        exact ⟨⟨hroom, hwaiting, hmore⟩, hfits, hallocates,
          (c.outcome_none_iff (hmore k le_rfl) hwait).mpr ⟨hleft, hnext⟩⟩

/-- A late answer is what makes the loop report an ignored command after bytes of a
reply. -/
theorem lateAnswer_iff {k : Nat} (hwait : 1 ≤ c.wait) : c.LateAnswer k ↔
    c.Stops k PtpGeneralError.commandIgnored ∧ c.received (k + 1) ≠ [] := by
  constructor
  · rintro ⟨hroom, hwaiting, hspent, hmore, hanswered, hreceived⟩
    have hgoesOn := (c.goesOn_iff hwait).mpr
      ⟨fun j hj => hroom j hj.le, hwaiting, hmore⟩
    obtain ⟨hfits, hallocates⟩ := hroom k le_rfl
    refine ⟨⟨hgoesOn, hfits, hallocates, ?_⟩, hreceived⟩
    rw [outcome, if_neg (by omega), if_neg hanswered, if_pos (by omega)]
  · rintro ⟨⟨hgoesOn, hfits, hallocates, houtcome⟩, hreceived⟩
    obtain ⟨hroom, hwaiting, hmore⟩ := (c.goesOn_iff hwait).mp hgoesOn
    unfold outcome at houtcome
    split_ifs at houtcome with hquiet hfailed hignored
    · exact absurd (Option.some.inj houtcome) (by decide)
    · refine ⟨fun j hj => ?_, hwaiting, ?_, hmore, hfailed, hreceived⟩
      · rcases hj.lt_or_eq with hlt | rfl
        · exact hroom j hlt
        · exact ⟨hfits, hallocates⟩
      · cases k with
        | zero =>
            rw [c.quiet_zero] at hignored
            omega
        | succ k =>
            have hlast := hwaiting k (Nat.lt_succ_self k)
            have hstep : c.quiet (k + 1) ≤ c.quiet k + 1 := ReadStream.quiet_succ_le k
            omega
    · cases hverdict : verdictOf (c.received (k + 1)) <;> rw [hverdict] at houtcome <;>
        cases houtcome

end BulkCall

/-! ## Writes after reads -/

/-- Every write between two worlds is made before the device has sent a byte. -/
def WritesBeforeReply (w w' : World σ) : Prop :=
  ∃ calls, w'.log = w.log ++ calls ∧ ∀ front endpoint bytes sent back,
    calls = front ++ .write endpoint bytes sent :: back → readBytes front = []

/-- The calls between two worlds receive nothing until only reads follow. -/
def RepliesLast (w w' : World σ) : Prop :=
  ∃ silent reads, w'.log = w.log ++ (silent ++ reads) ∧ readBytes silent = [] ∧
    ∀ call ∈ reads, call.isWrite = false

theorem RepliesLast.writesBeforeReply {w w' : World σ} (hreplies : RepliesLast w w') :
    WritesBeforeReply w w' := by
  obtain ⟨silent, reads, hlog, hsilent, hreads⟩ := hreplies
  refine ⟨silent ++ reads, hlog, ?_⟩
  intro front endpoint bytes sent back hsplit
  rcases List.append_eq_append_iff.mp hsplit with ⟨middle, hfront, hreads'⟩ | ⟨middle, hsilent', _⟩
  · -- the write would be among the reads
    have hwrite := hreads (.write endpoint bytes sent) (by rw [hreads']; simp)
    cases hwrite
  · rw [hsilent', readBytes_append] at hsilent
    exact (List.append_eq_nil_iff.mp hsilent).1

theorem RepliesLast.of_log {w w' w'' : World σ} (hreplies : RepliesLast w w')
    (hlog : w''.log = w'.log) : RepliesLast w w'' := by
  obtain ⟨silent, reads, hcalls, hrest⟩ := hreplies
  exact ⟨silent, reads, hlog.trans hcalls, hrest⟩

theorem RepliesLast.refl (w : World σ) : RepliesLast w w := ⟨[], [], by simp, rfl, by simp⟩

/-- Writes may follow if nothing has been received yet. -/
theorem RepliesLast.logs {w w' w'' : World σ} {calls : List Call} (hlog : w'.log = w.log ++ calls)
    (hsilent : readBytes calls = []) (hwrites : Logs true w' w'') : RepliesLast w w'' := by
  obtain ⟨writes, hcalls, hall⟩ := hwrites
  refine ⟨calls ++ writes, [], ?_, ?_, by simp⟩
  · rw [hcalls, hlog, List.append_nil, List.append_assoc]
  · rw [readBytes_append, hsilent, readBytes_of_writes hall, List.append_nil]

/-- An attempt that starts before anything has been received ends with reads only. -/
theorem attemptOf_repliesLast {transmission : M σ Bool} (hsends : Moves Sends transmission)
    {w₀ : World σ} {calls : List Call} (hlog : w₀.log = w.log ++ calls)
    (hsilent : readBytes calls = []) :
    EndsIn (attemptOf B fuel transmission) w₀ (RepliesLast w) := by
  refine Ends.bind ((hsends w₀).mono (fun done sent h => ?_) fun _ v h => .logs hlog hsilent h.1)
  cases done with
  | false => exact .ok rfl (.logs hlog hsilent h.1)
  | true =>
      obtain ⟨writes, hwrites, hall⟩ := h.1
      have hreplies : ∀ v, OnlyReads sent v → RepliesLast w v := by
        rintro v ⟨⟨reads, hreads, hreadsAll⟩, _⟩
        refine ⟨calls ++ writes, reads, ?_, ?_, hreadsAll⟩
        · rw [hreads, hwrites, hlog]
          simp only [List.append_assoc]
        · rw [readBytes_append, hsilent, readBytes_of_writes hall, List.append_nil]
      exact (receiveReply_onlyReads B fuel sent).mono (fun _ v h => hreplies v h)
        (fun _ v h => hreplies v h)

/-! ## Operations -/

/-- The first attempt of an operation transmits its request completely, and a late
answer to it arrives. -/
def AnswersLate (B : Backend σ) (fuel : Nat) (prepare : M σ Unit) (transmission : M σ Bool)
    (w : World σ) : Prop :=
  w.r.operationKillSwitch = false ∧ ∃ w₀ sent, prepare (locked w) = .ok () w₀ ∧
    transmission w₀ = .ok true sent ∧
    ∃ c : BulkCall B, c.start = sent ∧ ∃ k < fuel, c.LateAnswer k

/-- An attempt is ignored only by its receive. -/
theorem sent_of_ignored {transmission : M σ Bool} {w v : World σ}
    (hattempt : attemptOf B fuel transmission w = .ok PtpGeneralError.commandIgnored v) :
    ∃ sent, transmission w = .ok true sent ∧
      receiveReply B fuel sent = .ok PtpGeneralError.commandIgnored v := by
  obtain ⟨done, sent, hsent, hreceive⟩ := bind_eq_ok.mp hattempt
  cases done with
  | true => exact ⟨sent, hsent, hreceive⟩
  | false => cases hreceive

/-! ## The second transmission -/

/-- The first call between two worlds is a write. -/
def WritesFirst (w w' : World σ) : Prop :=
  ∃ endpoint bytes sent rest, w'.log = w.log ++ .write endpoint bytes sent :: rest

theorem WritesFirst.extends {w w' w'' : World σ} (hwrites : WritesFirst w w')
    (hextends : Extends w' w'') : WritesFirst w w'' := by
  obtain ⟨endpoint, bytes, sent, rest, hlog⟩ := hwrites
  obtain ⟨more, hmore⟩ := hextends
  exact ⟨endpoint, bytes, sent, rest ++ more, by rw [← hmore, hlog]; simp⟩

section Second

variable {buffer : Buffer} {endpoint : Endpoint} (hdata : w.r.data = some buffer)
  (hendpoint : bulkEndpoint w.r.connectionType = some endpoint) (hpacket : 0 ≤ w.r.maxPacketSize)

include hdata hendpoint hpacket

/-- The send loop of a packet in the buffer makes a write at once. -/
theorem ptpSendPacket_writesFirst {length : Nat} (hlength : length ≤ buffer.size) :
    EndsIn (ptpSendPacket B (fuel + 1) length) w (WritesFirst w) := by
  obtain ⟨max, hmax⟩ : ∃ max : Nat, (max : Int) =
      if (length : Int) - (0 : Nat) > w.r.maxPacketSize then w.r.maxPacketSize
      else length - (0 : Nat) := by
    refine ⟨(if (length : Int) - (0 : Nat) > w.r.maxPacketSize then w.r.maxPacketSize
      else length - (0 : Nat)).toNat, Int.toNat_of_nonneg ?_⟩
    split_ifs <;> omega
  have hmax_le : 0 + max ≤ buffer.size := by split_ifs at hmax <;> omega
  have hbody : EndsIn (ptpSendPacketBody B length 0) w (WritesFirst w) := by
    unfold ptpSendPacketBody
    refine Ends.congr ?_ (bind_ok (runtime_run w))
    rw [← hmax, hendpoint]
    refine Ends.congr ?_ (bind_ok (cmdWrite_ok hdata endpoint 0 max hmax_le))
    cases (B.cmdWrite endpoint (buffer.slice 0 max) w.device).1 with
    | none => exact .ok rfl ⟨_, _, _, [], rfl⟩
    | some count =>
        dsimp only
        split_ifs
        · exact .error rfl ⟨_, _, _, [], rfl⟩
        · exact .ok rfl ⟨_, _, _, [], rfl⟩
        · exact .ok rfl ⟨_, _, _, [], rfl⟩
  refine Ends.bind (hbody.mono (fun r v h => ?_) fun _ _ h => h)
  cases r with
  | inr sent => exact .ok rfl h
  | inl sent =>
      have hrest : Moves OnlyWrites (iterate Halt.spent (ptpSendPacketBody B length) fuel sent) :=
        Moves.iterate (fun sent => ptpSendPacketBody_onlyWrites B length sent) fuel sent
      exact (hrest v).mono (fun _ _ h' => h.extends h'.sends.extends)
        (fun _ _ h' => h.extends h'.sends.extends)

theorem transmitCmd_writesFirst (hsize : 32 ≤ buffer.size) (cmd : PtpCommand) :
    EndsIn (transmitCmd B (fuel + 1) cmd) w (WritesFirst w) := by
  have hle := cmd.paramLength_le
  have hbuild := ptpNewCmdPacket_ok hdata cmd hendpoint hsize
  refine Ends.congr (Ends.bind (Ends.mono (ptpSendPacket_writesFirst (B := B)
    (w := { w with r := { w.r with
      data := some (buffer.store 0 (commandContainer cmd w.r.transactionId)) } }) rfl hendpoint hpacket
    ?_) (fun _ _ h => .ok rfl h) fun _ _ h => h)) (bind_ok hbuild)
  rw [Buffer.store_size]
  omega

theorem transmitData_writesFirst (hsize : 32 ≤ buffer.size) (cmd : PtpCommand)
    (data : List UInt8) : EndsIn (transmitData B (fuel + 1) cmd data) w (WritesFirst w) := by
  refine Ends.bind ((transmitCmd_writesFirst hdata hendpoint hpacket hsize cmd).mono
    (fun done v h => ?_) fun _ _ h => h)
  cases done with
  | false => exact .ok rfl h
  | true =>
      have hrest : Moves Sends (transmit B (fuel + 1) (ptpusbNewDataPacket cmd data)) :=
        transmit_sends (ptpusbNewDataPacket_sends cmd data)
      exact (hrest v).mono (fun _ _ h' => h.extends h'.extends) (fun _ _ h' => h.extends h'.extends)

end Second

/-! ## Operations and late answers -/

/-- A world in which an operation has got as far as sending its packets. -/
structure Prepared (w w₀ : World σ) : Prop where
  buffer : ∃ buffer, w₀.r.data = some buffer ∧ 32 ≤ buffer.size ∧
    w₀.r.dataLength = toInt32 buffer.size ∧ (buffer.size : Int) ≤ intMax + 100
  connectionType : w₀.r.connectionType = w.r.connectionType
  packet : w.r.Resized w₀.r
  responseWaitDefault : w₀.r.responseWaitDefault = w.r.responseWaitDefault

theorem Prepared.sends {w w₀ sent : World σ} (hprepared : Prepared w w₀) (hsends : Sends w₀ sent) :
    Prepared w sent := by
  obtain ⟨⟨buffer, hdata, hsize, hlength, hbound⟩, hconn, hpacket, hwait⟩ := hprepared
  obtain ⟨_, hr, hsame, hpacket'⟩ := hsends
  rw [hdata, Option.map_some, Option.map_eq_some_iff] at hsame
  obtain ⟨buffer', hdata', hsize'⟩ := hsame
  refine ⟨⟨buffer', hdata', by omega, ?_, by omega⟩, ?_, ?_, ?_⟩
  · rw [hr, hsize']
    exact hlength
  · rw [hr]
    exact hconn
  · exact trans_of PtpRuntime.Resized hpacket hpacket'
  · rw [hr]
    exact hwait

section Late

variable {endpoint : Endpoint} (hendpoint : bulkEndpoint w.r.connectionType = some endpoint)
  (hpacket : 0 ≤ w.r.maxPacketSize) (hpacket_le : w.r.maxPacketSize ≤ intMax)
  (hwait : 1 ≤ w.r.responseWaitDefault)

include hendpoint hpacket hpacket_le hwait

theorem Prepared.bulkCall {sent v : World σ} (hprepared : Prepared w sent)
    (hignored : receiveReply B fuel sent = .ok PtpGeneralError.commandIgnored v) :
    ∃ c : BulkCall B, c.start = sent ∧ 1 ≤ c.wait ∧
      c.run fuel = .ok PtpGeneralError.commandIgnored v := by
  obtain ⟨⟨buffer, hdata, _, hlength, hbound⟩, hconn, hsame, hdefault⟩ := hprepared
  obtain ⟨c, rfl, hrun⟩ := bulkCall_of_ignored fuel (by rw [hconn]; exact hendpoint) hdata hlength
    hbound (hsame.nonneg hpacket) (hsame.le hpacket_le (by decide)) hignored
  refine ⟨c, rfl, ?_, hrun⟩
  rw [BulkCall.wait, hdefault]
  exact hwait

/-- Without a late answer, nothing is written after the first byte of a reply. -/
theorem writesBeforeReply_of_not_late {prepare : M σ Unit} {transmission : M σ Bool}
    (hprepare : Moves (fun w w' : World σ => w'.log = w.log) prepare)
    (hsends : Moves Sends transmission)
    (hprepared : ∀ w₀ sent, prepare (locked w) = .ok () w₀ → transmission w₀ = .ok true sent →
      Prepared w sent)
    (hlate : ¬AnswersLate B fuel prepare transmission w) :
    EndsIn (ptpTransaction prepare (attemptOf B fuel transmission)) w (WritesBeforeReply w) := by
  by_cases hkill : w.r.operationKillSwitch = true
  · exact .ok (ptpTransaction_refused hkill) (RepliesLast.refl w).writesBeforeReply
  rw [Bool.not_eq_true] at hkill
  suffices hreplies : EndsIn (ptpTransaction prepare (attemptOf B fuel transmission)) w
      (RepliesLast w) from
    hreplies.mono (fun _ _ h => h.writesBeforeReply) (fun _ _ h => h.writesBeforeReply)
  refine Ends.congr ?_ (ptpTransaction_run hkill)
  have hrefl : ∀ v : World σ, v.log = w.log → RepliesLast w v := fun v h =>
    (RepliesLast.refl w).of_log h
  cases hrun : prepare (locked w) with
  | error reason w₀ => exact .error (bind_error hrun) (hrefl w₀ ((hprepare (locked w)).of_error hrun))
  | ok _ w₀ =>
      have hlog : w₀.log = w.log ++ [] := by
        rw [List.append_nil]
        exact (hprepare (locked w)).of_ok hrun
      refine Ends.congr ?_ (bind_ok hrun)
      have hfirst : EndsIn (attemptOf B fuel transmission) w₀ (RepliesLast w) :=
        attemptOf_repliesLast hsends hlog rfl
      cases hattempt : attemptOf B fuel transmission w₀ with
      | error reason v => exact .error (bind_error hattempt) (hfirst.of_error hattempt)
      | ok rc v =>
          refine Ends.congr ?_ (bind_ok hattempt)
          by_cases hrc : rc = PtpGeneralError.commandIgnored
          · subst hrc
            obtain ⟨sent, hsent, hreceive⟩ := sent_of_ignored hattempt
            obtain ⟨c, hstart, hwait', hreturns⟩ := (hprepared w₀ sent hrun hsent).bulkCall hendpoint
              hpacket hpacket_le hwait hreceive
            obtain ⟨n, hn, hstops, hat⟩ := c.stops_of_run hreturns (by decide)
            have hsilent : c.received (n + 1) = [] := by
              by_contra hreceived
              exact hlate ⟨hkill, w₀, sent, hrun, hsent, c, hstart, n, hn,
                (c.lateAnswer_iff hwait').mpr ⟨hstops, hreceived⟩⟩
            obtain ⟨writes, hwrites, hall⟩ := ((hsends w₀).of_ok hsent).1
            have hcalls : v.log = w.log ++ (writes ++ c.calls (n + 1)) := by
              rw [hat.log, hstart, hwrites, hlog, List.append_nil, List.append_assoc]
            have hnothing : readBytes (writes ++ c.calls (n + 1)) = [] := by
              rw [readBytes_append, readBytes_of_writes hall, c.readBytes_calls, hsilent,
                List.append_nil]
            exact afterAttempt_ignored (attemptOf_repliesLast hsends hcalls hnothing)
              fun _ _ h h' => h.of_log h'
          · have hreplies := hfirst.of_ok hattempt
            exact (afterAttempt_log hrc v).mono (fun _ _ h => hreplies.of_log h)
              (fun _ _ h => hreplies.of_log h)

omit hpacket hpacket_le in
/-- After a late answer, the request is written once more. -/
theorem repeats_of_late {prepare : M σ Unit} {transmission : M σ Bool}
    (hprepare : Moves (fun w w' : World σ => w'.log = w.log) prepare)
    (hsends : Moves Sends transmission)
    (hprepared : ∀ w₀ sent, prepare (locked w) = .ok () w₀ → transmission w₀ = .ok true sent →
      Prepared w sent)
    (hwrites : ∀ (v : World σ) (buffer : Buffer), v.r.data = some buffer →
      bulkEndpoint v.r.connectionType = some endpoint → 0 ≤ v.r.maxPacketSize → 32 ≤ buffer.size →
        0 < fuel → EndsIn transmission v (WritesFirst v))
    (hlate : AnswersLate B fuel prepare transmission w) :
    EndsIn (ptpTransaction prepare (attemptOf B fuel transmission)) w
      (fun v => ¬WritesBeforeReply w v) := by
  obtain ⟨hkill, w₀, sent, hrun, hsent, c, rfl, k, hk, hanswer⟩ := hlate
  obtain ⟨⟨buffer, hdata, hsize, _, _⟩, hconn, hsame, hdefault⟩ := hprepared w₀ _ hrun hsent
  have hendpoint' : bulkEndpoint c.start.r.connectionType = some endpoint := by
    rw [hconn]
    exact hendpoint
  have hbuffer : c.buffer = buffer := Option.some.inj (c.data.symm.trans hdata)
  have hwait' : 1 ≤ c.wait := by
    rw [BulkCall.wait, hdefault]
    exact hwait
  -- the first attempt ends as an ignored command, although it has received something
  obtain ⟨hstops, hreceived⟩ := (c.lateAnswer_iff hwait').mp hanswer
  obtain ⟨v, hat, hreturns⟩ := c.run_stops hstops
  have hreceive : receiveReply B fuel c.start = .ok PtpGeneralError.commandIgnored v :=
    (receiveReply_ignored hendpoint').mpr (hreturns fuel hk)
  have hattempt : attemptOf B fuel transmission w₀ = .ok PtpGeneralError.commandIgnored v := by
    unfold attemptOf
    rw [bind_ok hsent, if_pos rfl]
    exact hreceive
  obtain ⟨writes, hcalls, _⟩ := ((hsends w₀).of_ok hsent).1
  have hlog : v.log = w.log ++ (writes ++ c.calls (k + 1)) := by
    rw [hat.log, hcalls, (hprepare (locked w)).of_ok hrun, List.append_assoc]
    rfl
  -- the second attempt starts with a write
  obtain ⟨buffer', hsize', _, hr⟩ := hat.runtime
  have hroom : 32 ≤ buffer'.size := by
    have hmono : c.capacity 0 ≤ c.capacity (k + 1) := c.capacity_mono (Nat.zero_le _)
    rw [BulkCall.capacity, hbuffer] at hmono
    omega
  have hfirst : EndsIn transmission v (WritesFirst v) := by
    refine hwrites v buffer' (by rw [hr]) ?_ ?_ hroom (Nat.zero_lt_of_lt hk)
    · rw [hr]
      exact hendpoint'
    · rw [c.maxPacketSize_at hat]
      exact Int.natCast_nonneg _
  have hsecond : EndsIn (attemptOf B fuel transmission) v (WritesFirst v) := by
    refine Ends.bind (hfirst.mono (fun done u h => ?_) fun _ _ h => h)
    split
    · exact (receiveReply_onlyReads B fuel u).mono (fun _ _ h' => h.extends h'.extends)
        (fun _ _ h' => h.extends h'.extends)
    · exact .pure h
  have hrepeats : EndsIn (afterAttempt (attemptOf B fuel transmission)
      PtpGeneralError.commandIgnored) v (WritesFirst v) := by
    refine afterAttempt_ignored hsecond ?_
    rintro u u' ⟨endpoint, bytes, count, rest, hu⟩ hlog
    exact ⟨endpoint, bytes, count, rest, hlog.trans hu⟩
  have hnot : ∀ u, WritesFirst v u → ¬WritesBeforeReply w u := by
    rintro u ⟨endpoint, bytes, count, rest, hu⟩ ⟨calls, hcalls', hbefore⟩
    have hsplit : calls = writes ++ c.calls (k + 1) ++ .write endpoint bytes count :: rest := by
      apply @List.append_cancel_left _ w.log
      rw [← hcalls', hu, hlog, List.append_assoc]
    have hnil := hbefore _ endpoint bytes count rest hsplit
    rw [readBytes_append, c.readBytes_calls] at hnil
    exact hreceived (List.append_eq_nil_iff.mp hnil).2
  refine Ends.congr ?_ (ptpTransaction_run hkill)
  refine Ends.congr ?_ ((bind_ok hrun).trans (bind_ok hattempt))
  exact hrepeats.mono (fun _ u h => hnot u h) (fun _ u h => hnot u h)

end Late

/-! ## The two operations -/

/-- An operation whose transmission starts with a write and needs an endpoint repeats
its request after the first byte of a reply exactly if the reply is late. -/
theorem writesBeforeReply_iff {prepare : M σ Unit} {transmission : M σ Bool}
    (hpacket : 0 ≤ w.r.maxPacketSize) (hpacket_le : w.r.maxPacketSize ≤ intMax)
    (hwait : 1 ≤ w.r.responseWaitDefault) (hprepare : Moves Silent prepare)
    (hsends : Moves Sends transmission)
    (hprepared : ∀ w₀ sent, prepare (locked w) = .ok () w₀ → transmission w₀ = .ok true sent →
      Prepared w sent)
    (hnoEndpoint : ∀ v, bulkEndpoint v.r.connectionType = none →
      ∃ reason v', transmission v = .error reason v' ∧ v'.log = v.log)
    (hwrites : ∀ endpoint (v : World σ) (buffer : Buffer), v.r.data = some buffer →
      bulkEndpoint v.r.connectionType = some endpoint → 0 ≤ v.r.maxPacketSize → 32 ≤ buffer.size →
        0 < fuel → EndsIn transmission v (WritesFirst v)) :
    EndsIn (ptpTransaction prepare (attemptOf B fuel transmission)) w (WritesBeforeReply w) ↔
      ¬AnswersLate B fuel prepare transmission w := by
  have hlog : Moves (fun w w' : World σ => w'.log = w.log) prepare :=
    hprepare.mono fun _ _ h => h.1
  cases hendpoint : bulkEndpoint w.r.connectionType with
  | none =>
      have hunsent : ∀ w₀, prepare (locked w) = .ok () w₀ →
          ∃ reason v, transmission w₀ = .error reason v ∧ v.log = w.log := by
        intro w₀ hrun
        obtain ⟨hsilent, hsame⟩ := (hprepare (locked w)).of_ok hrun
        obtain ⟨reason, v, hsend, hv⟩ := hnoEndpoint w₀ (by rw [hsame]; exact hendpoint)
        exact ⟨reason, v, hsend, hv.trans hsilent⟩
      have hnever : ¬AnswersLate B fuel prepare transmission w := by
        rintro ⟨_, w₀, sent, hrun, hsent, _⟩
        obtain ⟨reason, v, hsend, _⟩ := hunsent w₀ hrun
        rw [hsend] at hsent
        cases hsent
      have hsilent : ∀ v : World σ, v.log = w.log → WritesBeforeReply w v := fun v h =>
        ((RepliesLast.refl w).of_log h).writesBeforeReply
      refine iff_of_true ?_ hnever
      by_cases hkill : w.r.operationKillSwitch = true
      · exact .ok (ptpTransaction_refused hkill) (hsilent w rfl)
      rw [Bool.not_eq_true] at hkill
      refine Ends.congr (Ends.bind ?_) (ptpTransaction_run hkill)
      cases hrun : prepare (locked w) with
      | error reason w₀ => exact .error hrun (hsilent w₀ ((hlog (locked w)).of_error hrun))
      | ok _ w₀ =>
          obtain ⟨reason, v, hsend, hv⟩ := hunsent w₀ hrun
          exact .ok hrun (.error (bind_error (bind_error hsend)) (hsilent v hv))
  | some endpoint =>
      constructor
      · intro hbefore hlate
        obtain ⟨v, hv, hnot⟩ := hbefore.meet
          (repeats_of_late hendpoint hwait hlog hsends hprepared (hwrites endpoint) hlate)
        exact hnot hv
      · exact writesBeforeReply_of_not_late hendpoint hpacket hpacket_le hwait hlog hsends hprepared

section Operations

variable {buffer : Buffer} (hready : w.r.Ready buffer) (hpacket : 0 ≤ w.r.maxPacketSize)
  (hpacket_le : w.r.maxPacketSize ≤ intMax) (hwait : 1 ≤ w.r.responseWaitDefault)
  (cmd : PtpCommand)

include hready hpacket hpacket_le hwait

theorem ptpSend_writesBeforeReply : EndsIn (ptpSend B fuel cmd) w (WritesBeforeReply w) ↔
    ¬AnswersLate B fuel (updateRuntime fun r => { r with dataPhaseLength := 0 })
      (transmitCmd B fuel cmd) w := by
  obtain ⟨hdata, hlength, hsize, hdefault⟩ := hready
  have hroom : 32 ≤ buffer.size := le_trans (by decide) hdefault
  unfold ptpSend
  rw [ptpSendTry_eq]
  refine writesBeforeReply_iff hpacket hpacket_le hwait (fun v => .ok rfl ⟨rfl, rfl⟩)
    (transmitCmd_sends cmd) ?_ (fun v hnone => transmitCmd_noEndpoint hnone fuel cmd) ?_
  · rintro w₀ sent ⟨⟩ hsent
    have hprepared : Prepared w { locked w with
        r := { (locked w).r with dataPhaseLength := 0 } } := by
      refine ⟨⟨buffer, hdata, hroom, ?_, by omega⟩, rfl, .inl rfl, rfl⟩
      rw [toInt32_of_fits ⟨by omega, hsize⟩]
      exact hlength
    exact hprepared.sends ((transmitCmd_sends cmd).of_ok hsent)
  · intro endpoint v buffer' hdata' hendpoint hpacket' hsize' hfuel
    obtain ⟨fuel, rfl⟩ := Nat.exists_eq_succ_of_ne_zero hfuel.ne'
    exact transmitCmd_writesFirst hdata' hendpoint hpacket' hsize' cmd

theorem ptpSendData_writesBeforeReply (data : List UInt8) :
    EndsIn (ptpSendData B fuel cmd data) w (WritesBeforeReply w) ↔
      ¬AnswersLate B fuel (prepareData B data) (transmitData B fuel cmd data) w := by
  have hdefault := hready.2.2.2
  have hnoEndpoint : ∀ v : World σ, bulkEndpoint v.r.connectionType = none →
      ∃ reason v', transmitData B fuel cmd data v = .error reason v' ∧ v'.log = v.log := by
    intro v hnone
    obtain ⟨reason, v', hsend, hlog⟩ := transmitCmd_noEndpoint (B := B) hnone fuel cmd
    exact ⟨reason, v', bind_error hsend, hlog⟩
  by_cases hip : w.r.connectionType = .ip
  · have hnone : bulkEndpoint w.r.connectionType = none := by rw [hip]; rfl
    refine iff_of_true ?_ ?_
    · have hsilent := ptpSendData_noEndpoint (B := B) hnone fuel cmd data
      have hbefore : ∀ v : World σ, v.log = w.log → WritesBeforeReply w v := fun v h =>
        ((RepliesLast.refl w).of_log h).writesBeforeReply
      exact hsilent.mono (fun _ v h => hbefore v h) (fun _ v h => hbefore v h)
    · rintro ⟨_, w₀, sent, hrun, hsent, _⟩
      obtain ⟨_, hsame⟩ := (prepareData_silent B data).of_ok hrun
      obtain ⟨reason, v, hsend, _⟩ := hnoEndpoint w₀ (by rw [hsame]; exact hnone)
      rw [hsend] at hsent
      cases hsent
  have hrun : ptpSendData B fuel cmd data w = ptpTransaction (prepareData B data)
      (attemptOf B fuel (transmitData B fuel cmd data)) w := ptpSendData_eq cmd data hip
  have hsame : EndsIn (ptpSendData B fuel cmd data) w (WritesBeforeReply w) ↔
      EndsIn (ptpTransaction (prepareData B data)
        (attemptOf B fuel (transmitData B fuel cmd data))) w (WritesBeforeReply w) :=
    ⟨fun h => h.congr hrun.symm, fun h => h.congr hrun⟩
  rw [hsame]
  refine writesBeforeReply_iff hpacket hpacket_le hwait (prepareData_silent B data)
    (transmitData_sends cmd data) ?_ hnoEndpoint ?_
  · intro w₀ sent hprepare hsent
    by_cases hfits : DataFits B w data.length
    · obtain ⟨first, v, hv, hr, _, _, hgrown, _, hbound, _⟩ :=
        prepareData_ok (w := locked w) hready data hfits
      obtain ⟨_, rfl⟩ := EStateM.Result.ok.inj (hprepare.symm.trans hv)
      have hprepared : Prepared w w₀ := by
        refine ⟨⟨first, by rw [hr], ?_, by rw [hr], hbound⟩, ?_, ?_, ?_⟩
        · exact le_trans (le_trans (by decide) hdefault) hgrown
        · rw [hr]; rfl
        · rw [hr]; exact .inl rfl
        · rw [hr]; rfl
      exact hprepared.sends ((transmitData_sends cmd data).of_ok hsent)
    · -- no buffer is left, so nothing can have been transmitted
      rcases prepareData_unfit (w := locked w) hready data hfits with
        ⟨v, hv, hdata, _⟩ | ⟨reason, v, hv, _⟩
      · obtain ⟨_, rfl⟩ := EStateM.Result.ok.inj (hprepare.symm.trans hv)
        obtain ⟨reason, hsend⟩ := transmitCmd_noBuffer (B := B) fuel hdata cmd
        have hnot : transmitData B fuel cmd data w₀ = .error reason w₀ := bind_error hsend
        rw [hnot] at hsent
        cases hsent
      · rw [hv] at hprepare
        cases hprepare
  · intro endpoint v buffer' hdata' hendpoint hpacket' hsize' hfuel
    obtain ⟨fuel, rfl⟩ := Nat.exists_eq_succ_of_ne_zero hfuel.ne'
    exact transmitData_writesFirst hdata' hendpoint hpacket' hsize' cmd data

end Operations

/-- A call that reports an ignored command has received nothing, and an operation does
not repeat its request after the first byte of a reply, exactly if no answer is late. -/
theorem retransmission_iff_late :
    (∀ c : BulkCall B, 1 ≤ c.wait →
      ((∀ fuel w', c.run fuel = .ok PtpGeneralError.commandIgnored w' →
          ∃ calls, w'.log = c.start.log ++ calls ∧ readBytes calls = []) ↔
        ¬∃ k, c.LateAnswer k)) ∧
    ∀ (w : World σ) (buffer : Buffer), w.r.Ready buffer → 0 ≤ w.r.maxPacketSize →
      w.r.maxPacketSize ≤ intMax → 1 ≤ w.r.responseWaitDefault →
      ∀ (fuel : Nat) (cmd : PtpCommand) (data : List UInt8),
        (EndsIn (ptpSend B fuel cmd) w (WritesBeforeReply w) ↔
          ¬AnswersLate B fuel (updateRuntime fun r => { r with dataPhaseLength := 0 })
            (transmitCmd B fuel cmd) w) ∧
        (EndsIn (ptpSendData B fuel cmd data) w (WritesBeforeReply w) ↔
          ¬AnswersLate B fuel (prepareData B data) (transmitData B fuel cmd data) w) := by
  constructor
  · intro c hwait
    constructor
    · rintro hnothing ⟨k, hlate⟩
      obtain ⟨hstops, hreceived⟩ := (c.lateAnswer_iff hwait).mp hlate
      obtain ⟨w', hat, hruns⟩ := c.run_stops hstops
      obtain ⟨calls, hcalls, hread⟩ := hnothing (k + 1) w' (hruns _ (Nat.lt_succ_self k))
      rw [hat.log] at hcalls
      rw [← List.append_cancel_left hcalls, c.readBytes_calls] at hread
      exact hreceived hread
    · intro hnever fuel w' hrun
      obtain ⟨n, _, hstops, hat⟩ := c.stops_of_run hrun (by decide)
      refine ⟨c.calls (n + 1), hat.log, ?_⟩
      rw [c.readBytes_calls]
      by_contra hreceived
      exact hnever ⟨n, (c.lateAnswer_iff hwait).mpr ⟨hstops, hreceived⟩⟩
  · intro w buffer hready hpacket hpacket_le hwait fuel cmd data
    exact ⟨ptpSend_writesBeforeReply hready hpacket hpacket_le hwait cmd,
      ptpSendData_writesBeforeReply hready hpacket hpacket_le hwait cmd data⟩

/-- A device that answers at once. -/
theorem retransmission_iff_late_prompt :
    (∀ fuel w', (scriptedCall 512 [some okResponse]).run fuel =
        .ok PtpGeneralError.commandIgnored w' →
      ∃ calls, w'.log = (scriptedCall 512 [some okResponse]).start.log ++ calls ∧
        readBytes calls = []) ∧
    ¬AnswersLate scripted 4 (updateRuntime fun r => { r with dataPhaseLength := 0 })
      (transmitCmd scripted 4 getHandles) (scriptedWorld 512 [some okResponse]) := by
  have hready := scriptedWorld_ready 512 [some okResponse]
  constructor
  · refine (retransmission_iff_late.1 _ (by decide)).mpr ?_
    rintro ⟨k, hlate⟩
    cases k with
    | zero => exact absurd hlate.spent (by decide)
    | succ k => exact absurd (hlate.incomplete 1 (Nat.succ_le_succ (Nat.zero_le k))) (by decide)
  · refine (retransmission_iff_late.2 _ _ hready (by decide) (by decide) (by decide) 4 getHandles
      []).1.mp ?_
    have hlog : (final (ptpSend scripted 4 getHandles (scriptedWorld 512 [some okResponse]))).log =
        [.write .usb (commandContainer getHandles 0) (some 20),
          .read .usb 0 512 1000000 (some okResponse)] := by decide +kernel
    refine endsIn_iff_final.mpr (RepliesLast.writesBeforeReply ?_)
    refine ⟨[_], [_], hlog, rfl, ?_⟩
    intro call hcall
    rw [List.mem_singleton.mp hcall]
    rfl

/-- A device that fails one read and then answers: with one attempt, as `ptp_reset`
sets it, the reply is dropped and the command sent again. -/
theorem ptpSend_repeats_after_reply :
    (∃ w', (scriptedCall 512 [none, some okResponse]).run 2 =
        .ok PtpGeneralError.commandIgnored w' ∧
      ∀ calls, w'.log = (scriptedCall 512 [none, some okResponse]).start.log ++ calls →
        readBytes calls = okResponse) ∧
    ¬EndsIn (ptpSend scripted 4 getHandles) (scriptedWorld 512 [none, some okResponse])
      (WritesBeforeReply (scriptedWorld 512 [none, some okResponse])) := by
  constructor
  · have hstops : (scriptedCall 512 [none, some okResponse]).Stops 1
        PtpGeneralError.commandIgnored :=
      ⟨by decide, by decide, by decide, by decide⟩
    obtain ⟨w', hat, hrun⟩ := BulkCall.run_stops _ hstops
    refine ⟨w', hrun 2 (by decide), fun calls hcalls => ?_⟩
    rw [hat.log] at hcalls
    rw [← List.append_cancel_left hcalls, BulkCall.readBytes_calls]
    decide
  · have hlog : (final (ptpSend scripted 4 getHandles
        (scriptedWorld 512 [none, some okResponse]))).log =
        [.write .usb (commandContainer getHandles 0) (some 20), .read .usb 0 512 1000000 none,
          .read .usb 0 512 1000000 (some okResponse),
          .write .usb (commandContainer getHandles 0) (some 20), .read .usb 0 512 1000000 (some []),
          .read .usb 0 512 1000000 (some [])] := by decide +kernel
    intro hends
    obtain ⟨calls, hcalls, hbefore⟩ := endsIn_iff_final.mp hends
    rw [hlog] at hcalls
    have hread := hbefore [_, _, _] _ _ _ _ hcalls.symm
    exact absurd hread (by decide)

end Libpict
