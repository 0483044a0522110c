import Libpict.BulkReceive
import Libpict.Transmission

/-! # Transactions

How an operation runs under the mutex: what is prepared, what has been written when
the reply is first waited for, and when the request is sent again.
-/

namespace Libpict

open Bytes CInt Exec PtpRuntime

variable {σ : Type} {B : Backend σ} {w : World σ} {fuel : Nat}

/-! ## Under the mutex -/

/-- The world of a transaction that holds the mutex. -/
def locked (w : World σ) : World σ := { w with r := { w.r with mutex := w.r.mutex.map (· + 1) } }

theorem ptpTransaction_refused {prepare : M σ Unit} {attempt : M σ Int}
    (hkill : w.r.operationKillSwitch = true) :
    ptpTransaction prepare attempt w = .ok PtpGeneralError.ioErr w := by
  unfold ptpTransaction
  rw [bind_ok (runtime_run w), if_pos hkill]
  rfl

theorem ptpTransaction_run {prepare : M σ Unit} {attempt : M σ Int}
    (hkill : w.r.operationKillSwitch = false) :
    ptpTransaction prepare attempt w = (prepare >>= fun _ => attemptTwice attempt) (locked w) := by
  have hkill' : (locked w).r.operationKillSwitch = false := hkill
  unfold ptpTransaction
  rw [bind_ok (runtime_run w), hkill, if_neg (by simp),
    bind_ok (show ptpMutexLock w = .ok () (locked w) from rfl), bind_ok (runtime_run _), hkill',
    if_neg (by simp)]

/-! ## Preparing the data phase -/

/-- The sizes that `ptp_send_data` computes fit in an `int`, and the allocator has the
memory if the buffer has to grow. -/
def DataFits (B : Backend σ) (w : World σ) (length : Nat) : Prop :=
  (length + 50 : Int) ≤ intMax ∧ ((length + 50 : Int) ≤ w.r.dataLength ∨
    ((length + 100 : Int) ≤ intMax ∧ B.realloc w.reallocs (length + 200) = true))

/-- What `ptp_send_data` prepares if its sizes fit: a buffer with room for the data
container. Its length is known unless it has overflowed. -/
theorem prepareData_ok {buffer : Buffer} (hready : w.r.Ready buffer) (data : List UInt8)
    (hfits : DataFits B w data.length) :
    ∃ buffer' w', prepareData B data w = .ok () w' ∧
      w'.r = { w.r with
        data := some buffer'
        dataLength := toInt32 buffer'.size
        dataPhaseLength := data.length } ∧
      w'.log = w.log ∧ w'.device = w.device ∧ buffer.size ≤ buffer'.size ∧
      data.length + 50 ≤ buffer'.size ∧ (buffer'.size : Int) ≤ intMax + 100 ∧
      buffer'.size ≤ max buffer.size (data.length + 200) := by
  obtain ⟨hdata, hlength, hsize, hdefault⟩ := hready
  obtain ⟨hneed, hroom⟩ := hfits
  unfold intMax at hneed hroom hsize
  have hsame : toInt32 buffer.size = buffer.size := toInt32_of_fits ⟨by omega, by omega⟩
  unfold prepareData
  rw [bind_ok (updateRuntime_run _ _), bind_ok (runtime_run _),
    bind_ok (intAdd_ok ⟨by omega, by omega⟩ _)]
  dsimp only
  by_cases hgrow : (data.length : Int) + 50 > w.r.dataLength
  · have hrealloc := hroom.resolve_left (by omega)
    rw [if_pos hgrow, bind_ok (intAdd_ok ⟨by omega, by omega⟩ _)]
    have htoSize : toSize (100 + data.length) = data.length + 100 := by
      unfold toSize
      omega
    have hresize := ptpBufferResize_ok (B := B)
      (w := { w with r := { w.r with dataPhaseLength := data.length } }) hdata hlength
      (by omega : buffer.size ≤ data.length + 100) (by omega) hrealloc.2
    rw [htoSize, bind_ok hresize]
    exact ⟨_, _, rfl, rfl, rfl, rfl, by rw [Buffer.resize_size]; omega,
      by rw [Buffer.resize_size]; omega, by rw [Buffer.resize_size, intMax]; omega,
      le_max_right _ _⟩
  · rw [if_neg hgrow]
    refine ⟨buffer, _, rfl, ?_, rfl, rfl, le_rfl, by omega,
      by rw [intMax]; omega, le_max_left _ _⟩
    dsimp only
    rw [hsame, ← hdata, ← hlength]

/-- If they do not fit, no packet can be built: the preparation does not return, or it
leaves no buffer behind. -/
theorem prepareData_unfit {buffer : Buffer} (hready : w.r.Ready buffer) (data : List UInt8)
    (hfits : ¬DataFits B w data.length) :
    (∃ w', prepareData B data w = .ok () w' ∧ w'.r.data = none ∧ w'.log = w.log) ∨
      ∃ reason w', prepareData B data w = .error reason w' ∧ w'.log = w.log := by
  obtain ⟨hdata, hlength, hsize, hdefault⟩ := hready
  unfold prepareData
  rw [bind_ok (updateRuntime_run _ _), bind_ok (runtime_run _)]
  by_cases hneed : (data.length + 50 : Int) ≤ intMax
  · have hroom : ¬((data.length + 50 : Int) ≤ w.r.dataLength ∨
        ((data.length + 100 : Int) ≤ intMax ∧ B.realloc w.reallocs (data.length + 200) = true)) :=
      fun h => hfits ⟨hneed, h⟩
    obtain ⟨hgrow, hmemory⟩ := not_or.mp hroom
    rw [bind_ok (intAdd_ok ⟨by omega, hneed⟩ _)]
    dsimp only
    rw [if_pos (not_le.mp hgrow)]
    by_cases hlimit : (data.length + 100 : Int) ≤ intMax
    · have hrealloc : B.realloc w.reallocs (data.length + 200) = false :=
        Bool.eq_false_iff.mpr fun h => hmemory ⟨hlimit, h⟩
      unfold intMax at hlimit hsize
      have htoSize : toSize (100 + data.length) = data.length + 100 := by
        unfold toSize
        omega
      have hresize := ptpBufferResize_outOfMem (B := B)
        (w := { w with r := { w.r with dataPhaseLength := data.length } }) hlength
        (by omega : buffer.size ≤ data.length + 100) (by omega) hrealloc
      rw [bind_ok (intAdd_ok ⟨by omega, by omega⟩ _), htoSize, bind_ok hresize]
      exact .inl ⟨_, rfl, rfl, rfl⟩
    · have hover : ¬Fits (100 + data.length) := fun h => hlimit (Int.add_comm _ _ ▸ h.2)
      exact .inr ⟨_, _, bind_error (intAdd_overflow hover _), rfl⟩
  · have hover : ¬Fits (data.length + 50) := fun h => hneed h.2
    exact .inr ⟨_, _, bind_error (intAdd_overflow hover _), rfl⟩

/-! ## The first read -/

/-- The calls between two worlds, if there are any, start with a read. -/
def ReadsFirst (w w' : World σ) : Prop :=
  ∃ calls, w'.log = w.log ++ calls ∧ ∀ call ∈ calls.head?, call.isWrite = false

/-- The log of a run only grows. -/
def Extends (w w' : World σ) : Prop := w.log <+: w'.log

instance : IsPreorder (World σ) Extends where
  refl w := List.prefix_refl w.log
  trans _ _ _ h h' := List.IsPrefix.trans h h'

theorem Logs.extends {writes : Bool} {w w' : World σ} (hlogs : Logs writes w w') : Extends w w' := by
  obtain ⟨calls, hlog, _⟩ := hlogs
  exact ⟨calls, hlog.symm⟩

theorem Sends.extends {w w' : World σ} (hsends : Sends w w') : Extends w w' := hsends.1.extends

theorem OnlyReads.extends {w w' : World σ} (hreads : OnlyReads w w') : Extends w w' :=
  hreads.1.extends

theorem OnlyReads.readsFirst {w w' : World σ} (hreads : OnlyReads w w') : ReadsFirst w w' := by
  obtain ⟨⟨calls, hlog, hall⟩, _⟩ := hreads
  exact ⟨calls, hlog, fun call hcall => hall call (List.mem_of_mem_head? hcall)⟩

/-- What follows a stretch that has read is read first, too. -/
theorem OnlyReads.readsFirst_extends {w w' w'' : World σ} (hreads : OnlyReads w w')
    (hread : w'.log ≠ w.log) (hextends : Extends w' w'') : ReadsFirst w w'' := by
  obtain ⟨⟨calls, hlog, hall⟩, _⟩ := hreads
  obtain ⟨more, hmore⟩ := hextends
  cases calls with
  | nil => exact absurd (hlog.trans (List.append_nil _)) hread
  | cons call rest =>
      refine ⟨call :: rest ++ more, by rw [← hmore, hlog, List.append_assoc], ?_⟩
      rintro _ ⟨⟩
      exact hall call List.mem_cons_self

/-- Finishing a transaction makes no backend calls. -/
theorem finishTransaction_log : Moves (fun w w' : World σ => w'.log = w.log)
    (finishTransaction : M σ Int) := by
  have hupdate : ∀ f, Moves (fun w w' : World σ => w'.log = w.log)
      (updateRuntime f : M σ Unit) := fun f w => .ok rfl rfl
  have hpre : IsPreorder (World σ) (fun w w' : World σ => w'.log = w.log) :=
    { refl := fun _ => rfl, trans := fun _ _ _ h h' => h'.trans h }
  have hcount : Moves (fun w w' : World σ => w'.log = w.log) (countTransaction : M σ Unit) := by
    refine moves_runtime.bind fun r => ?_
    split
    · exact hupdate _
    · exact moves_halt _
  refine hcount.bind fun _ => Moves.bind ?_ fun rc => (hupdate _).bind fun _ => Moves.pure _
  refine (moves_inspect _).bind fun code => ?_
  split
  · exact Moves.pure _
  split
  · exact (moves_inspect _).bind fun _ => Moves.pure _
  · exact Moves.pure _

theorem attemptOf_extends {transmission : M σ Bool} (hextends : Moves Extends transmission) :
    Moves Extends (attemptOf B fuel transmission) := by
  refine hextends.bind fun sent => ?_
  split
  · exact (receiveReply_onlyReads B fuel).mono fun _ _ h => h.extends
  · exact Moves.pure _

theorem afterAttempt_extends {attempt : M σ Int} (hattempt : Moves Extends attempt) (rc : Int) :
    Moves Extends (afterAttempt attempt rc) := by
  have hfinish : Moves Extends (finishTransaction : M σ Int) :=
    finishTransaction_log.mono fun v v' h => ⟨[], by rw [h, List.append_nil]⟩
  unfold afterAttempt
  split
  · refine hattempt.bind fun rc => ?_
    split
    · exact fun v => .ok rfl (refl_of Extends v)
    · exact hfinish
  split
  · exact fun v => .ok rfl (refl_of Extends v)
  · exact hfinish

/-- An attempt that was not ignored ends the transaction without another backend call. -/
theorem afterAttempt_log {attempt : M σ Int} {rc : Int} (hrc : rc ≠ PtpGeneralError.commandIgnored) :
    Moves (fun w w' : World σ => w'.log = w.log) (afterAttempt attempt rc) := by
  unfold afterAttempt
  rw [if_neg hrc]
  split
  · exact fun v => .ok rfl rfl
  · exact finishTransaction_log

/-- After an ignored attempt, the second attempt makes the last backend calls. -/
theorem afterAttempt_ignored {attempt : M σ Int} {post : World σ → Prop}
    (hattempt : EndsIn attempt w post)
    (hlog : ∀ v v', post v → v'.log = v.log → post v') :
    EndsIn (afterAttempt attempt PtpGeneralError.commandIgnored) w post := by
  unfold afterAttempt
  rw [if_pos rfl]
  refine Ends.bind (hattempt.mono (fun rc v h => ?_) fun _ _ h => h)
  split
  · exact .ok rfl (hlog v _ h rfl)
  · exact (finishTransaction_log v).mono (fun _ v' h' => hlog v v' h h')
      (fun _ v' h' => hlog v v' h h')

/-- Once the request is out, an operation reads before it writes again. -/
theorem attemptTwice_readsFirst {transmission : M σ Bool} {sent : World σ}
    (hextends : Moves Extends transmission) (hsent : transmission w = .ok true sent)
    (hignored : ∀ w', receiveReply B fuel sent = .ok PtpGeneralError.commandIgnored w' →
      w'.log ≠ sent.log) :
    EndsIn (attemptTwice (attemptOf B fuel transmission)) w (ReadsFirst sent) := by
  have hattempt : attemptOf B fuel transmission w = receiveReply B fuel sent := by
    unfold attemptOf
    rw [bind_ok hsent, if_pos rfl]
  apply Ends.bind
  refine Ends.congr ?_ hattempt
  cases hreceive : receiveReply B fuel sent with
  | error reason w' =>
      exact .error hreceive ((receiveReply_onlyReads B fuel).of_error hreceive).readsFirst
  | ok rc w' =>
      have hreads := (receiveReply_onlyReads B fuel).of_ok hreceive
      refine .ok hreceive ?_
      by_cases hcase : rc = PtpGeneralError.commandIgnored
      · subst hcase
        have hrest : ∀ w'', Extends w' w'' → ReadsFirst sent w'' :=
          fun w'' => hreads.readsFirst_extends (hignored w' hreceive)
        exact (afterAttempt_extends (attemptOf_extends hextends) _ w').mono
          (fun _ w'' h => hrest w'' h) (fun _ w'' h => hrest w'' h)
      · have hdone : ∀ w'', w''.log = w'.log → ReadsFirst sent w'' := by
          intro w'' hlog
          obtain ⟨calls, hcalls, hhead⟩ := hreads.readsFirst
          exact ⟨calls, hlog.trans hcalls, hhead⟩
        exact (afterAttempt_log hcase w').mono (fun _ w'' h => hdone w'' h)
          (fun _ w'' h => hdone w'' h)

/-! ## Receiving over USB-style framing -/

section Receive

variable {buffer : Buffer} {endpoint : Endpoint}
  (hendpoint : bulkEndpoint w.r.connectionType = some endpoint)

include hendpoint

theorem ptpReceiveAllPackets_bulk :
    ptpReceiveAllPackets B fuel w = ptpusbReadAllPackets B fuel w := by
  unfold ptpReceiveAllPackets
  rw [bind_ok (runtime_run w)]
  cases htype : w.r.connectionType with
  | ip => rw [htype] at hendpoint; cases hendpoint
  | ipUsb => rfl
  | usb => rfl
  | ble => rw [htype] at hendpoint; cases hendpoint

theorem receiveReply_ignored {w' : World σ} :
    receiveReply B fuel w = .ok PtpGeneralError.commandIgnored w' ↔
      ptpusbReadAllPackets B fuel w = .ok PtpGeneralError.commandIgnored w' := by
  unfold receiveReply
  rw [bind_run, ptpReceiveAllPackets_bulk hendpoint]
  cases hrun : ptpusbReadAllPackets B fuel w with
  | error reason v => simp
  | ok rc v =>
      dsimp only
      by_cases hneg : rc < 0
      · rw [if_pos hneg, pure_run]
      · rw [if_neg hneg, pure_run]
        constructor
        · intro h
          cases h
        · rintro ⟨⟩
          exact absurd (by decide) hneg

end Receive

/-- A runtime whose buffer length has overflowed never receives. -/
theorem ptpusbReadAllPackets_overflown (fuel : Nat) {size packet : Nat}
    (hlength : w.r.dataLength = toInt32 size) (hover : intMax < size)
    (hbound : (size : Int) ≤ intMax + 100) (hpacket : w.r.maxPacketSize = packet)
    (hpacket_le : (packet : Int) ≤ intMax) :
    ∃ reason w', ptpusbReadAllPackets B fuel w = .error reason w' := by
  unfold ptpusbReadAllPackets
  rw [bind_ok (updateRuntime_run _ _)]
  cases fuel with
  | zero => exact ⟨_, _, rfl⟩
  | succ fuel =>
      have hneed : ((0 : Nat) : Int) + w.r.maxPacketSize = packet := by omega
      have hgrow := grow_overflown (B := B)
        (w := { w with r := { w.r with waitForResponse := w.r.responseWaitDefault } })
        hlength hover hbound hpacket_le
      have hbody : ptpusbReadBody B ⟨0, 0⟩
          { w with r := { w.r with waitForResponse := w.r.responseWaitDefault } } =
          .error (.panic "You cannot downsize the data buffer (%u -> %u)")
            { w with r := { w.r with waitForResponse := w.r.responseWaitDefault } } := by
        have hfits : Fits (((0 : Nat) : Int) + w.r.maxPacketSize) :=
          ⟨by omega, by rw [hneed]; exact hpacket_le⟩
        unfold ptpusbReadBody
        rw [bind_ok (runtime_run _), bind_ok (hneed ▸ intAdd_ok hfits _)]
        exact bind_error hgrow
      exact ⟨_, _, iterate_stop hbody fuel⟩

/-- What a transmission leaves for the receive: a buffer whose length is known, or has
overflowed. -/
theorem bulkCall_or_overflown {buffer : Buffer} {endpoint : Endpoint}
    (hendpoint : bulkEndpoint w.r.connectionType = some endpoint)
    (hdata : w.r.data = some buffer) (hlength : w.r.dataLength = toInt32 buffer.size)
    (hpacket : 0 ≤ w.r.maxPacketSize) :
    (∃ c : BulkCall B, c.start = w) ∨ intMax < buffer.size := by
  by_cases hsize : (buffer.size : Int) ≤ intMax
  · refine .inl ⟨⟨w, buffer, endpoint, hdata, ?_, hsize, hendpoint, hpacket⟩, rfl⟩
    rw [hlength]
    exact toInt32_of_fits ⟨by omega, hsize⟩
  · exact .inr (not_le.mp hsize)

/-- A call that gives up on a silent device has read at least once. -/
theorem BulkCall.ignored_log (c : BulkCall B) {w' : World σ}
    (hrun : c.run fuel = .ok PtpGeneralError.commandIgnored w') : w'.log ≠ c.start.log := by
  obtain ⟨n, _, _, hat⟩ := c.stops_of_run hrun (by decide)
  rw [hat.log]
  intro hlog
  have hnil := List.append_right_eq_self.mp hlog
  simp [BulkCall.calls] at hnil

/-- A call whose first round has room reads. -/
theorem BulkCall.run_reads (c : BulkCall B) (fuel : Nat) (hfits : c.FitsAt 0) (hallocates : c.Allocates 0) :
    EndsIn (ptpusbReadAllPackets B (fuel + 1)) c.start
      (fun w' => c.start.log ++ [c.call 0] <+: w'.log) := by
  obtain ⟨w₁, hat, hround⟩ := c.round c.at_zero hfits hallocates
  have hlog : w₁.log = c.start.log ++ [c.call 0] := by
    rw [hat.log]
    simp [BulkCall.calls]
  have hinit : c.state 0 = ⟨0, 0⟩ := by simp [BulkCall.state]
  rw [hinit] at hround
  rw [← hlog]
  refine Ends.congr ?_ (bind_ok (updateRuntime_run _ _))
  cases houtcome : c.outcome 0 with
  | none =>
      rw [houtcome] at hround
      refine Ends.congr ?_ (iterate_next hround fuel)
      exact (Moves.iterate (fun s => ptpusbReadBody_onlyReads B s) fuel _ w₁).mono
        (fun _ _ hreads => hreads.extends) (fun _ _ hreads => hreads.extends)
  | some rc =>
      rw [houtcome] at hround
      exact .ok (iterate_done hround fuel) (List.prefix_refl _)

/-! ## What has been written when the reply is waited for -/

/-- The calls between two worlds begin with writes of the given bytes, within the packet
size in force, and what follows these starts with a read. -/
def HandsOver (request : List UInt8) (w w' : World σ) : Prop :=
  ∃ writes rest, w'.log = w.log ++ (writes ++ rest) ∧ writtenBytes writes = request ∧
    SmallWrites w.r.maxPacketSize w.r.nextPacketSize writes ∧
    ∀ call ∈ rest.head?, call.isWrite = false

/-- When the first read is made, exactly the given bytes have been written. -/
def ReceivesAfter (request : List UInt8) (w w' : World σ) : Prop :=
  ∀ front first rest, w'.log = w.log ++ (front ++ first :: rest) → first.isWrite = false →
    (∀ call ∈ front, call.isWrite = true) → writtenBytes front = request ∧
      SmallWrites w.r.maxPacketSize w.r.nextPacketSize front

/-- A log has one first read only. -/
theorem writes_before_first_read {writes rest front back : List Call} {first : Call}
    (hsplit : writes ++ rest = front ++ first :: back)
    (hwrites : ∀ call ∈ writes, call.isWrite = true)
    (hrest : ∀ call ∈ rest.head?, call.isWrite = false)
    (hfront : ∀ call ∈ front, call.isWrite = true) (hfirst : first.isWrite = false) :
    writes = front := by
  induction writes generalizing front with
  | nil =>
      cases front with
      | nil => rfl
      | cons call front =>
          rw [List.nil_append] at hsplit
          subst hsplit
          have hread := hrest call rfl
          rw [hfront call List.mem_cons_self] at hread
          cases hread
  | cons write writes ih =>
      cases front with
      | nil =>
          obtain ⟨rfl, _⟩ := List.cons.inj hsplit
          rw [hwrites _ List.mem_cons_self] at hfirst
          cases hfirst
      | cons call front =>
          obtain ⟨rfl, htail⟩ := List.cons.inj hsplit
          rw [ih htail (fun c hc => hwrites c (List.mem_cons_of_mem _ hc))
            (fun c hc => hfront c (List.mem_cons_of_mem _ hc))]

theorem HandsOver.receivesAfter {request : List UInt8} {w w' : World σ}
    (hhands : HandsOver request w w') : ReceivesAfter request w w' := by
  obtain ⟨writes, rest, hlog, hbytes, hsmall, hrest⟩ := hhands
  intro front first back hsplit hfirst hfront
  have hcalls := List.append_cancel_left (hlog.symm.trans hsplit)
  have hwrites := writes_before_first_read hcalls hsmall.isWrite hrest hfront hfirst
  subst hwrites
  exact ⟨hbytes, hsmall⟩

theorem receivesAfter_of_log {request : List UInt8} {w w' : World σ} (hlog : w'.log = w.log) :
    ReceivesAfter request w w' := by
  intro front first rest hsplit
  rw [hlog] at hsplit
  have hnil := List.append_right_eq_self.mp hsplit.symm
  simp at hnil

/-! ## Operations over USB-style framing -/

/-- Only a runtime whose buffer length is known comes to report an ignored command. -/
theorem bulkCall_of_ignored (fuel : Nat) {buffer : Buffer} {endpoint : Endpoint}
    (hendpoint : bulkEndpoint w.r.connectionType = some endpoint)
    (hdata : w.r.data = some buffer) (hlength : w.r.dataLength = toInt32 buffer.size)
    (hbound : (buffer.size : Int) ≤ intMax + 100) (hpacket : 0 ≤ w.r.maxPacketSize)
    (hpacket_le : w.r.maxPacketSize ≤ intMax) {w' : World σ}
    (hignored : receiveReply B fuel w = .ok PtpGeneralError.commandIgnored w') :
    ∃ c : BulkCall B, c.start = w ∧ c.run fuel = .ok PtpGeneralError.commandIgnored w' := by
  have hrun := (receiveReply_ignored hendpoint).mp hignored
  rcases bulkCall_or_overflown (B := B) hendpoint hdata hlength hpacket with ⟨c, rfl⟩ | hover
  · exact ⟨c, rfl, hrun⟩
  · obtain ⟨reason, v, hstuck⟩ := ptpusbReadAllPackets_overflown (B := B) fuel hlength
      hover hbound (Int.toNat_of_nonneg hpacket).symm (by omega)
    rw [hstuck] at hrun
    cases hrun

theorem attemptTwice_congr {attempt attempt' : M σ Int} (P : World σ → Prop)
    (hsame : ∀ v, P v → attempt v = attempt' v)
    (hkeeps : ∀ v rc v', P v → attempt v = .ok rc v' → P v') (hw : P w) :
    attemptTwice attempt w = attemptTwice attempt' w := by
  unfold attemptTwice
  rw [bind_run, bind_run, ← hsame w hw]
  cases hrun : attempt w with
  | error reason w' => rfl
  | ok rc w' =>
      dsimp only [afterAttempt]
      by_cases hcase : rc = PtpGeneralError.commandIgnored
      · rw [if_pos hcase, if_pos hcase, bind_run, bind_run, ← hsame w' (hkeeps w rc w' hw hrun)]
      · rw [if_neg hcase, if_neg hcase]

theorem attemptOf_connectionType {transmission : M σ Bool} (hsends : Moves Sends transmission)
    {rc : Int} {w' : World σ} (hrun : attemptOf B fuel transmission w = .ok rc w') :
    w'.r.connectionType = w.r.connectionType := by
  have hpre : IsPreorder (World σ) fun v v' => v'.r.connectionType = v.r.connectionType :=
    { refl := fun _ => rfl, trans := fun _ _ _ h h' => h'.trans h }
  have hmoves : Moves (fun v v' : World σ => v'.r.connectionType = v.r.connectionType)
      (attemptOf B fuel transmission) := by
    refine (hsends.mono fun v v' h => ?_).bind fun sent => ?_
    · rw [h.2.runtime]
    · split
      · refine (receiveReply_onlyReads B fuel).mono fun v v' h => ?_
        have hsettings := h.2.runtime
        rw [hsettings]
      · exact Moves.pure _
  exact hmoves.of_ok hrun

/-- Other than over PTP/IP, the attempts of `ptp_send_data` transmit and receive. -/
theorem ptpSendData_eq (cmd : PtpCommand) (data : List UInt8)
    (hconn : w.r.connectionType ≠ .ip) : ptpSendData B fuel cmd data w =
      ptpTransaction (prepareData B data) (attemptOf B fuel (transmitData B fuel cmd data)) w := by
  unfold ptpSendData
  by_cases hkill : w.r.operationKillSwitch = true
  · rw [ptpTransaction_refused hkill, ptpTransaction_refused hkill]
  rw [Bool.not_eq_true] at hkill
  rw [ptpTransaction_run hkill, ptpTransaction_run hkill]
  cases hprepare : prepareData B data (locked w) with
  | error reason w₀ => rw [bind_error hprepare, bind_error hprepare]
  | ok _ w₀ =>
      have hsame := ((prepareData_silent B data).of_ok hprepare).2
      rw [bind_ok hprepare, bind_ok hprepare]
      refine attemptTwice_congr (fun v => v.r.connectionType ≠ .ip)
        (fun v hv => ptpSendDataTry_eq cmd data hv) (fun v rc v' hv hrun => ?_) (hsame ▸ hconn)
      rw [ptpSendDataTry_eq cmd data hv] at hrun
      rw [attemptOf_connectionType (transmitData_sends cmd data) hrun]
      exact hv

theorem attemptTwice_reads {transmission : M σ Bool} {sent : World σ} {log : List Call}
    (hextends : Moves Extends transmission) (hsent : transmission w = .ok true sent)
    (hreceive : EndsIn (receiveReply B fuel) sent (fun v => log <+: v.log)) :
    EndsIn (attemptTwice (attemptOf B fuel transmission)) w (fun v => log <+: v.log) := by
  have hattempt : attemptOf B fuel transmission w = receiveReply B fuel sent := by
    unfold attemptOf
    rw [bind_ok hsent, if_pos rfl]
  refine Ends.bind (Ends.congr ?_ hattempt)
  cases hrun : receiveReply B fuel sent with
  | error reason v => exact .error hrun (hreceive.of_error hrun)
  | ok rc v =>
      have hlog := hreceive.of_ok hrun
      refine .ok hrun ?_
      exact (afterAttempt_extends (attemptOf_extends hextends) rc v).mono
        (fun _ _ h => hlog.trans h) (fun _ _ h => hlog.trans h)

/-- How an operation gets to its first receive: `sent` is the world in which the request
has been written. -/
structure Requests (B : Backend σ) (fuel : Nat) (operation : M σ Int) (request : List UInt8)
    (limit : Nat) (w sent : World σ) : Prop where
  written : ∃ calls, sent.log = w.log ++ calls ∧ writtenBytes calls = request ∧
    SmallWrites w.r.maxPacketSize w.r.nextPacketSize calls
  buffer : ∃ buffer, sent.r.data = some buffer ∧ sent.r.dataLength = toInt32 buffer.size ∧
    (buffer.size : Int) ≤ intMax + 100 ∧ buffer.size ≤ limit
  connectionType : sent.r.connectionType = w.r.connectionType
  transaction : sent.r.transaction = w.r.transaction
  packet : sent.r.maxPacketSize = w.r.maxPacketSize ∨ sent.r.maxPacketSize = w.r.nextPacketSize
  run : ∃ transmission w₀, Moves Sends transmission ∧ transmission w₀ = .ok true sent ∧
    operation w = attemptTwice (attemptOf B fuel transmission) w₀

namespace Requests

variable {operation : M σ Int} {request : List UInt8} {limit : Nat} {sent : World σ}
  (hrequests : Requests B fuel operation request limit w sent) {endpoint : Endpoint}
  (hendpoint : bulkEndpoint w.r.connectionType = some endpoint) (hpacket : 0 < w.r.maxPacketSize)
  (hpacket_le : w.r.maxPacketSize ≤ intMax)

include hrequests hendpoint

theorem resized : w.r.Resized sent.r := by
  rcases hrequests.packet with hsame | hnext
  · exact .inl hsame
  · rw [PtpRuntime.nextPacketSize_eq hendpoint] at hnext
    exact (w.r.resized_initComm endpoint).imp hnext.trans hnext.trans

include hpacket hpacket_le

theorem handsOver : EndsIn operation w (HandsOver request w) := by
  obtain ⟨transmission, w₀, hsends, hsent, hrun⟩ := hrequests.run
  obtain ⟨buffer, hdata, hlength, hbound, _⟩ := hrequests.buffer
  obtain ⟨writes, hlog, hbytes, hsmall⟩ := hrequests.written
  have hignored : ∀ v, receiveReply B fuel sent = .ok PtpGeneralError.commandIgnored v →
      v.log ≠ sent.log := by
    intro v hreceive
    obtain ⟨c, rfl, hcall⟩ := bulkCall_of_ignored fuel
      (by rw [hrequests.connectionType]; exact hendpoint) hdata hlength hbound
      ((hrequests.resized hendpoint).nonneg hpacket.le)
      ((hrequests.resized hendpoint).le hpacket_le (by decide)) hreceive
    exact c.ignored_log hcall
  have hreads := attemptTwice_readsFirst (hsends.mono fun _ _ h => h.extends) hsent hignored
  have hhands : ∀ v, ReadsFirst sent v → HandsOver request w v := by
    rintro v ⟨rest, hrest, hhead⟩
    refine ⟨writes, rest, ?_, hbytes, hsmall, hhead⟩
    rw [hrest, hlog, List.append_assoc]
  exact Ends.congr (hreads.mono (fun _ v h => hhands v h) (fun _ v h => hhands v h)) hrun

/-- The calls between two worlds include a read. -/
def ReadsSome (w w' : World σ) : Prop :=
  ∃ calls, w'.log = w.log ++ calls ∧ ∃ call ∈ calls, call.isWrite = false

/-- With the memory it asks for, the operation does start to receive. -/
theorem readsSome (hlimit : (limit : Int) ≤ intMax) (hfuel : 0 < fuel)
    (hrealloc : ∀ count size, B.realloc count size = true) :
    EndsIn operation w (ReadsSome w) := by
  obtain ⟨transmission, w₀, hsends, hsent, hrun⟩ := hrequests.run
  obtain ⟨buffer, hdata, hlength, _, hsize⟩ := hrequests.buffer
  obtain ⟨writes, hlog, _, _⟩ := hrequests.written
  have hendpoint' : bulkEndpoint sent.r.connectionType = some endpoint := by
    rw [hrequests.connectionType]
    exact hendpoint
  have hresized := hrequests.resized hendpoint
  have hpacket' : 0 ≤ sent.r.maxPacketSize := hresized.nonneg hpacket.le
  obtain ⟨c, hstart⟩ : ∃ c : BulkCall B, c.start = sent :=
    (bulkCall_or_overflown hendpoint' hdata hlength hpacket').resolve_right (by omega)
  have hfits : c.FitsAt 0 := by
    refine ⟨?_, c.size_le⟩
    have hle := hresized.le hpacket_le (by decide)
    rw [c.received_zero, List.length_nil, c.packet_zero, hstart]
    omega
  obtain ⟨fuel, rfl⟩ := Nat.exists_eq_succ_of_ne_zero hfuel.ne'
  have hreceive : EndsIn (receiveReply B (fuel + 1)) sent
      (fun v => sent.log ++ [c.call 0] <+: v.log) := by
    have hreads := c.run_reads fuel hfits fun _ => hrealloc _ _
    rw [hstart] at hreads
    have hreceive : EndsIn (ptpReceiveAllPackets B (fuel + 1)) sent
        (fun v => sent.log ++ [c.call 0] <+: v.log) :=
      hreads.congr (ptpReceiveAllPackets_bulk hendpoint')
    refine Ends.bind (hreceive.mono (fun rc v h => ?_) (fun _ _ h => h))
    by_cases hneg : rc < 0
    · rw [if_pos hneg]
      exact .pure h
    · rw [if_neg hneg]
      exact .pure h
  have hoperation := attemptTwice_reads (hsends.mono fun _ _ h => h.extends) hsent hreceive
  have hsome : ∀ v, sent.log ++ [c.call 0] <+: v.log → ReadsSome w v := by
    rintro v ⟨rest, hrest⟩
    refine ⟨writes ++ [c.call 0] ++ rest, ?_, c.call 0, by simp, rfl⟩
    rw [← hrest, hlog]
    simp only [List.append_assoc]
  exact Ends.congr (hoperation.mono (fun _ v h => hsome v h) (fun _ v h => hsome v h)) hrun

end Requests

section Operations

variable {buffer : Buffer} {endpoint : Endpoint} (haccepts : B.Accepts)
  (hready : w.r.Ready buffer) (hkill : w.r.operationKillSwitch = false)
  (hendpoint : bulkEndpoint w.r.connectionType = some endpoint) (hpacket : 0 < w.r.maxPacketSize)
  (cmd : PtpCommand)

include haccepts hready hkill hendpoint hpacket

/-- `ptp_send` writes the command container before it receives. -/
theorem ptpSend_requests (hfuel : fuel > 32) : ∃ sent, Requests B fuel (ptpSend B fuel cmd)
    (commandContainer cmd w.r.transactionId) buffer.size w sent := by
  obtain ⟨hdata, hlength, hsize, hdefault⟩ := hready
  have hroom : 32 ≤ buffer.size := le_trans (by decide) hdefault
  obtain ⟨buffer', sent, hsame, hwrites, hsent⟩ := transmitCmd_accepts
    (w := { locked w with r := { (locked w).r with dataPhaseLength := 0 } }) cmd haccepts
    hdata hendpoint hpacket hroom
  obtain ⟨hr, -⟩ := Writes.runtime hwrites
  have hnext := PtpRuntime.nextPacketSize_eq hendpoint
  refine ⟨sent, ?_, ⟨buffer', by rw [hr], ?_, by omega, by omega⟩, by rw [hr]; rfl,
    by rw [hr]; rfl, ?_, transmitCmd B fuel cmd, _, transmitCmd_sends cmd, hsent fuel hfuel, ?_⟩
  · obtain ⟨_, calls, hlog, hbytes, hsmall, _⟩ := hwrites
    exact ⟨calls, hlog, hbytes, hnext ▸ hsmall⟩
  · rw [hr, hsame, toInt32_of_fits ⟨by omega, hsize⟩]
    exact hlength
  · have hsentPacket := Writes.packet hwrites
    rw [hnext]
    exact hsentPacket
  · unfold ptpSend
    rw [ptpTransaction_run hkill, bind_ok (updateRuntime_run _ _), ptpSendTry_eq]

/-- `ptp_send_data` writes the command container and the data container. -/
theorem ptpSendData_requests (data : List UInt8) (hfits : DataFits B w data.length)
    (hfuel : fuel > 32 + data.length) : ∃ sent, Requests B fuel (ptpSendData B fuel cmd data)
      (commandContainer cmd w.r.transactionId ++ dataContainer cmd w.r.transactionId data)
      (max buffer.size (data.length + 200)) w sent := by
  have hneed := hfits.1
  have hdefault := hready.2.2.2
  obtain ⟨first, w₀, hprepare, hr₀, hlog₀, hdevice₀, hgrown, hroom, hbound, hlimit⟩ :=
    prepareData_ok (w := locked w) hready data hfits
  have hsize : 32 ≤ first.size := le_trans (le_trans (by decide) hdefault) hgrown
  have hendpoint₀ : bulkEndpoint w₀.r.connectionType = some endpoint := by
    rw [hr₀]
    exact hendpoint
  have hpacket₀ : w₀.r.maxPacketSize = w.r.maxPacketSize := by
    rw [hr₀]
    rfl
  have hnext : w₀.r.packetSize endpoint = w.r.nextPacketSize := by
    rw [PtpRuntime.nextPacketSize_eq hendpoint, hr₀]
    rfl
  have htransaction : w₀.r.transactionId = w.r.transactionId := by
    rw [hr₀]
    rfl
  obtain ⟨buffer', sent, hsame, hwrites, hsent⟩ := transmitData_accepts (w := w₀) cmd
    data haccepts (by rw [hr₀]) hendpoint₀ (by rw [hpacket₀]; exact hpacket) hsize (by omega)
    (by omega)
  obtain ⟨hr, -⟩ := Writes.runtime hwrites
  have hsentPacket := Writes.packet hwrites
  rw [htransaction] at hwrites
  have hconn : w.r.connectionType ≠ .ip := by
    intro hip
    rw [hip] at hendpoint
    cases hendpoint
  refine ⟨sent, ?_, ⟨buffer', by rw [hr], ?_, by rw [hsame]; exact hbound,
    by rw [hsame]; exact hlimit⟩, by rw [hr, hr₀]; rfl, by rw [hr, hr₀]; rfl, ?_,
    transmitData B fuel cmd data, w₀, transmitData_sends cmd data, hsent fuel hfuel, ?_⟩
  · obtain ⟨_, calls, hlog, hbytes, hsmall, _⟩ := hwrites
    exact ⟨calls, hlog.trans (by rw [hlog₀]; rfl), hbytes, hpacket₀ ▸ hnext ▸ hsmall⟩
  · rw [hr, hr₀, hsame]
  · exact hpacket₀ ▸ hnext ▸ hsentPacket
  · rw [ptpSendData_eq cmd data hconn, ptpTransaction_run hkill, bind_ok hprepare]

end Operations

/-- Without a buffer no packet is built. -/
theorem transmitCmd_noBuffer (fuel : Nat) (hdata : w.r.data = none) (cmd : PtpCommand) :
    ∃ reason, transmitCmd B fuel cmd w = .error reason w := by
  have hstore : ∀ bytes, storeData 0 bytes w = .error .undefined w := by
    intro bytes
    unfold storeData PtpRuntime.store
    rw [hdata]
  refine ⟨.undefined, bind_error ?_⟩
  unfold ptpNewCmdPacket
  rw [bind_ok (runtime_run w)]
  cases w.r.connectionType with
  | ip => exact (bind_ok (runtime_run w)).trans (bind_error (hstore _))
  | ipUsb => exact (bind_ok (runtime_run w)).trans (bind_error (hstore _))
  | usb => exact (bind_ok (runtime_run w)).trans (bind_error (hstore _))
  | ble => exact (bind_ok (runtime_run w)).trans (bind_error (hstore _))

/-- `ptp_send_data` makes no backend call at all if its sizes do not fit. -/
theorem ptpSendData_unfit {buffer : Buffer} (hready : w.r.Ready buffer) (cmd : PtpCommand)
    (data : List UInt8) (hfits : ¬DataFits B w data.length) :
    EndsIn (ptpSendData B fuel cmd data) w (fun w' => w'.log = w.log) := by
  by_cases hkill : w.r.operationKillSwitch = true
  · exact .ok (ptpTransaction_refused hkill) rfl
  · rw [Bool.not_eq_true] at hkill
    rcases prepareData_unfit (w := locked w) hready data hfits with
      ⟨w₀, hprepare, hdata, hlog⟩ | ⟨reason, w₀, hprepare, hlog⟩
    · obtain ⟨reason, hsend⟩ := transmitCmd_noBuffer (B := B) fuel hdata cmd
      have hattempt : ptpSendDataTry B fuel cmd data w₀ = .error reason w₀ := by
        unfold ptpSendDataTry
        rw [sendThen_eq]
        exact bind_error hsend
      exact .error ((ptpTransaction_run hkill).trans
        ((bind_ok hprepare).trans (bind_error hattempt))) hlog
    · exact .error ((ptpTransaction_run hkill).trans (bind_error hprepare)) hlog

end Libpict
