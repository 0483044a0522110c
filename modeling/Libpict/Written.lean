import Libpict.Outcome

/-! # What an operation writes

Every backend write of an operation hands over a piece of one of its packets, which
carry the transaction ID that the runtime had when the operation started; both
attempts send the same packets.
-/

namespace Libpict

open Bytes CInt Exec PtpRuntime

variable {σ : Type} {B : Backend σ} {w w' : World σ} {fuel : Nat}

/-- The packets of an operation over USB-style framing. -/
def Operation.packets (transaction : UInt32) : Operation → List (List UInt8)
  | .send cmd => [commandContainer cmd transaction]
  | .sendData cmd data => [commandContainer cmd transaction, dataContainer cmd transaction data]

/-- Writes hand over pieces of the given packets. -/
def Call.PieceOf (packets : List (List UInt8)) : Call → Prop
  | .write _ bytes _ => ∃ packet ∈ packets, bytes <:+: packet
  | .read .. => True

/-- A write returns how many of its bytes were taken. -/
def Backend.Counts (B : Backend σ) : Prop := ∀ endpoint bytes device count,
  (B.cmdWrite endpoint bytes device).1 = some count → count ≤ bytes.length

theorem Call.PieceOf.mono {packets packets' : List (List UInt8)} (hsub : packets ⊆ packets')
    {call : Call} (hpiece : call.PieceOf packets) : call.PieceOf packets' := by
  cases call with
  | write endpoint bytes sent =>
      obtain ⟨packet, hpacket, hinfix⟩ := hpiece
      exact ⟨packet, hsub hpacket, hinfix⟩
  | read => trivial

/-! ## The send loop -/

/-- What has been written of a packet after some rounds of the send loop. -/
def WrittenTo (B : Backend σ) (packet : List UInt8) (w : World σ) (sent : Nat) (v : World σ) : Prop :=
  v.r.data = w.r.data ∧ ∃ calls, v.log = w.log ++ calls ∧
    (∀ call ∈ calls, call.PieceOf [packet]) ∧ (B.Counts → writtenBytes calls = packet.take sent)

/-- A round of the send loop writes a piece of the packet that starts where the round
before has stopped. -/
theorem ptpSendPacketBody_piece {packet : List UInt8} (hholds : w.r.Holds packet) {sent : Nat}
    {v v' : World σ} (hwritten : WrittenTo B packet w sent v) {r : Nat ⊕ Int}
    (hrun : ptpSendPacketBody B packet.length sent v = .ok r v') :
    ∃ count, WrittenTo B packet w (sent + count) v' ∧
      (r = .inl (sent + count) ∨ r = .inr (sent + count : Nat) ∧ sent + count = packet.length ∨
        r = .inr PtpGeneralError.ioErr) := by
  obtain ⟨hdata, calls, hlog, hpieces, hbytes⟩ := hwritten
  have hheld : v.r.Holds packet := by
    unfold PtpRuntime.Holds
    rw [hdata]
    exact hholds
  unfold ptpSendPacketBody at hrun
  rw [bind_ok (runtime_run v)] at hrun
  dsimp only at hrun
  generalize hmax : (if (packet.length : Int) - sent > v.r.maxPacketSize then v.r.maxPacketSize
    else packet.length - sent) = max at hrun
  have hmax_le : max ≤ packet.length - sent := by
    rw [← hmax]
    split <;> omega
  cases hendpoint : bulkEndpoint v.r.connectionType with
  | none =>
      rw [hendpoint] at hrun
      cases hrun
  | some endpoint =>
      rw [hendpoint] at hrun
      dsimp only at hrun
      obtain ⟨rc, u, hwrite, hrest⟩ := bind_eq_ok.mp hrun
      obtain ⟨size, rfl⟩ := Int.eq_ofNat_of_zero_le (size_of_cmdWrite hwrite)
      obtain ⟨bytes, hload, hrc, hr', hlog'⟩ := cmdWrite_eq_ok hwrite
      rw [hheld.load sent size (by omega)] at hload
      obtain rfl := Except.ok.inj hload
      have hpieces' : ∀ call ∈ calls ++ [.write endpoint ((packet.drop sent).take size) rc],
          call.PieceOf [packet] := by
        intro call hcall
        rcases List.mem_append.mp hcall with hcall | hcall
        · exact hpieces call hcall
        · obtain rfl := List.mem_singleton.mp hcall
          exact ⟨packet, List.mem_singleton_self _,
            (List.take_prefix _ _).isInfix.trans (List.drop_suffix _ _).isInfix⟩
      have hlog'' : u.log = w.log ++ (calls ++ [.write endpoint ((packet.drop sent).take size) rc]) := by
        rw [hlog', hlog, List.append_assoc]
      have hwrites : ∀ count, rc.getD 0 = count → WrittenTo B packet w (sent + count) u := by
        intro count hcount
        refine ⟨(congrArg PtpRuntime.data hr').trans hdata, _, hlog'', hpieces', fun hcounts => ?_⟩
        have htaken : count ≤ ((packet.drop sent).take size).length := by
          cases rc with
          | none =>
              obtain rfl : 0 = count := hcount
              exact Nat.zero_le _
          | some taken =>
              obtain rfl : taken = count := hcount
              exact hcounts _ _ _ _ hrc.symm
        rw [writtenBytes_append, hbytes hcounts, List.take_add]
        congr 1
        rw [List.length_take] at htaken
        simp only [writtenBytes, List.flatMap_cons, List.flatMap_nil, List.append_nil, hcount,
          List.take_take]
        rw [min_eq_left (by omega)]
      cases rc with
      | none =>
          obtain ⟨rfl, rfl⟩ := EStateM.Result.ok.inj hrest
          exact ⟨0, hwrites 0 rfl, .inr (.inr rfl)⟩
      | some count =>
          dsimp only at hrest
          split at hrest
          next => cases hrest
          next =>
            split at hrest
            next hall =>
              obtain ⟨rfl, rfl⟩ := EStateM.Result.ok.inj hrest
              exact ⟨count, hwrites count rfl, .inr (.inl ⟨rfl, by exact_mod_cast hall⟩)⟩
            next =>
              obtain ⟨rfl, rfl⟩ := EStateM.Result.ok.inj hrest
              exact ⟨count, hwrites count rfl, .inl rfl⟩

/-- The send loop writes the beginning of the packet, all of it if it says so. -/
theorem ptpSendPacket_pieces {packet : List UInt8} (hholds : w.r.Holds packet) {rc : Int}
    (hrun : ptpSendPacket B fuel packet.length w = .ok rc w') :
    ∃ sent, WrittenTo B packet w sent w' ∧ (rc = packet.length → sent = packet.length) := by
  have hloop : Ends (ptpSendPacket B fuel packet.length) w (fun rc v => ∃ k < fuel, (∀ j < k, True) ∧
      ∃ sent, WrittenTo B packet w sent v ∧ (rc = packet.length → sent = packet.length))
      fun _ _ => True := by
    apply Ends.iterate (fun _ sent v => WrittenTo B packet w sent v)
    · intro k sent v hwritten
      constructor
      · intro r u hbody
        obtain ⟨count, hwritten', hcases⟩ := ptpSendPacketBody_piece hholds hwritten hbody
        rcases hcases with rfl | ⟨rfl, hall⟩ | rfl
        · exact ⟨trivial, hwritten'⟩
        · exact ⟨_, hwritten', fun _ => hall⟩
        · refine ⟨_, hwritten', fun hlength => ?_⟩
          have hnonneg : (0 : Int) ≤ packet.length := Int.natCast_nonneg _
          rw [← hlength] at hnonneg
          exact absurd hnonneg (by decide)
      · exact fun _ => trivial
    · exact ⟨rfl, [], (List.append_nil _).symm, by simp, fun _ => rfl⟩
    · exact fun _ _ _ => trivial
  obtain ⟨_, _, _, h⟩ := hloop.of_ok hrun
  exact h

/-- What a transmission of packets has written. -/
structure Transmitted (B : Backend σ) (packets : List (List UInt8)) (w : World σ) (sent : Bool)
    (w' : World σ) (calls : List Call) : Prop where
  log : w'.log = w.log ++ calls
  pieces : ∀ call ∈ calls, call.PieceOf packets
  beginning : B.Counts → writtenBytes calls <+: packets.flatten
  all : B.Counts → sent = true → writtenBytes calls = packets.flatten

theorem transmit_pieces {build : M σ Int} {packet : List UInt8} {sent : Bool}
    (hpacket : ∀ {length : Int} {v : World σ}, build w = .ok length v →
      length = packet.length ∧ v.log = w.log ∧ v.r.Holds packet)
    (hrun : transmit B fuel build w = .ok sent w') :
    ∃ calls, Transmitted B [packet] w sent w' calls := by
  obtain ⟨length, v, hbuilt, hrest⟩ := bind_eq_ok.mp hrun
  obtain ⟨rc, u, hsend, hdone⟩ := bind_eq_ok.mp hrest
  obtain ⟨rfl, hlog, hholds⟩ := hpacket hbuilt
  obtain ⟨rfl, rfl⟩ := EStateM.Result.ok.inj hdone
  obtain ⟨count, ⟨_, calls, hcalls, hpieces, hbytes⟩, hall⟩ := ptpSendPacket_pieces hholds hsend
  refine ⟨calls, by rw [hcalls, hlog], hpieces, fun hcounts => ?_, fun hcounts hsent => ?_⟩
  · rw [hbytes hcounts, List.flatten_singleton]
    exact List.take_prefix _ _
  · rw [hbytes hcounts, hall (of_decide_eq_true hsent), List.take_length, List.flatten_singleton]

/-! ## Attempts -/

theorem ptpNewCmdPacket_packet (cmd : PtpCommand) (hallocated : Allocated w.r)
    {endpoint : Endpoint} (hendpoint : bulkEndpoint w.r.connectionType = some endpoint)
    (hdata : w.r.data ≠ none) {length : Int} (hrun : ptpNewCmdPacket cmd w = .ok length w') :
    length = (commandContainer cmd w.r.transactionId).length ∧ w'.log = w.log ∧
      w'.r.Holds (commandContainer cmd w.r.transactionId) := by
  obtain ⟨buffer, hbuffer, _, _, hdefault⟩ := hallocated.sized hdata
  have hsize : 32 ≤ buffer.size := le_trans (by decide) hdefault
  have hle := cmd.paramLength_le
  rw [ptpNewCmdPacket_ok hbuffer cmd hendpoint hsize] at hrun
  obtain ⟨rfl, rfl⟩ := EStateM.Result.ok.inj hrun
  have hlength := commandContainer_length cmd w.r.transactionId
  refine ⟨by rw [hlength], rfl, _, rfl, ?_, Buffer.store_slice_self _ _ _⟩
  rw [Buffer.store_size, hlength]
  omega

theorem ptpusbNewDataPacket_packet (cmd : PtpCommand) (data : List UInt8) {length : Int}
    (hrun : ptpusbNewDataPacket cmd data w = .ok length w') :
    length = (dataContainer cmd w.r.transactionId data).length ∧ w'.log = w.log ∧
      w'.r.Holds (dataContainer cmd w.r.transactionId data) := by
  obtain ⟨rest, v, hlength, hstores⟩ := bind_eq_ok.mp
    ((bind_ok (runtime_run w)).symm.trans hrun)
  obtain ⟨_, hfits, hsame⟩ := intAdd_eq_ok hlength
  rw [hsame] at hstores
  obtain ⟨_, v', hheader, hbody⟩ := bind_eq_ok.mp hstores
  obtain ⟨_, u, hdata, _⟩ := bind_eq_ok.mp hbody
  obtain ⟨buffer, hbuffer, _, hsame⟩ := storeData_eq_ok hheader
  obtain ⟨buffer', hbuffer', hroom, _⟩ := storeData_eq_ok hdata
  rw [hbuffer', Option.map_some, Option.some.injEq] at hsame
  obtain ⟨built, hsize, hslice, hbuilds⟩ := ptpusbNewDataPacket_ok hbuffer cmd data (by omega) hfits.2
  rw [hbuilds] at hrun
  obtain ⟨rfl, rfl⟩ := EStateM.Result.ok.inj hrun
  have hcontainer := dataContainer_length cmd w.r.transactionId data
  refine ⟨by rw [hcontainer], rfl, built, rfl, ?_, by rw [hcontainer]; exact hslice⟩
  omega

/-- Both packets of a request with data are made with the same transaction ID. -/
theorem Operation.transmission_pieces (op : Operation) (hallocated : Allocated w.r) {sent : Bool}
    (hrun : op.transmission B fuel w = .ok sent w') :
    ∃ calls, Transmitted B (op.packets w.r.transactionId) w sent w' calls := by
  obtain ⟨_, endpoint, hendpoint⟩ := op.transmission_settings hrun
  have hdata := op.data_of_transmission hrun
  cases op with
  | send cmd =>
      exact transmit_pieces
        (fun hbuilt => ptpNewCmdPacket_packet cmd hallocated hendpoint hdata hbuilt) hrun
  | sendData cmd data =>
      obtain ⟨done, v, hcommand, hrest⟩ := bind_eq_ok.mp hrun
      obtain ⟨calls, hlog, hpieces, hbeginning, hall⟩ := transmit_pieces
        (fun hbuilt => ptpNewCmdPacket_packet cmd hallocated hendpoint hdata hbuilt) hcommand
      have htransaction : v.r.transactionId = w.r.transactionId := by
        rw [((transmitCmd_sends cmd).of_ok hcommand).2.runtime]
        rfl
      have hsub : [commandContainer cmd w.r.transactionId] ⊆
          (Operation.sendData cmd data).packets w.r.transactionId := by simp [Operation.packets]
      cases done with
      | false =>
          rw [if_neg (by simp)] at hrest
          obtain ⟨rfl, rfl⟩ := EStateM.Result.ok.inj hrest
          refine ⟨calls, hlog, fun call hcall => (hpieces call hcall).mono hsub, fun hcounts => ?_,
            fun _ h => by cases h⟩
          exact (hbeginning hcounts).trans (by simp [Operation.packets])
      | true =>
          rw [if_pos rfl] at hrest
          obtain ⟨calls', hlog', hpieces', hbeginning', hall'⟩ := transmit_pieces
            (fun hbuilt => ptpusbNewDataPacket_packet cmd data hbuilt) hrest
          rw [htransaction] at hpieces' hbeginning' hall'
          have hsub' : [dataContainer cmd w.r.transactionId data] ⊆
              (Operation.sendData cmd data).packets w.r.transactionId := by simp [Operation.packets]
          refine ⟨calls ++ calls', by rw [hlog', hlog, List.append_assoc], fun call hcall => ?_,
            fun hcounts => ?_, fun hcounts hsent => ?_⟩
          · rcases List.mem_append.mp hcall with hcall | hcall
            · exact (hpieces call hcall).mono hsub
            · exact (hpieces' call hcall).mono hsub'
          · rw [writtenBytes_append, hall hcounts rfl]
            simpa [Operation.packets] using hbeginning' hcounts
          · rw [writtenBytes_append, hall hcounts rfl, hall' hcounts hsent]
            simp [Operation.packets]

/-- The calls of one attempt that returns `rc`. -/
structure Attempted (B : Backend σ) (packets : List (List UInt8)) (rc : Int) (calls : List Call) :
    Prop where
  pieces : ∀ call ∈ calls, call.PieceOf packets
  beginning : B.Counts → writtenBytes calls <+: packets.flatten
  all : B.Counts → writtenBytes calls = packets.flatten ∨
    rc = PtpGeneralError.ioErr ∧ ∀ call ∈ calls, call.isWrite = true

theorem Operation.attempt_pieces (op : Operation) (hallocated : Allocated w.r)
    (hpacket : w.r.maxPacketSize ≤ intMax) {rc : Int} (hrun : op.attempt B fuel w = .ok rc w') :
    ∃ calls, w'.log = w.log ++ calls ∧ Attempted B (op.packets w.r.transactionId) rc calls := by
  rcases op.attempt_cases hallocated hpacket hrun with ⟨hsent, rfl⟩ | ⟨c, hsent, hreceive⟩
  · obtain ⟨calls, hlog, hpieces, hbeginning, _⟩ := op.transmission_pieces hallocated hsent
    obtain ⟨writes, hlog', hwrites⟩ := (op.transmission_sends.of_ok hsent).1
    obtain rfl := List.append_cancel_left (hlog.symm.trans hlog')
    exact ⟨calls, hlog, hpieces, hbeginning, fun _ => .inr ⟨rfl, hwrites⟩⟩
  · obtain ⟨calls, hlog, hpieces, hbeginning, hall⟩ := op.transmission_pieces hallocated hsent
    obtain ⟨reads, hreads, honly⟩ := (ptpusbReadAllPackets_onlyReads B fuel).of_ok hreceive |>.1
    have hsilent := writtenBytes_of_reads honly
    refine ⟨calls ++ reads, by rw [hreads, hlog, List.append_assoc], fun call hcall => ?_,
      fun hcounts => ?_, fun hcounts => .inl ?_⟩
    · rcases List.mem_append.mp hcall with hcall | hcall
      · exact hpieces call hcall
      · have hread := honly call hcall
        cases call with
        | write => cases hread
        | read => trivial
    · rw [writtenBytes_append, hsilent, List.append_nil]
      exact hbeginning hcounts
    · rw [writtenBytes_append, hsilent, List.append_nil]
      exact hall hcounts rfl

/-- The calls of an operation whose last attempt returns `rc`: one attempt, or an attempt that
was ignored and a second one with the same packets. -/
inductive Tries (B : Backend σ) (packets : List (List UInt8)) (rc : Int) : List Call → Prop
  | once {calls : List Call} : rc ≠ PtpGeneralError.commandIgnored → Attempted B packets rc calls →
      Tries B packets rc calls
  | again {first second : List Call} : Attempted B packets PtpGeneralError.commandIgnored first →
      Attempted B packets rc second → Tries B packets rc (first ++ second)

theorem Attempts.tries {op : Operation} {rc : Int}
    (hattempts : Attempts (op.attempt B fuel) w rc w') (hallocated : Allocated w.r)
    (hpacket : w.r.maxPacketSize ≤ intMax) :
    ∃ calls, w'.log = w.log ++ calls ∧ Tries B (op.packets w.r.transactionId) rc calls := by
  cases hattempts with
  | first hrun hrc =>
      obtain ⟨calls, hlog, hcalls⟩ := op.attempt_pieces hallocated hpacket hrun
      exact ⟨calls, hlog, .once hrc hcalls⟩
  | second hfirst hsecond =>
      rename_i u
      obtain ⟨first, hlog, hcalls⟩ := op.attempt_pieces hallocated hpacket hfirst
      obtain ⟨hsetup, hkeeps⟩ := op.attempt_keeps hfirst
      obtain ⟨second, hlog', hcalls'⟩ := op.attempt_pieces (hkeeps hallocated)
        (hsetup.packet.le hpacket (by decide)) hsecond
      have htransaction : u.r.transactionId = w.r.transactionId := by
        rw [hsetup.runtime]
        rfl
      rw [htransaction] at hcalls'
      exact ⟨first ++ second, by rw [hlog', hlog, List.append_assoc],
        .again hcalls hcalls'⟩

/-- Every write of an operation that is not refused hands over a piece of its packets. -/
theorem Tries.pieces {packets : List (List UInt8)} {calls : List Call}
    {rc : Int} (htries : Tries B packets rc calls) : ∀ call ∈ calls, call.PieceOf packets := by
  cases htries with
  | once _ hcalls => exact hcalls.pieces
  | again hfirst hsecond =>
      intro call hcall
      rcases List.mem_append.mp hcall with hcall | hcall
      · exact hfirst.pieces call hcall
      · exact hsecond.pieces call hcall

theorem Operation.tries (op : Operation) (hallocated : Allocated w.r)
    (hpacket : w.r.maxPacketSize ≤ intMax) (hkill : w.r.operationKillSwitch = false) {rc : Int}
    (hrun : op.exec B fuel w = .ok rc w') : ∃ rc' calls, w'.log = w.log ++ calls ∧
      Tries B (op.packets w.r.transactionId) rc' calls := by
  obtain ⟨w₀, v, rc', hran⟩ := op.ran hallocated hkill hrun
  obtain ⟨calls, hlog, htries⟩ := hran.attempts.tries hran.allocated
    (hran.setup.packet.le hpacket (by decide))
  have htransaction : w₀.r.transactionId = w.r.transactionId := by
    rw [hran.setup.runtime]
    rfl
  rw [htransaction] at htries
  have hend : v.log = w'.log := by
    rcases hran.result with ⟨_, _, rfl⟩ | ⟨_, rfl, _⟩ <;> rfl
  refine ⟨rc', calls, ?_, htries⟩
  rw [← hend, hlog, hran.log]

end Libpict
