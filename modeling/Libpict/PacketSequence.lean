import Libpict.Accessors
import Libpict.PacketReceive

/-! # Packet sequences

`ptpip_receive_bulk_packets` reads one packet, or three if the first announces data.
Each call finds the packets before it in the buffer, so that a call that succeeds
leaves all packets there, one behind the other.
-/

namespace Libpict

open Bytes CInt Exec PtpRuntime

variable {σ : Type} {B : Backend σ} {w w' : World σ} {fuel : Nat}

namespace PacketCall

/-- The first call in a runtime that is ready. -/
def first (B : Backend σ) (w : World σ) {buffer : Buffer} (hready : w.r.Ready buffer) :
    PacketCall B where
  start := w
  offset := 0
  buffer := buffer
  data := hready.1
  dataLength := by
    rw [toInt32_of_fits ⟨by omega, hready.2.2.1⟩]
    exact hready.2.1
  size_le := by
    have hsize := hready.2.2.1
    omega
  offset_le := by decide
  header_le := le_trans (by decide) hready.2.2.2

/-- The buffer of the call starts with the given bytes, up to its offset. -/
def Behind (c : PacketCall B) (bytes : List UInt8) : Prop :=
  c.offset = bytes.length ∧ c.buffer.slice 0 c.offset = bytes

theorem first_behind {buffer : Buffer} (hready : w.r.Ready buffer) :
    (first B w hready).Behind [] := ⟨rfl, rfl⟩

section Arrived

variable {c : PacketCall B} {front bytes : List UInt8} (hbehind : c.Behind front)
  (harrived : c.Arrived bytes w)

include hbehind harrived

/-- After a packet, the buffer starts with everything received so far. -/
theorem Arrived.holds : w.r.Holds (front ++ bytes) := by
  obtain ⟨hoffset, hfront⟩ := hbehind
  obtain ⟨buffer, hslice, hbytes, hsize, hr⟩ := harrived.runtime
  have hheader := c.header_le
  have hroom := lt_roomFor c.buffer.size (c.offset + 4 + bytes.length)
  refine ⟨buffer, by rw [hr], ?_, ?_⟩
  · rw [List.length_append, ← hoffset]
    omega
  · rw [List.length_append, ← hoffset, Buffer.slice_add, hslice, hfront, Nat.zero_add, hbytes]

/-- The next call starts behind the packet, if its length field still has room. -/
theorem Arrived.next (hoffset : (c.offset + bytes.length : Int) ≤ intMax)
    (hheader : bytes.length = 4 → c.offset + 8 ≤ c.buffer.size) :
    ∃ next : PacketCall B, next.start = w ∧ next.offset = c.offset + bytes.length ∧
      next.Behind (front ++ bytes) := by
  obtain ⟨hoffset_eq, hfront⟩ := hbehind
  obtain ⟨buffer, hslice, hbytes, hsize, hr⟩ := harrived.runtime
  have hsize_le := c.size_le
  have hroom := lt_roomFor c.buffer.size (c.offset + 4 + bytes.length)
  have hroom_le := roomFor_le c.buffer.size (c.offset + 4 + bytes.length)
  refine ⟨⟨w, c.offset + bytes.length, buffer, by rw [hr], by rw [hr], by omega,
    by push_cast; exact hoffset, by omega⟩, rfl, rfl, ?_, ?_⟩
  · rw [List.length_append, ← hoffset_eq]
  · change buffer.slice 0 (c.offset + bytes.length) = front ++ bytes
    rw [Buffer.slice_add, hslice, hfront, Nat.zero_add, hbytes]

/-- The fields of the packet are found at its offset. -/
theorem Arrived.loadLe (size offset : Nat) (hle : offset + size ≤ bytes.length) :
    w.r.loadLe size (c.offset + offset) = .ok (Libpict.field size offset bytes) := by
  rw [← field_behind size offset front bytes]
  exact (harrived.holds hbehind).loadLe (front.length + offset) size
    (by rw [hbehind.1]; push_cast; rfl) (by rw [List.length_append]; omega)

omit hbehind in
theorem Arrived.connectionType : w.r.connectionType = c.start.r.connectionType := by
  obtain ⟨buffer, _, _, _, hr⟩ := harrived.runtime
  rw [hr]

end Arrived

/-- The call behind the first packet. -/
theorem next_of_first {buffer : Buffer} (hready : w.r.Ready buffer) {fuel : Nat} {rc : Int}
    {v : World σ} (hrun : (first B w hready).run fuel = .ok rc v) (hrc : 0 ≤ rc) :
    ∃ (next : PacketCall B) (bytes : List UInt8), next.start = v ∧ (next.offset : Int) = rc ∧
      next.Behind bytes := by
  obtain ⟨bytes, harrived, rfl⟩ := (first B w hready).arrived_of_run hrun hrc
  have hlength_le := harrived.length_le
  obtain ⟨next, hstart, hoffset, hbehind⟩ := harrived.next (first_behind hready)
    (by change ((0 : Nat) + bytes.length : Int) ≤ intMax; omega)
    (fun _ => le_trans (by decide : 0 + 8 ≤ ptpDefaultSize) hready.2.2.2)
  refine ⟨next, _, hstart, ?_, hbehind⟩
  rw [hoffset]
  change ((0 + bytes.length : Nat) : Int) = bytes.length
  rw [Nat.zero_add]

/-- The call behind a packet whose type and length have been looked at. -/
theorem next_of_length {c : PacketCall B} {front : List UInt8} (hbehind : c.Behind front)
    {fuel : Nat} {rc : Int} {v : World σ} (hrun : c.run fuel = .ok rc v) (hrc : 0 ≤ rc)
    {type length : Nat} (htype : v.r.loadU32 (c.offset + 4) = .ok type)
    (hlength : v.r.loadU32 c.offset = .ok length) (hfits : Fits (c.offset + toInt32 length)) :
    ∃ next : PacketCall B, next.start = v ∧ (next.offset : Int) = c.offset + toInt32 length := by
  obtain ⟨bytes, harrived, _⟩ := c.arrived_of_run hrun hrc
  have hvalue : length = bytes.length := by
    have hload := harrived.loadLe hbehind 4 0 harrived.length_ge
    rw [harrived.field, Nat.cast_zero, add_zero] at hload
    exact Except.ok.inj (hlength.symm.trans hload)
  have hint : toInt32 length = bytes.length := by
    rw [hvalue]
    exact toInt32_of_fits ⟨by omega, harrived.length_le⟩
  -- the type field was loaded, so there is room for the next length field
  have hroom : bytes.length = 4 → c.offset + 8 ≤ c.buffer.size := by
    intro hbare
    obtain ⟨buffer, _, _, hkept, hr⟩ := harrived.runtime
    have hinside := size_of_loadLe (b := buffer) (by rw [hr]) htype
    omega
  obtain ⟨next, hstart, hoffset, _⟩ :=
    harrived.next hbehind (by rw [← hint]; exact hfits.2) hroom
  refine ⟨next, hstart, ?_⟩
  rw [hint, hoffset]
  push_cast
  rfl

end PacketCall

/-- What a successful receive leaves behind: the buffer starts with `bytes`, which are one
packet or three, and the accessors find a response in it. -/
structure PacketReply (bytes : List UInt8) (r : PtpRuntime) : Prop where
  holds : r.Holds bytes
  length_le : bytes.length ≤ 4294967294
  returnCode : ∃ code, ptpGetReturnCode r = .ok code
  packets :
    (4 ≤ bytes.length ∧ field 4 0 bytes = bytes.length ∧ r.loadU32 4 = .ok ptpipCommandResponse) ∨
    ∃ first second third : List UInt8, bytes = first ++ (second ++ third) ∧
      (4 ≤ first.length ∧ field 4 0 first = first.length) ∧
      (4 ≤ second.length ∧ field 4 0 second = second.length) ∧
      (4 ≤ third.length ∧ field 4 0 third = third.length)

/-- The third packet completes a reply. -/
theorem response_of_run {c : PacketCall B} {first second : List UInt8}
    (hbehind : c.Behind (first ++ second)) (hfirst : 4 ≤ first.length ∧ field 4 0 first = first.length)
    (hsecond : 4 ≤ second.length ∧ field 4 0 second = second.length)
    (hrun : ptpipReceiveResponse B fuel c.offset c.start = .ok 0 w') :
    ∃ third, PacketReply (first ++ (second ++ third)) w'.r ∧ c.Arrived third w' := by
  obtain ⟨rc, v, hread, hrest⟩ := bind_eq_ok.mp hrun
  by_cases hneg : rc < 0
  · rw [if_pos hneg] at hrest
    obtain ⟨rfl, _⟩ := EStateM.Result.ok.inj hrest
    exact absurd hneg (by decide)
  rw [if_neg hneg] at hrest
  obtain ⟨third, harrived, rfl⟩ := c.arrived_of_run hread (not_lt.mp hneg)
  obtain ⟨type, u, htype, hrest'⟩ := bind_eq_ok.mp hrest
  obtain ⟨hload, rfl⟩ := inspect_eq_ok htype
  by_cases hresponse : type ≠ ptpipCommandResponse
  · rw [if_pos hresponse] at hrest'
    obtain ⟨hrc, _⟩ := EStateM.Result.ok.inj hrest'
    exact absurd hrc (by decide)
  rw [if_neg hresponse] at hrest'
  obtain ⟨code, v, hcode, hdone⟩ := bind_eq_ok.mp hrest'
  obtain ⟨hcode, rfl⟩ := inspect_eq_ok hcode
  obtain ⟨_, rfl⟩ := EStateM.Result.ok.inj hdone
  have hholds := harrived.holds hbehind
  rw [List.append_assoc] at hholds
  refine ⟨third, ⟨hholds, ?_, ⟨code, hcode⟩, .inr ⟨first, second, third, rfl, hfirst, hsecond,
    harrived.length_ge, harrived.field⟩⟩, harrived⟩
  have hoffset := hbehind.1
  have hoffset_le := c.offset_le
  have hlength_le := harrived.length_le
  rw [List.length_append] at hoffset
  rw [List.length_append, List.length_append]
  unfold intMax at hoffset_le hlength_le
  omega

/-- The packets behind a start-data packet. -/
theorem data_of_run {c : PacketCall B} {first : List UInt8} (hbehind : c.Behind first)
    (hfirst : 4 ≤ first.length ∧ field 4 0 first = first.length)
    (hrun : ptpipReceiveData B fuel c.offset c.start = .ok 0 w') :
    w'.r.connectionType = c.start.r.connectionType ∧ ∃ rest calls,
      PacketReply (first ++ rest) w'.r ∧ w'.log = c.start.log ++ calls ∧ readBytes calls = rest := by
  obtain ⟨rc, v, hread, hrest⟩ := bind_eq_ok.mp hrun
  by_cases hneg : rc < 0
  · rw [if_pos hneg] at hrest
    obtain ⟨rfl, _⟩ := EStateM.Result.ok.inj hrest
    exact absurd hneg (by decide)
  rw [if_neg hneg] at hrest
  obtain ⟨second, harrived, rfl⟩ := c.arrived_of_run hread (not_lt.mp hneg)
  obtain ⟨type, u, htype, hrest'⟩ := bind_eq_ok.mp hrest
  clear hrest
  obtain ⟨htype, rfl⟩ := inspect_eq_ok htype
  by_cases hend : type ≠ ptpipDataPacketEnd
  · rw [if_pos hend] at hrest'
    obtain ⟨hrc, _⟩ := EStateM.Result.ok.inj hrest'
    exact absurd hrc (by decide)
  rw [if_neg hend] at hrest'
  obtain ⟨length, u, hlength, hthird⟩ := bind_eq_ok.mp hrest'
  clear hrest'
  obtain ⟨hlength, rfl⟩ := inspect_eq_ok hlength
  obtain ⟨third, u, hadd, hresponse⟩ := bind_eq_ok.mp hthird
  clear hthird
  obtain ⟨hthird, hfits, hsame⟩ := intAdd_eq_ok hadd
  rw [hthird, hsame] at hresponse
  have hholds := harrived.holds hbehind
  have hlength_ge := harrived.length_ge
  have hlength_le := harrived.length_le
  have hvalue : length = second.length := by
    have hload := hholds.loadLe (p := c.offset) first.length 4 (by rw [hbehind.1])
      (by rw [List.length_append]; omega)
    have hfield : field 4 first.length (first ++ second) = field 4 0 second := by
      unfold field
      rw [List.drop_append_of_le_length le_rfl, List.drop_length, List.nil_append, List.drop_zero]
    rw [hfield, harrived.field] at hload
    exact Except.ok.inj (hlength.symm.trans hload)
  subst hvalue
  rw [toInt32_of_fits ⟨by omega, hlength_le⟩] at hfits hresponse
  -- the type field was loaded, so there is room for the next length field
  have hroom : second.length = 4 → c.offset + 8 ≤ c.buffer.size := by
    intro hbare
    obtain ⟨buffer, _, _, hsize, hr⟩ := harrived.runtime
    have hinside := size_of_loadLe (b := buffer) (by rw [hr]) htype
    omega
  obtain ⟨next, rfl, hoffset, hnext⟩ := harrived.next hbehind hfits.2 hroom
  rw [show (c.offset : Int) + second.length = (next.offset : Int) by rw [hoffset]; push_cast; rfl]
    at hresponse
  obtain ⟨third, hreply, harrived'⟩ := response_of_run hnext hfirst
    ⟨hlength_ge, harrived.field⟩ hresponse
  obtain ⟨calls, hlog, hcalls⟩ := harrived.log
  obtain ⟨calls', hlog', hcalls'⟩ := harrived'.log
  refine ⟨harrived'.connectionType.trans harrived.connectionType, second ++ third, calls ++ calls',
    hreply, ?_, ?_⟩
  · rw [hlog', hlog, List.append_assoc]
  · rw [readBytes_append, hcalls, hcalls']

/-- What has been received in a successful run. -/
theorem packetReply_of_run {buffer : Buffer} (hready : w.r.Ready buffer)
    (hrun : ptpipReceiveBulkPackets B fuel w = .ok 0 w') :
    w'.r.connectionType = w.r.connectionType ∧ ∃ bytes calls, PacketReply bytes w'.r ∧
      w'.log = w.log ++ calls ∧ readBytes calls = bytes := by
  obtain ⟨rc, w₁, hfirst, hrest⟩ := bind_eq_ok.mp hrun
  by_cases hneg : rc < 0
  · rw [if_pos hneg] at hrest
    obtain ⟨rfl, _⟩ := EStateM.Result.ok.inj hrest
    exact absurd hneg (by decide)
  rw [if_neg hneg] at hrest
  obtain ⟨first, harrived, rfl⟩ := (PacketCall.first B w hready).arrived_of_run hfirst
    (not_lt.mp hneg)
  have hbehind := PacketCall.first_behind (B := B) hready
  have hfirst_ge := harrived.length_ge
  have hfirst_le := harrived.length_le
  obtain ⟨calls, hlog, hcalls⟩ := harrived.log
  obtain ⟨type, v, htype, hrest'⟩ := bind_eq_ok.mp hrest
  clear hrest
  obtain ⟨hload, rfl⟩ := inspect_eq_ok htype
  by_cases hstart : type = ptpipDataPacketStart
  · rw [if_pos hstart] at hrest'
    obtain ⟨next, rfl, hoffset, hnext⟩ := harrived.next hbehind
      (by change ((0 : Nat) + first.length : Int) ≤ intMax; omega)
      (fun _ => le_trans (by decide : 0 + 8 ≤ ptpDefaultSize) hready.2.2.2)
    have hsame : (first.length : Int) = (next.offset : Int) := by
      rw [hoffset]
      change (first.length : Int) = ((0 + first.length : Nat) : Int)
      rw [Nat.zero_add]
    rw [hsame] at hrest'
    obtain ⟨hconn, rest, calls', hreply, hlog', hcalls'⟩ := data_of_run hnext
      ⟨hfirst_ge, harrived.field⟩ hrest'
    refine ⟨hconn.trans harrived.connectionType, _, calls ++ calls', hreply, ?_, ?_⟩
    · rw [hlog', hlog, List.append_assoc]
      rfl
    · rw [readBytes_append, hcalls, hcalls']
      rfl
  rw [if_neg hstart] at hrest'
  by_cases hresponse : type = ptpipCommandResponse
  · rw [if_pos hresponse] at hrest'
    obtain ⟨code, u, hcode, hdone⟩ := bind_eq_ok.mp hrest'
    obtain ⟨hcode, rfl⟩ := inspect_eq_ok hcode
    obtain ⟨_, rfl⟩ := EStateM.Result.ok.inj hdone
    refine ⟨harrived.connectionType, first, calls, ⟨harrived.holds hbehind, ?_, ⟨code, hcode⟩,
      .inl ⟨hfirst_ge, harrived.field, hresponse ▸ hload⟩⟩, hlog, hcalls⟩
    unfold intMax at hfirst_le
    omega
  · rw [if_neg hresponse] at hrest'
    obtain ⟨hrc, _⟩ := EStateM.Result.ok.inj hrest'
    exact absurd hrc (by decide)

end Libpict
