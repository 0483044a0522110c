import Libpict.PacketSequence

/-! # Reassembly of PTP/IP replies

A socket delivers a reply in reads that may be shorter than what was asked for. The
bytes that `ptpip_receive_bulk_packets` puts together do not depend on the cuts, but
whether it gets to the end does: the first read of each packet has to get the whole
length field.
-/

namespace Libpict

open Bytes CInt Exec PtpRuntime

variable {σ : Type} {B : Backend σ} {stream : σ → List UInt8}

/-- As long as there is more of the stream, every read of the socket gets some of it. -/
def Backend.Delivers (B : Backend σ) (stream : σ → List UInt8) : Prop :=
  ∀ size device, 0 < size → stream device ≠ [] →
    ∃ got, B.readResult .socket size device = some got ∧ got ≠ [] ∧
      stream device = got ++ stream (B.cmdRead .socket size device).2

/-- The device after the reads for a packet: one for the length field, and as many as it
takes for the rest. -/
def Backend.afterPacket (B : Backend σ) (length : Nat) (device : σ) : σ :=
  let opened := (B.cmdRead .socket 4 device).2
  let rounds := (List.range length).find? fun k =>
    (B.fill (length - 4) opened k).1.length = length - 4
  (B.fill (length - 4) opened (rounds.getD 0)).2

/-- A read for the bytes that are missing of a packet. -/
theorem Backend.Delivers.read_behind (hB : B.Delivers stream) {device device' : σ} {total : Nat}
    (htotal : total ≤ (stream device).length) {filled : List UInt8}
    (hsplit : stream device = filled ++ stream device') (hmissing : filled.length < total) :
    ∃ got, B.readResult .socket (total - filled.length) device' = some got ∧ got ≠ [] ∧
      stream device' = got ++ stream (B.cmdRead .socket (total - filled.length) device').2 := by
  have hlength := congrArg List.length hsplit
  rw [List.length_append] at hlength
  exact hB _ _ (by omega) (List.ne_nil_of_length_pos (by omega))

/-- As long as bytes are missing, every read gets some of them. -/
theorem Backend.Delivers.fill (hB : B.Delivers stream) {device : σ} {total : Nat}
    (htotal : total ≤ (stream device).length) {k : Nat}
    (hmissing : ∀ j < k, (B.fill total device j).1.length < total) :
    stream device = (B.fill total device k).1 ++ stream (B.fill total device k).2 ∧
      k ≤ (B.fill total device k).1.length := by
  induction k with
  | zero => exact ⟨rfl, Nat.zero_le _⟩
  | succ k ih =>
      obtain ⟨hsplit, hge⟩ := ih fun j hj => hmissing j (by omega)
      obtain ⟨got, hread, hne, hrest⟩ := hB.read_behind htotal hsplit (hmissing k (by omega))
      have hstep : B.fill total device (k + 1) = ((B.fill total device k).1 ++
          (B.readResult .socket (total - (B.fill total device k).1.length)
            (B.fill total device k).2).getD [],
          (B.cmdRead .socket (total - (B.fill total device k).1.length)
            (B.fill total device k).2).2) := rfl
      have hpositive := List.length_pos_iff.mpr hne
      rw [hstep, hread, Option.getD_some, List.length_append, List.append_assoc, ← hrest]
      exact ⟨hsplit, by omega⟩

theorem Backend.Delivers.fill_delivers (hB : B.Delivers stream) {device : σ} {total : Nat}
    (htotal : total ≤ (stream device).length) {k : Nat}
    (hmissing : ∀ j < k + 1, (B.fill total device j).1.length < total) :
    B.readResult .socket (total - (B.fill total device k).1.length) (B.fill total device k).2 ≠
      none := by
  obtain ⟨hsplit, _⟩ := hB.fill htotal fun j (hj : j < k) => hmissing j (by omega)
  obtain ⟨got, hread, _⟩ := hB.read_behind htotal hsplit (hmissing k (by omega))
  rw [hread]
  exact Option.some_ne_none got

/-- The reads for the rest of a packet end with its last byte. -/
theorem Backend.Delivers.filled (hB : B.Delivers stream) {device : σ} {total : Nat}
    (htotal : total ≤ (stream device).length) (hpositive : 0 < total) :
    ∃ k < total, (∀ j < k + 1, (B.fill total device j).1.length < total) ∧
      (B.fill total device (k + 1)).1.length = total := by
  have hends : ∃ k, (B.fill total device k).1.length = total := by
    by_contra hnever
    have hmissing : ∀ j < total + 1, (B.fill total device j).1.length < total := fun j _ =>
      lt_of_le_of_ne (B.fill_length_le _ _ _) fun h => hnever ⟨j, h⟩
    have hfull := (hB.fill htotal hmissing).2
    exact absurd (B.fill_length_le total device (total + 1)) (by omega)
  classical
  obtain ⟨k, hk⟩ : ∃ k, Nat.find hends = k + 1 := by
    refine Nat.exists_eq_succ_of_ne_zero fun hzero => ?_
    have hnothing := Nat.find_spec hends
    rw [hzero] at hnothing
    change 0 = total at hnothing
    omega
  have hdone := Nat.find_spec hends
  rw [hk] at hdone
  have hmissing : ∀ j < k + 1, (B.fill total device j).1.length < total := fun j hj =>
    lt_of_le_of_ne (B.fill_length_le _ _ _) (Nat.find_min hends (by omega))
  have hge := (hB.fill htotal hmissing).2
  exact ⟨k, by omega, hmissing, hdone⟩

/-! ## One packet -/

/-- A packet of the given length can be received: its length field arrives in one read,
and its end and the room for it are in the range of `int`, if the allocator has the
memory. -/
structure Takes (B : Backend σ) (wait offset size reallocs : Nat) (device : σ) (length : Nat) :
    Prop where
  wait : 1 ≤ wait
  uncut : ((B.readResult .socket 4 device).getD []).length = 4
  length_le : (length : Int) ≤ intMax
  offset_le : (offset + 4 : Int) ≤ intMax
  grows : size ≤ offset + 4 + length →
    (size : Int) ≤ intMax ∧ B.realloc reallocs (offset + 4 + length + 100) = true

namespace PacketCall

variable (c : PacketCall B)

/-- The call can receive a packet of the given length. -/
abbrev Takes (length : Nat) : Prop :=
  Libpict.Takes B c.start.r.waitForResponse c.offset c.buffer.size c.start.reallocs c.start.device
    length

/-- The packet has been received, and nothing behind it. -/
structure Taken (packet : List UInt8) (w : World σ) : Prop where
  arrived : c.Arrived packet w
  device : w.device = B.afterPacket packet.length c.start.device
  size : ∀ buffer, w.r.data = some buffer →
    buffer.size = roomFor c.buffer.size (c.offset + 4 + packet.length)
  reallocs : w.reallocs =
    c.start.reallocs + if c.offset + 4 + packet.length < c.buffer.size then 0 else 1

section Packet

variable (hB : B.Delivers stream) {packet more : List UInt8} (hlength : 8 ≤ packet.length)
  (hfield : field 4 0 packet = packet.length) (hstream : stream c.start.device = packet ++ more)

include hB hlength hstream

/-- The length field is what the first read gets. -/
theorem header_delivered (hwait : 1 ≤ c.start.r.waitForResponse) :
    c.header = B.readResult .socket 4 c.start.device ∧
      c.device = (B.cmdRead .socket 4 c.start.device).2 := by
  have hne : stream c.start.device ≠ [] := by
    rw [hstream]
    exact List.ne_nil_of_length_pos (by rw [List.length_append]; omega)
  obtain ⟨got, hread, hgot, _⟩ := hB 4 c.start.device (by decide) hne
  obtain ⟨tries, htries⟩ := Nat.exists_eq_add_of_le' hwait
  have hfirst : B.firstRead 4 (tries + 1) (some []) c.start.device =
      (B.readResult .socket 4 c.start.device, (B.cmdRead .socket 4 c.start.device).2) :=
    if_neg (by rw [hread]; exact hgot)
  unfold PacketCall.header PacketCall.device
  rw [htries, hfirst]
  exact ⟨rfl, rfl⟩

include hfield

/-- If the length field arrives at once, it is the length of the packet. -/
theorem length_delivered (hwait : 1 ≤ c.start.r.waitForResponse)
    (huncut : ((B.readResult .socket 4 c.start.device).getD []).length = 4) :
    ∃ header, c.header = some header ∧ header.length = 4 ∧ packet = header ++ packet.drop 4 ∧
      c.length = packet.length ∧ stream c.device = packet.drop 4 ++ more := by
  have hne : stream c.start.device ≠ [] := by
    rw [hstream]
    exact List.ne_nil_of_length_pos (by rw [List.length_append]; omega)
  obtain ⟨header, hread, _, hsplit⟩ := hB 4 c.start.device (by decide) hne
  obtain ⟨hheader, hdevice⟩ := c.header_delivered hB hlength hstream hwait
  rw [hread, Option.getD_some] at huncut
  rw [hstream, ← List.take_append_drop 4 packet, List.append_assoc] at hsplit
  obtain ⟨hfront, hback⟩ := List.append_inj hsplit (by rw [List.length_take, huncut]; omega)
  refine ⟨header, by rw [hheader, hread], huncut, ?_, ?_, by rw [hdevice, ← hback]⟩
  · rw [← hfront, List.take_append_drop]
  · rw [length, hheader, hread, Option.getD_some, ← hfield, ← hfront]
    rfl

/-- A packet that is received can be taken. -/
theorem takes_of_run {fuel : Nat} {rc : Int} {w : World σ} (hrun : c.run fuel = .ok rc w)
    (hrc : 0 ≤ rc) : c.Takes packet.length := by
  obtain ⟨header, hheader, hheader_length⟩ := c.header_of_run hrun hrc
  have hwait : 1 ≤ c.start.r.waitForResponse := by
    by_contra hzero
    have hnothing : c.header = some [] := by
      unfold PacketCall.header
      rw [show c.start.r.waitForResponse = 0 by omega]
      rfl
    rw [hnothing] at hheader
    obtain rfl := Option.some.inj hheader
    cases hheader_length
  have hread := (c.header_delivered hB hlength hstream hwait).1
  have huncut : ((B.readResult .socket 4 c.start.device).getD []).length = 4 := by
    rw [← hread, hheader]
    exact hheader_length
  obtain ⟨_, _, _, _, hlength', _⟩ := c.length_delivered hB hlength hfield hstream hwait huncut
  have hroom := c.room_of_run hheader hheader_length (by omega) hrun hrc
  refine ⟨hwait, huncut, hlength' ▸ hroom.length_le, hroom.offset_le, ?_⟩
  rw [← hlength']
  exact hroom.grows

/-- A packet that can be taken is received in one of the rounds. -/
theorem stops_of_takes (htakes : c.Takes packet.length) :
    ∃ n < packet.length, c.Stops n packet.length ∧
      (c.received (n + 1)).length = c.rest ∧ c.bytes (n + 1) = packet ∧
      (B.fill c.rest c.device (n + 1)).2 = B.afterPacket packet.length c.start.device ∧
      stream (B.fill c.rest c.device (n + 1)).2 = more := by
  obtain ⟨header, hheader, hheader_length, hpacket, hlength', hdevice⟩ :=
    c.length_delivered hB hlength hfield hstream htakes.wait htakes.uncut
  have hopened := (c.header_delivered hB hlength hstream htakes.wait).2
  have hrest : c.rest = packet.length - 4 := by
    unfold rest
    rw [hlength']
  have htotal : c.rest ≤ (stream c.device).length := by
    rw [hdevice, List.length_append, List.length_drop, hrest]
    omega
  obtain ⟨n, hn, hmissing, hdone⟩ := hB.filled htotal (by omega)
  change (c.received (n + 1)).length = c.rest at hdone
  have hsplit := (hB.fill htotal hmissing).1
  rw [hdevice] at hsplit
  change packet.drop 4 ++ more = c.received (n + 1) ++ _ at hsplit
  obtain ⟨hreceived, hmore⟩ :=
    List.append_inj hsplit (by rw [hdone, List.length_drop, hrest])
  refine ⟨n, by omega, ⟨fun j hj => ?_, ?_⟩, hdone, ?_, ?_, hmore.symm⟩
  · have hless : (c.received (j + 1)).length < c.rest := hmissing (j + 1) (by omega)
    have hsome : ¬c.results j = none :=
      hB.fill_delivers htotal fun i hi => hmissing i (by omega)
    unfold outcome
    rw [if_neg hsome, if_neg hless.ne]
  · have hsome : ¬c.results n = none := hB.fill_delivers htotal hmissing
    unfold outcome
    rw [if_neg hsome, if_pos hdone, hlength']
  · rw [bytes, hheader, Option.getD_some, ← hreceived, ← hpacket]
  · have hrounds : (List.range packet.length).find? (fun k =>
        (B.fill (packet.length - 4) c.device k).1.length = packet.length - 4) = some (n + 1) := by
      rw [← hrest, List.find?_range_eq_some]
      refine ⟨decide_eq_true hdone, List.mem_range.mpr (by omega), fun j hj => ?_⟩
      rw [Bool.not_eq_true', decide_eq_false_iff_not]
      exact (hmissing j hj).ne
    unfold Backend.afterPacket
    rw [← hopened]
    dsimp only
    rw [hrounds, hrest]
    rfl

theorem run_takes (htakes : c.Takes packet.length) :
    ∃ w, c.Taken packet w ∧ stream w.device = more ∧
      ∀ fuel > packet.length, c.run fuel = .ok packet.length w := by
  obtain ⟨header, hheader, hheader_length, _, hlength', _⟩ :=
    c.length_delivered hB hlength hfield hstream htakes.wait htakes.uncut
  have hroom : c.Room := by
    refine ⟨by omega, ?_, htakes.offset_le, ?_⟩
    · rw [hlength']
      exact htakes.length_le
    · unfold need
      rw [hlength']
      exact htakes.grows
  obtain ⟨n, hn, hstops, hdone, hpacket, hdevice, hmore⟩ :=
    c.stops_of_takes hB hlength hfield hstream htakes
  obtain ⟨w, hat, hrun⟩ := c.run_stops hheader hheader_length hroom hstops
  have harrived := c.at_arrived hheader hheader_length hroom hat hdone
  rw [hpacket] at harrived
  refine ⟨w, ⟨harrived, by rw [hat.device, hdevice], fun buffer hdata => ?_, ?_⟩,
    by rw [hat.device, hmore], fun fuel hfuel => hrun fuel (by omega)⟩
  · obtain ⟨buffer', hsize, _, _, hr⟩ := hat.runtime
    rw [hr] at hdata
    obtain rfl := Option.some.inj hdata
    rw [hsize, ← hlength']
    rfl
  · rw [hat.reallocs, ← hlength']
    rfl

end Packet

section Arrived

variable {c} {packet : List UInt8} {w : World σ} (harrived : c.Arrived packet w)

include harrived

/-- The code of the response is loaded from the buffer, also if the packet is too short
to have one. -/
theorem Arrived.returnCode (hconn : w.r.connectionType = .ip) (hlength : 8 ≤ packet.length)
    (hfound : ptpipGetResponsePacket w.r = .ok (c.offset : Int)) :
    ∃ code, ptpGetReturnCode w.r = .ok code := by
  obtain ⟨buffer, _, _, hsize, hr⟩ := harrived.runtime
  have hroom := lt_roomFor c.buffer.size (c.offset + 4 + packet.length)
  have hload := loadLe_some (r := w.r) (by rw [hr]) 2 (c.offset + 8)
    (by omega : c.offset + 8 + 2 ≤ buffer.size)
  push_cast at hload
  refine ⟨(leValue (buffer.slice (c.offset + 8) 2) : Int), ?_⟩
  unfold ptpGetReturnCode
  rw [hconn]
  dsimp only
  rw [hfound]
  exact except_bind_eq_ok.mpr ⟨_, rfl, except_bind_eq_ok.mpr ⟨_, hload, rfl⟩⟩

end Arrived

end PacketCall

/-! ## Replies -/

/-- A packet of a reply: its length field is correct and covers its type. -/
structure IpPacket (type : Nat) where
  bytes : List UInt8
  length_ge : 8 ≤ bytes.length
  length_eq : field 4 0 bytes = bytes.length
  type_eq : field 4 4 bytes = type

/-- A reply, without or with a data phase. -/
inductive IpReply
  | response (packet : IpPacket ptpipCommandResponse)
  | data (first : IpPacket ptpipDataPacketStart) (second : IpPacket ptpipDataPacketEnd)
      (third : IpPacket ptpipCommandResponse)

def IpReply.packets : IpReply → List (List UInt8)
  | .response packet => [packet.bytes]
  | .data first second third => [first.bytes, second.bytes, third.bytes]

def IpReply.bytes (reply : IpReply) : List UInt8 := reply.packets.flatten

/-- All packets can be received, one behind the other. -/
def TakesAll (B : Backend σ) (waitDefault : Nat) :
    Nat → Nat → Nat → Nat → σ → List (List UInt8) → Prop
  | _, _, _, _, _, [] => True
  | wait, offset, size, reallocs, device, packet :: rest =>
      Takes B wait offset size reallocs device packet.length ∧
        TakesAll B waitDefault waitDefault (offset + packet.length)
          (roomFor size (offset + 4 + packet.length))
          (reallocs + if offset + 4 + packet.length < size then 0 else 1)
          (B.afterPacket packet.length device) rest

namespace PacketCall

/-- The packets that the call and the calls after it can receive. -/
abbrev TakesAll (c : PacketCall B) (packets : List (List UInt8)) : Prop :=
  Libpict.TakesAll B c.start.r.responseWaitDefault c.start.r.waitForResponse c.offset
    c.buffer.size c.start.reallocs c.start.device packets

variable {c : PacketCall B} {w w' : World σ} {front packet more : List UInt8} {fuel : Nat}

/-- The call behind a packet. -/
theorem Taken.next (htaken : c.Taken packet w) (hbehind : c.Behind front)
    (hlength : 8 ≤ packet.length) (hoffset : (c.offset + packet.length : Int) ≤ intMax) :
    ∃ next : PacketCall B, next.start = w ∧ (next.offset : Int) = c.offset + packet.length ∧
      next.Behind (front ++ packet) ∧
      ∀ rest, c.TakesAll (packet :: rest) ↔ c.Takes packet.length ∧ next.TakesAll rest := by
  obtain ⟨next, rfl, hnext, hbehind'⟩ := htaken.arrived.next hbehind hoffset (by omega)
  obtain ⟨buffer, _, _, _, hr⟩ := htaken.arrived.runtime
  refine ⟨next, rfl, by rw [hnext]; push_cast; rfl, hbehind', fun rest => and_congr_right fun _ => ?_⟩
  unfold PacketCall.TakesAll
  rw [hnext, htaken.size _ next.data, htaken.reallocs, htaken.device, hr]

section Stages

variable (hB : B.Delivers stream) (hbehind : c.Behind front)
  (hconn : c.start.r.connectionType = .ip)

include hB hbehind hconn

theorem receivesResponse_of_takes (third : IpPacket ptpipCommandResponse)
    (hstream : stream c.start.device = third.bytes ++ more) (htakes : c.Takes third.bytes.length)
    (hfound : ∀ r : PtpRuntime, r.Holds (front ++ third.bytes) →
      ptpipGetResponsePacket r = .ok (c.offset : Int)) :
    ∃ w, w.r.Holds (front ++ third.bytes) ∧ ∀ fuel > third.bytes.length,
      ptpipReceiveResponse B fuel c.offset c.start = .ok 0 w := by
  obtain ⟨w, htaken, _, hrun⟩ := c.run_takes hB third.length_ge third.length_eq hstream htakes
  have hholds := htaken.arrived.holds hbehind
  have htype := htaken.arrived.loadLe hbehind 4 4 third.length_ge
  rw [third.type_eq] at htype
  obtain ⟨code, hcode⟩ := htaken.arrived.returnCode
    (htaken.arrived.connectionType.trans hconn) third.length_ge (hfound _ hholds)
  refine ⟨w, hholds, fun fuel hfuel => ?_⟩
  have hpacket : ptpipReadPacket B fuel c.offset c.start = .ok (third.bytes.length : Int) w :=
    hrun fuel hfuel
  unfold ptpipReceiveResponse
  rw [bind_ok hpacket, if_neg (by omega), bind_ok (inspect_ok htype), if_neg (by simp),
    bind_ok (inspect_ok hcode)]
  rfl

omit hbehind hconn in
theorem takes_of_receivesResponse (third : IpPacket ptpipCommandResponse)
    (hstream : stream c.start.device = third.bytes ++ more)
    (hrun : ptpipReceiveResponse B fuel c.offset c.start = .ok 0 w') :
    c.Takes third.bytes.length := by
  obtain ⟨rc, w, hread, hrest⟩ := bind_eq_ok.mp hrun
  by_cases hneg : rc < 0
  · rw [if_pos hneg] at hrest
    obtain ⟨rfl, _⟩ := EStateM.Result.ok.inj hrest
    exact absurd hneg (by decide)
  · exact c.takes_of_run hB third.length_ge third.length_eq hstream hread (not_lt.mp hneg)

omit hB hconn in
/-- The response behind a data phase is found. -/
theorem found_behind_data {first : IpPacket ptpipDataPacketStart}
    {second : IpPacket ptpipDataPacketEnd} (third : IpPacket ptpipCommandResponse)
    (hfront : front = first.bytes ++ second.bytes) {r : PtpRuntime}
    (hholds : r.Holds (front ++ third.bytes)) :
    ptpipGetResponsePacket r = .ok (c.offset : Int) := by
  have hfirst := first.length_ge
  have hsecond := second.length_ge
  have hthird := third.length_ge
  rw [hfront, List.append_assoc] at hholds
  have hoffset := hbehind.1
  rw [hfront, List.length_append] at hoffset
  have htotal : (first.bytes ++ (second.bytes ++ third.bytes)).length =
      first.bytes.length + (second.bytes.length + third.bytes.length) := by simp
  have hload : ∀ (at_ : Int) (offset : Nat), at_ = offset →
      offset + 4 ≤ first.bytes.length + (second.bytes.length + third.bytes.length) →
      r.loadU32 at_ = .ok (field 4 offset (first.bytes ++ (second.bytes ++ third.bytes))) :=
    fun _ offset hat hle => hholds.loadLe offset 4 hat (by rw [htotal]; exact hle)
  rw [ptpipGetResponsePacket_eq_ok]
  refine .inr ⟨?_, first.bytes.length, second.bytes.length, ?_, ?_, ?_, ?_, by omega⟩
  · rw [hload 4 4 rfl (by omega), field_append _ _ _ _ first.length_ge, first.type_eq]
  · rw [hload 0 0 rfl (by omega), field_append _ _ _ _ (by omega), first.length_eq]
  · rw [hload _ (first.bytes.length + 4) (by push_cast; rfl) (by omega), field_behind,
      field_append _ _ _ _ second.length_ge, second.type_eq]
  · rw [hload _ (first.bytes.length + 0) (by push_cast; omega) (by omega), field_behind,
      field_append _ _ _ _ (by omega), second.length_eq]
  · rw [hload _ (first.bytes.length + (second.bytes.length + 4)) (by push_cast; omega) (by omega),
      field_behind, field_behind, third.type_eq]

omit hconn in
/-- The packets behind the start packet: with the second one received, the third is read
at the sum of the offset and its length field. -/
theorem receiveData_run (second : IpPacket ptpipDataPacketEnd)
    (hstream : stream c.start.device = second.bytes ++ more)
    (htakes : c.Takes second.bytes.length) :
    ∃ w, c.Taken second.bytes w ∧ stream w.device = more ∧ ∀ fuel > second.bytes.length,
      ptpipReceiveData B fuel c.offset c.start =
        (intAdd c.offset second.bytes.length >>= ptpipReceiveResponse B fuel) w := by
  obtain ⟨w, htaken, hmore, hrun⟩ := c.run_takes hB second.length_ge second.length_eq hstream htakes
  refine ⟨w, htaken, hmore, fun fuel hfuel => ?_⟩
  have htype := htaken.arrived.loadLe hbehind 4 4 second.length_ge
  have hlength := htaken.arrived.loadLe hbehind 4 0 (by have := second.length_ge; omega)
  rw [second.type_eq] at htype
  rw [second.length_eq, Nat.cast_zero, add_zero] at hlength
  have hpacket : ptpipReadPacket B fuel c.offset c.start = .ok (second.bytes.length : Int) w :=
    hrun fuel hfuel
  have hint : toInt32 second.bytes.length = second.bytes.length :=
    toInt32_of_fits ⟨by omega, htakes.length_le⟩
  unfold ptpipReceiveData
  rw [bind_ok hpacket, if_neg (by omega), bind_ok (inspect_ok htype), if_neg (by simp),
    bind_ok (inspect_ok hlength), hint]

theorem receivesData_of_takes {first : IpPacket ptpipDataPacketStart} (hfront : front = first.bytes)
    (second : IpPacket ptpipDataPacketEnd) (third : IpPacket ptpipCommandResponse)
    (hstream : stream c.start.device = second.bytes ++ (third.bytes ++ more))
    (htakes : c.TakesAll [second.bytes, third.bytes]) :
    ∃ w, w.r.Holds (front ++ (second.bytes ++ third.bytes)) ∧
      ∀ fuel > second.bytes.length + third.bytes.length,
        ptpipReceiveData B fuel c.offset c.start = .ok 0 w := by
  obtain ⟨w₁, htaken, hmore, hdata⟩ := receiveData_run hB hbehind second hstream htakes.1
  have hoffset_le := htakes.2.1.offset_le
  push_cast at hoffset_le
  obtain ⟨next, rfl, hoffset, hnext, htakesAll⟩ :=
    htaken.next hbehind second.length_ge (by omega)
  obtain ⟨w₂, hholds, hresponse⟩ := receivesResponse_of_takes hB hnext
    (htaken.arrived.connectionType.trans hconn) third hmore ((htakesAll _).mp htakes).2.1
    (fun r hholds => found_behind_data hnext third (by rw [hfront]) hholds)
  rw [List.append_assoc] at hholds
  refine ⟨w₂, hholds, fun fuel hfuel => ?_⟩
  rw [hdata fuel (by omega), bind_ok (intAdd_ok ⟨by omega, by unfold intMax at hoffset_le; omega⟩ _),
    ← hoffset]
  exact hresponse fuel (by omega)

omit hconn in
theorem takes_of_receivesData (second : IpPacket ptpipDataPacketEnd)
    (third : IpPacket ptpipCommandResponse)
    (hstream : stream c.start.device = second.bytes ++ (third.bytes ++ more))
    (hfuel : second.bytes.length < fuel)
    (hrun : ptpipReceiveData B fuel c.offset c.start = .ok 0 w') :
    c.TakesAll [second.bytes, third.bytes] := by
  have htakes : c.Takes second.bytes.length := by
    obtain ⟨rc, w, hread, hrest⟩ := bind_eq_ok.mp hrun
    by_cases hneg : rc < 0
    · rw [if_pos hneg] at hrest
      obtain ⟨rfl, _⟩ := EStateM.Result.ok.inj hrest
      exact absurd hneg (by decide)
    · exact c.takes_of_run hB second.length_ge second.length_eq hstream hread (not_lt.mp hneg)
  obtain ⟨w, htaken, hmore, hdata⟩ := receiveData_run hB hbehind second hstream htakes
  rw [hdata fuel hfuel] at hrun
  obtain ⟨offset, v, hadd, hresponse⟩ := bind_eq_ok.mp hrun
  obtain ⟨rfl, hfits, rfl⟩ := intAdd_eq_ok hadd
  obtain ⟨next, rfl, hoffset, _, htakesAll⟩ := htaken.next hbehind second.length_ge hfits.2
  rw [← hoffset] at hresponse
  exact (htakesAll _).mpr ⟨htakes, takes_of_receivesResponse hB third hmore hresponse, trivial⟩

end Stages

end PacketCall

/-! ## Whole receives -/

/-- The call returns 0 with the given bytes at the start of the buffer. -/
def Reassembled (B : Backend σ) (bytes : List UInt8) (w : World σ) : Prop :=
  ∃ w', (∃ enough, ∀ fuel ≥ enough, ptpipReceiveBulkPackets B fuel w = .ok 0 w') ∧ w'.r.Holds bytes

section Receive

variable {w w' : World σ} {buffer : Buffer} {more : List UInt8} {fuel : Nat}
  (hready : w.r.Ready buffer)

theorem first_type {type : Nat} (packet : IpPacket type) {v : World σ}
    (harrived : (PacketCall.first B w hready).Arrived packet.bytes v) :
    v.r.loadU32 4 = .ok type := by
  have htype := harrived.loadLe (PacketCall.first_behind hready) 4 4 packet.length_ge
  rw [packet.type_eq] at htype
  exact htype

variable (hB : B.Delivers stream)

include hB

/-- What follows the first packet depends on its type. -/
theorem receiveBulk_run {type : Nat} (packet : IpPacket type)
    (hstream : stream w.device = packet.bytes ++ more)
    (htakes : (PacketCall.first B w hready).Takes packet.bytes.length) :
    ∃ v, (PacketCall.first B w hready).Taken packet.bytes v ∧ stream v.device = more ∧
      ∀ fuel > packet.bytes.length, ptpipReceiveBulkPackets B fuel w =
        (if type = ptpipDataPacketStart then ptpipReceiveData B fuel packet.bytes.length
        else if type = ptpipCommandResponse then do
          let _ ← inspect ptpGetReturnCode
          pure 0
        else pure PtpGeneralError.ioErr) v := by
  obtain ⟨v, htaken, hmore, hrun⟩ := (PacketCall.first B w hready).run_takes hB packet.length_ge
    packet.length_eq hstream htakes
  refine ⟨v, htaken, hmore, fun fuel hfuel => ?_⟩
  have hpacket : ptpipReadPacket B fuel 0 w = .ok (packet.bytes.length : Int) v := hrun fuel hfuel
  unfold ptpipReceiveBulkPackets
  rw [bind_ok hpacket, if_neg (by omega), bind_ok (inspect_ok (first_type hready packet
    htaken.arrived))]

omit hB in
/-- The call behind the first packet. -/
theorem first_next {packet : List UInt8} {v : World σ}
    (htaken : (PacketCall.first B w hready).Taken packet v) (hlength : 8 ≤ packet.length) :
    ∃ next : PacketCall B, next.start = v ∧ (next.offset : Int) = packet.length ∧
      next.Behind packet ∧ ∀ rest, (PacketCall.first B w hready).TakesAll (packet :: rest) ↔
        (PacketCall.first B w hready).Takes packet.length ∧ next.TakesAll rest := by
  obtain ⟨next, hstart, hoffset, hnext, htakesAll⟩ := htaken.next
    (PacketCall.first_behind hready) hlength (by
      have hle := htaken.arrived.length_le
      change ((0 : Nat) + packet.length : Int) ≤ intMax
      omega)
  refine ⟨next, hstart, ?_, hnext, htakesAll⟩
  rw [hoffset]
  change ((0 : Nat) + packet.length : Int) = packet.length
  omega

theorem receives_of_takes (hconn : w.r.connectionType = .ip) (reply : IpReply)
    (hstream : stream w.device = reply.bytes ++ more)
    (htakes : (PacketCall.first B w hready).TakesAll reply.packets) :
    ∃ w', w'.r.Holds reply.bytes ∧
      ∀ fuel > reply.bytes.length, ptpipReceiveBulkPackets B fuel w = .ok 0 w' := by
  cases reply with
  | response packet =>
      have hbytes : (IpReply.response packet).bytes = packet.bytes := List.flatten_singleton
      rw [hbytes] at hstream ⊢
      obtain ⟨v, htaken, _, hrun⟩ := receiveBulk_run hready hB packet hstream htakes.1
      have hholds := htaken.arrived.holds (PacketCall.first_behind hready)
      have hfound : ptpipGetResponsePacket v.r = .ok 0 :=
        ptpipGetResponsePacket_eq_ok.mpr (.inl ⟨first_type hready packet htaken.arrived, rfl⟩)
      obtain ⟨code, hcode⟩ := htaken.arrived.returnCode
        (htaken.arrived.connectionType.trans hconn) packet.length_ge hfound
      refine ⟨v, hholds, fun fuel hfuel => ?_⟩
      rw [hrun fuel hfuel, if_neg (by decide), if_pos rfl, bind_ok (inspect_ok hcode)]
      rfl
  | data first second third =>
      have hbytes : (IpReply.data first second third).bytes =
          first.bytes ++ (second.bytes ++ third.bytes) := by simp [IpReply.bytes, IpReply.packets]
      rw [hbytes] at hstream ⊢
      rw [List.append_assoc, List.append_assoc] at hstream
      obtain ⟨v, htaken, hmore, hrun⟩ := receiveBulk_run hready hB first hstream htakes.1
      obtain ⟨next, rfl, hoffset, hnext, htakesAll⟩ := first_next hready htaken first.length_ge
      obtain ⟨w', hholds, hdata⟩ := PacketCall.receivesData_of_takes hB hnext
        (htaken.arrived.connectionType.trans hconn) rfl second third hmore
        ((htakesAll _).mp htakes).2
      refine ⟨w', hholds, fun fuel hfuel => ?_⟩
      rw [List.length_append, List.length_append] at hfuel
      rw [hrun fuel (by omega), if_pos rfl, ← hoffset]
      exact hdata fuel (by omega)

theorem takes_of_receives (reply : IpReply) (hstream : stream w.device = reply.bytes ++ more)
    (hfuel : reply.bytes.length < fuel) (hrun : ptpipReceiveBulkPackets B fuel w = .ok 0 w') :
    (PacketCall.first B w hready).TakesAll reply.packets := by
  have hfirst : ∀ {type : Nat} (packet : IpPacket type) {rest : List UInt8},
      stream w.device = packet.bytes ++ rest →
      (PacketCall.first B w hready).Takes packet.bytes.length := by
    intro type packet rest hpacket
    obtain ⟨rc, v, hread, hrest⟩ := bind_eq_ok.mp hrun
    by_cases hneg : rc < 0
    · rw [if_pos hneg] at hrest
      obtain ⟨rfl, _⟩ := EStateM.Result.ok.inj hrest
      exact absurd hneg (by decide)
    · exact (PacketCall.first B w hready).takes_of_run hB packet.length_ge packet.length_eq hpacket
        hread (not_lt.mp hneg)
  cases reply with
  | response packet =>
      have hbytes : (IpReply.response packet).bytes = packet.bytes := List.flatten_singleton
      rw [hbytes] at hstream
      exact ⟨hfirst packet hstream, trivial⟩
  | data first second third =>
      have hbytes : (IpReply.data first second third).bytes =
          first.bytes ++ (second.bytes ++ third.bytes) := by simp [IpReply.bytes, IpReply.packets]
      rw [hbytes, List.append_assoc, List.append_assoc] at hstream
      rw [hbytes, List.length_append, List.length_append] at hfuel
      have htakes := hfirst first hstream
      obtain ⟨v, htaken, hmore, hbulk⟩ := receiveBulk_run hready hB first hstream htakes
      rw [hbulk fuel (by omega), if_pos rfl] at hrun
      obtain ⟨next, rfl, hoffset, hnext, htakesAll⟩ := first_next hready htaken first.length_ge
      rw [← hoffset] at hrun
      exact (htakesAll _).mpr ⟨htakes, PacketCall.takes_of_receivesData hB hnext second third hmore
        (by omega) hrun⟩

end Receive

/-- A reply is put together exactly if each of its packets can be taken: the result is
the same for all cuts that leave the length fields whole. -/
theorem ptpipReceiveBulkPackets_reassembles (hB : B.Delivers stream) {w : World σ}
    {buffer : Buffer} (hready : w.r.Ready buffer) (hconn : w.r.connectionType = .ip)
    (reply : IpReply) {more : List UInt8} (hstream : stream w.device = reply.bytes ++ more) :
    Reassembled B reply.bytes w ↔
      TakesAll B w.r.responseWaitDefault w.r.waitForResponse 0 buffer.size w.reallocs w.device
        reply.packets := by
  constructor
  · rintro ⟨w', ⟨enough, hrun⟩, _⟩
    exact takes_of_receives hready hB reply hstream
      (lt_of_lt_of_le (Nat.lt_succ_self _) (le_max_right enough (reply.bytes.length + 1)))
      (hrun _ (le_max_left _ _))
  · intro htakes
    obtain ⟨w', hholds, hrun⟩ := receives_of_takes hready hB hconn reply hstream htakes
    exact ⟨w', ⟨reply.bytes.length + 1, fun fuel hfuel => hrun fuel hfuel⟩, hholds⟩

/-- A socket that delivers a stream as it is asked for, but at each of its first reads no
more than one byte above a limit. -/
def limited : Backend (List UInt8 × List Nat) where
  cmdWrite _ bytes device := (some bytes.length, device)
  cmdRead _ size device :=
    let count := min size (device.2.headD size + 1)
    (some ⟨device.1.take count, (List.length_take_le _ _).trans (min_le_left _ _)⟩,
      (device.1.drop count, device.2.tail))
  realloc _ _ := true

theorem limited_delivers : limited.Delivers Prod.fst := by
  rintro size ⟨bytes, limits⟩ hsize hne
  refine ⟨bytes.take (min size (limits.headD size + 1)), rfl, fun hnil => ?_,
    (List.take_append_drop _ _).symm⟩
  rcases List.take_eq_nil_iff.mp hnil with hzero | hnil
  · omega
  · exact hne hnil

/-- A runtime as an application sets it up for PTP/IP. -/
def ipWorld (device : σ) : World σ where
  r := { ptpNew (some fun _ => 0) 1 with
    ioKillSwitch := false
    operationKillSwitch := false
    maxPacketSize := 65535 }
  device := device
  reallocs := 0
  log := []

theorem ipWorld_ready (device : σ) : (ipWorld device).r.Ready ⟨ptpDefaultSize, fun _ => 0⟩ :=
  ⟨rfl, rfl, (by decide : (ptpDefaultSize : Int) ≤ intMax), le_rfl⟩

/-- Two bytes of data and a response. -/
def twoBytesReply : IpReply :=
  .data ⟨[20, 0, 0, 0, 9, 0, 0, 0, 7, 0, 0, 0, 2, 0, 0, 0, 0, 0, 0, 0],
      by decide, by decide, by decide⟩
    ⟨[14, 0, 0, 0, 12, 0, 0, 0, 7, 0, 0, 0, 5, 6], by decide, by decide, by decide⟩
    ⟨[14, 0, 0, 0, 7, 0, 0, 0, 1, 32, 7, 0, 0, 0], by decide, by decide, by decide⟩

theorem ptpipReceiveBulkPackets_reassembles_bodies :
    Reassembled limited twoBytesReply.bytes (ipWorld (twoBytesReply.bytes, [3, 1, 4, 8, 3, 5])) :=
  (ptpipReceiveBulkPackets_reassembles limited_delivers (ipWorld_ready _) rfl twoBytesReply
    (List.append_nil _).symm).mpr
    ⟨⟨by decide, by decide, by decide, by decide, by decide⟩,
      ⟨by decide, by decide, by decide, by decide, by decide⟩,
      ⟨by decide, by decide, by decide, by decide, by decide⟩, trivial⟩

/-- A cut in the length field of the first packet is taken for an error. -/
theorem ptpipReceiveBulkPackets_cut : limited.Delivers Prod.fst ∧
    ¬Reassembled limited twoBytesReply.bytes (ipWorld (twoBytesReply.bytes, [1])) := by
  refine ⟨limited_delivers, ?_⟩
  rintro ⟨w', ⟨enough, hrun⟩, _⟩
  have htakes := takes_of_receives (ipWorld_ready _) limited_delivers twoBytesReply
    (List.append_nil _).symm
    (lt_of_lt_of_le (Nat.lt_succ_self _) (le_max_right enough (twoBytesReply.bytes.length + 1)))
    (hrun _ (le_max_left _ _))
  exact absurd htakes.1.uncut (by decide)

end Libpict
