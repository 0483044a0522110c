import Libpict.PacketBounds
import Libpict.Scripted
import Libpict.Traffic

/-! # The initialisation request

`ptpip_init_command_request` writes a structure of 36 bytes, with 8 of them for the name of the
host. The protocol has the version right behind the terminated name.
-/

namespace Libpict

open Bytes CInt Exec

/-- A name as a string of UTF-16 characters with its terminator. -/
def unicodeName (deviceName : List UInt8) : List UInt8 :=
  (deviceName.flatMap fun char => [char, 0]) ++ [0, 0]

/-- The packet is its length, the type, 16 bytes of identification, the terminated name, some
zeros and the version 1.0. -/
def IsInitRequest (deviceName : List UInt8) (zeros : Nat) (packet : List UInt8) : Prop :=
  ∃ guid : List UInt8, guid.length = 16 ∧
    packet = leBytes 4 packet.length ++ leBytes 4 ptpipInitCommandReq ++ guid ++
      unicodeName deviceName ++ List.replicate zeros 0 ++ leBytes 4 0x00010000

section Layout

variable {buffer : Buffer} {deviceName packet : List UInt8} {zeros : Nat}

/-- What the packet needs. -/
theorem IsInitRequest.length_eq (hrequest : IsInitRequest deviceName zeros packet) :
    packet.length = 30 + 2 * deviceName.length + zeros := by
  obtain ⟨guid, hguid, hpacket⟩ := hrequest
  have hlength := congrArg List.length hpacket
  simp only [unicodeName, List.length_append, leBytes_length, List.length_replicate, hguid,
    unicode_length, List.length_cons, List.length_nil] at hlength
  omega

/-- The part of the structure in front of the name. -/
def initHead : List UInt8 := leBytes 4 36 ++ leBytes 4 ptpipInitCommandReq ++ List.replicate 16 0xff

/-- A name of up to three characters and its terminator stay in the 8 bytes. -/
theorem initBuffer_begins (hsize : 36 ≤ buffer.size) (hshort : deviceName.length ≤ 3) :
    (initBuffer buffer deviceName).Begins (initHead ++ unicodeName deviceName ++
      List.replicate (6 - 2 * deviceName.length) 0 ++ leBytes 4 0x00010000) := by
  obtain ⟨rest, hrest⟩ := Nat.exists_eq_add_of_le hshort
  have hzeros : 6 - 2 * deviceName.length = 2 * rest := by omega
  have hunits := unicode_length deviceName
  unfold initBuffer unicodeName
  generalize deviceName.flatMap (fun char => [char, (0 : UInt8)]) = units at hunits ⊢
  -- The field is room for the name, its terminator and the rest.
  have hfield : List.replicate 8 (0 : UInt8) =
      List.replicate (2 * deviceName.length) 0 ++ ([0, 0] ++ List.replicate (2 * rest) 0) := by
    rw [show ([0, 0] : List UInt8) = List.replicate 2 0 from rfl, List.replicate_append_replicate,
      List.replicate_append_replicate]
    congr 1
    omega
  have hpacket : initPacket = initHead ++ List.replicate (2 * deviceName.length) 0 ++
      ([0, 0] ++ (List.replicate (2 * rest) 0 ++ leBytes 4 0x00010000)) := by
    unfold initPacket
    rw [hfield, show leBytes 4 0x00010000 = leBytes 2 0 ++ leBytes 2 1 from rfl, ← initHead]
    simp only [List.append_assoc]
  have hstored : (buffer.store 0 initPacket).Begins initPacket :=
    (Buffer.begins_nil buffer).store_append initPacket (by
      change 0 + 36 ≤ buffer.size
      omega)
  rw [hpacket] at hstored
  have hnamed := hstored.store_middle (by rw [hunits, List.length_replicate] : units.length = _)
  have hsplit : initHead ++ units ++
        ([0, 0] ++ (List.replicate (2 * rest) 0 ++ leBytes 4 0x00010000)) =
      (initHead ++ units ++ [0]) ++ [0] ++ (List.replicate (2 * rest) 0 ++ leBytes 4 0x00010000) := by
    simp only [List.append_assoc, List.cons_append, List.nil_append]
  rw [hsplit] at hnamed
  have hended := hnamed.store_middle (rfl : ([0] : List UInt8).length = _)
  have hat : (initHead ++ units ++ [0]).length = 24 + deviceName.length * 2 + 1 := by
    rw [List.length_append, List.length_append, hunits, Nat.mul_comm]
    rfl
  rw [← hpacket, hat, ← hsplit] at hended
  have hhead : initHead.length = 24 := rfl
  rw [hzeros]
  simpa only [List.append_assoc, hhead] using hended

/-- The packet of a name of up to three characters. -/
theorem initBuffer_request (hsize : 36 ≤ buffer.size) (hshort : deviceName.length ≤ 3) :
    IsInitRequest deviceName (6 - 2 * deviceName.length) ((initBuffer buffer deviceName).slice 0 36) := by
  have hbegins := initBuffer_begins hsize hshort
  have hlength : (initHead ++ unicodeName deviceName ++
      List.replicate (6 - 2 * deviceName.length) 0 ++ leBytes 4 0x00010000).length = 36 := by
    simp only [unicodeName, List.length_append, leBytes_length, List.length_replicate,
      unicode_length, List.length_cons, List.length_nil]
    change 24 + _ + _ + _ = 36
    omega
  have hslice := hbegins.2
  rw [hlength] at hslice
  refine ⟨List.replicate 16 0xff, List.length_replicate, ?_⟩
  rw [Buffer.slice_length, hslice, initHead]

end Layout

/-! ## What is written -/

section Writes

variable {σ : Type} {B : Backend σ} {w : World σ} {buffer : Buffer} {deviceName : List UInt8}

/-- The run writes the packet, and nothing else. -/
def InitWrites (B : Backend σ) (deviceName : List UInt8) (w : World σ) (packet : List UInt8) : Prop :=
  EndsIn (ptpipInitCommandRequest B deviceName) w fun v => ∃ sent calls,
    v.log = w.log ++ .write .socket packet sent :: calls ∧ ∀ call ∈ calls, call.isWrite = false

theorem InitWrites.unique {first second : List UInt8} (hfirst : InitWrites B deviceName w first)
    (hsecond : InitWrites B deviceName w second) : first = second := by
  obtain ⟨⟨sent, calls, hlog, -⟩, sent', calls', hlog', -⟩ :=
    And.intro (endsIn_iff_final.mp hfirst) (endsIn_iff_final.mp hsecond)
  rw [hlog] at hlog'
  have hcalls := List.append_cancel_left hlog'
  cases hcalls
  rfl

theorem initWrites (hready : w.r.Ready buffer) (hname : deviceName.length ≤ 39) :
    InitWrites B deviceName w ((initBuffer buffer deviceName).slice 0 36) := by
  have hdefault : 1000000 ≤ buffer.size := hready.2.2.2
  have hrun := init_stored (B := B) hready deviceName (by omega)
  obtain ⟨sent, v, hwrite, hlog⟩ : ∃ sent, ∃ v : World σ,
      cmdWrite B .socket 0 36 { w with r := { w.r with data := some (initBuffer buffer deviceName) } }
        = .ok sent v ∧
      v.log = w.log ++ [.write .socket ((initBuffer buffer deviceName).slice 0 36) sent] :=
    ⟨_, _, cmdWrite_ok rfl .socket 0 36 (by rw [initBuffer_size]; omega), rfl⟩
  have hrest : ∀ rc : Option Nat, Moves OnlyReads (if rc.map (toUInt32 ·) ≠ some 36 then
      pure PtpGeneralError.ioErr
      else do
        let rc ← cmdRead B .socket 0 4
        if rc.isNone then pure PtpGeneralError.ioErr else initReceive B : M σ Int) := by
    intro rc
    split
    · exact Moves.pure _
    · refine (cmdRead_onlyReads B _ _ _).bind fun got => ?_
      split
      · exact Moves.pure _
      · exact (moves_inspect _).bind fun length =>
          (cmdRead_onlyReads B _ _ _).bind fun rc => initCheck_moves rc
  have hafter : ∀ u, OnlyReads v u → ∃ sent calls,
      u.log = w.log ++ .write .socket ((initBuffer buffer deviceName).slice 0 36) sent :: calls ∧
        ∀ call ∈ calls, call.isWrite = false := by
    rintro u ⟨⟨calls, hcalls, hreads⟩, -⟩
    exact ⟨sent, calls, by rw [hcalls, hlog, List.append_assoc, List.singleton_append], hreads⟩
  refine Ends.congr ?_ (hrun.trans (bind_ok hwrite))
  exact (hrest sent v).mono (fun _ u h => hafter u h) fun _ u h => hafter u h

end Writes

/-- The packet that is written is the request exactly for names of three characters; and up to
zeros behind the name, for names of up to three. -/
theorem ptpipInitCommandRequest_wellFormed_iff {σ : Type} (B : Backend σ) (w : World σ)
    (buffer : Buffer) (hready : w.r.Ready buffer) (deviceName : List UInt8)
    (hname : deviceName.length ≤ 39) :
    ((∃ packet, InitWrites B deviceName w packet ∧ IsInitRequest deviceName 0 packet) ↔
      deviceName.length = 3) ∧
    ((∃ zeros packet, InitWrites B deviceName w packet ∧ IsInitRequest deviceName zeros packet) ↔
      deviceName.length ≤ 3) := by
  have hwrites := initWrites (B := B) hready hname
  have hdefault : 1000000 ≤ buffer.size := hready.2.2.2
  have hlength : ∀ {zeros packet}, InitWrites B deviceName w packet →
      IsInitRequest deviceName zeros packet → 36 = 30 + 2 * deviceName.length + zeros := by
    intro zeros packet hpacket hrequest
    rw [← hrequest.length_eq, hpacket.unique hwrites, Buffer.slice_length]
  refine ⟨⟨?_, fun hthree => ?_⟩, ?_, fun hshort => ?_⟩
  · rintro ⟨packet, hpacket, hrequest⟩
    have hsum := hlength hpacket hrequest
    omega
  · have hrequest := initBuffer_request (show 36 ≤ buffer.size by omega) hthree.le
    rw [hthree] at hrequest
    exact ⟨_, hwrites, hrequest⟩
  · rintro ⟨zeros, packet, hpacket, hrequest⟩
    have hsum := hlength hpacket hrequest
    omega
  · exact ⟨_, _, hwrites, initBuffer_request (by omega) hshort⟩

/-- `"cam"`. -/
theorem initRequest_cam : ∃ packet,
    InitWrites scripted [0x63, 0x61, 0x6d] (scriptedWorld 512 []) packet ∧
      IsInitRequest [0x63, 0x61, 0x6d] 0 packet :=
  (ptpipInitCommandRequest_wellFormed_iff scripted _ _ (scriptedWorld_ready 512 [])
    [0x63, 0x61, 0x6d] (by decide)).1.mpr rfl

/-- `"ptp lib"`, as in the repository's example. -/
theorem initRequest_ptpLib : ¬∃ zeros packet,
    InitWrites scripted [0x70, 0x74, 0x70, 0x20, 0x6c, 0x69, 0x62] (scriptedWorld 512 []) packet ∧
      IsInitRequest [0x70, 0x74, 0x70, 0x20, 0x6c, 0x69, 0x62] zeros packet := by
  rintro ⟨zeros, packet, hpacket, hrequest⟩
  have hwrites := initWrites (B := scripted) (scriptedWorld_ready 512 [])
    (by decide : [0x70, 0x74, 0x70, 0x20, 0x6c, 0x69, (0x62 : UInt8)].length ≤ 39)
  have hlength := hrequest.length_eq
  rw [hpacket.unique hwrites, Buffer.slice_length] at hlength
  simp at hlength
  omega

end Libpict
