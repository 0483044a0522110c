import Libpict.PacketSequence
import Libpict.Scripted

/-! # What the accessors expose

After a successful receive, the accessors recompute offsets and lengths from fields
that the device has chosen. What they return lies in the bytes received if and only
if these bytes are `Sound`: the receive functions accept more than that.
-/

namespace Libpict

open Bytes CInt Exec PtpRuntime

/-! ## Exposure -/

/-- Another runtime that holds the bytes received, in a buffer of the same size that
contains anything behind them. -/
structure SameReceived (bytes : List UInt8) (r r' : PtpRuntime) : Prop where
  connectionType : r'.connectionType = r.connectionType
  holds : r'.Holds bytes
  size : r'.data.map Buffer.size = r.data.map Buffer.size

/-- What an accessor returns lies in the bytes received: it does not change with
anything else in the buffer. -/
def FromBytes {α : Type} (bytes : List UInt8) (accessor : PtpRuntime → Except Halt α)
    (r : PtpRuntime) : Prop :=
  ∃ a, accessor r = .ok a ∧ ∀ r', SameReceived bytes r r' → accessor r' = .ok a

/-- All that the accessors expose lies in the bytes received. -/
structure Exposed (bytes : List UInt8) (r : PtpRuntime) : Prop where
  returnCode : FromBytes bytes ptpGetReturnCode r
  transaction : FromBytes bytes ptpGetLastTransactionId r
  paramLength : FromBytes bytes ptpGetParamLength r
  params : ∃ count : Nat, ptpGetParamLength r = .ok (count : Int) ∧
    ∀ index < count, FromBytes bytes (fun r => ptpGetParam r index) r
  payload : ∀ start, ptpGetPayload r = .ok start →
    ∃ length : Nat, ptpGetPayloadLength r = .ok (length : Int) ∧
      FromBytes bytes ptpGetPayloadLength r ∧ FromBytes bytes ptpGetPayload r ∧
      0 ≤ start ∧ start + length ≤ bytes.length

/-- Two runtimes whose accessors return the same. -/
structure SameAccessors (r r' : PtpRuntime) : Prop where
  returnCode : ptpGetReturnCode r' = ptpGetReturnCode r
  transaction : ptpGetLastTransactionId r' = ptpGetLastTransactionId r
  paramLength : ptpGetParamLength r' = ptpGetParamLength r
  params : ∀ (count : Int) (index : Nat), ptpGetParamLength r = .ok count → index < count →
    ptpGetParam r' index = ptpGetParam r index
  payload : ptpGetPayload r' = ptpGetPayload r
  payloadLength : ptpGetPayloadLength r' = ptpGetPayloadLength r

/-- The lengths in a PTP/IP reply describe bytes of the reply: the response has all its
fixed fields, and what the start packet announces is there behind the header of the end
packet. -/
def SoundPackets (bytes : List UInt8) : Prop :=
  let second := field 4 0 bytes
  let third := second + field 4 second bytes
  let announced := toInt32 (field 8 12 bytes)
  (field 4 4 bytes = ptpipCommandResponse ∧ 14 ≤ second) ∨
    (field 4 4 bytes = ptpipDataPacketStart ∧ third + 14 ≤ bytes.length ∧
      0 ≤ announced ∧ second + 12 + announced ≤ bytes.length)

instance (bytes : List UInt8) : Decidable (SoundPackets bytes) :=
  inferInstanceAs (Decidable (_ ∨ _))

/-- The lengths in a reply describe bytes of the reply. Over USB-style framing, only the
length of the first container can fail to. -/
def Sound (connection : PtpConnType) (bytes : List UInt8) : Prop :=
  match connection with
  | .ip => SoundPackets bytes
  | _ => 12 ≤ field 4 0 bytes

instance (connection : PtpConnType) (bytes : List UInt8) : Decidable (Sound connection bytes) :=
  match connection with
  | .ip => inferInstanceAs (Decidable (SoundPackets bytes))
  | .usb | .ipUsb | .ble => inferInstanceAs (Decidable (12 ≤ field 4 0 bytes))

variable {r r' : PtpRuntime} {bytes : List UInt8}

theorem FromBytes.of_holds {α : Type} {accessor : PtpRuntime → Except Halt α} {a : α}
    (hholds : r.Holds bytes)
    (hvalue : ∀ r', r'.connectionType = r.connectionType → r'.Holds bytes → accessor r' = .ok a) :
    FromBytes bytes accessor r :=
  ⟨a, hvalue r rfl hholds, fun r' hsame => hvalue r' hsame.connectionType hsame.holds⟩

/-! ## USB-style framing -/

/-- What a reply looks like that the USB-style receive loop has accepted. -/
structure BulkReply (bytes : List UInt8) : Prop where
  type : field 2 4 bytes = ptpPacketTypeResponse ∨ field 2 4 bytes = ptpPacketTypeData
  header : bulkResponseOffset bytes + 12 ≤ bytes.length
  length : bulkResponseOffset bytes + field 4 (bulkResponseOffset bytes) bytes ≤ bytes.length
  length_le : (bytes.length : Int) ≤ intMax
  response : field 2 4 bytes = ptpPacketTypeData →
    12 ≤ field 4 (bulkResponseOffset bytes) bytes

theorem bulkReply_of_done (hdone : verdictOf bytes = .done)
    (hlength : (bytes.length : Int) ≤ intMax) : BulkReply bytes := by
  have hle := hlength
  unfold intMax at hle
  unfold verdictOf at hdone
  by_cases hshort : bytes.length < 12
  · rw [if_pos hshort] at hdone
    cases hdone
  rw [if_neg hshort] at hdone
  by_cases hfirst : bytes.length < field 4 0 bytes
  · rw [if_pos hfirst] at hdone
    cases hdone
  rw [if_neg hfirst] at hdone
  by_cases hresponse : field 2 4 bytes = ptpPacketTypeResponse
  · have hoffset : bulkResponseOffset bytes = 0 :=
      if_neg (by rw [hresponse]; decide)
    refine ⟨.inl hresponse, by omega, by rw [hoffset]; omega, hlength, fun hdata => ?_⟩
    rw [hresponse] at hdata
    exact absurd hdata (by decide)
  rw [if_neg hresponse] at hdone
  by_cases hdata : field 2 4 bytes = ptpPacketTypeData
  · rw [if_pos hdata] at hdone
    dsimp only at hdone
    have hoffset : bulkResponseOffset bytes = field 4 0 bytes := if_pos hdata
    have hsecond := field_lt 4 (field 4 0 bytes) bytes
    have hheader := toUInt32_natCast (field 4 0 bytes + 12)
    have htotal := toUInt32_natCast (field 4 (field 4 0 bytes) bytes + field 4 0 bytes)
    push_cast at hheader htotal
    split_ifs at hdone with hmore hreject hcomplete
    -- the sums of lengths did not wrap around
    exact ⟨.inr hdata, by omega, by rw [hoffset]; omega, hlength, fun _ => by rw [hoffset]; omega⟩
  · rw [if_neg hdata] at hdone
    cases hdone

section Bulk

variable (hconn : r.connectionType ≠ .ip) (hholds : r.Holds bytes) (hreply : BulkReply bytes)

include hconn hholds hreply

theorem ptpGetPayload_bulkReply : ptpGetPayload r = .ok 12 := by
  have hnot : field 2 4 bytes ≠ ptpPacketTypeCommand := by
    rcases hreply.type with htype | htype <;> rw [htype] <;> decide
  rw [ptpGetPayload_bulk hconn hholds hreply.header, if_neg hnot]

theorem ptpGetParam_bulkReply (hlength : 12 ≤ field 4 0 bytes) {index : Nat}
    (hindex : (index : Int) <
      toInt32 (toUInt32 (field 4 (bulkResponseOffset bytes) bytes - 12) / 4 : Nat)) :
    ptpGetParam r index = .ok (if field 2 4 bytes = ptpPacketTypeData then
      field 2 (bulkResponseOffset bytes + 6) bytes else field 4 (12 + 4 * index) bytes) := by
  by_cases hdata : field 2 4 bytes = ptpPacketTypeData
  · rw [if_pos hdata, ptpGetParam_bulk_data hconn hholds hreply.header hdata]
  · have hoffset : bulkResponseOffset bytes = 0 := if_neg hdata
    have hinside := hreply.length
    have hle := hreply.length_le
    rw [hoffset] at hinside hindex
    unfold intMax at hle
    unfold toInt32 toUInt32 at hindex
    rw [if_neg hdata, ptpGetParam_bulk hconn hholds hreply.header hdata index (by omega)]

/-- Over USB-style framing, all that matters is the length of the first container. -/
theorem exposed_bulk_iff : Exposed bytes r ↔ 12 ≤ field 4 0 bytes := by
  have hheader := hreply.header
  have hfirst := field_lt 4 0 bytes
  constructor
  · intro hexposed
    obtain ⟨length, hlength, _⟩ := hexposed.payload 12 (ptpGetPayload_bulkReply hconn hholds hreply)
    rw [ptpGetPayloadLength_bulk hconn hholds hheader] at hlength
    have hvalue := Except.ok.inj hlength
    unfold toInt32 toUInt32 at hvalue
    omega
  · intro hlength
    have hne : ∀ {r' : PtpRuntime}, r'.connectionType = r.connectionType →
        r'.connectionType ≠ .ip := fun h => h ▸ hconn
    have hcount := ptpGetParamLength_bulk hconn hholds hheader
    have hnonneg : 0 ≤ toInt32
        (toUInt32 (field 4 (bulkResponseOffset bytes) bytes - 12) / 4 : Nat) := by
      unfold toInt32 toUInt32
      omega
    obtain ⟨count, hcount_eq⟩ := Int.eq_ofNat_of_zero_le hnonneg
    refine ⟨.of_holds hholds fun r' h h' => ptpGetReturnCode_bulk (hne h) h' hheader,
      .of_holds hholds fun r' h h' => ptpGetLastTransactionId_bulk (hne h) h' hheader,
      .of_holds hholds fun r' h h' => ptpGetParamLength_bulk (hne h) h' hheader,
      ⟨count, by rw [hcount, hcount_eq], fun index hindex => ?_⟩, fun start hstart => ?_⟩
    · exact .of_holds hholds fun r' h h' => ptpGetParam_bulkReply (hne h) h' hreply hlength
        (by rw [hcount_eq]; exact Int.ofNat_lt.mpr hindex)
    · rw [ptpGetPayload_bulkReply hconn hholds hreply] at hstart
      obtain rfl := Except.ok.inj hstart
      have hinside := hreply.length
      have hle := hreply.length_le
      unfold intMax at hle
      have hfirst_le : field 4 0 bytes ≤ bytes.length := by
        by_cases hdata : field 2 4 bytes = ptpPacketTypeData
        · have hoffset : bulkResponseOffset bytes = field 4 0 bytes := if_pos hdata
          omega
        · have hoffset : bulkResponseOffset bytes = 0 := if_neg hdata
          rw [hoffset] at hinside
          omega
      have hvalue : toInt32 (toUInt32 (field 4 0 bytes - 12)) = (field 4 0 bytes - 12 : Nat) := by
        unfold toInt32 toUInt32
        omega
      refine ⟨field 4 0 bytes - 12, ?_,
        .of_holds hholds fun r' h h' => ptpGetPayloadLength_bulk (hne h) h' hheader,
        .of_holds hholds fun r' h h' => ptpGetPayload_bulkReply (hne h) h' hreply,
        by decide, by omega⟩
      rw [ptpGetPayloadLength_bulk hconn hholds hheader, hvalue]

/-- Two runtimes with the same sound reply have the same accessors. -/
theorem sameAccessors_bulk (hsound : 12 ≤ field 4 0 bytes) (hconn' : r'.connectionType ≠ .ip)
    (hholds' : r'.Holds bytes) : SameAccessors r r' := by
  have hheader := hreply.header
  refine ⟨?_, ?_, ?_, ?_, ?_, ?_⟩
  · rw [ptpGetReturnCode_bulk hconn hholds hheader, ptpGetReturnCode_bulk hconn' hholds' hheader]
  · rw [ptpGetLastTransactionId_bulk hconn hholds hheader,
      ptpGetLastTransactionId_bulk hconn' hholds' hheader]
  · rw [ptpGetParamLength_bulk hconn hholds hheader, ptpGetParamLength_bulk hconn' hholds' hheader]
  · intro count index hcount hindex
    rw [ptpGetParamLength_bulk hconn hholds hheader] at hcount
    obtain rfl := Except.ok.inj hcount
    rw [ptpGetParam_bulkReply hconn hholds hreply hsound hindex,
      ptpGetParam_bulkReply hconn' hholds' hreply hsound hindex]
  · rw [ptpGetPayload_bulkReply hconn hholds hreply, ptpGetPayload_bulkReply hconn' hholds' hreply]
  · rw [ptpGetPayloadLength_bulk hconn hholds hheader,
      ptpGetPayloadLength_bulk hconn' hholds' hheader]

end Bulk

/-! ## PTP/IP framing -/

/-- Overwrite the buffer from an offset on. -/
def overwritten (r : PtpRuntime) (buffer : Buffer) (offset : Nat) (bytes : List UInt8) :
    PtpRuntime := { r with data := some (buffer.store offset bytes) }

section Overwritten

variable {buffer : Buffer} (hdata : r.data = some buffer) {offset : Nat} (behind : List UInt8)

include hdata

theorem overwritten_sameReceived (hholds : r.Holds bytes) (hoffset : bytes.length ≤ offset) :
    SameReceived bytes r (overwritten r buffer offset behind) := by
  obtain ⟨buffer', hdata', hsize, hslice⟩ := hholds
  obtain rfl := Option.some.inj (hdata'.symm.trans hdata)
  refine ⟨rfl, ⟨_, rfl, hsize, ?_⟩, ?_⟩
  · rw [Buffer.store_slice_disjoint _ _ _ _ _ (.inl (by omega)), hslice]
  · rw [hdata]
    rfl

/-- What is found before the offset stays. -/
theorem overwritten_loadLe {size value : Nat} {at_ : Int} (hload : r.loadLe size at_ = .ok value)
    (hle : at_ + size ≤ offset) : (overwritten r buffer offset behind).loadLe size at_ = .ok value := by
  obtain ⟨hnonneg, hinside⟩ := size_of_loadLe hdata hload
  obtain ⟨position, rfl⟩ := Int.eq_ofNat_of_zero_le hnonneg
  rw [loadLe_some hdata size position (by omega)] at hload
  rw [loadLe_some (b := buffer.store offset behind) rfl size position
    (by rw [Buffer.store_size]; omega), Buffer.store_slice_disjoint _ _ _ _ _ (.inl (by omega))]
  exact hload

theorem overwritten_response {response : Int} (hfound : ptpipGetResponsePacket r = .ok response)
    (hresponse : response + 8 ≤ offset) :
    ptpipGetResponsePacket (overwritten r buffer offset behind) = .ok response := by
  rw [ptpipGetResponsePacket_eq_ok] at hfound ⊢
  have hsame : ∀ {size value : Nat} {at_ : Int}, r.loadLe size at_ = .ok value →
      at_ + size ≤ offset → (overwritten r buffer offset behind).loadLe size at_ = .ok value :=
    overwritten_loadLe hdata behind
  rcases hfound with ⟨htype, rfl⟩ | ⟨htype, startLength, endLength, hstartLength, hendType,
    hendLength, hthird, rfl⟩
  · exact .inl ⟨hsame htype (by omega), rfl⟩
  · exact .inr ⟨hsame htype (by omega), startLength, endLength, hsame hstartLength (by omega),
      hsame hendType (by omega), hsame hendLength (by omega), hsame hthird (by omega), rfl⟩

end Overwritten

/-- The lengths in a reply of three packets. -/
theorem three_lengths {first second third : List UInt8}
    (hbytes : bytes = first ++ (second ++ third))
    (hfirst : 4 ≤ first.length ∧ field 4 0 first = first.length)
    (hsecond : 4 ≤ second.length ∧ field 4 0 second = second.length)
    (hthird : 4 ≤ third.length ∧ field 4 0 third = third.length) :
    field 4 0 bytes = first.length ∧ field 4 first.length bytes = second.length ∧
      field 4 (first.length + second.length) bytes = third.length ∧
      bytes.length = first.length + second.length + third.length := by
  have hmiddle := field_behind 4 0 first (second ++ third)
  have hlast := field_behind 4 second.length first (second ++ third)
  have hlast' := field_behind 4 0 second third
  rw [Nat.add_zero] at hmiddle hlast'
  subst hbytes
  refine ⟨?_, ?_, ?_, ?_⟩
  · rw [field_append 4 0 _ _ (by omega), hfirst.2]
  · rw [hmiddle, field_append 4 0 _ _ (by omega), hsecond.2]
  · rw [hlast, hlast', hthird.2]
  · rw [List.length_append, List.length_append, Nat.add_assoc]

section Ip

variable (hconn : r.connectionType = .ip)

include hconn

/-- A response that is shorter than its fixed fields has parameters far behind the
reply. -/
theorem not_exposed_of_short (hholds : r.Holds bytes) (hbytes : bytes.length ≤ 4294967294)
    {response : Nat} (hfound : ptpipGetResponsePacket r = .ok (response : Int)) {length : Nat}
    (hlength : r.loadU32 response = .ok length) (hge : 4 ≤ length) (hshort : length < 14) :
    ¬Exposed bytes r := by
  intro hexposed
  obtain ⟨count, hcount, hparams⟩ := hexposed.params
  have hcount_eq : (count : Int) = toInt32 (toUInt32 (length - 14) / 4 : Nat) := by
    have hvalue : ptpGetParamLength r = .ok (toInt32 (toUInt32 (length - 14) / 4 : Nat)) := by
      unfold ptpGetParamLength
      rw [hconn]
      dsimp only
      rw [hfound]
      simp only [bind, Except.bind, hlength]
      rfl
    exact Except.ok.inj (hcount.symm.trans hvalue)
  have hcount_ge : 1073741821 ≤ count := by
    unfold toInt32 toUInt32 at hcount_eq
    omega
  -- the last parameter lies behind everything received
  obtain ⟨value, hvalue, hsame⟩ := hparams (count - 1) (by omega)
  have hparam : ∀ r' : PtpRuntime, r'.connectionType = .ip →
      ptpipGetResponsePacket r' = .ok (response : Int) →
      ptpGetParam r' (count - 1 : Nat) =
        r'.loadU32 (response + 14 + 4 * ((count - 1 : Nat) : Int)) := by
    intro r' hconn' hfound'
    unfold ptpGetParam
    rw [hconn']
    dsimp only
    rw [hfound']
    rfl
  obtain ⟨buffer, hdata⟩ : ∃ buffer, r.data = some buffer := by
    obtain ⟨buffer, hdata, _⟩ := hholds
    exact ⟨buffer, hdata⟩
  have hload := hvalue
  dsimp only at hload
  rw [hparam r hconn hfound] at hload
  obtain ⟨_, hinside⟩ := size_of_loadLe hdata hload
  let position := response + 14 + 4 * (count - 1)
  let other := overwritten r buffer position (leBytes 4 (value + 1))
  have hother : SameReceived bytes r other :=
    overwritten_sameReceived hdata _ hholds (by omega)
  have hfound' : ptpipGetResponsePacket other = .ok (response : Int) :=
    overwritten_response hdata _ hfound (by omega)
  have hload' : other.loadU32 (position : Int) = .ok ((value + 1) % 4294967296) := by
    have hstored := loadLe_some (r := other) (b := buffer.store position (leBytes 4 (value + 1)))
      rfl 4 position (by rw [Buffer.store_size]; omega)
    have hslice : (buffer.store position (leBytes 4 (value + 1))).slice position 4 =
        leBytes 4 (value + 1) := by
      have hself := buffer.store_slice_self position (leBytes 4 (value + 1))
      rwa [leBytes_length] at hself
    rw [hslice, leValue_leBytes] at hstored
    exact hstored
  have hchanged := hsame other hother
  dsimp only at hchanged
  have hposition : (response : Int) + 14 + 4 * ((count - 1 : Nat) : Int) = (position : Int) := by
    omega
  rw [hparam other hconn hfound', hposition, hload'] at hchanged
  have hcontra := Except.ok.inj hchanged
  omega

/-- A sound reply has its response where the accessors look for it, inside the bytes. -/
theorem response_of_sound (hreply : PacketReply bytes r) (hsound : SoundPackets bytes) :
    ∃ offset, ipResponseOffset bytes = some offset ∧ 14 ≤ field 4 offset bytes ∧
      offset + field 4 offset bytes ≤ bytes.length ∧
      (field 4 4 bytes = ptpipDataPacketStart → 20 ≤ bytes.length ∧
        field 4 (field 4 0 bytes + 4) bytes = ptpipDataPacketEnd ∧
        field 4 0 bytes + 8 ≤ bytes.length) := by
  have hholds := hreply.holds
  obtain ⟨code, hcode⟩ := hreply.returnCode
  have hfound : ∃ offset, ptpipGetResponsePacket r = .ok offset := by
    unfold ptpGetReturnCode at hcode
    rw [hconn] at hcode
    obtain ⟨offset, hfound, _⟩ := except_bind_eq_ok.mp hcode
    exact ⟨offset, hfound⟩
  obtain ⟨offset, hfound⟩ := hfound
  rcases hsound with ⟨htype, hlength⟩ | ⟨htype, hthird, _, _⟩
  · -- the first packet is the response
    refine ⟨0, if_pos htype, hlength, ?_, fun hstart => ?_⟩
    · rw [Nat.zero_add]
      rcases hreply.packets with ⟨_, hsingle, _⟩ | ⟨first, second, third, hbytes, h₁, h₂, h₃⟩
      · exact hsingle.le
      · obtain ⟨hfirst, _, _, htotal⟩ := three_lengths hbytes h₁ h₂ h₃
        omega
    · rw [htype] at hstart
      exact absurd hstart (by decide)
  · rcases hreply.packets with ⟨_, hsingle, _⟩ | ⟨first, second, third, hbytes, h₁, h₂, h₃⟩
    · omega
    · obtain ⟨hfirst, hsecond, hlast, htotal⟩ := three_lengths hbytes h₁ h₂ h₃
      rw [hfirst, hsecond] at hthird
      have htype' := hholds.loadLe (p := 4) 4 4 rfl (by omega)
      rw [htype] at htype'
      have hlength₁ := hholds.loadLe (p := 0) 0 4 rfl (by omega)
      rw [hfirst] at hlength₁
      have hlength₂ := hholds.loadLe (p := first.length) first.length 4 rfl (by omega)
      rw [hsecond] at hlength₂
      rw [ptpipGetResponsePacket_eq_ok] at hfound
      rcases hfound with ⟨hresponse, _⟩ | ⟨_, startLength, endLength, hstartLength, hendType,
        hendLength, hresponse, _⟩
      · have hcontra := Except.ok.inj (htype'.symm.trans hresponse)
        exact absurd hcontra (by decide)
      · obtain rfl := Except.ok.inj (hlength₁.symm.trans hstartLength)
        obtain rfl := Except.ok.inj (hlength₂.symm.trans hendLength)
        have hend := hholds.loadLe (p := first.length + 4) (first.length + 4) 4 rfl (by omega)
        have hthirdType := hholds.loadLe (p := first.length + second.length + 4)
          (first.length + second.length + 4) 4 (by push_cast; rfl) (by omega)
        have hend' := Except.ok.inj (hend.symm.trans hendType)
        have hthirdType' := Except.ok.inj (hthirdType.symm.trans hresponse)
        refine ⟨first.length + second.length, ?_, by rw [hlast]; omega, by rw [hlast]; omega,
          fun _ => ⟨by omega, by rw [hfirst]; exact hend', by omega⟩⟩
        unfold ipResponseOffset
        rw [if_neg (by rw [htype]; decide)]
        dsimp only
        rw [hfirst, hsecond]
        exact if_pos ⟨htype, hend', hthirdType'⟩

/-- Over PTP/IP, a reply that has been accepted is exposed from the bytes received exactly
if it is sound. -/
theorem exposed_ip_iff (hreply : PacketReply bytes r) : Exposed bytes r ↔ SoundPackets bytes := by
  have hholds := hreply.holds
  have hbytes := hreply.length_le
  constructor
  · intro hexposed
    obtain ⟨code, hcode⟩ := hreply.returnCode
    obtain ⟨offset, hfound⟩ : ∃ offset, ptpipGetResponsePacket r = .ok offset := by
      unfold ptpGetReturnCode at hcode
      rw [hconn] at hcode
      obtain ⟨offset, hfound, _⟩ := except_bind_eq_ok.mp hcode
      exact ⟨offset, hfound⟩
    have hlong : ∀ {x length : Nat}, ptpipGetResponsePacket r = .ok (x : Int) →
        r.loadU32 x = .ok length → 4 ≤ length → 14 ≤ length := by
      intro response length hfound hlength hge
      by_contra hshort
      exact not_exposed_of_short hconn hholds hbytes hfound hlength hge (not_le.mp hshort) hexposed
    rcases ptpipGetResponsePacket_eq_ok.mp hfound with ⟨htype, rfl⟩ | ⟨htype, startLength, endLength,
      hstartLength, hendType, hendLength, _, rfl⟩
    · left
      have hge : 4 ≤ bytes.length ∧ 4 ≤ field 4 0 bytes ∧
          (field 4 0 bytes = bytes.length ∨ 12 ≤ bytes.length) := by
        rcases hreply.packets with ⟨h, hsingle, _⟩ | ⟨first, second, third, hpackets, h₁, h₂, h₃⟩
        · exact ⟨h, by omega, .inl hsingle⟩
        · obtain ⟨hfirst, _, _, htotal⟩ := three_lengths hpackets h₁ h₂ h₃
          exact ⟨by omega, by omega, .inr (by omega)⟩
      have hlength := hholds.loadLe (p := 0) 0 4 rfl (by omega)
      have hfourteen := hlong (x := 0) hfound hlength hge.2.1
      have htype' := hholds.loadLe (p := 4) 4 4 rfl (by omega)
      exact ⟨Except.ok.inj (htype'.symm.trans htype), hfourteen⟩
    · right
      rcases hreply.packets with ⟨_, _, hsingle⟩ | ⟨first, second, third, hpackets, h₁, h₂, h₃⟩
      · have hcontra := Except.ok.inj (hsingle.symm.trans htype)
        exact absurd hcontra (by decide)
      obtain ⟨hfirst, hsecond, hlast, htotal⟩ := three_lengths hpackets h₁ h₂ h₃
      have htype' := hholds.loadLe (p := 4) 4 4 rfl (by omega)
      have hstart := Except.ok.inj (htype'.symm.trans htype)
      have hlength₁ := hholds.loadLe (p := 0) 0 4 rfl (by omega)
      rw [hfirst] at hlength₁
      obtain rfl := Except.ok.inj (hlength₁.symm.trans hstartLength)
      have hlength₂ := hholds.loadLe (p := first.length) first.length 4 rfl (by omega)
      rw [hsecond] at hlength₂
      obtain rfl := Except.ok.inj (hlength₂.symm.trans hendLength)
      have hlength₃ := hholds.loadLe (p := (first.length + second.length : Nat))
        (first.length + second.length) 4 rfl (by omega)
      rw [hlast] at hlength₃
      have hfourteen := hlong (x := first.length + second.length)
        (by push_cast; exact hfound) hlength₃ h₃.1
      have hend := hholds.loadLe (p := first.length + 4) (first.length + 4) 4 rfl (by omega)
      have hend' := Except.ok.inj (hend.symm.trans hendType)
      have hpayload := ptpGetPayload_ip hconn hholds hstart (by rw [hfirst]; exact hend') (by omega)
        (by omega)
      obtain ⟨length, hlength, _, _, _, hinside⟩ := hexposed.payload _ hpayload
      rw [ptpGetPayloadLength_ip hconn hholds hstart (by omega)] at hlength
      have hannounced := Except.ok.inj hlength
      rw [hfirst] at hinside
      have hthird : first.length + second.length + 14 ≤ bytes.length := by omega
      refine ⟨hstart, by rw [hfirst, hsecond]; exact hthird, ?_, ?_⟩
      · rw [hannounced]
        exact Int.natCast_nonneg _
      · rw [hannounced, hfirst]
        exact hinside
  · intro hsound
    obtain ⟨offset, hoffset, hge, hle, hdata⟩ := response_of_sound hconn hreply hsound
    have hheader : offset + 14 ≤ bytes.length := by omega
    have hip : ∀ {r' : PtpRuntime}, r'.connectionType = r.connectionType →
        r'.connectionType = .ip := fun h => h.trans hconn
    have hcount := ptpGetParamLength_ip hconn hholds hoffset hheader
    have hlt := field_lt 4 offset bytes
    obtain ⟨count, hcount_eq⟩ : ∃ count : Nat,
        toInt32 (toUInt32 (field 4 offset bytes - 14) / 4 : Nat) = count := by
      refine ⟨_, (Int.toNat_of_nonneg ?_).symm⟩
      unfold toInt32 toUInt32
      omega
    refine ⟨.of_holds hholds fun r' h h' => ptpGetReturnCode_ip (hip h) h' hoffset hheader,
      .of_holds hholds fun r' h h' => ptpGetLastTransactionId_ip (hip h) h' hoffset hheader,
      .of_holds hholds fun r' h h' => ptpGetParamLength_ip (hip h) h' hoffset hheader,
      ⟨count, by rw [hcount, hcount_eq], fun index hindex => ?_⟩, fun start hstart => ?_⟩
    · refine .of_holds hholds fun r' h h' => ptpGetParam_ip (hip h) h' hoffset hheader index ?_
      unfold toInt32 toUInt32 at hcount_eq
      omega
    · rcases hsound with ⟨htype, _⟩ | ⟨htype, _, hannounced, hinside⟩
      · have hpanics := (ptpGetPayload_ip_panics hconn hholds (by rw [htype]; decide) (by omega)).1
        rw [hpanics] at hstart
        cases hstart
      · obtain ⟨htwenty, hend, hsecond⟩ := hdata htype
        have hpayload := ptpGetPayload_ip hconn hholds htype hend (by omega) hsecond
        obtain rfl := Except.ok.inj (hpayload.symm.trans hstart)
        refine ⟨(toInt32 (field 8 12 bytes)).toNat, ?_,
          .of_holds hholds fun r' h h' => ptpGetPayloadLength_ip (hip h) h' htype htwenty,
          .of_holds hholds fun r' h h' =>
            ptpGetPayload_ip (hip h) h' htype hend (by omega) hsecond, by omega, ?_⟩
        · rw [ptpGetPayloadLength_ip hconn hholds htype htwenty, Int.toNat_of_nonneg hannounced]
        · rw [Int.toNat_of_nonneg hannounced]
          exact hinside

theorem sameAccessors_ip (hreply : PacketReply bytes r) (hsound : SoundPackets bytes)
    (hconn' : r'.connectionType = .ip) (hholds' : r'.Holds bytes) : SameAccessors r r' := by
  have hholds := hreply.holds
  obtain ⟨offset, hoffset, hge, hle, hdata⟩ := response_of_sound hconn hreply hsound
  have hheader : offset + 14 ≤ bytes.length := by omega
  have hlt := field_lt 4 offset bytes
  refine ⟨?_, ?_, ?_, ?_, ?_, ?_⟩
  · rw [ptpGetReturnCode_ip hconn hholds hoffset hheader,
      ptpGetReturnCode_ip hconn' hholds' hoffset hheader]
  · rw [ptpGetLastTransactionId_ip hconn hholds hoffset hheader,
      ptpGetLastTransactionId_ip hconn' hholds' hoffset hheader]
  · rw [ptpGetParamLength_ip hconn hholds hoffset hheader,
      ptpGetParamLength_ip hconn' hholds' hoffset hheader]
  · intro count index hcount hindex
    rw [ptpGetParamLength_ip hconn hholds hoffset hheader] at hcount
    obtain rfl := Except.ok.inj hcount
    have hinside : offset + 14 + 4 * index + 4 ≤ bytes.length := by
      unfold toInt32 toUInt32 at hindex
      omega
    rw [ptpGetParam_ip hconn hholds hoffset hheader index hinside,
      ptpGetParam_ip hconn' hholds' hoffset hheader index hinside]
  · by_cases htype : field 4 4 bytes = ptpipDataPacketStart
    · obtain ⟨_, hend, hsecond⟩ := hdata htype
      rw [ptpGetPayload_ip hconn hholds htype hend (by omega) hsecond,
        ptpGetPayload_ip hconn' hholds' htype hend (by omega) hsecond]
    · rw [(ptpGetPayload_ip_panics hconn hholds htype (by omega)).1,
        (ptpGetPayload_ip_panics hconn' hholds' htype (by omega)).1]
  · by_cases htype : field 4 4 bytes = ptpipDataPacketStart
    · obtain ⟨htwenty, _, _⟩ := hdata htype
      rw [ptpGetPayloadLength_ip hconn hholds htype htwenty,
        ptpGetPayloadLength_ip hconn' hholds' htype htwenty]
    · rw [(ptpGetPayload_ip_panics hconn hholds htype (by omega)).2,
        (ptpGetPayload_ip_panics hconn' hholds' htype (by omega)).2]

end Ip

/-! ## Successful receives -/

section Receive

variable {σ : Type} {B : Backend σ} {w w' : World σ} {fuel : Nat}

/-- A negative packet size is no size to read. -/
theorem ptpusbReadAllPackets_negative (hpacket : w.r.maxPacketSize < 0) {buffer : Buffer}
    (hready : w.r.Ready buffer) (rc : Int) : ptpusbReadAllPackets B fuel w ≠ .ok rc w' := by
  obtain ⟨hdata, hlength, hsize, _⟩ := hready
  intro hrun
  unfold ptpusbReadAllPackets at hrun
  rw [bind_ok (updateRuntime_run _ _)] at hrun
  cases fuel with
  | zero => cases hrun
  | succ fuel =>
      obtain ⟨r, v, hbody, _⟩ := bind_eq_ok.mp hrun
      unfold ptpusbReadBody at hbody
      rw [bind_ok (runtime_run _)] at hbody
      obtain ⟨need, v₁, hadd, hgrow⟩ := bind_eq_ok.mp hbody
      obtain ⟨hneed, _, hsame⟩ := intAdd_eq_ok hadd
      dsimp only at hneed hgrow
      have hsmall : ¬w.r.dataLength < need := by omega
      rw [if_neg hsmall, hsame, bind_ok (pure_run _ _), if_neg (by decide)] at hgrow
      cases hendpoint : bulkEndpoint w.r.connectionType with
      | none =>
          rw [hendpoint] at hgrow
          cases hgrow
      | some endpoint =>
          rw [hendpoint] at hgrow
          obtain ⟨got, v₂, hread, _⟩ := bind_eq_ok.mp hgrow
          exact absurd (size_of_cmdRead hread) (not_le.mpr hpacket)

/-- What a successful receive has received, and where it is. -/
theorem received_of_run {buffer : Buffer} (hready : w.r.Ready buffer)
    (hrun : ptpReceiveAllPackets B fuel w = .ok 0 w') :
    w'.r.connectionType = w.r.connectionType ∧
      ∃ calls, w'.log = w.log ++ calls ∧ w'.r.Holds (readBytes calls) ∧
        ((w.r.connectionType = .ip ∧ PacketReply (readBytes calls) w'.r) ∨
          (w.r.connectionType ≠ .ip ∧ w.r.connectionType ≠ .ble ∧
            BulkReply (readBytes calls))) := by
  have hbulk : ∀ endpoint, bulkEndpoint w.r.connectionType = some endpoint →
      w.r.connectionType ≠ .ip → ptpusbReadAllPackets B fuel w = .ok 0 w' →
      w'.r.connectionType = w.r.connectionType ∧
        ∃ calls, w'.log = w.log ++ calls ∧ w'.r.Holds (readBytes calls) ∧
          BulkReply (readBytes calls) := by
    intro endpoint hendpoint hip hrun
    have hpacket : 0 ≤ w.r.maxPacketSize := by
      by_contra hnegative
      exact ptpusbReadAllPackets_negative (not_le.mp hnegative) hready 0 hrun
    let c : BulkCall B := ⟨w, buffer, endpoint, hready.1, hready.2.1, hready.2.2.1, hendpoint,
      hpacket⟩
    obtain ⟨n, _, hstops, hat⟩ := c.stops_of_run (show c.run fuel = .ok 0 w' from hrun) (by decide)
    have hlength := c.received_le_of_fitsAt hstops.fits
    have hdone : verdictOf (c.received (n + 1)) = .done := by
      have houtcome := hstops.outcome
      unfold BulkCall.outcome at houtcome
      split_ifs at houtcome
      · exact absurd (Option.some.inj houtcome) (by decide)
      · exact absurd (Option.some.inj houtcome) (by decide)
      · cases hverdict : verdictOf (c.received (n + 1)) with
        | more => rw [hverdict] at houtcome; cases houtcome
        | done => rfl
        | reject =>
            rw [hverdict] at houtcome
            exact absurd (Option.some.inj houtcome) (by decide)
    refine ⟨?_, c.calls (n + 1), hat.log, ?_, ?_⟩
    · obtain ⟨_, _, _, hr⟩ := hat.runtime
      rw [hr]
    · rw [c.readBytes_calls]
      exact c.at_holds hat
    · rw [c.readBytes_calls]
      exact bulkReply_of_done hdone hlength
  unfold ptpReceiveAllPackets at hrun
  rw [bind_ok (runtime_run w)] at hrun
  cases hconn : w.r.connectionType with
  | ip =>
      rw [hconn] at hrun
      obtain ⟨hsame, bytes, calls, hreply, hlog, hcalls⟩ := packetReply_of_run hready hrun
      exact ⟨hsame.trans hconn, calls, hlog, hcalls ▸ hreply.holds, .inl ⟨rfl, hcalls ▸ hreply⟩⟩
  | ipUsb =>
      rw [hconn] at hrun
      obtain ⟨hsame, calls, hlog, hholds, hreply⟩ := hbulk _ (by rw [hconn]; rfl)
        (by rw [hconn]; decide) hrun
      exact ⟨hsame.trans hconn, calls, hlog, hholds, .inr ⟨by decide, by decide, hreply⟩⟩
  | usb =>
      rw [hconn] at hrun
      obtain ⟨hsame, calls, hlog, hholds, hreply⟩ := hbulk _ (by rw [hconn]; rfl)
        (by rw [hconn]; decide) hrun
      exact ⟨hsame.trans hconn, calls, hlog, hholds, .inr ⟨by decide, by decide, hreply⟩⟩
  | ble =>
      rw [hconn] at hrun
      cases hrun

/-- After a successful receive, all that the accessors expose lies in the bytes received,
and any other receive of the same bytes exposes the same, if and only if the lengths in
these bytes are sound. -/
theorem accessors_expose_received {buffer : Buffer} (hready : w.r.Ready buffer)
    (hrun : ptpReceiveAllPackets B fuel w = .ok 0 w') :
    ∃ calls, w'.log = w.log ++ calls ∧
      ((Exposed (readBytes calls) w'.r ∧
        ∀ {τ : Type} (C : Backend τ) (v v' : World τ) (buffer' : Buffer) (fuel' : Nat)
          (calls' : List Call), v.r.Ready buffer' →
          v.r.connectionType = w.r.connectionType → ptpReceiveAllPackets C fuel' v = .ok 0 v' →
          v'.log = v.log ++ calls' → readBytes calls' = readBytes calls →
          SameAccessors w'.r v'.r) ↔
        Sound w.r.connectionType (readBytes calls)) := by
  obtain ⟨hconn, calls, hlog, hholds, hkind⟩ := received_of_run hready hrun
  refine ⟨calls, hlog, ?_⟩
  have hsecond : ∀ {τ : Type} (C : Backend τ) (v v' : World τ) (buffer' : Buffer) (fuel' : Nat)
      (calls' : List Call), v.r.Ready buffer' →
      v.r.connectionType = w.r.connectionType → ptpReceiveAllPackets C fuel' v = .ok 0 v' →
      v'.log = v.log ++ calls' → readBytes calls' = readBytes calls →
      v'.r.connectionType = w.r.connectionType ∧ v'.r.Holds (readBytes calls) := by
    intro τ C v v' buffer' fuel' calls' hready' hconn' hrun' hlog' hbytes
    obtain ⟨hsame, calls'', hlog'', hholds', _⟩ := received_of_run hready' hrun'
    rw [hlog'] at hlog''
    obtain rfl := List.append_cancel_left hlog''
    rw [hbytes] at hholds'
    exact ⟨hsame.trans hconn', hholds'⟩
  rcases hkind with ⟨hip, hreply⟩ | ⟨hip, _, hreply⟩
  · have hip' : w'.r.connectionType = .ip := hconn.trans hip
    have hsound : Sound w.r.connectionType (readBytes calls) ↔ SoundPackets (readBytes calls) := by
      rw [hip]
      rfl
    rw [hsound]
    constructor
    · rintro ⟨hexposed, _⟩
      exact (exposed_ip_iff hip' hreply).mp hexposed
    · intro hpackets
      refine ⟨(exposed_ip_iff hip' hreply).mpr hpackets, ?_⟩
      intro τ C v v' buffer' fuel' calls' hready' hconn' hrun' hlog' hbytes
      obtain ⟨hsame, hholds'⟩ := hsecond C v v' buffer' fuel' calls' hready' hconn' hrun' hlog' hbytes
      exact sameAccessors_ip hip' hreply hpackets (hsame.trans hip) hholds'
  · have hip' : w'.r.connectionType ≠ .ip := hconn ▸ hip
    have hsound : Sound w.r.connectionType (readBytes calls) ↔
        12 ≤ field 4 0 (readBytes calls) := by
      unfold Sound
      cases hcase : w.r.connectionType with
      | ip => exact absurd hcase hip
      | ipUsb => rfl
      | usb => rfl
      | ble => rfl
    rw [hsound]
    constructor
    · rintro ⟨hexposed, _⟩
      exact (exposed_bulk_iff hip' hholds hreply).mp hexposed
    · intro hlength
      refine ⟨(exposed_bulk_iff hip' hholds hreply).mpr hlength, ?_⟩
      intro τ C v v' buffer' fuel' calls' hready' hconn' hrun' hlog' hbytes
      obtain ⟨hsame, hholds'⟩ := hsecond C v v' buffer' fuel' calls' hready' hconn' hrun' hlog' hbytes
      exact sameAccessors_bulk hip' hholds hreply hlength (hsame ▸ hip) hholds'

end Receive

/-- The receive of one response over USB. -/
theorem accessors_expose_received_response :
    ∃ w', ptpReceiveAllPackets scripted 2 (scriptedWorld 512 [some okResponse]) = .ok 0 w' ∧
      Exposed okResponse w'.r := by
  obtain ⟨w', hrun⟩ := returned_eq_some.mp
    (by decide +kernel : returned (ptpReceiveAllPackets scripted 2
      (scriptedWorld 512 [some okResponse])) = some 0)
  refine ⟨w', hrun, ?_⟩
  obtain ⟨calls, hlog, hexposed⟩ :=
    accessors_expose_received (scriptedWorld_ready 512 [some okResponse]) hrun
  have hfinal : (final (ptpReceiveAllPackets scripted 2 (scriptedWorld 512 [some okResponse]))).log =
      [.read .usb 0 512 1000000 (some okResponse)] := by decide +kernel
  rw [hrun] at hfinal
  have hbytes : readBytes calls = okResponse := by
    rw [← List.nil_append calls, ← show w'.log = [] ++ calls from hlog, show w'.log = _ from hfinal]
    decide
  rw [hbytes] at hexposed
  exact (hexposed.mpr (by decide)).1

/-- A response container that claims to be empty. -/
def emptyResponse : List UInt8 := [0, 0, 0, 0, 3, 0, 1, 32, 0, 0, 0, 0]

/-- The receive accepts a response that is shorter than its header, and the length of its
payload is negative. -/
theorem accessors_expose_negative_payload :
    ∃ w', ptpReceiveAllPackets scripted 2 (scriptedWorld 512 [some emptyResponse]) = .ok 0 w' ∧
      ptpGetPayloadLength w'.r = .ok (-12) ∧ ¬Exposed emptyResponse w'.r := by
  obtain ⟨w', hrun⟩ := returned_eq_some.mp
    (by decide +kernel : returned (ptpReceiveAllPackets scripted 2
      (scriptedWorld 512 [some emptyResponse])) = some 0)
  have hfinal : ptpGetPayload (final (ptpReceiveAllPackets scripted 2
      (scriptedWorld 512 [some emptyResponse]))).r = .ok 12 ∧
      ptpGetPayloadLength (final (ptpReceiveAllPackets scripted 2
        (scriptedWorld 512 [some emptyResponse]))).r = .ok (-12) := by decide +kernel
  rw [hrun] at hfinal
  obtain ⟨hpayload, hlength⟩ := hfinal
  refine ⟨w', hrun, hlength, fun hexposed => ?_⟩
  obtain ⟨length, hlength', _⟩ := hexposed.payload 12 hpayload
  have hcontra := Except.ok.inj (hlength.symm.trans hlength')
  omega

end Libpict
