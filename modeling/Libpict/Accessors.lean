import Libpict.Container

/-! # Laws of the accessors

What the accessors return when the buffer starts with given bytes, for both
framings: each reads one field of the response, found at the start of the bytes or
behind the packets of the data phase.
-/

namespace Libpict

open Bytes CInt Exec PtpRuntime

variable {r : PtpRuntime} {bytes : List UInt8}

/-! ## USB-style framing -/

/-- Where the response container starts. -/
def bulkResponseOffset (bytes : List UInt8) : Nat :=
  if field 2 4 bytes = ptpPacketTypeData then field 4 0 bytes else 0

section Bulk

variable (hconn : r.connectionType ≠ .ip) (hholds : r.Holds bytes)
  (hheader : bulkResponseOffset bytes + 12 ≤ bytes.length)

include hholds hheader

theorem bulkResponse_holds : bulkResponse r = .ok (bulkResponseOffset bytes : Int) := by
  have htype : r.loadU16 4 = .ok (field 2 4 bytes) := hholds.loadLe 4 2 rfl (by omega)
  have hlength : r.loadU32 0 = .ok (field 4 0 bytes) := hholds.loadLe 0 4 rfl (by omega)
  unfold bulkResponse bulkResponseOffset
  rw [htype, hlength]
  simp only [bind, Except.bind, pure, Except.pure]
  split_ifs <;> rfl

include hconn

theorem ptpGetReturnCode_bulk :
    ptpGetReturnCode r = .ok (field 2 (bulkResponseOffset bytes + 6) bytes : Int) := by
  have hcode : r.loadU16 ((bulkResponseOffset bytes : Int) + 6) =
      .ok (field 2 (bulkResponseOffset bytes + 6) bytes) := hholds.loadLe _ 2 rfl (by omega)
  unfold ptpGetReturnCode
  split
  · contradiction
  · rw [bulkResponse_holds hholds hheader]
    simp only [bind, Except.bind, hcode]
    rfl

theorem ptpGetLastTransactionId_bulk : ptpGetLastTransactionId r =
    .ok (toInt32 (field 4 (bulkResponseOffset bytes + 8) bytes)) := by
  have htransaction : r.loadU32 ((bulkResponseOffset bytes : Int) + 8) =
      .ok (field 4 (bulkResponseOffset bytes + 8) bytes) := hholds.loadLe _ 4 rfl (by omega)
  unfold ptpGetLastTransactionId
  split
  · contradiction
  · rw [bulkResponse_holds hholds hheader]
    simp only [bind, Except.bind, htransaction]
    rfl

theorem ptpGetParamLength_bulk : ptpGetParamLength r =
    .ok (toInt32 (toUInt32 (field 4 (bulkResponseOffset bytes) bytes - 12) / 4 : Nat)) := by
  have hlength : r.loadU32 (bulkResponseOffset bytes : Int) =
      .ok (field 4 (bulkResponseOffset bytes) bytes) := hholds.loadLe _ 4 rfl (by omega)
  unfold ptpGetParamLength
  split
  · contradiction
  · rw [bulkResponse_holds hholds hheader]
    simp only [bind, Except.bind, hlength]
    rfl

theorem ptpGetPayloadLength_bulk :
    ptpGetPayloadLength r = .ok (toInt32 (toUInt32 (field 4 0 bytes - 12))) := by
  have hlength : r.loadU32 0 = .ok (field 4 0 bytes) := hholds.loadLe 0 4 rfl (by omega)
  unfold ptpGetPayloadLength
  split
  · contradiction
  · simp only [bind, Except.bind, hlength]
    rfl

theorem ptpGetPayload_bulk : ptpGetPayload r =
    .ok (if field 2 4 bytes = ptpPacketTypeCommand then 28 else 12) := by
  have htype : r.loadU16 4 = .ok (field 2 4 bytes) := hholds.loadLe 4 2 rfl (by omega)
  unfold ptpGetPayload
  split
  · contradiction
  · simp only [bind, Except.bind, htype]
    by_cases hresponse : field 2 4 bytes = ptpPacketTypeResponse
    · rw [if_pos hresponse, hresponse, if_neg (by decide)]
      rfl
    · rw [if_neg hresponse]
      split_ifs <;> rfl

/-- With a data container in front, every parameter reads as the response code. -/
theorem ptpGetParam_bulk_data (hdata : field 2 4 bytes = ptpPacketTypeData) (index : Int) :
    ptpGetParam r index = .ok (field 2 (bulkResponseOffset bytes + 6) bytes) := by
  have htype : r.loadU16 4 = .ok (field 2 4 bytes) := hholds.loadLe 4 2 rfl (by omega)
  have hlength : r.loadU32 0 = .ok (field 4 0 bytes) := hholds.loadLe 0 4 rfl (by omega)
  have hoffset : bulkResponseOffset bytes = field 4 0 bytes := if_pos hdata
  have hcode : r.loadU16 ((field 4 0 bytes : Int) + 6) =
      .ok (field 2 (field 4 0 bytes + 6) bytes) := hholds.loadLe _ 2 rfl (by omega)
  unfold ptpGetParam
  split
  · contradiction
  · simp only [bind, Except.bind, htype, hlength, if_pos hdata, hcode, hoffset]

theorem ptpGetParam_bulk (hdata : field 2 4 bytes ≠ ptpPacketTypeData) (index : Nat)
    (hindex : 12 + 4 * index + 4 ≤ bytes.length) :
    ptpGetParam r index = .ok (field 4 (12 + 4 * index) bytes) := by
  have htype : r.loadU16 4 = .ok (field 2 4 bytes) := hholds.loadLe 4 2 rfl (by omega)
  have hparam : r.loadU32 (12 + 4 * (index : Int)) = .ok (field 4 (12 + 4 * index) bytes) :=
    hholds.loadLe _ 4 (by push_cast; rfl) hindex
  unfold ptpGetParam
  split
  · contradiction
  · simp only [bind, Except.bind, htype, if_neg hdata, hparam]

end Bulk

/-! ## PTP/IP framing -/

/-- The loads that find a response packet. -/
theorem ptpipGetResponsePacket_eq_ok {offset : Int} :
    ptpipGetResponsePacket r = .ok offset ↔
      (r.loadU32 4 = .ok ptpipCommandResponse ∧ offset = 0) ∨
      (r.loadU32 4 = .ok ptpipDataPacketStart ∧ ∃ startLength endLength : Nat,
        r.loadU32 0 = .ok startLength ∧ r.loadU32 (startLength + 4) = .ok ptpipDataPacketEnd ∧
        r.loadU32 startLength = .ok endLength ∧
        r.loadU32 (startLength + endLength + 4) = .ok ptpipCommandResponse ∧
        offset = startLength + endLength) := by
  unfold ptpipGetResponsePacket
  rw [except_bind_eq_ok]
  constructor
  · rintro ⟨startType, htype, hrest⟩
    by_cases hresponse : startType = ptpipCommandResponse
    · rw [if_pos hresponse] at hrest
      exact .inl ⟨hresponse ▸ htype, (Except.ok.inj hrest).symm⟩
    rw [if_neg hresponse] at hrest
    by_cases hstart : startType ≠ ptpipDataPacketStart
    · rw [if_pos hstart] at hrest
      cases hrest
    rw [if_neg hstart] at hrest
    obtain ⟨startLength, hstartLength, hrest⟩ := except_bind_eq_ok.mp hrest
    obtain ⟨endType, hendType, hrest⟩ := except_bind_eq_ok.mp hrest
    by_cases hend : endType ≠ ptpipDataPacketEnd
    · rw [if_pos hend] at hrest
      cases hrest
    rw [if_neg hend] at hrest
    obtain ⟨endLength, hendLength, hrest⟩ := except_bind_eq_ok.mp hrest
    obtain ⟨type, htype', hrest⟩ := except_bind_eq_ok.mp hrest
    by_cases hthird : type ≠ ptpipCommandResponse
    · rw [if_pos hthird] at hrest
      cases hrest
    rw [if_neg hthird] at hrest
    rw [not_not] at hstart hend hthird
    exact .inr ⟨hstart ▸ htype, startLength, endLength, hstartLength, hend ▸ hendType,
      hendLength, hthird ▸ htype', (Except.ok.inj hrest).symm⟩
  · rintro (⟨htype, rfl⟩ | ⟨htype, startLength, endLength, hstartLength, hendType, hendLength,
      hthird, rfl⟩)
    · exact ⟨_, htype, if_pos rfl⟩
    · refine ⟨_, htype, ?_⟩
      rw [if_neg (by decide), if_neg (by simp), except_bind_eq_ok]
      refine ⟨_, hstartLength, ?_⟩
      rw [except_bind_eq_ok]
      refine ⟨_, hendType, ?_⟩
      rw [if_neg (by simp), except_bind_eq_ok]
      refine ⟨_, hendLength, ?_⟩
      rw [except_bind_eq_ok]
      exact ⟨_, hthird, if_neg (by simp)⟩

/-- Where the response packet starts, if the packets in front are as expected. -/
def ipResponseOffset (bytes : List UInt8) : Option Nat :=
  if field 4 4 bytes = ptpipCommandResponse then some 0
  else
    let second := field 4 0 bytes
    let third := second + field 4 second bytes
    if field 4 4 bytes = ptpipDataPacketStart ∧ field 4 (second + 4) bytes = ptpipDataPacketEnd ∧
        field 4 (third + 4) bytes = ptpipCommandResponse then some third
    else none

section Ip

variable {offset : Nat} (hconn : r.connectionType = .ip) (hholds : r.Holds bytes)
  (hoffset : ipResponseOffset bytes = some offset) (hheader : offset + 14 ≤ bytes.length)

include hholds hoffset hheader

theorem ptpipGetResponsePacket_holds : ptpipGetResponsePacket r = .ok (offset : Int) := by
  have htype : r.loadU32 4 = .ok (field 4 4 bytes) := hholds.loadLe 4 4 rfl (by omega)
  unfold ptpipGetResponsePacket
  unfold ipResponseOffset at hoffset
  rw [htype]
  simp only [bind, Except.bind]
  by_cases hresponse : field 4 4 bytes = ptpipCommandResponse
  · rw [if_pos hresponse] at hoffset ⊢
    obtain rfl := Option.some.inj hoffset
    rfl
  · rw [if_neg hresponse] at hoffset ⊢
    obtain ⟨⟨hstart, hend, hthird⟩, hsome⟩ := Option.ite_none_right_eq_some.mp hoffset
    obtain rfl := Option.some.inj hsome
    have hfirstLength : r.loadU32 0 = .ok (field 4 0 bytes) := hholds.loadLe 0 4 rfl (by omega)
    have hendType : r.loadU32 ((field 4 0 bytes : Int) + 4) =
        .ok (field 4 (field 4 0 bytes + 4) bytes) := hholds.loadLe _ 4 rfl (by omega)
    have hendLength : r.loadU32 (field 4 0 bytes : Int) =
        .ok (field 4 (field 4 0 bytes) bytes) := hholds.loadLe _ 4 rfl (by omega)
    have hthirdType : r.loadU32 ((field 4 0 bytes : Int) + field 4 (field 4 0 bytes) bytes + 4) =
        .ok (field 4 (field 4 0 bytes + field 4 (field 4 0 bytes) bytes + 4) bytes) :=
      hholds.loadLe _ 4 (by push_cast; rfl) (by omega)
    rw [hstart, if_neg (by simp), hfirstLength]
    dsimp only
    rw [hendType]
    dsimp only
    rw [hend, if_neg (by simp), hendLength]
    dsimp only
    rw [hthirdType]
    dsimp only
    rw [hthird, if_neg (by simp)]
    rfl

include hconn

theorem ptpGetReturnCode_ip : ptpGetReturnCode r = .ok (field 2 (offset + 8) bytes : Int) := by
  have hcode : r.loadU16 ((offset : Int) + 8) = .ok (field 2 (offset + 8) bytes) :=
    hholds.loadLe _ 2 rfl (by omega)
  unfold ptpGetReturnCode
  rw [hconn]
  dsimp only
  rw [ptpipGetResponsePacket_holds hholds hoffset hheader]
  simp only [bind, Except.bind, hcode]
  rfl

theorem ptpGetLastTransactionId_ip :
    ptpGetLastTransactionId r = .ok (toInt32 (field 4 (offset + 10) bytes)) := by
  have htransaction : r.loadU32 ((offset : Int) + 10) = .ok (field 4 (offset + 10) bytes) :=
    hholds.loadLe _ 4 rfl (by omega)
  unfold ptpGetLastTransactionId
  rw [hconn]
  dsimp only
  rw [ptpipGetResponsePacket_holds hholds hoffset hheader]
  simp only [bind, Except.bind, htransaction]
  rfl

theorem ptpGetParamLength_ip : ptpGetParamLength r =
    .ok (toInt32 (toUInt32 (field 4 offset bytes - 14) / 4 : Nat)) := by
  have hlength : r.loadU32 (offset : Int) = .ok (field 4 offset bytes) :=
    hholds.loadLe _ 4 rfl (by omega)
  unfold ptpGetParamLength
  rw [hconn]
  dsimp only
  rw [ptpipGetResponsePacket_holds hholds hoffset hheader]
  simp only [bind, Except.bind, hlength]
  rfl

theorem ptpGetParam_ip (index : Nat) (hindex : offset + 14 + 4 * index + 4 ≤ bytes.length) :
    ptpGetParam r index = .ok (field 4 (offset + 14 + 4 * index) bytes) := by
  have hparam : r.loadU32 ((offset : Int) + 14 + 4 * index) =
      .ok (field 4 (offset + 14 + 4 * index) bytes) := hholds.loadLe _ 4 (by push_cast; rfl) hindex
  unfold ptpGetParam
  rw [hconn]
  dsimp only
  rw [ptpipGetResponsePacket_holds hholds hoffset hheader]
  simp only [bind, Except.bind, hparam]

end Ip

section IpPayload

variable (hconn : r.connectionType = .ip) (hholds : r.Holds bytes)

include hconn hholds

theorem ptpGetPayload_ip (hstart : field 4 4 bytes = ptpipDataPacketStart)
    (hend : field 4 (field 4 0 bytes + 4) bytes = ptpipDataPacketEnd) (hheader : 8 ≤ bytes.length)
    (hsecond : field 4 0 bytes + 8 ≤ bytes.length) :
    ptpGetPayload r = .ok (field 4 0 bytes + 12 : Int) := by
  have htype : r.loadU32 4 = .ok (field 4 4 bytes) := hholds.loadLe 4 4 rfl (by omega)
  have hlength : r.loadU32 0 = .ok (field 4 0 bytes) := hholds.loadLe 0 4 rfl (by omega)
  have hendType : r.loadU32 ((field 4 0 bytes : Int) + 4) =
      .ok (field 4 (field 4 0 bytes + 4) bytes) := hholds.loadLe _ 4 rfl (by omega)
  unfold ptpGetPayload
  rw [hconn]
  simp only [bind, Except.bind, htype, hstart, hlength, hendType, hend, ne_eq, not_true_eq_false,
    if_false]
  rfl

theorem ptpGetPayloadLength_ip (hstart : field 4 4 bytes = ptpipDataPacketStart)
    (hheader : 20 ≤ bytes.length) :
    ptpGetPayloadLength r = .ok (toInt32 (field 8 12 bytes)) := by
  have htype : r.loadU32 4 = .ok (field 4 4 bytes) := hholds.loadLe 4 4 rfl (by omega)
  have hlength : r.loadU64 12 = .ok (field 8 12 bytes) := hholds.loadLe 12 8 rfl (by omega)
  unfold ptpGetPayloadLength
  rw [hconn]
  simp only [bind, Except.bind, htype, hstart, hlength, ne_eq, not_true_eq_false, if_false]
  rfl

/-- Without a start packet in front, there is no payload to point to. -/
theorem ptpGetPayload_ip_panics (hstart : field 4 4 bytes ≠ ptpipDataPacketStart)
    (hheader : 8 ≤ bytes.length) :
    ptpGetPayload r = .error (.panic "ptp_get_payload(): non data start packet") ∧
      ptpGetPayloadLength r =
        .error (.panic "ptp_get_payload_length(): non data start packet") := by
  have htype : r.loadU32 4 = .ok (field 4 4 bytes) := hholds.loadLe 4 4 rfl (by omega)
  unfold ptpGetPayload ptpGetPayloadLength
  rw [hconn]
  simp only [bind, Except.bind, htype, if_pos hstart]
  exact ⟨rfl, rfl⟩

end IpPayload

end Libpict
