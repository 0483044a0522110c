import Libpict.Base.Reader
import Libpict.Container

/-! # Reading the payload

The parsers walk over the payload of the reply in the runtime's buffer with little-endian
readers that know no bound. They are readers of the buffer; on the payload as a window they
end or ask for bytes behind it.
-/

namespace Libpict

open Bytes CInt Exec

/-- A little-endian field. -/
def readLe (size : Nat) (offset : Int) : Reader UInt8 Halt Nat := do
  let bytes ← Reader.read offset size
  return leValue bytes

/-- `ptp_read_u8`. -/
abbrev ptpReadU8 (offset : Int) : Reader UInt8 Halt Nat := readLe 1 offset

/-- `ptp_read_u16`. -/
abbrev ptpReadU16 (offset : Int) : Reader UInt8 Halt Nat := readLe 2 offset

/-- `ptp_read_u32`. -/
abbrev ptpReadU32 (offset : Int) : Reader UInt8 Halt Nat := readLe 4 offset

/-- `ptp_read_u64`. -/
abbrev ptpReadU64 (offset : Int) : Reader UInt8 Halt Nat := readLe 8 offset

/-- The accessors locate the payload in the buffer; a negative length is that of no bytes. -/
structure PtpRuntime.HasPayload (r : PtpRuntime) (start length : Int) (payload : List UInt8) :
    Prop where
  start_eq : ptpGetPayload r = .ok start
  length_eq : ptpGetPayloadLength r = .ok length
  size : payload.length = length.toNat
  shows : Reader.Shows r.load start payload

theorem readLe_view (size offset : Nat) (start : Int) (payload : List UInt8) :
    (readLe size (start + offset)).view start payload =
      if offset + size ≤ payload.length then some (.ok (field size offset payload)) else none := by
  unfold readLe
  split
  next hinside =>
    rw [Reader.view_bind_ok (Reader.view_read hinside)]
    rfl
  next houtside =>
    have hrequest : ¬Reader.Inside start payload.length (start + offset, (size : Int)) := by
      rintro ⟨_, _, hhigh⟩
      dsimp only at hhigh
      omega
    rw [Reader.view_bind, Reader.view_read_outside hrequest]

/-- A field inside the payload is found, and one that is not leads out of it. -/
theorem readLe_bind_view {β : Type} {size offset : Nat} {start position : Int}
    {payload : List UInt8} (hat : position = start + offset) (f : Nat → Reader UInt8 Halt β) :
    (readLe size position >>= f).view start payload =
      if offset + size ≤ payload.length then (f (field size offset payload)).view start payload
      else none := by
  rw [hat, Reader.view_bind, readLe_view]
  by_cases hinside : offset + size ≤ payload.length
  · rw [if_pos hinside, if_pos hinside]
  · rw [if_neg hinside, if_neg hinside]

/-- A field in front of others is found if they are. -/
theorem readLe_bind_within {β : Type} {size offset total : Nat} {start position : Int}
    {payload : List UInt8} {result : Option (Except Halt β)} {f : Nat → Reader UInt8 Halt β}
    (hat : position = start + offset) (hle : offset + size ≤ total)
    (hrest : (f (field size offset payload)).view start payload =
      if total ≤ payload.length then result else none) :
    (readLe size position >>= f).view start payload =
      if total ≤ payload.length then result else none := by
  rw [readLe_bind_view hat]
  by_cases hinside : offset + size ≤ payload.length
  · rw [if_pos hinside, hrest]
  · rw [if_neg hinside, if_neg (by omega)]

/-! ## Where a payload is found -/

section Located

variable {r : PtpRuntime}

theorem ptpGetPayloadLength_fits {length : Int}
    (hlength : ptpGetPayloadLength r = .ok length) : Fits length := by
  unfold ptpGetPayloadLength at hlength
  split at hlength
  next =>
    obtain ⟨startType, _, hlength⟩ := except_bind_eq_ok.mp hlength
    split at hlength
    next => cases hlength
    next =>
      obtain ⟨payloadLength, _, hlength⟩ := except_bind_eq_ok.mp hlength
      exact Except.ok.inj hlength ▸ toInt32_fits _
  next =>
    obtain ⟨bulkLength, _, hlength⟩ := except_bind_eq_ok.mp hlength
    exact Except.ok.inj hlength ▸ toInt32_fits _

theorem PtpRuntime.HasPayload.length_le {start length : Int} {payload : List UInt8}
    (hpayload : r.HasPayload start length payload) :
    (payload.length : Int) ≤ intMax := by
  have hfits := ptpGetPayloadLength_fits hpayload.length_eq
  have hsize := hpayload.size
  unfold Fits at hfits
  unfold intMax
  omega

/-- The bytes that the buffer holds, from an offset on. -/
theorem shows_of_holds {front payload rest : List UInt8}
    (hholds : r.Holds (front ++ (payload ++ rest))) : Reader.Shows r.load front.length payload := by
  intro offset size hle
  have hload := hholds.load (front.length + offset) size (by simp; omega)
  push_cast at hload
  rw [hload, List.drop_append, List.drop_eq_nil_of_le (Nat.le_add_right _ _),
    Nat.add_sub_cancel_left, List.nil_append, List.drop_append_of_le_length (by omega),
    List.take_append_of_le_length (by rw [List.length_drop]; omega)]

/-- The body of a data container is the payload, in a USB-framed session. -/
theorem PtpRuntime.HasPayload.of_container (hconn : r.connectionType ≠ .ip) {c : Container}
    {rest : List UInt8} (hfits : 12 + (c.body.length : Int) ≤ intMax)
    (hholds : r.Holds (c.bytes ptpPacketTypeData ++ rest)) :
    r.HasPayload 12 c.body.length c.body := by
  unfold intMax at hfits
  have hsize : 12 ≤ (c.bytes ptpPacketTypeData ++ rest).length := by
    rw [List.length_append, Container.bytes_length]
    omega
  have htype : r.loadU16 4 = .ok (field 2 4 _) := hholds.loadLe 4 2 rfl (by omega)
  have hlength : r.loadU32 0 = .ok (field 4 0 _) := hholds.loadLe 0 4 rfl (by omega)
  rw [c.field_type rest (by decide)] at htype
  rw [c.field_length rest (by omega)] at hlength
  obtain ⟨header, hheader, hsplit⟩ := c.bytes_split rest ptpPacketTypeData
  have hshows := shows_of_holds (hsplit ▸ hholds)
  rw [hheader] at hshows
  refine ⟨?_, ?_, rfl, hshows⟩
  · unfold ptpGetPayload
    split
    · contradiction
    · rw [htype]
      rfl
  · unfold ptpGetPayloadLength
    split
    · contradiction
    · rw [hlength]
      have hbody : ((12 + c.body.length : Nat) : Int) - 12 = c.body.length := by push_cast; ring
      have hint : Fits (c.body.length : Int) := by unfold Fits; omega
      have hvalue : toInt32 (toUInt32 (((12 + c.body.length : Nat) : Int) - 12)) =
          c.body.length := by
        rw [hbody, toUInt32_natCast, Nat.mod_eq_of_lt (by omega), toInt32_of_fits hint]
      exact congrArg Except.ok hvalue

/-- A runtime whose buffer starts with the bytes received. -/
def received (bytes : List UInt8) : PtpRuntime :=
  { ptpInit none with data := some ⟨ptpDefaultSize, fun index => bytes.getD index 0⟩ }

theorem received_holds {bytes : List UInt8} (hle : bytes.length ≤ ptpDefaultSize) :
    (received bytes).Holds bytes := by
  refine ⟨_, rfl, hle, ?_⟩
  apply List.ext_getElem (by simp)
  intro index _ hindex
  rw [Buffer.slice_getElem]
  simp [hindex]

/-- A payload in a data container. -/
theorem received_hasPayload (payload : List UInt8) (hle : payload.length ≤ 999988) :
    (received (Container.bytes ptpPacketTypeData ⟨0, 0, payload⟩)).HasPayload 12 payload.length
      payload := by
  have hholds : (received (Container.bytes ptpPacketTypeData ⟨0, 0, payload⟩)).Holds
      (Container.bytes ptpPacketTypeData ⟨0, 0, payload⟩ ++ []) := by
    rw [List.append_nil]
    apply received_holds
    rw [Container.bytes_length]
    unfold ptpDefaultSize
    dsimp only
    omega
  have hconn : (received (Container.bytes ptpPacketTypeData ⟨0, 0, payload⟩)).connectionType ≠ .ip :=
    (by decide : PtpConnType.usb ≠ .ip)
  apply PtpRuntime.HasPayload.of_container hconn ?_ hholds
  unfold intMax
  dsimp only
  omega

end Located

end Libpict
