import Libpict.RuntimeLaws
import Libpict.Transport

/-! # USB-style containers

The verdict of the USB-style receive loop only depends on the bytes received, and
on a well-formed reply it is `more` at every proper prefix and `done` at the end:
no cut of the stream makes the loop stop early or read past the reply.
-/

namespace Libpict

open Bytes CInt PtpRuntime

/-! ## The verdict on a byte string -/

/-- The verdict of `bulkVerdict` on the bytes received so far. -/
def verdictOf (bytes : List UInt8) : Verdict :=
  if bytes.length < 12 then .more
  else if bytes.length < field 4 0 bytes then .more
  else if field 2 4 bytes = ptpPacketTypeResponse then .done
  else if field 2 4 bytes = ptpPacketTypeData then
    let length := field 4 0 bytes
    if toUInt32 (length + 12) > bytes.length then .more
    else if field 2 (length + 4) bytes ≠ ptpPacketTypeResponse then .reject
    else if bytes.length = toUInt32 (field 4 length bytes + length) then .done
    else if bytes.length > toUInt32 (field 4 length bytes + length) then .reject
    else .more
  else .more

@[simp] theorem verdictOf_nil : verdictOf [] = .more := rfl

/-- The loop never looks outside the bytes it has received. -/
theorem bulkVerdict_holds {r : PtpRuntime} {bytes : List UInt8} (hholds : r.Holds bytes)
    (hlength : (bytes.length : Int) ≤ intMax) :
    bulkVerdict bytes.length r = .ok (verdictOf bytes) := by
  unfold bulkVerdict verdictOf
  by_cases hshort : bytes.length < 12
  · rw [if_pos hshort, if_pos hshort]
    rfl
  rw [if_neg hshort, if_neg hshort]
  have hlen : r.loadU32 0 = .ok (field 4 0 bytes) := hholds.loadLe 0 4 rfl (by omega)
  have htype : r.loadU16 4 = .ok (field 2 4 bytes) := hholds.loadLe 4 2 rfl (by omega)
  rw [hlen, htype]
  simp only [bind, Except.bind, pure, Except.pure]
  by_cases hfirst : bytes.length < field 4 0 bytes
  · rw [if_pos hfirst, if_pos hfirst]
  rw [if_neg hfirst, if_neg hfirst]
  by_cases hresponse : field 2 4 bytes = ptpPacketTypeResponse
  · rw [if_pos hresponse, if_pos hresponse]
  rw [if_neg hresponse, if_neg hresponse]
  by_cases hdata : field 2 4 bytes = ptpPacketTypeData
  · rw [if_pos hdata, if_pos hdata]
    by_cases hheader : toUInt32 (field 4 0 bytes + 12) > bytes.length
    · rw [if_pos hheader, if_pos hheader]
    rw [if_neg hheader, if_neg hheader]
    -- the length is at most the bytes received, so adding 12 did not wrap around
    have hinside : field 4 0 bytes + 12 ≤ bytes.length := by
      unfold intMax at hlength
      have hmod := toUInt32_natCast (field 4 0 bytes + 12)
      push_cast at hmod
      omega
    have hsecond : r.loadU32 (field 4 0 bytes) = .ok (field 4 (field 4 0 bytes) bytes) :=
      hholds.loadLe _ 4 rfl (by omega)
    have hsecondType : r.loadU16 (field 4 0 bytes + 4) =
        .ok (field 2 (field 4 0 bytes + 4) bytes) := hholds.loadLe _ 2 rfl (by omega)
    rw [hsecond, hsecondType]
    dsimp only
    split_ifs <;> rfl
  · rw [if_neg hdata, if_neg hdata]

/-! ## Containers on the wire -/

/-- A field behind a prefix. -/
theorem field_behind (size offset : Nat) (front rest : List UInt8) :
    field size (front.length + offset) (front ++ rest) = field size offset rest := by
  rw [field, field, List.drop_append, List.drop_eq_nil_of_le (Nat.le_add_right _ _),
    Nat.add_sub_cancel_left, List.nil_append]

/-- Reading an encoded number back. -/
theorem field_leBytes {size value : Nat} (hlt : value < 256 ^ size) (rest : List UInt8) :
    field size 0 (leBytes size value ++ rest) = value := by
  rw [field, List.drop_zero, List.take_left' (leBytes_length _ _), leValue_leBytes_of_lt hlt]

theorem field_leBytes_behind {size value offset : Nat} {front : List UInt8}
    (hoffset : front.length = offset) (hlt : value < 256 ^ size) (rest : List UInt8) :
    field size offset (front ++ (leBytes size value ++ rest)) = value := by
  have hbehind := field_behind size 0 front (leBytes size value ++ rest)
  rw [Nat.add_zero, hoffset] at hbehind
  rw [hbehind, field_leBytes hlt]

/-- What a data or response container carries. -/
structure Container where
  code : UInt16
  transaction : UInt32
  body : List UInt8

namespace Container

/-- The container of the given type as a device sends it. -/
def bytes (type : Nat) (c : Container) : List UInt8 :=
  leBytes 4 (12 + c.body.length) ++ (leBytes 2 type ++ (leBytes 2 c.code.toNat ++
    (leBytes 4 c.transaction.toNat ++ c.body)))

@[simp] theorem bytes_length (type : Nat) (c : Container) :
    (c.bytes type).length = 12 + c.body.length := by
  simp [bytes]
  omega

variable {type : Nat} (c : Container) (rest : List UInt8)

theorem field_length (hfits : 12 + c.body.length < 4294967296) :
    field 4 0 (c.bytes type ++ rest) = 12 + c.body.length := by
  unfold bytes
  rw [List.append_assoc]
  exact field_leBytes (by omega) _

theorem field_type (htype : type < 65536) : field 2 4 (c.bytes type ++ rest) = type := by
  unfold bytes
  rw [List.append_assoc, List.append_assoc]
  exact field_leBytes_behind (leBytes_length _ _) (by omega) _

theorem field_code : field 2 6 (c.bytes type ++ rest) = c.code.toNat := by
  have hfront : (leBytes 4 (12 + c.body.length) ++ leBytes 2 type).length = 6 := by simp
  unfold bytes
  rw [← List.append_assoc (leBytes 4 _), List.append_assoc, List.append_assoc]
  exact field_leBytes_behind hfront c.code.toNat_lt _

theorem field_transaction :
    field 4 8 (c.bytes type ++ rest) = c.transaction.toNat := by
  have hfront : (leBytes 4 (12 + c.body.length) ++ leBytes 2 type ++
      leBytes 2 c.code.toNat).length = 8 := by simp
  unfold bytes
  rw [← List.append_assoc (leBytes 4 _), ← List.append_assoc (_ ++ _), List.append_assoc,
    List.append_assoc]
  exact field_leBytes_behind hfront c.transaction.toNat_lt _

/-- The body follows the twelve bytes of the header. -/
theorem bytes_split (type : Nat) : ∃ header : List UInt8, header.length = 12 ∧
    c.bytes type ++ rest = header ++ (c.body ++ rest) := by
  refine ⟨leBytes 4 (12 + c.body.length) ++ (leBytes 2 type ++ (leBytes 2 c.code.toNat ++
    leBytes 4 c.transaction.toNat)), by simp, ?_⟩
  simp only [bytes, List.append_assoc]

theorem body_slice : ((c.bytes type ++ rest).drop 12).take c.body.length = c.body := by
  obtain ⟨header, hheader, hsplit⟩ := c.bytes_split rest type
  rw [hsplit, List.drop_left' hheader, List.take_left' rfl]

theorem field_body (size offset : Nat) :
    field size (12 + offset) (c.bytes type ++ rest) = field size offset (c.body ++ rest) := by
  obtain ⟨header, hheader, hsplit⟩ := c.bytes_split rest type
  rw [hsplit, ← hheader, field_behind]

end Container

/-- A well-formed reply: an optional data container and a response container. -/
structure UsbReply where
  data : Option Container
  response : Container

namespace UsbReply

/-- The bytes before the response container. -/
def front (reply : UsbReply) : List UInt8 :=
  (reply.data.map (Container.bytes ptpPacketTypeData)).getD []

def bytes (reply : UsbReply) : List UInt8 :=
  reply.front ++ reply.response.bytes ptpPacketTypeResponse

section Fields

variable (reply : UsbReply)

/-- The fields of the response container are found right behind the data container. -/
theorem field_response (size offset : Nat) : field size (reply.front.length + offset) reply.bytes =
    field size offset (reply.response.bytes ptpPacketTypeResponse ++ []) := by
  rw [bytes, field_behind, List.append_nil]

theorem field_response_length (hfits : (reply.bytes.length : Int) ≤ intMax) :
    field 4 reply.front.length reply.bytes = 12 + reply.response.body.length := by
  rw [bytes, List.length_append, Container.bytes_length, intMax] at hfits
  have hfield := reply.field_response 4 0
  rw [Nat.add_zero] at hfield
  rw [hfield, reply.response.field_length _ (by omega)]

theorem field_response_type :
    field 2 (reply.front.length + 4) reply.bytes = ptpPacketTypeResponse := by
  rw [reply.field_response, reply.response.field_type _ (by decide)]

theorem bytes_length :
    reply.bytes.length = reply.front.length + (12 + reply.response.body.length) := by
  rw [bytes, List.length_append, Container.bytes_length]

end Fields

/-- On every proper prefix of a reply the loop reads on. -/
theorem verdictOf_prefix (reply : UsbReply) (hfits : (reply.bytes.length : Int) ≤ intMax)
    {received rest : List UInt8} (hsplit : received ++ rest = reply.bytes) (hrest : rest ≠ []) :
    verdictOf received = .more := by
  have hpos := List.length_pos_iff.mpr hrest
  have hlength := congrArg List.length hsplit
  rw [List.length_append] at hlength
  unfold intMax at hfits
  unfold verdictOf
  by_cases hshort : received.length < 12
  · exact if_pos hshort
  have hfield : ∀ size offset, offset + size ≤ received.length →
      field size offset received = field size offset reply.bytes := by
    intro size offset hle
    rw [← hsplit, field_append size offset received rest hle]
  rw [if_neg hshort, hfield 4 0 (by omega), hfield 2 4 (by omega)]
  obtain ⟨data, response⟩ := reply
  cases data with
  | none =>
      have hbytes : bytes ⟨none, response⟩ = response.bytes ptpPacketTypeResponse ++ [] := by
        simp [bytes, front]
      rw [hbytes, List.append_nil, Container.bytes_length] at hlength hfits
      rw [hbytes, response.field_length _ (by omega), if_pos (by omega)]
  | some data =>
      have hbytes : bytes ⟨some data, response⟩ =
          data.bytes ptpPacketTypeData ++ response.bytes ptpPacketTypeResponse := by
        simp [bytes, front]
      rw [hbytes, List.length_append, Container.bytes_length, Container.bytes_length]
        at hlength hfits
      rw [hbytes] at hfield
      rw [hbytes, data.field_length _ (by omega), data.field_type _ (by decide)]
      by_cases hfirst : received.length < 12 + data.body.length
      · exact if_pos hfirst
      have hheader : (toUInt32 ((12 + data.body.length : Nat) + 12) : Int) =
          (12 + data.body.length : Nat) + 12 := toUInt32_of_nonneg (by omega) (by omega)
      rw [if_neg hfirst, if_neg (by decide), if_pos rfl]
      dsimp only
      by_cases hsecond : toUInt32 ((12 + data.body.length : Nat) + 12) > received.length
      · exact if_pos hsecond
      -- from here on the header of the response container is there
      have hfront : front ⟨some data, response⟩ = data.bytes ptpPacketTypeData := rfl
      have hcontainer := field_response_length ⟨some data, response⟩ (by
        rw [hbytes, List.length_append, Container.bytes_length, Container.bytes_length, intMax]
        omega)
      have htype := field_response_type ⟨some data, response⟩
      rw [hbytes, hfront, Container.bytes_length] at hcontainer htype
      dsimp only at hcontainer
      have htotal : (toUInt32 ((12 + response.body.length : Nat) + (12 + data.body.length : Nat)) :
          Int) = (12 + response.body.length : Nat) + (12 + data.body.length : Nat) :=
        toUInt32_of_nonneg (by omega) (by omega)
      rw [if_neg hsecond, hfield _ _ (by omega), hfield _ _ (by omega), htype, hcontainer,
        if_neg (by simp), if_neg (by omega), if_neg (by omega)]

/-- On the whole reply the loop ends. -/
theorem verdictOf_bytes (reply : UsbReply) (hfits : (reply.bytes.length : Int) ≤ intMax) :
    verdictOf reply.bytes = .done := by
  have hlength := reply.bytes_length
  have hcontainer := reply.field_response_length hfits
  have htype := reply.field_response_type
  unfold intMax at hfits
  unfold verdictOf
  rw [if_neg (by omega)]
  obtain ⟨data, response⟩ := reply
  cases data with
  | none =>
      have hfront : front ⟨none, response⟩ = [] := rfl
      rw [hfront, List.length_nil] at hcontainer htype hlength
      rw [hcontainer, Nat.zero_add] at *
      rw [if_neg (by omega), if_pos htype]
  | some data =>
      have hbytes : bytes ⟨some data, response⟩ =
          data.bytes ptpPacketTypeData ++ response.bytes ptpPacketTypeResponse := rfl
      have hfront : front ⟨some data, response⟩ = data.bytes ptpPacketTypeData := rfl
      rw [hfront, Container.bytes_length] at hcontainer htype hlength
      dsimp only at hcontainer hlength
      have hfirst : field 4 0 (bytes ⟨some data, response⟩) = 12 + data.body.length := by
        rw [hbytes, data.field_length _ (by omega)]
      have hfirstType : field 2 4 (bytes ⟨some data, response⟩) = ptpPacketTypeData := by
        rw [hbytes, data.field_type _ (by decide)]
      have hheader : (toUInt32 ((12 + data.body.length : Nat) + 12) : Int) =
          (12 + data.body.length : Nat) + 12 := toUInt32_of_nonneg (by omega) (by omega)
      have htotal : (toUInt32 ((12 + response.body.length : Nat) + (12 + data.body.length : Nat)) :
          Int) = (12 + response.body.length : Nat) + (12 + data.body.length : Nat) :=
        toUInt32_of_nonneg (by omega) (by omega)
      rw [hfirst, hfirstType, if_neg (by omega), if_neg (by decide), if_pos rfl]
      dsimp only
      rw [if_neg (by omega), htype, hcontainer, if_neg (by simp), if_pos (by omega)]

end UsbReply

end Libpict
