import Libpict.Accessors
import Libpict.Transmission

/-! # One reply, two framings

A reply has a response code, a transaction, up to five parameters and perhaps a
payload. A device sends it as containers or as packets; the accessors recompute the
same fields from either.
-/

namespace Libpict

open Bytes CInt PtpRuntime

/-- A reply, whatever its framing. -/
structure Reply where
  code : UInt16
  transaction : UInt32
  params : List UInt32
  payload : Option (List UInt8)
  params_le : params.length ≤ 5

namespace Reply

variable (reply : Reply)

/-- The reply as containers. A data container carries the code of the operation. -/
def usb (operation : UInt16) : UsbReply where
  data := reply.payload.map fun payload => ⟨operation, reply.transaction, payload⟩
  response := ⟨reply.code, reply.transaction, paramBytes reply.params⟩

/-- The packets of a data phase. -/
def ipFront : List UInt8 :=
  match reply.payload with
  | none => []
  | some payload =>
      leBytes 4 20 ++ (leBytes 4 ptpipDataPacketStart ++ (leBytes 4 reply.transaction.toNat ++
        leBytes 8 payload.length)) ++
      (leBytes 4 (12 + payload.length) ++ (leBytes 4 ptpipDataPacketEnd ++
        (leBytes 4 reply.transaction.toNat ++ payload)))

/-- The response packet. -/
def ipResponse : List UInt8 :=
  leBytes 4 (14 + 4 * reply.params.length) ++ (leBytes 4 ptpipCommandResponse ++
    (leBytes 2 reply.code.toNat ++ (leBytes 4 reply.transaction.toNat ++ paramBytes reply.params)))

/-- The reply as PTP/IP packets. -/
def ip : List UInt8 := reply.ipFront ++ reply.ipResponse

/-- Code, transaction and parameter count, as the accessors return them. -/
structure Response (r : PtpRuntime) : Prop where
  returnCode : ptpGetReturnCode r = .ok (reply.code.toNat : Int)
  transaction : ptpGetLastTransactionId r = .ok (toInt32 reply.transaction.toNat)
  paramLength : ptpGetParamLength r = .ok (reply.params.length : Int)

/-- Every parameter, as the accessor returns it. -/
def Params (r : PtpRuntime) : Prop := ∀ index (hindex : index < reply.params.length),
  ptpGetParam r (index : Nat) = .ok reply.params[index].toNat

/-- What the payload accessors delimit. -/
def Payload (payload : List UInt8) (r : PtpRuntime) : Prop := ∃ offset,
  ptpGetPayload r = .ok offset ∧ ptpGetPayloadLength r = .ok (payload.length : Int) ∧
    r.load offset payload.length = .ok payload

/-! ## Fields -/

/-- The parameters are encoded one behind the other. -/
theorem field_paramBytes (params : List UInt32) (rest : List UInt8) (index : Nat)
    (hindex : index < params.length) :
    field 4 (4 * index) (paramBytes params ++ rest) = params[index].toNat := by
  induction params generalizing index with
  | nil => cases hindex
  | cons param params ih =>
      have hcons : paramBytes (param :: params) ++ rest =
          leBytes 4 param.toNat ++ (paramBytes params ++ rest) := by
        rw [paramBytes, List.flatMap_cons, List.append_assoc]
        rfl
      rw [hcons]
      cases index with
      | zero => exact field_leBytes param.toNat_lt _
      | succ index =>
          have hbehind := field_behind 4 (4 * index) (leBytes 4 param.toNat)
            (paramBytes params ++ rest)
          rw [leBytes_length] at hbehind
          rw [show 4 * (index + 1) = 4 + 4 * index by omega, hbehind]
          exact ih index (Nat.lt_of_succ_lt_succ hindex)

@[simp] theorem ipResponse_length : reply.ipResponse.length = 14 + 4 * reply.params.length := by
  simp [ipResponse]
  omega

theorem ipResponse_field_length : field 4 0 reply.ipResponse = 14 + 4 * reply.params.length := by
  have hle := reply.params_le
  exact field_leBytes (by omega) _

theorem ipResponse_field_type : field 4 4 reply.ipResponse = ptpipCommandResponse :=
  field_leBytes_behind (leBytes_length _ _) (by decide) _

theorem ipResponse_field_code : field 2 8 reply.ipResponse = reply.code.toNat := by
  unfold ipResponse
  rw [← List.append_assoc (leBytes 4 _)]
  exact field_leBytes_behind (by simp) reply.code.toNat_lt _

theorem ipResponse_field_transaction :
    field 4 10 reply.ipResponse = reply.transaction.toNat := by
  unfold ipResponse
  rw [← List.append_assoc (leBytes 4 _), ← List.append_assoc (_ ++ _)]
  exact field_leBytes_behind (by simp) reply.transaction.toNat_lt _

theorem ipResponse_field_param (index : Nat) (hindex : index < reply.params.length) :
    field 4 (14 + 4 * index) reply.ipResponse = reply.params[index].toNat := by
  have hsplit : reply.ipResponse = (leBytes 4 (14 + 4 * reply.params.length) ++
      leBytes 4 ptpipCommandResponse ++ leBytes 2 reply.code.toNat ++
      leBytes 4 reply.transaction.toNat) ++ paramBytes reply.params := by
    simp only [ipResponse, List.append_assoc]
  have hbehind := field_behind 4 (4 * index) (leBytes 4 (14 + 4 * reply.params.length) ++
      leBytes 4 ptpipCommandResponse ++ leBytes 2 reply.code.toNat ++
      leBytes 4 reply.transaction.toNat) (paramBytes reply.params)
  have hparam := field_paramBytes reply.params [] index hindex
  simp only [List.length_append, leBytes_length] at hbehind
  rw [List.append_nil] at hparam
  rw [hsplit, hbehind, hparam]

/-- A field of the response packet, behind the data phase. -/
theorem field_ip (size offset : Nat) :
    field size (reply.ipFront.length + offset) reply.ip = field size offset reply.ipResponse :=
  field_behind size offset _ _

theorem ip_length : reply.ip.length = reply.ipFront.length + (14 + 4 * reply.params.length) := by
  rw [ip, List.length_append, ipResponse_length]

/-! ## The data phase of PTP/IP -/

section DataPhase

variable {reply} {payload : List UInt8} (hpayload : reply.payload = some payload)

include hpayload

theorem ip_split : reply.ip = leBytes 4 20 ++ (leBytes 4 ptpipDataPacketStart ++
    (leBytes 4 reply.transaction.toNat ++ (leBytes 8 payload.length ++
      (leBytes 4 (12 + payload.length) ++ (leBytes 4 ptpipDataPacketEnd ++
        (leBytes 4 reply.transaction.toNat ++ (payload ++ reply.ipResponse))))))) := by
  unfold ip ipFront
  rw [hpayload]
  simp only [List.append_assoc]

theorem ipFront_length : reply.ipFront.length = 32 + payload.length := by
  unfold ipFront
  rw [hpayload]
  simp
  omega

theorem ip_start_length : field 4 0 reply.ip = 20 := by
  rw [ip_split hpayload]
  exact field_leBytes (by decide) _

theorem ip_start_type : field 4 4 reply.ip = ptpipDataPacketStart := by
  rw [ip_split hpayload]
  exact field_leBytes_behind (leBytes_length _ _) (by decide) _

theorem ip_payload_length (hfits : payload.length < 256 ^ 8) :
    field 8 12 reply.ip = payload.length := by
  rw [ip_split hpayload, ← List.append_assoc (leBytes 4 20), ← List.append_assoc (_ ++ _)]
  exact field_leBytes_behind (by simp) hfits _

theorem ip_end_length (hfits : 12 + payload.length < 256 ^ 4) :
    field 4 20 reply.ip = 12 + payload.length := by
  rw [ip_split hpayload, ← List.append_assoc (leBytes 4 20), ← List.append_assoc (_ ++ _),
    ← List.append_assoc (_ ++ _)]
  exact field_leBytes_behind (by simp) hfits _

theorem ip_end_type : field 4 24 reply.ip = ptpipDataPacketEnd := by
  rw [ip_split hpayload, ← List.append_assoc (leBytes 4 20), ← List.append_assoc (_ ++ _),
    ← List.append_assoc (_ ++ _), ← List.append_assoc (_ ++ _)]
  exact field_leBytes_behind (by simp) (by decide) _

theorem ip_payload : (reply.ip.drop 32).take payload.length = payload := by
  have hfront : (leBytes 4 20 ++ leBytes 4 ptpipDataPacketStart ++
      leBytes 4 reply.transaction.toNat ++ leBytes 8 payload.length ++
      leBytes 4 (12 + payload.length) ++ leBytes 4 ptpipDataPacketEnd ++
      leBytes 4 reply.transaction.toNat).length = 32 := by simp
  have hsplit : reply.ip = (leBytes 4 20 ++ leBytes 4 ptpipDataPacketStart ++
      leBytes 4 reply.transaction.toNat ++ leBytes 8 payload.length ++
      leBytes 4 (12 + payload.length) ++ leBytes 4 ptpipDataPacketEnd ++
      leBytes 4 reply.transaction.toNat) ++ (payload ++ reply.ipResponse) := by
    rw [ip_split hpayload]
    simp only [List.append_assoc]
  rw [hsplit, List.drop_left' hfront, List.take_left' rfl]

end DataPhase

/-- The response packet is found behind the data phase. -/
theorem ipResponseOffset_ip (hfits : (reply.ip.length : Int) ≤ intMax) :
    ipResponseOffset reply.ip = some reply.ipFront.length := by
  have hlength := reply.ip_length
  have htype := reply.field_ip 4 4
  rw [ipResponse_field_type] at htype
  unfold intMax at hfits
  unfold ipResponseOffset
  cases hpayload : reply.payload with
  | none =>
      have hfront : reply.ipFront = [] := by
        unfold ipFront
        rw [hpayload]
      rw [hfront, List.length_nil, Nat.zero_add] at htype
      rw [if_pos htype, hfront]
      rfl
  | some payload =>
      have hfront := ipFront_length hpayload
      rw [if_neg (by rw [ip_start_type hpayload]; decide), ip_start_length hpayload]
      dsimp only
      rw [ip_end_length hpayload (by omega), if_pos]
      · rw [hfront]
        congr 1
        omega
      · refine ⟨ip_start_type hpayload, ip_end_type hpayload, ?_⟩
        rw [← htype, hfront]
        congr 1
        omega

section Ip

variable {r : PtpRuntime} (hconn : r.connectionType = .ip) (hholds : r.Holds reply.ip)
  (hfits : (reply.ip.length : Int) ≤ intMax)

include hconn hholds hfits

theorem ip_response : reply.Response r := by
  have hoffset := reply.ipResponseOffset_ip hfits
  have hlength := reply.ip_length
  have hparams := reply.params_le
  refine ⟨?_, ?_, ?_⟩
  · rw [ptpGetReturnCode_ip hconn hholds hoffset (by omega), reply.field_ip,
      ipResponse_field_code]
  · rw [ptpGetLastTransactionId_ip hconn hholds hoffset (by omega), reply.field_ip,
      ipResponse_field_transaction]
  · have hfield := reply.field_ip 4 0
    rw [Nat.add_zero, ipResponse_field_length] at hfield
    have hcount : toInt32 (toUInt32 ((14 + 4 * reply.params.length : Nat) - 14) / 4 : Nat) =
        reply.params.length := by
      unfold toInt32 toUInt32
      omega
    rw [ptpGetParamLength_ip hconn hholds hoffset (by omega), hfield, hcount]

theorem ip_params : reply.Params r := by
  have hoffset := reply.ipResponseOffset_ip hfits
  have hlength := reply.ip_length
  intro index hindex
  rw [ptpGetParam_ip hconn hholds hoffset (by omega) index (by omega), Nat.add_assoc,
    reply.field_ip, reply.ipResponse_field_param index hindex]

theorem ip_payload_exposed {payload : List UInt8} (hpayload : reply.payload = some payload) :
    Payload payload r := by
  have hlength := reply.ip_length
  rw [ipFront_length hpayload] at hlength
  unfold intMax at hfits
  refine ⟨32, ?_, ?_, ?_⟩
  · rw [ptpGetPayload_ip hconn hholds (ip_start_type hpayload) _ (by omega) _,
      ip_start_length hpayload]
    · rfl
    · rw [ip_start_length hpayload]
      exact ip_end_type hpayload
    · rw [ip_start_length hpayload]
      omega
  · rw [ptpGetPayloadLength_ip hconn hholds (ip_start_type hpayload) (by omega),
      ip_payload_length hpayload (by omega), toInt32_of_fits ⟨by omega, by omega⟩]
  · have hload := hholds.load 32 payload.length (by omega)
    rw [ip_payload hpayload] at hload
    exact hload

omit hfits in
/-- Without a data phase the payload accessors abort. -/
theorem ip_payload_panics (hpayload : reply.payload = none) :
    ptpGetPayload r = .error (.panic "ptp_get_payload(): non data start packet") ∧
      ptpGetPayloadLength r = .error (.panic "ptp_get_payload_length(): non data start packet") := by
  have hfront : reply.ipFront = [] := by
    unfold ipFront
    rw [hpayload]
  have hlength := reply.ip_length
  have htype := reply.field_ip 4 4
  rw [ipResponse_field_type, hfront, List.length_nil, Nat.zero_add] at htype
  exact ptpGetPayload_ip_panics hconn hholds (by rw [htype]; decide) (by omega)

end Ip

/-! ## Containers -/

section Usb

variable (operation : UInt16) {r : PtpRuntime} (hconn : r.connectionType ≠ .ip)
  (hholds : r.Holds (reply.usb operation).bytes)
  (hfits : ((reply.usb operation).bytes.length : Int) ≤ intMax)

theorem usb_front_none (hpayload : reply.payload = none) : (reply.usb operation).front = [] := by
  unfold usb UsbReply.front
  rw [hpayload]
  rfl

theorem usb_front_some {payload : List UInt8} (hpayload : reply.payload = some payload) :
    (reply.usb operation).front =
      Container.bytes ptpPacketTypeData ⟨operation, reply.transaction, payload⟩ := by
  unfold usb UsbReply.front
  rw [hpayload]
  rfl

/-- The length of the response container. -/
theorem usb_length : (reply.usb operation).bytes.length =
    (reply.usb operation).front.length + (12 + 4 * reply.params.length) := by
  rw [UsbReply.bytes_length]
  change _ + (12 + (paramBytes reply.params).length) = _
  rw [paramBytes_length]

/-- A field of the response container, behind the data phase. -/
theorem field_usb (size offset : Nat) :
    field size ((reply.usb operation).front.length + offset) (reply.usb operation).bytes =
      field size offset (Container.bytes ptpPacketTypeResponse
        ⟨reply.code, reply.transaction, paramBytes reply.params⟩ ++ []) :=
  UsbReply.field_response _ _ _

include hfits in
/-- The fields of the data container. -/
theorem usb_data {payload : List UInt8} (hpayload : reply.payload = some payload) :
    field 4 0 (reply.usb operation).bytes = 12 + payload.length ∧
      field 2 4 (reply.usb operation).bytes = ptpPacketTypeData ∧
      (((reply.usb operation).bytes.drop 12).take payload.length = payload) := by
  have hfront := reply.usb_front_some operation hpayload
  have hlength := reply.usb_length operation
  unfold intMax at hfits
  rw [hfront, Container.bytes_length] at hlength
  dsimp only at hlength
  unfold UsbReply.bytes
  rw [hfront]
  exact ⟨Container.field_length _ _ (by dsimp only; omega), Container.field_type _ _ (by decide),
    Container.body_slice ⟨operation, reply.transaction, payload⟩ _⟩

theorem usb_type_none (hpayload : reply.payload = none) :
    field 2 4 (reply.usb operation).bytes = ptpPacketTypeResponse := by
  have htype := reply.field_usb operation 2 4
  rw [reply.usb_front_none operation hpayload, List.length_nil, Nat.zero_add,
    Container.field_type _ _ (by decide)] at htype
  exact htype

include hfits in
/-- The response container is found behind the data phase. -/
theorem usb_offset : bulkResponseOffset (reply.usb operation).bytes =
    (reply.usb operation).front.length := by
  unfold bulkResponseOffset
  cases hpayload : reply.payload with
  | none =>
      rw [if_neg (by rw [reply.usb_type_none operation hpayload]; decide),
        reply.usb_front_none operation hpayload]
      rfl
  | some payload =>
      obtain ⟨hlength, htype, _⟩ := reply.usb_data operation hfits hpayload
      rw [if_pos htype, hlength, reply.usb_front_some operation hpayload, Container.bytes_length]

include hconn hholds hfits

theorem usb_response : reply.Response r := by
  have hoffset := reply.usb_offset operation hfits
  have hlength := reply.usb_length operation
  have hparams := reply.params_le
  have hheader : bulkResponseOffset (reply.usb operation).bytes + 12 ≤
      (reply.usb operation).bytes.length := by omega
  refine ⟨?_, ?_, ?_⟩
  · rw [ptpGetReturnCode_bulk hconn hholds hheader, hoffset, reply.field_usb,
      Container.field_code]
  · rw [ptpGetLastTransactionId_bulk hconn hholds hheader, hoffset, reply.field_usb,
      Container.field_transaction]
  · have hfield := reply.field_usb operation 4 0
    have hcount : toInt32 (toUInt32 ((12 + 4 * reply.params.length : Nat) - 12) / 4 : Nat) =
        reply.params.length := by
      unfold toInt32 toUInt32
      omega
    rw [Nat.add_zero, Container.field_length _ _ (by dsimp only; rw [paramBytes_length]; omega)]
      at hfield
    dsimp only at hfield
    rw [paramBytes_length] at hfield
    rw [ptpGetParamLength_bulk hconn hholds hheader, hoffset, hfield, hcount]

theorem usb_params (hpayload : reply.payload = none) : reply.Params r := by
  have hlength := reply.usb_length operation
  have hfront := reply.usb_front_none operation hpayload
  have htype := reply.usb_type_none operation hpayload
  rw [hfront, List.length_nil, Nat.zero_add] at hlength
  intro index hindex
  have hparam := reply.field_usb operation 4 (12 + 4 * index)
  rw [hfront, List.length_nil, Nat.zero_add, Container.field_body] at hparam
  have hoffset := reply.usb_offset operation hfits
  rw [hfront, List.length_nil] at hoffset
  rw [ptpGetParam_bulk hconn hholds (by omega) (by rw [htype]; decide) index (by omega), hparam]
  exact congrArg Except.ok (field_paramBytes reply.params [] index hindex)

theorem usb_payload_exposed {payload : List UInt8} (hpayload : reply.payload = some payload) :
    Payload payload r := by
  obtain ⟨hfirst, htype, hslice⟩ := reply.usb_data operation hfits hpayload
  have hoffset := reply.usb_offset operation hfits
  have hlength := reply.usb_length operation
  have hfront : (reply.usb operation).front.length = 12 + payload.length := by
    rw [reply.usb_front_some operation hpayload, Container.bytes_length]
  unfold intMax at hfits
  have hheader : bulkResponseOffset (reply.usb operation).bytes + 12 ≤
      (reply.usb operation).bytes.length := by omega
  refine ⟨12, ?_, ?_, ?_⟩
  · rw [ptpGetPayload_bulk hconn hholds hheader, htype, if_neg (by decide)]
  · have hcount : toInt32 (toUInt32 ((12 + payload.length : Nat) - 12)) = payload.length := by
      unfold toInt32 toUInt32
      omega
    rw [ptpGetPayloadLength_bulk hconn hholds hheader, hfirst, hcount]
  · have hload := hholds.load 12 payload.length (by omega)
    rw [hslice] at hload
    exact hload

/-- Without a data phase, the parameters of the response are taken for the payload. -/
theorem usb_payload_params (hpayload : reply.payload = none) :
    Payload (paramBytes reply.params) r := by
  have hlength := reply.usb_length operation
  have hfront := reply.usb_front_none operation hpayload
  have htype := reply.usb_type_none operation hpayload
  have hoffset := reply.usb_offset operation hfits
  have hparams := reply.params_le
  have hfield := reply.field_usb operation 4 0
  rw [hfront, List.length_nil] at hlength hoffset hfield
  rw [Nat.add_zero, Container.field_length _ _ (by dsimp only; rw [paramBytes_length]; omega)]
    at hfield
  dsimp only at hfield
  have hheader : bulkResponseOffset (reply.usb operation).bytes + 12 ≤
      (reply.usb operation).bytes.length := by omega
  have hslice : ((reply.usb operation).bytes.drop 12).take (paramBytes reply.params).length =
      paramBytes reply.params := by
    unfold UsbReply.bytes
    rw [hfront, List.nil_append]
    have hbody : ((Container.bytes ptpPacketTypeResponse
        ⟨reply.code, reply.transaction, paramBytes reply.params⟩ ++ []).drop 12).take
          (paramBytes reply.params).length = paramBytes reply.params :=
      Container.body_slice ⟨reply.code, reply.transaction, paramBytes reply.params⟩ []
    rw [List.append_nil] at hbody
    exact hbody
  refine ⟨12, ?_, ?_, ?_⟩
  · rw [ptpGetPayload_bulk hconn hholds hheader, htype, if_neg (by decide)]
  · have hcount : toInt32 (toUInt32 ((12 + (paramBytes reply.params).length : Nat) - 12)) =
        (paramBytes reply.params).length := by
      rw [paramBytes_length]
      unfold toInt32 toUInt32
      omega
    rw [ptpGetPayloadLength_bulk hconn hholds hheader, hfield, hcount]
  · have hload := hholds.load 12 (paramBytes reply.params).length
      (by rw [paramBytes_length]; omega)
    rw [hslice] at hload
    exact hload

end Usb

end Reply

/-! ## Both framings -/

/-- Both framings present the same response. They present the same payload, if there is
one; without a data phase PTP/IP aborts, and a response container counts as the payload. -/
theorem framings_agree (reply : Reply) (operation : UInt16) {r r' : PtpRuntime}
    (hconn : r.connectionType ≠ .ip) (hholds : r.Holds (reply.usb operation).bytes)
    (hfits : ((reply.usb operation).bytes.length : Int) ≤ intMax)
    (hconn' : r'.connectionType = .ip) (hholds' : r'.Holds reply.ip)
    (hfits' : (reply.ip.length : Int) ≤ intMax) :
    reply.Response r ∧ reply.Response r' ∧ reply.Params r' ∧
      (∀ payload, reply.payload = some payload →
        Reply.Payload payload r ∧ Reply.Payload payload r') ∧
      (reply.payload = none → reply.Params r ∧ Reply.Payload (paramBytes reply.params) r ∧
        ptpGetPayload r' = .error (.panic "ptp_get_payload(): non data start packet") ∧
        ptpGetPayloadLength r' =
          .error (.panic "ptp_get_payload_length(): non data start packet")) := by
  refine ⟨reply.usb_response operation hconn hholds hfits, reply.ip_response hconn' hholds' hfits',
    reply.ip_params hconn' hholds' hfits', fun payload hpayload => ?_, fun hpayload => ?_⟩
  · exact ⟨reply.usb_payload_exposed operation hconn hholds hfits hpayload,
      reply.ip_payload_exposed hconn' hholds' hfits' hpayload⟩
  · exact ⟨reply.usb_params operation hconn hholds hfits hpayload,
      reply.usb_payload_params operation hconn hholds hfits hpayload,
      reply.ip_payload_panics hconn' hholds' hpayload⟩

/-- A runtime whose buffer starts with the given bytes. -/
def holding (connection : PtpConnType) (bytes : List UInt8) : PtpRuntime :=
  { ptpInit (some fun index => bytes.getD index 0) with connectionType := connection }

theorem holding_holds (connection : PtpConnType) {bytes : List UInt8}
    (hfits : bytes.length ≤ ptpDefaultSize) : (holding connection bytes).Holds bytes := by
  refine ⟨⟨ptpDefaultSize, fun index => bytes.getD index 0⟩, rfl, hfits, ?_⟩
  apply List.ext_getElem
  · simp
  · intro index hleft hright
    rw [Buffer.slice_getElem]
    simp [hright]

/-- The reply to an operation with three bytes of data. -/
def dataReply : Reply := ⟨0x2001, 9, [5], some [1, 2, 3], by decide⟩

theorem framings_agree_data :
    dataReply.Response (holding .usb (dataReply.usb 0x1014).bytes) ∧
      dataReply.Response (holding .ip dataReply.ip) :=
  have hagree := framings_agree dataReply 0x1014 (r := holding .usb (dataReply.usb 0x1014).bytes)
    (by decide) (holding_holds _ (by decide)) (by decide) rfl (holding_holds .ip (by decide))
    (by decide)
  ⟨hagree.1, hagree.2.1⟩

/-- The reply to an operation without a data phase. -/
def plainReply : Reply := ⟨0x2001, 9, [5], none, by decide⟩

/-- Without a data phase, neither framing presents an empty payload. -/
theorem framings_present_no_empty_payload :
    ¬Reply.Payload [] (holding .usb (plainReply.usb 0x1002).bytes) ∧
      ¬Reply.Payload [] (holding .ip plainReply.ip) := by
  constructor
  · rintro ⟨_, _, hlength, _⟩
    obtain ⟨_, _, hcounted, _⟩ := plainReply.usb_payload_params 0x1002
      (r := holding .usb (plainReply.usb 0x1002).bytes) (by decide)
      (holding_holds _ (by decide)) (by decide) rfl
    rw [hlength] at hcounted
    exact absurd (Except.ok.inj hcounted) (by decide)
  · rintro ⟨_, hpayload, _⟩
    have hpanics := plainReply.ip_payload_panics (r := holding .ip plainReply.ip) rfl
      (holding_holds _ (by decide)) rfl
    rw [hpanics.1] at hpayload
    cases hpayload

end Libpict
