import Libpict.AvailList
import Libpict.Conversions
import Libpict.Payload

/-! # Canon event lists

A Canon camera answers a request for events with a list of records: a size, a type and
data in a layout of the type. One pass counts the records, a second one decodes each into
a `struct PtpGenericEvent`; lists of allowed property values go to the runtime's list.
-/

namespace Libpict

open Bytes CInt

/-- `struct PtpGenericEvent`; `none` is NULL. -/
structure PtpGenericEvent where
  code : UInt16
  name : Option String
  value : Int
  strValue : Option String
  deriving DecidableEq, Repr

/-- The entry as `memset` leaves it. -/
def PtpGenericEvent.zero : PtpGenericEvent := ⟨0, none, 0, none⟩

/-- `sizeof(struct PtpGenericEvent)`. -/
def genericEventSize : Nat := 32

/-! Record types and property codes. -/

abbrev ptpEcEosObjectAddedEx : Nat := 0xC181

abbrev ptpEcEosRequestObjectTransfer : Nat := 0xC186

abbrev ptpEcEosPropValueChanged : Nat := 0xC189

abbrev ptpEcEosAvailListChanged : Nat := 0xC18A

abbrev ptpEcEosInfoCheckComplete : Nat := 0xC1A4

abbrev ptpDpcEosAperture : Nat := 0xD101

abbrev ptpDpcEosShutterSpeed : Nat := 0xD102

abbrev ptpDpcEosIsoSpeed : Nat := 0xD103

abbrev ptpDpcEosFocusMode : Nat := 0xD108

abbrev ptpDpcEosWhiteBalance : Nat := 0xD109

abbrev ptpDpcEosBatteryPower : Nat := 0xD111

abbrev ptpDpcEosImageFormat : Nat := 0xD120

abbrev ptpDpcEosAeModeDial : Nat := 0xD138

abbrev ptpDpcEosVfOutput : Nat := 0xD1B0

abbrev ptpDpcEosFocusInfoEx : Nat := 0xD1D3

/-- The names of codes: the first entry of `ptp_enums` with the value, if there is one. -/
abbrev EnumNames := Int → Option String

/-- `ptp_get_enum_all`. -/
def ptpGetEnumAll (names : EnumNames) (id : Int) : String := (names id).getD "(null)"

/-- `value` as the library counts it. -/
def eosPropValue (code value : Nat) : Int :=
  if code = ptpDpcEosAperture then ptpEosGetAperture (toInt32 value) false
  else if code = ptpDpcEosShutterSpeed then ptpEosGetShutter (toInt32 value) false
  else if code = ptpDpcEosIsoSpeed then ptpEosGetIso (toInt32 value) false
  else if code = ptpDpcEosBatteryPower then
    -- EOS has 3 battery bars.
    let raised := toUInt32 (value + 1)
    if raised = 3 then 4 else raised
  else if code = ptpDpcEosWhiteBalance then ptpEosGetWhiteBalance (toInt32 value) false
  else value

/-- The name that `ptp_eos_prop_next` has for a property. -/
def eosPropName (names : EnumNames) (code : Nat) : Option String :=
  if code = ptpDpcEosAperture then some "aperture"
  else if code = ptpDpcEosShutterSpeed then some "shutter speed"
  else if code = ptpDpcEosIsoSpeed then some "iso"
  else if code = ptpDpcEosBatteryPower then some "battery"
  else if code = ptpDpcEosImageFormat then some "image format"
  else if code = ptpDpcEosVfOutput then some "mirror"
  else if code = ptpDpcEosAeModeDial then some "mode dial"
  else if code = ptpDpcEosFocusMode then some "focus mode"
  else if code = ptpDpcEosWhiteBalance then some "white balance"
  else if code = ptpDpcEosFocusInfoEx then some "focused"
  else names (toInt32 code)

/-- The text that it has for a value. -/
def eosPropText (code value : Nat) : Option String :=
  if code = ptpDpcEosVfOutput then some (if value = 0 then "finder" else "open")
  else if code = ptpDpcEosFocusMode then some (if value = 3 then "MF" else "AF")
  else none

/-- What the switch of `ptp_eos_prop_next` makes of the value; an image format has four more
words at `d`. -/
def eosPropResult (code value : Nat) (d : Int) : Reader UInt8 Halt Int :=
  if code = ptpDpcEosImageFormat then do
    let second ← ptpReadU32 d
    let third ← ptpReadU32 (d + 4)
    let fourth ← ptpReadU32 (d + 8)
    let fifth ← ptpReadU32 (d + 12)
    return if value = 1 then ptpEosGetImgformatValue [value, second, third, fourth, fifth]
      else imgFormatRawJpeg
  else return eosPropValue code value

/-- `ptp_eos_prop_next`. -/
def ptpEosPropNext (names : EnumNames) (d : Int) : Reader UInt8 Halt PtpGenericEvent := do
  let code ← ptpReadU32 d
  let value ← ptpReadU32 (d + 4)
  let result ← eosPropResult code value (d + 8)
  return ⟨UInt16.ofNat code, eosPropName names code, toInt32 (toUInt32 result),
    eosPropText code value⟩

/-! ## The two passes -/

/-- What a pass meets at a record, kept to say what the passes do: no pass looks at it. The
second pass adds the member size and the count it calls `ptp_set_prop_avail_info` with, if
it does, and the list it goes on with. -/
structure EosVisit where
  offset : Int
  size : Nat
  type : Nat
  call : Option (Int × Int)
  avail : AvailList

/-- The loop of `ptp_eos_events_length`, from `dp` with `length` records counted. -/
def countEosRecords (r : PtpRuntime) : (fuel : Nat) → (dp length : Int) → Reader UInt8 Halt Int
  | 0, _, _ => .stop .spent
  | fuel + 1, dp, length => do
      let payload ← .ofExcept (ptpGetPayload r)
      let payloadLength ← .ofExcept (ptpGetPayloadLength r)
      if payload + payloadLength ≤ dp then return length
      let size ← ptpReadU32 dp
      let type ← ptpReadU32 (dp + 4)
      if type = 0 then return length
      if ¬Fits (length + 1) then .stop .undefined
      else countEosRecords r fuel (dp + size) (length + 1)

/-- `ptp_eos_events_length`. -/
def ptpEosEventsLength (r : PtpRuntime) (fuel : Nat) : Reader UInt8 Halt Int := do
  let dp ← .ofExcept (ptpGetPayload r)
  countEosRecords r fuel dp 0

/-- The member size and the count that the list of a record has, where it is passed on: the
size is that of the record, and the division is one of unsigned numbers. -/
def eosListShape (size count : Nat) : Option (Int × Int) :=
  let payloadSize := toInt32 (size - 20)
  -- Make sure to not divide by zero.
  if payloadSize ≠ 0 ∧ count ≠ 0 then
    some (toInt32 (toUInt32 payloadSize / count : Nat), toInt32 count)
  else none

/-- The data of one record at `d`, behind its size and type. -/
def decodeEosRecord (memory : Allocator) (names : EnumNames) (avail : AvailList) (d : Int)
    (size type : Nat) : Reader UInt8 Halt (PtpGenericEvent × Option (Int × Int) × AvailList) :=
  if type = ptpEcEosPropValueChanged then do
    let event ← ptpEosPropNext names d
    return (event, none, avail)
  else if type = ptpEcEosInfoCheckComplete ∨ type = ptpDpcEosFocusInfoEx then
    return ({ PtpGenericEvent.zero with name := ptpGetEnumAll names type }, none, avail)
  else if type = ptpEcEosRequestObjectTransfer then do
    let a ← ptpReadU32 d
    let b ← ptpReadU32 (d + 4)
    return (⟨UInt16.ofNat a, some "request object transfer", toInt32 b, none⟩, none, avail)
  else if type = ptpEcEosObjectAddedEx then do
    let a ← ptpReadU32 d
    return (⟨0, some "new object", toInt32 a, none⟩, none, avail)
  else if type = ptpEcEosAvailListChanged then do
    let code ← ptpReadU32 d
    let _datType ← ptpReadU32 (d + 4)
    let count ← ptpReadU32 (d + 8)
    match eosListShape size count with
    | some (membSize, cnt) => do
        let avail ← ptpSetPropAvailInfo memory avail (toInt32 code) membSize cnt (d + 12)
        return (.zero, some (membSize, cnt), avail)
    | none => return (.zero, none, avail)
  else return (.zero, none, avail)

/-- What the second pass leaves behind: the entries it has filled, in order, and the list. -/
structure EosDecoded where
  events : List PtpGenericEvent
  visits : List EosVisit
  avail : AvailList

/-- The loop of `ptp_eos_events`, with `left` entries to go at `dp`. -/
def decodeEosRecords (memory : Allocator) (names : EnumNames) :
    (left : Nat) → (dp : Int) → EosDecoded → Reader UInt8 Halt EosDecoded
  | 0, _, decoded => return decoded
  | left + 1, dp, decoded => do
      let size ← ptpReadU32 dp
      let type ← ptpReadU32 (dp + 4)
      -- Detect termination or overflow.
      if type = 0 then return { decoded with events := decoded.events ++ [.zero] }
      let (event, call, avail) ← decodeEosRecord memory names decoded.avail (dp + 8) size type
      decodeEosRecords memory names left (dp + size)
        ⟨decoded.events ++ [event], decoded.visits ++ [⟨dp, size, type, call, avail⟩], avail⟩

/-- `ptp_eos_events`: the result and what `*p` points to. -/
def ptpEosEvents (memory : Allocator) (names : EnumNames) (r : PtpRuntime) (avail : AvailList)
    (fuel : Nat) : Reader UInt8 Halt (Int × EosDecoded) := do
  let length ← ptpEosEventsLength r fuel
  if length = 0 then return (0, ⟨[], [], avail⟩)
  if length < 0 then return (length, ⟨[], [], avail⟩)
  match memory.malloc avail.allocations (toSize (genericEventSize * length)) with
  | none => .stop .undefined
  | some _ => do
      let dp ← .ofExcept (ptpGetPayload r)
      let decoded ← decodeEosRecords memory names length.toNat dp
        ⟨[], [], { avail with allocations := avail.allocations + 1 }⟩
      return (length, decoded)

end Libpict
