import Libpict.AvailList
import Libpict.Strings

/-! # Datasets

The parsers of the standard datasets walk over the payload of a reply and fill the
caller's structure field by field. Every length on the way, of a string, an array, a value
or a list of values, is read off the payload.
-/

namespace Libpict

open Bytes CInt

/-! ## The structures -/

/-- `struct PtpDeviceInfo`. -/
structure PtpDeviceInfo where
  standardVersion : UInt16
  vendorExtId : UInt32
  version : UInt16
  extensions : Vector UInt8 128
  functionalMode : UInt16
  opsSupportedLength : Int
  opsSupported : Vector UInt16 256
  eventsSupportedLength : Int
  eventsSupported : Vector UInt16 256
  propsSupportedLength : Int
  propsSupported : Vector UInt16 512
  captureFormatsLength : Int
  captureFormats : Vector UInt16 32
  playbackFormatsLength : Int
  playbackFormats : Vector UInt16 32
  manufacturer : Vector UInt8 128
  model : Vector UInt8 128
  deviceVersion : Vector UInt8 64
  serialNumber : Vector UInt8 128

/-- `struct PtpStorageInfo`. -/
structure PtpStorageInfo where
  storageType : UInt16
  fsType : UInt16
  accessCapability : UInt16
  maxCapacity : UInt64
  freeSpace : UInt64
  freeObjects : UInt32
  storageDesc : Vector UInt8 128
  volumeIdentifier : Vector UInt8 128

/-- `struct PtpObjectInfo`. -/
structure PtpObjectInfo where
  storageId : UInt32
  objFormat : UInt16
  protection : UInt16
  compressedSize : UInt32
  thumbFormat : UInt16
  thumbCompressedSize : UInt32
  thumbWidth : UInt32
  thumbHeight : UInt32
  imgWidth : UInt32
  imgHeight : UInt32
  imgBitDepth : UInt32
  parentObj : UInt32
  assocType : UInt16
  assocDesc : UInt32
  sequenceNum : UInt32
  filename : Vector UInt8 64
  dateCreated : Vector UInt8 32
  dateModified : Vector UInt8 32
  keywords : Vector UInt8 64

/-- `struct PtpEnumerationForm`: the values lie in `data`, behind the `length`. -/
structure PtpEnumerationForm where
  length : UInt16
  data : Buffer

/-- `struct PtpRangeForm`. -/
structure PtpRangeForm where
  min : Int
  max : Int
  step : Int

/-- `struct PtpPropDesc`; values of up to four bytes are in the `32` fields. -/
structure PtpPropDesc where
  code : UInt16
  dataType : UInt16
  readOnly : UInt8
  defaultValue32 : UInt32
  currentValue32 : UInt32
  currentValue : Option Buffer
  defaultValue : Option Buffer
  formType : UInt8
  rangeForm : PtpRangeForm
  enumForm : Option PtpEnumerationForm

/-! ## Arrays -/

/-- `boundcheck`; `none` is NULL. -/
def boundcheck (bs : Int) (be : Option Int) (size : Int) : Reader UInt8 Halt Unit :=
  match be with
  | none => return ()
  | some be =>
      if be < bs then .stop (.panic "PTP: bs after be\n")
      else if be - bs < toSize size then .stop (.panic "PTP: buffer overflow %p-%p (%u)\n")
      else return ()

/-- The loop of `ptp_read_uint16_array_s`, with `left` entries to go and `i` stored. -/
def readEntries {n : Nat} (bs : Int) (max : Int) : (left i : Nat) → (of : Int) →
    (buf : Vector UInt16 n) → Reader UInt8 Halt (Int × Vector UInt16 n)
  | 0, _, of, buf => return (of, buf)
  | left + 1, i, of, buf =>
      if max ≤ i then .stop (.panic "ptp_read_uint16_array overflow %i >= %d\n")
      else do
        let entry ← ptpReadU16 (bs + of)
        let buf ← storeAt buf i (UInt16.ofNat entry)
        readEntries bs max left (i + 1) (of + 2) buf

/-- `ptp_read_uint16_array_s`: the bytes it has read, `*length` and the array. -/
def ptpReadUint16ArrayS {n : Nat} (bs : Int) (be : Option Int) (buf : Vector UInt16 n) (max : Int) :
    Reader UInt8 Halt (Int × Int × Vector UInt16 n) := do
  let count ← ptpReadU32 bs
  let length := toInt32 count
  if Fits (4 * length) ∧ Fits (4 * length + 4) then do
    boundcheck bs be (4 * length + 4)
    let (of, buf) ← readEntries bs max length.toNat 0 4 buf
    return (of, length, buf)
  else .stop .undefined

/-! ## Values of a data type -/

abbrev ptpTcInt8 : Nat := 0x1

abbrev ptpTcUint8 : Nat := 0x2

abbrev ptpTcInt16 : Nat := 0x3

abbrev ptpTcUint16 : Nat := 0x4

abbrev ptpTcInt32 : Nat := 0x5

abbrev ptpTcUint32 : Nat := 0x6

abbrev ptpTcInt64 : Nat := 0x7

abbrev ptpTcUint64 : Nat := 0x8

abbrev ptpTcUint8Array : Nat := 0x4002

abbrev ptpTcUint16Array : Nat := 0x4004

abbrev ptpTcUint32Array : Nat := 0x4006

abbrev ptpTcUint64Array : Nat := 0x4008

abbrev ptpTcString : Nat := 0xFFFF

abbrev ptpRangeForm : Nat := 0x1

abbrev ptpEnumerationForm : Nat := 0x2

/-- The size of an array at `d`: `4 + (int)length32 * size`. -/
def readArraySize (d : Int) (size : Nat) : Reader UInt8 Halt Int := do
  let length32 ← ptpReadU32 d
  if Fits (toInt32 length32 * size) ∧ Fits (4 + toInt32 length32 * size) then
    return 4 + toInt32 length32 * size
  else .stop .undefined

/-- The size of a string at `d`. -/
def readStringSize (d : Int) : Reader UInt8 Halt Int := do
  let length8 ← ptpReadU8 d
  return 1 + (length8 : Int) * 2

/-- `ptp_get_prop_size`. -/
def ptpGetPropSize (d : Int) (type : Nat) : Reader UInt8 Halt Int :=
  if type = ptpTcInt8 ∨ type = ptpTcUint8 then return 1
  else if type = ptpTcInt16 ∨ type = ptpTcUint16 then return 2
  else if type = ptpTcInt32 ∨ type = ptpTcUint32 then return 4
  else if type = ptpTcInt64 ∨ type = ptpTcUint64 then return 8
  else if type = ptpTcUint8Array then readArraySize d 1
  else if type = ptpTcUint16Array then readArraySize d 2
  else if type = ptpTcUint32Array then readArraySize d 4
  else if type = ptpTcUint64Array then readArraySize d 8
  else if type = ptpTcString then readStringSize d
  else .stop (.panic "Unknown data type %d")

/-- `ptp_parse_data_u32`: the size of the value, and `*out`. -/
def ptpParseDataU32 (d : Int) (type : Nat) (out : Int) : Reader UInt8 Halt (Int × Int) :=
  if type = ptpTcInt8 ∨ type = ptpTcUint8 then do
    let a ← ptpReadU8 d
    return (1, a)
  else if type = ptpTcInt16 then do
    let b ← ptpReadU16 d
    return (2, toInt16 b)
  else if type = ptpTcUint16 then do
    let b ← ptpReadU16 d
    return (2, b)
  else if type = ptpTcInt32 ∨ type = ptpTcUint32 then do
    let c ← ptpReadU32 d
    return (4, toInt32 c)
  else do
    -- Skip the array.
    let size ← ptpGetPropSize d type
    return (size, out)

/-- `malloc` and `memcpy` of the `size` bytes at `d`. -/
def copyDatum (memory : Allocator) (allocations : Nat) (d size : Int) :
    Reader UInt8 Halt (Buffer × Nat) := do
  let block ← copyTo (memory.malloc allocations (toSize size)) d (toSize size)
  return (block, allocations + 1)

/-- A value that `parse_data_data_or_u32` has read: its size, what is in `*u32` and `*data`,
and the blocks asked for so far. -/
structure ParsedDatum where
  size : Int
  u32 : UInt32
  data : Option Buffer
  allocations : Nat

/-- `get_arr_item_size`. -/
def getArrItemSize (t : Nat) : Reader UInt8 Halt Nat :=
  if t = ptpTcUint8Array then return 1
  else if t = ptpTcUint16Array then return 2
  else if t = ptpTcUint32Array then return 4
  else if t = ptpTcUint64Array then return 8
  else .stop (.panic "Unknown arr type\n")

/-- `parse_data_data_or_u32`. -/
def parseDataDataOrU32 (memory : Allocator) (allocations : Nat) (d : Int) (type : Nat)
    (u32 : UInt32) (data : Option Buffer) : Reader UInt8 Halt ParsedDatum :=
  if type = ptpTcInt8 ∨ type = ptpTcUint8 ∨ type = ptpTcInt16 ∨ type = ptpTcUint16 ∨
      type = ptpTcInt32 ∨ type = ptpTcUint32 then do
    let (size, out) ← ptpParseDataU32 d type (toInt32 u32.toNat)
    return ⟨size, UInt32.ofNat (toUInt32 out), data, allocations⟩
  else if type = ptpTcInt64 ∨ type = ptpTcUint64 then do
    let (block, allocations) ← copyDatum memory allocations d 8
    return ⟨8, u32, some block, allocations⟩
  else if type = ptpTcUint8Array ∨ type = ptpTcUint16Array ∨ type = ptpTcUint32Array ∨
      type = ptpTcUint64Array then do
    let itemSize ← getArrItemSize type
    let size ← readArraySize d itemSize
    let (block, allocations) ← copyDatum memory allocations d size
    return ⟨size, u32, some block, allocations⟩
  else if type = ptpTcString then do
    let size ← readStringSize d
    let (block, allocations) ← copyDatum memory allocations d size
    return ⟨size, u32, some block, allocations⟩
  else .stop (.panic "Unknown data type %d\n")

/-! ## The parsers

Each one returns its result and the structure it has filled.
-/

/-- `ptp_parse_device_info`; the last component is `r->di`, which points to the structure
afterwards. -/
def ptpParseDeviceInfo (r : PtpRuntime) (di : PtpDeviceInfo) :
    Reader UInt8 Halt (Int × PtpDeviceInfo × Option PtpDeviceInfo) := do
  let b ← .ofExcept (ptpGetPayload r)
  let e := some (b + r.dataLength)
  let standardVersion ← ptpReadU16 b
  let vendorExtId ← ptpReadU32 (b + 2)
  let version ← ptpReadU16 (b + 6)
  let b := b + 8
  let (of, extensions) ← ptpReadString b di.extensions 128
  let b := b + of
  let functionalMode ← ptpReadU16 b
  let b := b + 2
  let (of, opsSupportedLength, opsSupported) ← ptpReadUint16ArrayS b e di.opsSupported 256
  let b := b + of
  let (of, eventsSupportedLength, eventsSupported) ←
    ptpReadUint16ArrayS b e di.eventsSupported 256
  let b := b + of
  let (of, propsSupportedLength, propsSupported) ← ptpReadUint16ArrayS b e di.propsSupported 512
  let b := b + of
  let (of, captureFormatsLength, captureFormats) ← ptpReadUint16ArrayS b e di.captureFormats 32
  let b := b + of
  let (of, playbackFormatsLength, playbackFormats) ←
    ptpReadUint16ArrayS b e di.playbackFormats 32
  let b := b + of
  let (of, manufacturer) ← ptpReadString b di.manufacturer 128
  let b := b + of
  let (of, model) ← ptpReadString b di.model 128
  let b := b + of
  let (of, deviceVersion) ← ptpReadString b di.deviceVersion 64
  let b := b + of
  let (_, serialNumber) ← ptpReadString b di.serialNumber 128
  let di : PtpDeviceInfo := {
    standardVersion := UInt16.ofNat standardVersion
    vendorExtId := UInt32.ofNat vendorExtId
    version := UInt16.ofNat version
    extensions, functionalMode := UInt16.ofNat functionalMode
    opsSupportedLength, opsSupported, eventsSupportedLength, eventsSupported
    propsSupportedLength, propsSupported, captureFormatsLength, captureFormats
    playbackFormatsLength, playbackFormats, manufacturer, model, deviceVersion, serialNumber }
  return (0, di, some di)

/-- `ptp_parse_object_info`. -/
def ptpParseObjectInfo (r : PtpRuntime) (oi : PtpObjectInfo) :
    Reader UInt8 Halt (Int × PtpObjectInfo) := do
  let d ← .ofExcept (ptpGetPayload r)
  let storageId ← ptpReadU32 d
  let objFormat ← ptpReadU16 (d + 4)
  let protection ← ptpReadU16 (d + 6)
  let compressedSize ← ptpReadU32 (d + 8)
  let thumbFormat ← ptpReadU16 (d + 12)
  let thumbCompressedSize ← ptpReadU32 (d + 14)
  let thumbWidth ← ptpReadU32 (d + 18)
  let thumbHeight ← ptpReadU32 (d + 22)
  let imgWidth ← ptpReadU32 (d + 26)
  let imgHeight ← ptpReadU32 (d + 30)
  let imgBitDepth ← ptpReadU32 (d + 34)
  let parentObj ← ptpReadU32 (d + 38)
  let assocType ← ptpReadU16 (d + 42)
  let assocDesc ← ptpReadU32 (d + 44)
  let sequenceNum ← ptpReadU32 (d + 48)
  let d := d + 52
  let (of, filename) ← ptpReadString d oi.filename 64
  let d := d + of
  let (of, dateCreated) ← ptpReadString d oi.dateCreated 32
  let d := d + of
  let (of, dateModified) ← ptpReadString d oi.dateModified 32
  let d := d + of
  let (_, keywords) ← ptpReadString d oi.keywords 64
  return (0, {
    storageId := UInt32.ofNat storageId
    objFormat := UInt16.ofNat objFormat
    protection := UInt16.ofNat protection
    compressedSize := UInt32.ofNat compressedSize
    thumbFormat := UInt16.ofNat thumbFormat
    thumbCompressedSize := UInt32.ofNat thumbCompressedSize
    thumbWidth := UInt32.ofNat thumbWidth
    thumbHeight := UInt32.ofNat thumbHeight
    imgWidth := UInt32.ofNat imgWidth
    imgHeight := UInt32.ofNat imgHeight
    imgBitDepth := UInt32.ofNat imgBitDepth
    parentObj := UInt32.ofNat parentObj
    assocType := UInt16.ofNat assocType
    assocDesc := UInt32.ofNat assocDesc
    sequenceNum := UInt32.ofNat sequenceNum
    filename, dateCreated, dateModified, keywords })

/-- `ptp_parse_storage_info`. -/
def ptpParseStorageInfo (r : PtpRuntime) (si : PtpStorageInfo) :
    Reader UInt8 Halt (Int × PtpStorageInfo) := do
  let length ← .ofExcept (ptpGetPayloadLength r)
  if length < 26 then return (PtpGeneralError.runtimeErr, si)
  else do
    let b ← .ofExcept (ptpGetPayload r)
    let storageType ← ptpReadU16 b
    let fsType ← ptpReadU16 (b + 2)
    let accessCapability ← ptpReadU16 (b + 4)
    let maxCapacity ← ptpReadU64 (b + 6)
    let freeSpace ← ptpReadU64 (b + 14)
    let freeObjects ← ptpReadU32 (b + 22)
    let b := b + 26
    let (of, storageDesc) ← ptpReadString b si.storageDesc 128
    let (_, volumeIdentifier) ← ptpReadString (b + of) si.volumeIdentifier 128
    return (0, {
      storageType := UInt16.ofNat storageType
      fsType := UInt16.ofNat fsType
      accessCapability := UInt16.ofNat accessCapability
      maxCapacity := UInt64.ofNat maxCapacity
      freeSpace := UInt64.ofNat freeSpace
      freeObjects := UInt32.ofNat freeObjects
      storageDesc, volumeIdentifier })

/-- `oi->range_form`, where `ptp_parse_prop_desc` reads one at `d`. -/
def parseRangeForm (d : Int) (type : Nat) (form : PtpRangeForm) :
    Reader UInt8 Halt PtpRangeForm := do
  let (size, min) ← ptpParseDataU32 d type form.min
  let d := d + size
  let (size, max) ← ptpParseDataU32 d type form.max
  let d := d + size
  let (_, step) ← ptpParseDataU32 d type form.step
  return ⟨min, max, step⟩

/-- The bytes of the values at `d`, with `left` to go behind `length` bytes. -/
def sumPropSizes (d : Int) (type : Nat) : (left : Nat) → (length : Int) → Reader UInt8 Halt Int
  | 0, length => return length
  | left + 1, length => do
      let size ← ptpGetPropSize (d + length) type
      if Fits (length + size) then sumPropSizes d type left (length + size) else .stop .undefined

/-- `sizeof(struct PtpEnumerationForm)`. -/
def enumerationFormSize : Nat := 2

/-- `oi->enum_form`, where `ptp_parse_prop_desc` makes one of the values at `d`. -/
def parseEnumForm (memory : Allocator) (allocations : Nat) (d : Int) (type : Nat) :
    Reader UInt8 Halt (PtpEnumerationForm × Nat) := do
  let numValues ← ptpReadU16 d
  let d := d + 2
  let length ← sumPropSizes d type numValues 0
  match memory.malloc allocations (toSize (enumerationFormSize + length)) with
  | none => .stop .undefined
  | some form => do
      let data ← copyTo (some ⟨form.size - enumerationFormSize,
        fun index => form.byte (enumerationFormSize + index)⟩) d (toSize length)
      return (⟨UInt16.ofNat numValues, data⟩, allocations + 1)

/-- `ptp_parse_prop_desc`, with the blocks asked for so far. -/
def ptpParsePropDesc (memory : Allocator) (allocations : Nat) (r : PtpRuntime)
    (oi : PtpPropDesc) : Reader UInt8 Halt (Int × PtpPropDesc × Nat) := do
  let d ← .ofExcept (ptpGetPayload r)
  let code ← ptpReadU16 d
  let dataType ← ptpReadU16 (d + 2)
  let readOnly ← ptpReadU8 (d + 4)
  let d := d + 5
  let default ← parseDataDataOrU32 memory allocations d dataType oi.defaultValue32 oi.defaultValue
  let d := d + default.size
  let current ← parseDataDataOrU32 memory default.allocations d dataType oi.currentValue32
    oi.currentValue
  let d := d + current.size
  let formType ← ptpReadU8 d
  let d := d + 1
  let oi := { oi with
    code := UInt16.ofNat code
    dataType := UInt16.ofNat dataType
    readOnly := UInt8.ofNat readOnly
    defaultValue32 := default.u32
    defaultValue := default.data
    currentValue32 := current.u32
    currentValue := current.data
    formType := UInt8.ofNat formType }
  if formType = ptpRangeForm then do
    let rangeForm ← parseRangeForm d dataType oi.rangeForm
    return (0, { oi with rangeForm }, current.allocations)
  else if formType = ptpEnumerationForm then do
    let (form, allocations) ← parseEnumForm memory current.allocations d dataType
    return (0, { oi with enumForm := some form }, allocations)
  else .stop (.panic "Unknown form type %d\n")

/-! ## Packing -/

/-- The string in an array: `strlen` finds its end, or leaves the array. -/
def cString {n : Nat} (array : Vector UInt8 n) : Except Halt (List UInt8) :=
  if 0 ∈ array.toList then .ok (array.toList.takeWhile (· ≠ 0)) else .error .undefined

/-- `ptp_write_string` of an array behind `of` bytes: the bytes written so far. -/
def packString {n : Nat} (packed : Nat × Buffer) (array : Vector UInt8 n) :
    Except Halt (Nat × Buffer) := do
  let string ← cString array
  let (size, buf) ← ptpWriteString packed.2 packed.1 string
  return (packed.1 + size, buf)

/-- `ptp_pack_object_info`: the bytes it has written, and the buffer. -/
def ptpPackObjectInfo (oi : PtpObjectInfo) (buf : Buffer) (max : Int) : Except Halt (Nat × Buffer) :=
  if max < 1024 then return (0, buf)
  else do
    let numbers := leBytes 4 oi.storageId.toNat ++ leBytes 2 oi.objFormat.toNat ++
      leBytes 2 oi.protection.toNat ++ leBytes 4 oi.compressedSize.toNat ++
      leBytes 2 oi.thumbFormat.toNat ++ leBytes 4 oi.thumbCompressedSize.toNat ++
      leBytes 4 oi.thumbWidth.toNat ++ leBytes 4 oi.thumbHeight.toNat ++
      leBytes 4 oi.imgWidth.toNat ++ leBytes 4 oi.imgHeight.toNat ++
      leBytes 4 oi.imgBitDepth.toNat ++ leBytes 4 oi.parentObj.toNat ++
      leBytes 2 oi.assocType.toNat ++ leBytes 4 oi.assocDesc.toNat ++
      leBytes 4 oi.sequenceNum.toNat
    let buf ← storeBytes buf 0 numbers
    let packed ← packString (52, buf) oi.filename
    let packed ← packString packed oi.dateCreated
    let packed ← packString packed oi.dateModified
    packString packed oi.keywords

/-! ## What a device supports -/

/-- The loop of `ptp_check_opcode` and `ptp_check_prop`, with `left` entries to go. -/
def checkCodes {n : Nat} (codes : Vector UInt16 n) (code : Int) : (left i : Nat) → Except Halt Int
  | 0, _ => .ok 0
  | left + 1, i =>
      if h : i < n then
        if (codes[i].toNat : Int) = code then .ok 1 else checkCodes codes code left (i + 1)
      else .error .undefined

/-- `ptp_check_opcode`, where `di` is what `r->di` points to. -/
def ptpCheckOpcode (di : Option PtpDeviceInfo) (op : Int) : Except Halt Int :=
  match di with
  | none => .ok 0
  | some di => checkCodes di.opsSupported op di.opsSupportedLength.toNat 0

/-- `ptp_check_prop`. -/
def ptpCheckProp (di : Option PtpDeviceInfo) (code : Int) : Except Halt Int :=
  match di with
  | none => .ok 0
  | some di => checkCodes di.propsSupported code di.propsSupportedLength.toNat 0

end Libpict
