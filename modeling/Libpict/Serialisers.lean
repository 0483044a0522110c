import Libpict.Base.Json
import Libpict.Datasets
import Libpict.EosEvents

/-! # Serialisers

The JSON texts of the datasets, printed piece by piece into a buffer of the caller. The
strings of a device are printed as they are. What is printed to is left open: a text, or the
memory of the caller.
-/

namespace Libpict

open CInt Json

/-- The bytes of a text. -/
def ascii (text : String) : List UInt8 := text.toList.map fun char => UInt8.ofNat char.toNat

section Printing

variable {β : Type} (print : β → List UInt8 → Except Halt β)

/-- `osnprintf` of the string in an array, between two texts. -/
def printString {n : Nat} (out : β) (before : List UInt8) (array : Vector UInt8 n)
    (after : List UInt8) : Except Halt β := do
  let chars ← cString array
  print out (before ++ chars ++ after)

/-! ## Device information -/

/-- The loops over the code arrays, with `left` entries to go and `i` printed. -/
def printCodes {n : Nat} (codes : Vector UInt16 n) (length : Int) : (left i : Nat) →
    (out : β) → Except Halt β
  | 0, _, out => .ok out
  | left + 1, i, out =>
      if h : i < n then do
        let ends := if length - 1 ≤ i then [] else ascii ", "
        let out ← print out (decimal codes[i].toNat ++ ends)
        printCodes codes length left (i + 1) out
      else .error .undefined

/-- What `ptp_device_info_json` prints. -/
def printDevice (di : PtpDeviceInfo) (start : β) : Except Halt β := do
  let out ← print start (ascii "\x7b\n    \"opsSupported\": [")
  let out ← printCodes print di.opsSupported di.opsSupportedLength di.opsSupportedLength.toNat 0 out
  let out ← print out (ascii "],\n")
  let out ← print out (ascii "    \"eventsSupported\": [")
  let out ← printCodes print di.eventsSupported di.eventsSupportedLength
    di.eventsSupportedLength.toNat 0 out
  let out ← print out (ascii "],\n")
  let out ← print out (ascii "    \"propsSupported\": [")
  let out ← printCodes print di.propsSupported di.propsSupportedLength
    di.propsSupportedLength.toNat 0 out
  let out ← print out (ascii "],\n")
  let out ← printString print out (ascii "    \"manufacturer\": \"") di.manufacturer (ascii "\",\n")
  let out ← printString print out (ascii "    \"extensions\": \"") di.extensions (ascii "\",\n")
  let out ← printString print out (ascii "    \"model\": \"") di.model (ascii "\",\n")
  let out ← printString print out (ascii "    \"deviceVersion\": \"") di.deviceVersion (ascii "\",\n")
  let out ← printString print out (ascii "    \"serialNumber\": \"") di.serialNumber (ascii "\"\n")
  print out (ascii "\x7d")

/-! ## Objects -/

abbrev ptpOfAssociation : Int := 0x3001

/-- `eval_obj_format`. -/
def evalObjFormat (names : EnumNames) (code : Int) : String :=
  if code = ptpOfAssociation then "folder" else ptpGetEnumAll names code

/-- `eval_protection`. -/
def evalProtection (code : Nat) : String :=
  if code = 0x0 then "none"
  else if code = 0x1 then "read-only"
  else if code = 0x8002 then "read-only data"
  else if code = 0x8003 then "non-transferable data"
  else "reserved"

/-- The size of an image, of an object that has any data. -/
def printImageSize (so : PtpObjectInfo) (out : β) : Except Halt β :=
  if so.compressedSize ≠ 0 then do
    let out ← print out (ascii "\"imgWidth\": " ++ decimal so.imgWidth.toNat ++ ascii ",")
    print out (ascii "\"imgHeight\": " ++ decimal so.imgHeight.toNat ++ ascii ",")
  else .ok out

/-- What `ptp_object_info_json` prints behind the first brace. -/
def printObject (names : EnumNames) (so : PtpObjectInfo) (out : β) : Except Halt β := do
  let out ← print out (ascii "\"storage_id\": " ++ decimal so.storageId.toNat ++ ascii ",")
  let out ← print out
    (ascii "\"compressedSize\": " ++ decimal so.compressedSize.toNat ++ ascii ",")
  let out ← print out (ascii "\"parent\": " ++ decimal so.parentObj.toNat ++ ascii ",")
  let out ← print out
    (ascii "\"format\": \"" ++ ascii (evalObjFormat names so.objFormat.toNat) ++ ascii "\",")
  let out ← print out (ascii "\"format_int\": " ++ decimal so.objFormat.toNat ++ ascii ",")
  let out ← print out
    (ascii "\"protection\": \"" ++ ascii (evalProtection so.protection.toNat) ++ ascii "\",")
  let out ← printString print out (ascii "\"filename\": \"") so.filename (ascii "\",")
  let out ← printImageSize print so out
  let out ← printString print out (ascii "\"dateCreated\": \"") so.dateCreated (ascii "\",")
  let out ← printString print out (ascii "\"dateModified\": \"") so.dateModified (ascii "\"")
  print out (ascii "\x7d")

/-! ## Storage -/

/-- `eval_storage_type`. -/
def evalStorageType (id : Nat) : String :=
  if id = 1 then "FixedROM"
  else if id = 2 then "RemovableROM"
  else if id = 3 then "Internal Storage"
  else if id = 4 then "Removable Storage"
  else "Unknown"

/-- What `ptp_storage_info_json` prints. -/
def printStorage (so : PtpStorageInfo) (start : β) : Except Halt β := do
  let out ← print start (ascii "\x7b")
  let out ← print out
    (ascii "\"storageType\": \"" ++ ascii (evalStorageType so.storageType.toNat) ++ ascii "\",")
  let out ← print out (ascii "\"fsType\": " ++ decimal so.fsType.toNat ++ ascii ",")
  let out ← print out
    (ascii "\"maxCapacity\": " ++ decimal so.maxCapacity.toNat ++ ascii ",")
  let out ← print out (ascii "\"freeSpace\": " ++ decimal so.freeSpace.toNat)
  print out (ascii "\x7d")

/-! ## Property descriptors -/

/-- The loop over a range, from `i` on; it makes at most `fuel` rounds. -/
def printRange (form : PtpRangeForm) : (fuel : Nat) → (i : Int) → (out : β) →
    Except Halt β
  | 0, _, _ => .error .spent
  | fuel + 1, i, out =>
      if i < form.max then
        if Fits (form.max - form.step) then do
          let ends := if form.max - form.step ≤ i then [] else ascii ", "
          let out ← print out (signed i ++ ends)
          if Fits (i + form.step) then printRange form fuel (i + form.step) out
          else .error .undefined
        else .error .undefined
      else .ok out

/-- The loop over an enumeration, with `left` values to go and `i` printed. A value of 64 bits
is left in a block that nothing frees, and `value` is what it was before. -/
def printEnum (memory : Allocator) (type : Nat) (form : PtpEnumerationForm) : (left i : Nat) →
    (allocations : Nat) → (of : Int) → (value : UInt32) → (out : β) → Except Halt β
  | 0, _, _, _, _, out => .ok out
  | left + 1, i, allocations, of, value, out => do
      let ends := if (form.length.toNat : Int) - 1 ≤ i then [] else ascii ", "
      let parsed ← (parseDataDataOrU32 memory allocations of type value none).run
        (Reader.only .undefined (form.data.slice 0 form.data.size))
      let out ← print out (signed (toInt32 parsed.u32.toNat) ++ ends)
      printEnum memory type form left (i + 1) parsed.allocations (of + parsed.size) parsed.u32 out

/-- The types that `ptp_prop_desc_json` prints the values of. -/
def isIntegerType (type : Nat) : Prop :=
  type = ptpTcInt8 ∨ type = ptpTcUint8 ∨ type = ptpTcInt16 ∨ type = ptpTcUint16 ∨
    type = ptpTcInt32 ∨ type = ptpTcUint32 ∨ type = ptpTcInt64 ∨ type = ptpTcUint64

instance (type : Nat) : Decidable (isIntegerType type) := inferInstanceAs (Decidable (_ ∨ _))

/-- The values of a descriptor. -/
def printValues (pd : PtpPropDesc) (out : β) : Except Halt β :=
  if isIntegerType pd.dataType.toNat then do
    let out ← print out (ascii "\"currentValue32\": " ++
      signed (toInt32 pd.currentValue32.toNat) ++ ascii ",\n")
    print out
      (ascii "\"defaultValue32\": " ++ decimal pd.defaultValue32.toNat ++ ascii ",\n")
  else if pd.dataType.toNat = ptpTcUint8Array ∨ pd.dataType.toNat = ptpTcUint16Array ∨
      pd.dataType.toNat = ptpTcUint32Array ∨ pd.dataType.toNat = ptpTcUint64Array ∨
      pd.dataType.toNat = ptpTcString then .error (.panic "Writeme\n")
  else .ok out

/-- The entries of its form; `value` is what the local variable of that name starts with. -/
def printEntries (memory : Allocator) (allocations : Nat) (value : UInt32) (pd : PtpPropDesc)
    (fuel : Nat) (out : β) : Except Halt β :=
  if pd.formType.toNat = ptpRangeForm then
    printRange print pd.rangeForm fuel pd.rangeForm.min out
  else
    match pd.enumForm with
    | none => .error .undefined
    | some form =>
        printEnum print memory pd.dataType.toNat form form.length.toNat 0 allocations 0 value out

/-- What `ptp_prop_desc_json` prints. -/
def printPropDesc (memory : Allocator) (allocations : Nat) (value : UInt32) (pd : PtpPropDesc)
    (fuel : Nat) (start : β) : Except Halt β := do
  let out ← print start (ascii "\x7b\n")
  let out ← print out (ascii "\"code\": " ++ decimal pd.code.toNat ++ ascii ",\n")
  let out ← print out (ascii "\"type\": " ++ decimal pd.dataType.toNat ++ ascii ",\n")
  let out ← printValues print pd out
  let out ← print out (ascii "\"validEntries\": [")
  let out ← printEntries print memory allocations value pd fuel out
  let out ← print out (ascii "],\n")
  let out ← print out (ascii "\"form_type\": " ++ decimal pd.formType.toNat ++ ascii "\n")
  print out (ascii "\x7d")

/-! ## Events -/

/-- An entry of the list of events. -/
def eventText (event : PtpGenericEvent) : List UInt8 :=
  match event.name with
  | none => ascii "[" ++ decimal event.code.toNat ++ ascii ", " ++
      decimal (toUInt32 event.value) ++ ascii "]"
  | some name =>
      match event.strValue with
      | none => ascii "[\"" ++ ascii name ++ ascii "\", " ++ decimal (toUInt32 event.value) ++
          ascii "]"
      | some text => ascii "[\"" ++ ascii name ++ ascii "\", \"" ++ ascii text ++ ascii "\"]"

/-- The loop over the events, with `i` of `length` looked at: no `i` is `length + 1`. -/
def printEvents (length : Int) : (i : Nat) → (events : List PtpGenericEvent) →
    (out : β) → Except Halt β
  | _, [], out => .ok out
  | i, event :: events, out =>
      if event.name = none ∧ event.code = 0 then printEvents length (i + 1) events out
      else do
        let ends := if (i : Int) - 1 = length then [] else ascii ","
        let out ← print out (eventText event)
        let out ← print out (ends ++ ascii "\n")
        printEvents length (i + 1) events out

/-- What `ptp_eos_events_json` prints about the events that `ptp_eos_events` has found; `empty`
is what it copies if there are none. -/
def printFound (empty : β) (length : Int) (events : List PtpGenericEvent) (start : β) :
    Except Halt β := do
  if length = 0 then .ok empty
  else do
    let out ← print start (ascii "[")
    let out ← printEvents print length 0 events out
    print out (ascii "]")

end Printing

/-! ## Texts -/

/-- `osnprintf`: what has been printed so far and is printed now, of which the buffer keeps as
much as it has room for. -/
def osnprintf (max : Int) (out piece : List UInt8) : Except Halt (List UInt8) :=
  if max - out.length < 0 then .error (.panic "osnprintf overflow %d/%d") else .ok (out ++ piece)

section Texts

variable (max : Int)

/-- `ptp_device_info_json`. -/
def ptpDeviceInfoJson (di : PtpDeviceInfo) : Except Halt (List UInt8) :=
  printDevice (osnprintf max) di []

/-- `ptp_object_info_json`; the first brace is printed without looking at `max`. -/
def ptpObjectInfoJson (names : EnumNames) (so : PtpObjectInfo) : Except Halt (List UInt8) :=
  printObject (osnprintf max) names so (ascii "\x7b")

/-- `ptp_storage_info_json`. -/
def ptpStorageInfoJson (so : PtpStorageInfo) : Except Halt (List UInt8) :=
  printStorage (osnprintf max) so []

/-- `ptp_prop_desc_json`. -/
def ptpPropDescJson (memory : Allocator) (allocations : Nat) (value : UInt32) (pd : PtpPropDesc)
    (fuel : Nat) : Except Halt (List UInt8) :=
  printPropDesc (osnprintf max) memory allocations value pd fuel []

def printEventList (length : Int) (events : List PtpGenericEvent) : Except Halt (List UInt8) :=
  printFound (osnprintf max) (ascii "[]") length events []

/-- `ptp_eos_events_json`. -/
def ptpEosEventsJson (memory : Allocator) (names : EnumNames) (r : PtpRuntime) (avail : AvailList)
    (fuel : Nat) : Except Halt (List UInt8) := do
  let (length, decoded) ← (ptpEosEvents memory names r avail fuel).run r.load
  printEventList max length decoded.events

end Texts

end Libpict
