import Libpict.Datasets
import Libpict.StringLaws

/-! # Where the dataset parsers read

A dataset is a list of fields. The standard says how long each one is; the parsers move
their cursor by what they make of it, which is less for a string that does not fit its array,
and they refuse an array of codes that is too long. A parser returns and stays in the payload
exactly if its cursor does.
-/

namespace Libpict

open Bytes CInt

/-- A field of a dataset: a number, a counted string for an array of `max` characters, or a
counted array of codes for one of `max` entries. -/
inductive Field
  | number (size : Nat)
  | text (max : Nat)
  | codes (max : Nat)

/-- The end of a field at an offset, by the standard. -/
def Field.standardEnd (payload : List UInt8) (offset : Nat) : Field → Nat
  | number size => offset + size
  | text _ => offset + (1 + 2 * field 1 offset payload)
  | codes _ => offset + (4 + 2 * field 4 offset payload)

/-- Where the parsers go on. -/
def Field.cursorEnd (payload : List UInt8) (offset : Nat) : Field → Nat
  | number size => offset + size
  | text max => offset + (1 + 2 * stringTaken max payload offset)
  | codes _ => offset + (4 + 2 * (toInt32 (field 4 offset payload)).toNat)

/-- What they demand: an array has at most as many entries as there is room for, and four bytes
for each and for the count lie in front of the end of the buffer, `room` bytes behind the
beginning of the payload. -/
def Field.Admitted (room : Int) (payload : List UInt8) (offset : Nat) : Field → Prop
  | number _ => True
  | text _ => True
  | codes max =>
      let count := toInt32 (field 4 offset payload)
      count ≤ max ∧ 0 ≤ 4 * count + 4 ∧ offset + (4 * count + 4) ≤ room

instance (room : Int) (payload : List UInt8) (offset : Nat) (field : Field) :
    Decidable (field.Admitted room payload offset) := by
  cases field <;> unfold Field.Admitted <;> infer_instance

/-- The dataset is all there. -/
def Complete (payload : List UInt8) (fields : List Field) : Prop :=
  fields.foldl (fun offset field => field.standardEnd payload offset) 0 ≤ payload.length

/-- The cursor stays in the payload, and meets nothing that it refuses. -/
def CursorInside (room : Int) (payload : List UInt8) : List Field → (offset : Nat) → Prop
  | [], offset => offset ≤ payload.length
  | field :: fields, offset => field.Admitted room payload offset ∧
      CursorInside room payload fields (field.cursorEnd payload offset)

instance (room : Int) (payload : List UInt8) (fields : List Field) (offset : Nat) :
    Decidable (CursorInside room payload fields offset) := by
  induction fields generalizing offset with
  | nil => exact inferInstanceAs (Decidable (_ ≤ _))
  | cons field fields ih =>
      have := ih (field.cursorEnd payload offset)
      exact inferInstanceAs (Decidable (_ ∧ _))

instance (payload : List UInt8) (fields : List Field) : Decidable (Complete payload fields) :=
  inferInstanceAs (Decidable (_ ≤ _))

/-- Where a field of a layout is met. -/
def cursorAt (payload : List UInt8) (fields : List Field) (index : Nat) : Nat :=
  (fields.take index).foldl (fun offset field => field.cursorEnd payload offset) 0

def deviceInfoFields : List Field :=
  [.number 2, .number 4, .number 2, .text 128, .number 2, .codes 256, .codes 256, .codes 512,
    .codes 32, .codes 32, .text 128, .text 128, .text 64, .text 128]

def objectInfoFields : List Field :=
  [.number 4, .number 2, .number 2, .number 4, .number 2, .number 4, .number 4, .number 4,
    .number 4, .number 4, .number 4, .number 4, .number 2, .number 4, .number 4, .text 64,
    .text 32, .text 32, .text 64]

def storageInfoFields : List Field :=
  [.number 2, .number 2, .number 2, .number 8, .number 8, .number 4, .text 128, .text 128]

section Rules

variable {start : Int} {payload : List UInt8} {room : Int}

theorem Field.le_cursorEnd (field : Field) (offset : Nat) :
    offset ≤ field.cursorEnd payload offset := by
  cases field <;> exact Nat.le_add_right _ _

theorem CursorInside.le {fields : List Field} {offset : Nat}
    (hinside : CursorInside room payload fields offset) : offset ≤ payload.length := by
  induction fields generalizing offset with
  | nil => exact hinside
  | cons field fields ih => exact (field.le_cursorEnd offset).trans (ih hinside.2)

variable {α β : Type} {post : β → Prop}

theorem readLe_returns {size p : Nat} {position : Int} (hat : position = start + p)
    (k : Nat → Reader UInt8 Halt β) :
    (readLe size position >>= k).Returns start payload post ↔
      p + size ≤ payload.length ∧ (k (field size p payload)).Returns start payload post := by
  rw [Reader.Returns, readLe_bind_view hat]
  split
  next hinside => exact (and_iff_right hinside).symm
  next houtside =>
    refine iff_of_false ?_ fun h => houtside h.1
    rintro ⟨_, hview, _⟩
    cases hview

/-- The array after `ptp_read_string`. -/
def textAt {n : Nat} (string : Vector UInt8 n) (payload : List UInt8) (offset : Nat) : Vector UInt8 n :=
  Slots.put string 0 (storedString (unitsAt payload (offset + 1) (stringTaken n payload offset)))

theorem ptpReadString_returns {n p : Nat} {position : Int} (hat : position = start + p)
    (string : Vector UInt8 n) (hn : 2 ≤ n) (k : Int × Vector UInt8 n → Reader UInt8 Halt β) :
    (ptpReadString position string n >>= k).Returns start payload post ↔
      (Field.text n).cursorEnd payload p ≤ payload.length ∧
        (k (((1 + 2 * stringTaken n payload p : Nat) : Int), textAt string payload p)).Returns start
          payload post := by
  have hview := @ptpReadString_view n start payload n p position hat string hn le_rfl
  dsimp only at hview
  rw [Reader.returns_bind, Reader.Returns, hview, Field.cursorEnd, ← Nat.add_assoc]
  split
  next hinside =>
    rw [and_iff_right hinside]
    constructor
    · rintro ⟨a, heq, hk⟩
      cases heq
      exact hk
    · exact fun hk => ⟨_, rfl, hk⟩
  next houtside =>
    refine iff_of_false ?_ fun h => houtside h.1
    rintro ⟨_, heq, _⟩
    cases heq

/-- The entries of an array of codes. -/
def entriesAt (payload : List UInt8) (offset count : Nat) : List UInt16 :=
  (unitsAt payload offset count).map UInt16.ofNat

theorem readEntries_returns {n max left i p : Nat} {bs of : Int} (buf : Vector UInt16 n)
    (hat : bs + of = start + p) (hmax : max ≤ n) (hp : p ≤ payload.length)
    {post : Int × Vector UInt16 n → Prop} :
    (readEntries bs max left i of buf).Returns start payload post ↔
      (left = 0 ∨ i + left ≤ max) ∧ p + 2 * left ≤ payload.length ∧
        post (of + 2 * left, Slots.put buf i (entriesAt payload p left)) := by
  induction left generalizing i of p buf with
  | zero => simp [readEntries, entriesAt, hp]
  | succ left ih =>
      rw [readEntries]
      by_cases hfull : (max : Int) ≤ i
      · rw [if_pos hfull, Reader.returns_stop]
        exact iff_of_false id fun h => by omega
      · have hi : i < n := by omega
        have hstore : ∀ entry, storeAt buf i entry = .done (buf.set i entry) :=
          fun entry => dif_pos hi
        rw [if_neg hfull, readLe_returns hat]
        simp only [hstore, Reader.done_bind]
        constructor
        · rintro ⟨hinside, hrest⟩
          obtain ⟨hroom, hle, hpost⟩ := (ih _ (by rw [← add_assoc, hat]; push_cast; ring)
            hinside).mp hrest
          refine ⟨.inr (by omega), by omega, ?_⟩
          have hof : of + 2 * ((left + 1 : Nat) : Int) = of + 2 + 2 * left := by push_cast; ring
          rw [entriesAt, unitsAt_succ, List.map_cons, Slots.put_cons _ hi, hof]
          exact hpost
        · rintro ⟨hroom, hle, hpost⟩
          have hinside : p + 2 ≤ payload.length := by omega
          refine ⟨hinside, (ih _ (by rw [← add_assoc, hat]; push_cast; ring) hinside).mpr
            ⟨by omega, by omega, ?_⟩⟩
          have hof : of + 2 * ((left + 1 : Nat) : Int) = of + 2 + 2 * left := by push_cast; ring
          rw [entriesAt, unitsAt_succ, List.map_cons, Slots.put_cons _ hi, hof] at hpost
          exact hpost

/-- `boundcheck` lets through what lies in front of the end of the buffer. -/
theorem boundcheck_returns {p : Nat} {position size : Int} (hat : position = start + p)
    (hsize : Fits size) (hroom : Fits room) {post : Unit → Prop} :
    (boundcheck position (some (start + room)) size).Returns start payload post ↔
      0 ≤ size ∧ p + size ≤ room ∧ post () := by
  unfold Fits at hroom
  rw [boundcheck]
  by_cases hnonneg : 0 ≤ size
  · have hsize' : (toSize size : Int) = size := by
      unfold Fits at hsize
      exact toSize_of_nonneg hnonneg (by omega)
    split
    next hbehind =>
      rw [Reader.returns_stop]
      exact iff_of_false id fun h => by omega
    next =>
      split
      next hshort =>
        rw [Reader.returns_stop]
        exact iff_of_false id fun h => by omega
      next hfits =>
        rw [Reader.pure_eq, Reader.returns_done, and_iff_right hnonneg]
        exact (and_iff_right (by omega)).symm
  · -- a negative size is more than any buffer has
    have hhuge := intMax_lt_toSize_of_neg hsize (by omega)
    unfold intMax at hhuge
    split
    next =>
      rw [Reader.returns_stop]
      exact iff_of_false id fun h => hnonneg h.1
    next =>
      rw [if_pos (by omega), Reader.returns_stop]
      exact iff_of_false id fun h => hnonneg h.1

theorem ptpReadUint16ArrayS_returns {n p : Nat} {position : Int} (hat : position = start + p)
    (hroom : Fits room) (buf : Vector UInt16 n) (hn : (4 * n + 4 : Int) ≤ intMax)
    (k : Int × Int × Vector UInt16 n → Reader UInt8 Halt β) :
    (ptpReadUint16ArrayS position (some (start + room)) buf n >>= k).Returns start payload post ↔
      (Field.codes n).Admitted room payload p ∧
        (Field.codes n).cursorEnd payload p ≤ payload.length ∧
        (k (((4 + 2 * (toInt32 (field 4 p payload)).toNat : Nat) : Int), toInt32 (field 4 p payload),
          Slots.put buf 0 (entriesAt payload (p + 4) (toInt32 (field 4 p payload)).toNat))).Returns
            start payload post := by
  unfold intMax at hn
  rw [ptpReadUint16ArrayS, Reader.bind_assoc, readLe_returns hat, Field.Admitted, Field.cursorEnd]
  generalize toInt32 (field 4 p payload) = count
  dsimp only
  split
  next hfits =>
    rw [Reader.returns_bind, Reader.returns_bind, boundcheck_returns hat hfits.2 hroom,
      Reader.returns_bind]
    constructor
    · rintro ⟨hcount, hnonneg, hbound, hread⟩
      have hof : position + 4 = start + (p + 4 : Nat) := by rw [hat]; push_cast; ring
      obtain ⟨hmax, hle, hpost⟩ := (readEntries_returns buf hof le_rfl hcount).mp hread
      rw [Reader.pure_eq, Reader.returns_done] at hpost
      have hcast : ((4 + 2 * count.toNat : Nat) : Int) = 4 + 2 * count.toNat := by push_cast; ring
      refine ⟨⟨by omega, hnonneg, hbound⟩, by omega, ?_⟩
      rw [hcast]
      exact hpost
    · rintro ⟨⟨hmax, hnonneg, hbound⟩, hle, hpost⟩
      have hof : position + 4 = start + (p + 4 : Nat) := by rw [hat]; push_cast; ring
      refine ⟨by omega, hnonneg, hbound, (readEntries_returns buf hof le_rfl (by omega)).mpr
        ⟨by omega, by omega, ?_⟩⟩
      have hcast : ((4 + 2 * count.toNat : Nat) : Int) = 4 + 2 * count.toNat := by push_cast; ring
      rw [Reader.pure_eq, Reader.returns_done]
      rw [hcast] at hpost
      exact hpost
  next hfits =>
    refine iff_of_false ?_ fun h => hfits ?_
    · rintro ⟨_, hstop⟩
      rw [Reader.stop_bind, Reader.returns_stop] at hstop
      exact hstop
    · unfold Fits
      omega

/-! One field of a layout. -/

theorem cursorAt_succ {layout : List Field} {index : Nat} {field : Field}
    (hfield : layout[index]? = some field) : cursorAt payload layout (index + 1) =
      field.cursorEnd payload (cursorAt payload layout index) := by
  rw [cursorAt, List.take_add_one, hfield, Option.toList_some, List.foldl_append]
  rfl

theorem cursorInside_drop {layout : List Field} {index : Nat} {field : Field}
    (hfield : layout[index]? = some field) :
    CursorInside room payload (layout.drop index) (cursorAt payload layout index) ↔
      field.Admitted room payload (cursorAt payload layout index) ∧
        CursorInside room payload (layout.drop (index + 1)) (cursorAt payload layout (index + 1)) := by
  obtain ⟨hlt, rfl⟩ := List.getElem?_eq_some_iff.mp hfield
  rw [cursorAt_succ hfield, List.drop_eq_getElem_cons hlt]
  rfl

variable {layout : List Field} {Q : Prop}

theorem next_position {position : Int} {p : Nat} (hat : position = start + p) (step : Nat) :
    position + step = start + (p + step : Nat) := by
  rw [hat]
  push_cast
  ring

theorem number_rule {size : Nat} (index : Nat) (hfield : layout[index]? = some (.number size))
    {position : Int} (hat : position = start + cursorAt payload layout index)
    {k : Nat → Reader UInt8 Halt β}
    (hrest : cursorAt payload layout (index + 1) ≤ payload.length →
      position + size = start + cursorAt payload layout (index + 1) →
      ((k (field size (cursorAt payload layout index) payload)).Returns start payload post ↔
        CursorInside room payload (layout.drop (index + 1)) (cursorAt payload layout (index + 1)) ∧
          Q)) :
    (readLe size position >>= k).Returns start payload post ↔
      CursorInside room payload (layout.drop index) (cursorAt payload layout index) ∧ Q := by
  rw [readLe_returns hat, cursorInside_drop hfield, Field.Admitted, true_and]
  rw [cursorAt_succ hfield] at hrest ⊢
  have hnext := next_position hat size
  constructor
  · rintro ⟨hinside, hk⟩
    exact (hrest hinside hnext).mp hk
  · exact fun h => ⟨h.1.le, (hrest h.1.le hnext).mpr h⟩

theorem text_rule {n : Nat} (index : Nat) (hfield : layout[index]? = some (.text n))
    {position : Int} (hat : position = start + cursorAt payload layout index) (hn : 2 ≤ n)
    {string : Vector UInt8 n} {k : Int × Vector UInt8 n → Reader UInt8 Halt β}
    (hrest : cursorAt payload layout (index + 1) ≤ payload.length →
      position + ((1 + 2 * stringTaken n payload (cursorAt payload layout index) : Nat) : Int) =
        start + cursorAt payload layout (index + 1) →
      ((k (((1 + 2 * stringTaken n payload (cursorAt payload layout index) : Nat) : Int),
          textAt string payload (cursorAt payload layout index))).Returns start payload post ↔
        CursorInside room payload (layout.drop (index + 1)) (cursorAt payload layout (index + 1)) ∧
          Q)) :
    (ptpReadString position string n >>= k).Returns start payload post ↔
      CursorInside room payload (layout.drop index) (cursorAt payload layout index) ∧ Q := by
  rw [ptpReadString_returns hat string hn, cursorInside_drop hfield, Field.Admitted, true_and]
  rw [cursorAt_succ hfield] at hrest ⊢
  have hnext := next_position hat (1 + 2 * stringTaken n payload (cursorAt payload layout index))
  constructor
  · rintro ⟨hinside, hk⟩
    exact (hrest hinside hnext).mp hk
  · exact fun h => ⟨h.1.le, (hrest h.1.le hnext).mpr h⟩

/-- The array after `ptp_read_uint16_array_s`. -/
def codesAt {n : Nat} (buf : Vector UInt16 n) (payload : List UInt8) (offset : Nat) :
    Vector UInt16 n :=
  Slots.put buf 0 (entriesAt payload (offset + 4) (toInt32 (field 4 offset payload)).toNat)

theorem codes_rule {n : Nat} (index : Nat) (hfield : layout[index]? = some (.codes n))
    {position : Int} (hat : position = start + cursorAt payload layout index) (hroom : Fits room)
    (hn : (4 * n + 4 : Int) ≤ intMax) {buf : Vector UInt16 n}
    {k : Int × Int × Vector UInt16 n → Reader UInt8 Halt β}
    (hrest : cursorAt payload layout (index + 1) ≤ payload.length →
      position + ((4 + 2 * (toInt32 (field 4 (cursorAt payload layout index) payload)).toNat : Nat) :
        Int) = start + cursorAt payload layout (index + 1) →
      ((k (((4 + 2 * (toInt32 (field 4 (cursorAt payload layout index) payload)).toNat : Nat) : Int),
          toInt32 (field 4 (cursorAt payload layout index) payload),
          codesAt buf payload (cursorAt payload layout index))).Returns start payload post ↔
        CursorInside room payload (layout.drop (index + 1)) (cursorAt payload layout (index + 1)) ∧
          Q)) :
    (ptpReadUint16ArrayS position (some (start + room)) buf n >>= k).Returns start payload post ↔
      CursorInside room payload (layout.drop index) (cursorAt payload layout index) ∧ Q := by
  rw [ptpReadUint16ArrayS_returns hat hroom buf hn, cursorInside_drop hfield]
  rw [cursorAt_succ hfield] at hrest ⊢
  have hnext := next_position hat
    (4 + 2 * (toInt32 (field 4 (cursorAt payload layout index) payload)).toNat)
  constructor
  · rintro ⟨hadmitted, hinside, hk⟩
    obtain ⟨hcursor, hq⟩ := (hrest hinside hnext).mp hk
    exact ⟨⟨hadmitted, hcursor⟩, hq⟩
  · rintro ⟨⟨hadmitted, hcursor⟩, hq⟩
    exact ⟨hadmitted, hcursor.le, (hrest hcursor.le hnext).mpr ⟨hcursor, hq⟩⟩

/-- Behind the last field. -/
theorem end_rule {a : β} {index : Nat} (hend : layout.drop index = [])
    (hinside : cursorAt payload layout index ≤ payload.length) (hQ : Q ↔ post a) :
    (Reader.done a : Reader UInt8 Halt β).Returns start payload post ↔
      CursorInside room payload (layout.drop index) (cursorAt payload layout index) ∧ Q := by
  rw [Reader.returns_done, hend, CursorInside, and_iff_right hinside, hQ]

end Rules

/-! ## The three layouts -/

/-- What `ptp_parse_device_info` finds where its cursor passes. -/
def deviceInfoAt (di : PtpDeviceInfo) (payload : List UInt8) : PtpDeviceInfo :=
  let position := cursorAt payload deviceInfoFields
  { standardVersion := UInt16.ofNat (field 2 (position 0) payload)
    vendorExtId := UInt32.ofNat (field 4 (position 1) payload)
    version := UInt16.ofNat (field 2 (position 2) payload)
    extensions := textAt di.extensions payload (position 3)
    functionalMode := UInt16.ofNat (field 2 (position 4) payload)
    opsSupportedLength := toInt32 (field 4 (position 5) payload)
    opsSupported := codesAt di.opsSupported payload (position 5)
    eventsSupportedLength := toInt32 (field 4 (position 6) payload)
    eventsSupported := codesAt di.eventsSupported payload (position 6)
    propsSupportedLength := toInt32 (field 4 (position 7) payload)
    propsSupported := codesAt di.propsSupported payload (position 7)
    captureFormatsLength := toInt32 (field 4 (position 8) payload)
    captureFormats := codesAt di.captureFormats payload (position 8)
    playbackFormatsLength := toInt32 (field 4 (position 9) payload)
    playbackFormats := codesAt di.playbackFormats payload (position 9)
    manufacturer := textAt di.manufacturer payload (position 10)
    model := textAt di.model payload (position 11)
    deviceVersion := textAt di.deviceVersion payload (position 12)
    serialNumber := textAt di.serialNumber payload (position 13) }

/-- The same for `ptp_parse_object_info`. -/
def objectInfoAt (oi : PtpObjectInfo) (payload : List UInt8) : PtpObjectInfo :=
  let position := cursorAt payload objectInfoFields
  { storageId := UInt32.ofNat (field 4 (position 0) payload)
    objFormat := UInt16.ofNat (field 2 (position 1) payload)
    protection := UInt16.ofNat (field 2 (position 2) payload)
    compressedSize := UInt32.ofNat (field 4 (position 3) payload)
    thumbFormat := UInt16.ofNat (field 2 (position 4) payload)
    thumbCompressedSize := UInt32.ofNat (field 4 (position 5) payload)
    thumbWidth := UInt32.ofNat (field 4 (position 6) payload)
    thumbHeight := UInt32.ofNat (field 4 (position 7) payload)
    imgWidth := UInt32.ofNat (field 4 (position 8) payload)
    imgHeight := UInt32.ofNat (field 4 (position 9) payload)
    imgBitDepth := UInt32.ofNat (field 4 (position 10) payload)
    parentObj := UInt32.ofNat (field 4 (position 11) payload)
    assocType := UInt16.ofNat (field 2 (position 12) payload)
    assocDesc := UInt32.ofNat (field 4 (position 13) payload)
    sequenceNum := UInt32.ofNat (field 4 (position 14) payload)
    filename := textAt oi.filename payload (position 15)
    dateCreated := textAt oi.dateCreated payload (position 16)
    dateModified := textAt oi.dateModified payload (position 17)
    keywords := textAt oi.keywords payload (position 18) }

/-- The same for `ptp_parse_storage_info`. -/
def storageInfoAt (si : PtpStorageInfo) (payload : List UInt8) : PtpStorageInfo :=
  let position := cursorAt payload storageInfoFields
  { storageType := UInt16.ofNat (field 2 (position 0) payload)
    fsType := UInt16.ofNat (field 2 (position 1) payload)
    accessCapability := UInt16.ofNat (field 2 (position 2) payload)
    maxCapacity := UInt64.ofNat (field 8 (position 3) payload)
    freeSpace := UInt64.ofNat (field 8 (position 4) payload)
    freeObjects := UInt32.ofNat (field 4 (position 5) payload)
    storageDesc := textAt si.storageDesc payload (position 6)
    volumeIdentifier := textAt si.volumeIdentifier payload (position 7) }

theorem ptpParseDeviceInfo_returns {r : PtpRuntime} {start : Int} (payload : List UInt8)
    (hstart : ptpGetPayload r = .ok start) (hroom : Fits r.dataLength) (di : PtpDeviceInfo)
    (post : Int × PtpDeviceInfo × Option PtpDeviceInfo → Prop) :
    (ptpParseDeviceInfo r di).Returns start payload post ↔
      CursorInside r.dataLength payload deviceInfoFields 0 ∧
        post (0, deviceInfoAt di payload, some (deviceInfoAt di payload)) := by
  rw [ptpParseDeviceInfo, hstart, Reader.ofExcept, Reader.done_bind]
  change _ ↔ CursorInside _ _ (deviceInfoFields.drop 0) (cursorAt payload deviceInfoFields 0) ∧ _
  refine number_rule 0 rfl (by simp [cursorAt]) fun _ _ => ?_
  refine number_rule 1 rfl (by simp [cursorAt, deviceInfoFields, Field.cursorEnd]) fun _ _ => ?_
  refine number_rule 2 rfl (by simp [cursorAt, deviceInfoFields, Field.cursorEnd]) fun _ _ => ?_
  refine text_rule 3 rfl (by simp [cursorAt, deviceInfoFields, Field.cursorEnd]) (by decide) fun _ hat => ?_
  refine number_rule 4 rfl hat fun _ hat => ?_
  refine codes_rule 5 rfl hat hroom (by decide) fun _ hat => ?_
  refine codes_rule 6 rfl hat hroom (by decide) fun _ hat => ?_
  refine codes_rule 7 rfl hat hroom (by decide) fun _ hat => ?_
  refine codes_rule 8 rfl hat hroom (by decide) fun _ hat => ?_
  refine codes_rule 9 rfl hat hroom (by decide) fun _ hat => ?_
  refine text_rule 10 rfl hat (by decide) fun _ hat => ?_
  refine text_rule 11 rfl hat (by decide) fun _ hat => ?_
  refine text_rule 12 rfl hat (by decide) fun _ hat => ?_
  refine text_rule 13 rfl hat (by decide) fun hinside _ => ?_
  exact end_rule rfl hinside Iff.rfl

section Parsers

variable {r : PtpRuntime} {start length : Int} {payload : List UInt8}
  (hpayload : r.HasPayload start length payload)

include hpayload

theorem ptpParseObjectInfo_returns (oi : PtpObjectInfo) (post : Int × PtpObjectInfo → Prop) :
    (ptpParseObjectInfo r oi).Returns start payload post ↔
      CursorInside r.dataLength payload objectInfoFields 0 ∧ post (0, objectInfoAt oi payload) := by
  rw [ptpParseObjectInfo, hpayload.start_eq, Reader.ofExcept, Reader.done_bind]
  change _ ↔ CursorInside _ _ (objectInfoFields.drop 0) (cursorAt payload objectInfoFields 0) ∧ _
  refine number_rule 0 rfl (by simp [cursorAt]) fun _ _ => ?_
  refine number_rule 1 rfl (by simp [cursorAt, objectInfoFields, Field.cursorEnd]) fun _ _ => ?_
  refine number_rule 2 rfl (by simp [cursorAt, objectInfoFields, Field.cursorEnd]) fun _ _ => ?_
  refine number_rule 3 rfl (by simp [cursorAt, objectInfoFields, Field.cursorEnd]) fun _ _ => ?_
  refine number_rule 4 rfl (by simp [cursorAt, objectInfoFields, Field.cursorEnd]) fun _ _ => ?_
  refine number_rule 5 rfl (by simp [cursorAt, objectInfoFields, Field.cursorEnd]) fun _ _ => ?_
  refine number_rule 6 rfl (by simp [cursorAt, objectInfoFields, Field.cursorEnd]) fun _ _ => ?_
  refine number_rule 7 rfl (by simp [cursorAt, objectInfoFields, Field.cursorEnd]) fun _ _ => ?_
  refine number_rule 8 rfl (by simp [cursorAt, objectInfoFields, Field.cursorEnd]) fun _ _ => ?_
  refine number_rule 9 rfl (by simp [cursorAt, objectInfoFields, Field.cursorEnd]) fun _ _ => ?_
  refine number_rule 10 rfl (by simp [cursorAt, objectInfoFields, Field.cursorEnd]) fun _ _ => ?_
  refine number_rule 11 rfl (by simp [cursorAt, objectInfoFields, Field.cursorEnd]) fun _ _ => ?_
  refine number_rule 12 rfl (by simp [cursorAt, objectInfoFields, Field.cursorEnd]) fun _ _ => ?_
  refine number_rule 13 rfl (by simp [cursorAt, objectInfoFields, Field.cursorEnd]) fun _ _ => ?_
  refine number_rule 14 rfl (by simp [cursorAt, objectInfoFields, Field.cursorEnd]) fun _ _ => ?_
  refine text_rule 15 rfl (by simp [cursorAt, objectInfoFields, Field.cursorEnd]) (by decide) fun _ hat => ?_
  refine text_rule 16 rfl hat (by decide) fun _ hat => ?_
  refine text_rule 17 rfl hat (by decide) fun _ hat => ?_
  refine text_rule 18 rfl hat (by decide) fun hinside _ => ?_
  exact end_rule rfl hinside Iff.rfl

theorem ptpParseStorageInfo_returns (si : PtpStorageInfo)
    (post : Int × PtpStorageInfo → Prop) :
    (ptpParseStorageInfo r si).Returns start payload post ↔
      payload.length < 26 ∧ post (PtpGeneralError.runtimeErr, si) ∨
        26 ≤ payload.length ∧ CursorInside r.dataLength payload storageInfoFields 0 ∧
          post (0, storageInfoAt si payload) := by
  have hsize := hpayload.size
  rw [ptpParseStorageInfo, hpayload.length_eq, Reader.ofExcept, Reader.done_bind]
  split
  next hshort =>
    rw [Reader.pure_eq, Reader.returns_done]
    constructor
    · exact fun hpost => .inl ⟨by omega, hpost⟩
    · rintro (h | h)
      · exact h.2
      · omega
  next hlong =>
    rw [hpayload.start_eq, Reader.ofExcept, Reader.done_bind,
      or_iff_right (fun h => by omega), and_iff_right (by omega : 26 ≤ payload.length)]
    change _ ↔ CursorInside _ _ (storageInfoFields.drop 0) (cursorAt payload storageInfoFields 0) ∧ _
    refine number_rule 0 rfl (by simp [cursorAt]) fun _ _ => ?_
    refine number_rule 1 rfl (by simp [cursorAt, storageInfoFields, Field.cursorEnd]) fun _ _ => ?_
    refine number_rule 2 rfl (by simp [cursorAt, storageInfoFields, Field.cursorEnd]) fun _ _ => ?_
    refine number_rule 3 rfl (by simp [cursorAt, storageInfoFields, Field.cursorEnd]) fun _ _ => ?_
    refine number_rule 4 rfl (by simp [cursorAt, storageInfoFields, Field.cursorEnd]) fun _ _ => ?_
    refine number_rule 5 rfl (by simp [cursorAt, storageInfoFields, Field.cursorEnd]) fun _ _ => ?_
    refine text_rule 6 rfl (by simp [cursorAt, storageInfoFields, Field.cursorEnd]) (by decide) fun _ hat => ?_
    refine text_rule 7 rfl hat (by decide) fun hinside _ => ?_
    exact end_rule rfl hinside Iff.rfl

end Parsers

end Libpict
