import Libpict.Datasets
import Libpict.EosRecords
import Libpict.Operation
import Libpict.Scripted

/-! # Generic properties

An application sets a property by its name and in the library's own values. A Canon camera is
sent its property code and its own value, and reports a change by these; the event decoder
converts them back.
-/

namespace Libpict

open Bytes CInt Exec

/-- `enum PtpVendors`. -/
inductive PtpVendor
  | empty
  | eos
  | canon
  | nikon
  | sony
  | fuji
  deriving DecidableEq

abbrev ptpOcEosGetStorageIds : Int := 0x9101

abbrev ptpOcEosSetDevicePropValueEx : UInt16 := 0x9110

abbrev ptpDpcEosEvfwbMode : Nat := 0xD1B4

/-- `"Canon Inc."`. -/
def canonInc : List UInt8 := [0x43, 0x61, 0x6e, 0x6f, 0x6e, 0x20, 0x49, 0x6e, 0x63, 0x2e]

/-- `"FUJIFILM"`. -/
def fujifilm : List UInt8 := [0x46, 0x55, 0x4a, 0x49, 0x46, 0x49, 0x4c, 0x4d]

/-- `"Sony Corporation"`. -/
def sonyCorporation : List UInt8 :=
  [0x53, 0x6f, 0x6e, 0x79, 0x20, 0x43, 0x6f, 0x72, 0x70, 0x6f, 0x72, 0x61, 0x74, 0x69, 0x6f, 0x6e]

/-- `"Nikon Corporation"`. -/
def nikonCorporation : List UInt8 :=
  [0x4e, 0x69, 0x6b, 0x6f, 0x6e, 0x20, 0x43, 0x6f, 0x72, 0x70, 0x6f, 0x72, 0x61, 0x74, 0x69, 0x6f,
    0x6e]

/-- `ptp_device_type`, where `di` is what `r->di` points to. -/
def ptpDeviceType (di : Option PtpDeviceInfo) : Except Halt PtpVendor :=
  match di with
  | none => .ok .empty
  | some info =>
      if Slots.Holds info.manufacturer canonInc then do
        let found ← ptpCheckOpcode di ptpOcEosGetStorageIds
        return if found ≠ 0 then .eos else .canon
      else if Slots.Holds info.manufacturer fujifilm then .ok .fuji
      else if Slots.Holds info.manufacturer sonyCorporation then .ok .sony
      else if Slots.Holds info.manufacturer nikonCorporation then .ok .nikon
      else .ok .empty

section Setting

variable {σ : Type} (B : Backend σ) (fuel : Nat) (avail : AvailList)

/-- `ptp_eos_set_prop_value`. -/
def ptpEosSetPropValue (code value : Int) : M σ Int :=
  ptpSendData B fuel ⟨ptpOcEosSetDevicePropValueEx, .replicate _ 0, 0, by decide⟩
    (leBytes 4 0xc ++ leBytes 4 (toUInt32 code) ++ leBytes 4 (toUInt32 value))

/-- `ptp_eos_set_validate_prop`. -/
def ptpEosSetValidateProp (propCode : Int) (value : UInt32) : M σ Int := do
  let rc ← inspect fun _ => ptpValidatePropertyValue avail propCode value
  -- If invalid value, don't set. Else we don't have any info, and assume it's valid.
  if rc = 2 then pure rc else ptpEosSetPropValue B fuel propCode (toInt32 value.toNat)

/-- `ptp_set_generic_property`. -/
def ptpSetGenericProperty (di : Option PtpDeviceInfo) (name : String) (value : Int) : M σ Int := do
  let dev ← inspect fun _ => ptpDeviceType di
  if name = "aperture" then
    if dev = .eos then
      ptpEosSetValidateProp B fuel avail ptpDpcEosAperture
        (UInt32.ofNat (toUInt32 (ptpEosGetAperture value true)))
    else pure 0
  else if name = "iso" then
    if dev = .eos then
      ptpEosSetValidateProp B fuel avail ptpDpcEosIsoSpeed
        (UInt32.ofNat (toUInt32 (ptpEosGetIso value true)))
    else pure 0
  else if name = "shutter speed" then
    if dev = .eos then
      ptpEosSetValidateProp B fuel avail ptpDpcEosShutterSpeed
        (UInt32.ofNat (toUInt32 (ptpEosGetShutter value true)))
    else pure 0
  else if name = "white balance" then
    if dev = .eos then do
      let _ ← ptpEosSetPropValue B fuel ptpDpcEosWhiteBalance (ptpEosGetWhiteBalance value true)
      ptpEosSetPropValue B fuel ptpDpcEosEvfwbMode (ptpEosGetWhiteBalance value true)
    else pure 0
  else pure PtpGeneralError.unsupported

/-! ## What is sent -/

/-- A property that is sent if the list of its values does not rule the value out. -/
def validated (propCode : Nat) (value : Int) : Except Halt (List (Nat × Int)) := do
  let rc ← ptpValidatePropertyValue avail propCode (UInt32.ofNat (toUInt32 value))
  return if rc = 2 then [] else [(propCode, value)]

/-- The property codes that an EOS device is sent for a name, each with its value. -/
def genericSettings (name : String) (value : Int) : Except Halt (List (Nat × Int)) :=
  if name = "aperture" then validated avail ptpDpcEosAperture (ptpEosGetAperture value true)
  else if name = "iso" then validated avail ptpDpcEosIsoSpeed (ptpEosGetIso value true)
  else if name = "shutter speed" then
    validated avail ptpDpcEosShutterSpeed (ptpEosGetShutter value true)
  else if name = "white balance" then
    .ok [(ptpDpcEosWhiteBalance, ptpEosGetWhiteBalance value true),
      (ptpDpcEosEvfwbMode, ptpEosGetWhiteBalance value true)]
  else .ok []

/-- Send some values one after the other. -/
def sendSettings : Int → List (Nat × Int) → M σ Int
  | rc, [] => pure rc
  | _, (propCode, value) :: rest => do
      let rc ← ptpEosSetPropValue B fuel propCode value
      sendSettings rc rest

variable {B fuel avail}

theorem toUInt32_ofNat (value : Int) : toUInt32 (toInt32 (UInt32.ofNat (toUInt32 value)).toNat) =
    toUInt32 value := by
  have hlt : toUInt32 value < 4294967296 := by
    unfold toUInt32
    omega
  rw [UInt32.toNat_ofNat_of_lt' hlt]
  exact toUInt32_toInt32 hlt

theorem answer_ok {α : Type} {read : Except Halt α} {a : α} (hread : read = .ok a) (w : World σ) :
    (inspect fun _ => read : M σ α) w = .ok a w := by
  rw [hread]
  rfl

theorem answer_error {α : Type} {read : Except Halt α} {reason : Halt}
    (hread : read = .error reason) (w : World σ) :
    (inspect fun _ => read : M σ α) w = .error reason w := by
  rw [hread]
  rfl

theorem setValidateProp_run (propCode : Nat) (value : Int) (w : World σ) :
    ptpEosSetValidateProp B fuel avail propCode (UInt32.ofNat (toUInt32 value)) w =
      (do
        let settings ← inspect fun _ => validated avail propCode value
        sendSettings B fuel 2 settings : M σ Int) w := by
  have hsend : ptpEosSetPropValue B fuel propCode
      (toInt32 (UInt32.ofNat (toUInt32 value)).toNat) = ptpEosSetPropValue B fuel propCode value := by
    rw [ptpEosSetPropValue, ptpEosSetPropValue, toUInt32_ofNat]
  rw [ptpEosSetValidateProp]
  cases hvalid : ptpValidatePropertyValue avail propCode (UInt32.ofNat (toUInt32 value)) with
  | error reason =>
      have hsettings : validated avail propCode value = .error reason := by
        rw [validated, hvalid]
        rfl
      rw [bind_error (answer_error rfl w), bind_error (answer_error hsettings w)]
  | ok rc =>
      have hsettings : validated avail propCode value =
          .ok (if rc = 2 then [] else [(propCode, value)]) := by
        rw [validated, hvalid]
        rfl
      rw [bind_ok (answer_ok rfl w), bind_ok (answer_ok hsettings w)]
      by_cases htwo : rc = 2
      · rw [if_pos htwo, if_pos htwo, htwo]
        rfl
      · rw [if_neg htwo, if_neg htwo, hsend, sendSettings]
        simp only [sendSettings, bind_pure]

/-- On an EOS device, exactly the settings are sent. -/
theorem ptpSetGenericProperty_run {di : Option PtpDeviceInfo} (hdev : ptpDeviceType di = .ok .eos)
    {name : String} (hname : name ∈ ["aperture", "iso", "shutter speed", "white balance"])
    (value : Int) (w : World σ) :
    ptpSetGenericProperty B fuel avail di name value w =
      (do
        let settings ← inspect fun _ => genericSettings avail name value
        sendSettings B fuel 2 settings : M σ Int) w := by
  rw [ptpSetGenericProperty, bind_ok (answer_ok hdev w)]
  simp only [List.mem_cons, List.not_mem_nil, or_false] at hname
  rcases hname with rfl | rfl | rfl | rfl
  · exact setValidateProp_run _ _ w
  · exact setValidateProp_run _ _ w
  · exact setValidateProp_run _ _ w
  · have hsettings : genericSettings avail "white balance" value =
        .ok [(ptpDpcEosWhiteBalance, ptpEosGetWhiteBalance value true),
          (ptpDpcEosEvfwbMode, ptpEosGetWhiteBalance value true)] := by
      simp [genericSettings]
    rw [if_neg (by decide), if_neg (by decide), if_neg (by decide), if_pos rfl, if_pos rfl,
      bind_ok (answer_ok hsettings w)]
    simp only [sendSettings, bind_pure]

end Setting

/-! ## What is heard back -/

/-- The value is the camera's number in some row, and the library's in none. -/
def Clashes (table : List CanonRow) (value : Int) : Prop :=
  (∃ row ∈ table, row.data = value) ∧ ∀ row ∈ table, row.value ≠ value

instance (table : List CanonRow) (value : Int) : Decidable (Clashes table value) :=
  inferInstanceAs (Decidable (_ ∧ _))

section Tables

variable {table : List CanonRow} {value : Int}

/-- Converted and back, a value is the same unless it clashes, if the rows that have it are
the first ones with their number. -/
theorem convertCanon_back_iff (hrows : ∀ row ∈ table, row.value = value →
      (table.find? fun other => other.data = row.data).map CanonRow.value = some value) :
    convertCanon table (convertCanon table value true) false = value ↔ ¬Clashes table value := by
  cases hfound : table.find? fun row => row.value = value with
  | some row =>
      have hmem := List.mem_of_find?_eq_some hfound
      have hvalue : row.value = value := by simpa using List.find?_some hfound
      have hsent : convertCanon table value true = row.data := by
        rw [convertCanon, if_pos rfl, hfound]
        rfl
      rw [hsent, convertCanon, if_neg Bool.false_ne_true, hrows row hmem hvalue]
      exact iff_of_true rfl fun hclash => hclash.2 row hmem hvalue
  | none =>
      have hother : ∀ row ∈ table, row.value ≠ value := by
        simpa using List.find?_eq_none.mp hfound
      have hsent : convertCanon table value true = value := by
        rw [convertCanon, if_pos rfl, hfound]
        rfl
      rw [hsent, convertCanon, if_neg Bool.false_ne_true]
      cases hback : table.find? fun row => row.data = value with
      | none =>
          have hmissing : ∀ row ∈ table, row.data ≠ value := by
            simpa using List.find?_eq_none.mp hback
          exact iff_of_true rfl fun ⟨⟨row, hmem, hdata⟩, _⟩ => hmissing row hmem hdata
      | some row =>
          have hmem := List.mem_of_find?_eq_some hback
          have hdata : row.data = value := by simpa using List.find?_some hback
          exact iff_of_false (hother row hmem) fun h => h ⟨⟨row, hmem, hdata⟩, hother⟩

/-- A conversion stays in the range of `int`. -/
theorem convertCanon_fits (hrows : ∀ row ∈ table, Fits row.value ∧ Fits row.data)
    (hvalue : Fits value) (dir : Bool) : Fits (convertCanon table value dir) := by
  unfold convertCanon
  split
  · cases hfound : table.find? fun row => row.value = value with
    | none => exact hvalue
    | some row => exact (hrows row (List.mem_of_find?_eq_some hfound)).2
  · cases hfound : table.find? fun row => row.data = value with
    | none => exact hvalue
    | some row => exact (hrows row (List.mem_of_find?_eq_some hfound)).1

end Tables

theorem ptpEosGetWhiteBalance_eq (value : Int) (dir : Bool) :
    ptpEosGetWhiteBalance value dir = value := by
  unfold ptpEosGetWhiteBalance convertCanon canonWhiteBalance
  by_cases hzero : value = 0
  · subst hzero
    cases dir <;> rfl
  · have hother : ¬(0 : Int) = value := fun h => hzero h.symm
    cases dir <;> simp [hother]

/-- A property and a value that are heard back as they were set. -/
def Heard (propCode : Nat) (value : Int) : Prop :=
  if propCode = ptpDpcEosAperture then ¬Clashes canonAperture value
  else if propCode = ptpDpcEosIsoSpeed then ¬Clashes canonIso value ∧ value ≠ 640
  else if propCode = ptpDpcEosShutterSpeed then ¬Clashes canonShutter value
  else propCode = ptpDpcEosWhiteBalance

instance (propCode : Nat) (value : Int) : Decidable (Heard propCode value) := by
  unfold Heard
  infer_instance

section Round

variable {value : Int} (hvalue : Fits value)

include hvalue

/-- A value that goes through a table to the camera and back. -/
theorem table_heard_iff {table : List CanonRow}
    (hfits : ∀ row ∈ table, Fits row.value ∧ Fits row.data) :
    toInt32 (toUInt32 (convertCanon table
        (toInt32 (toUInt32 (convertCanon table value true))) false)) = value ↔
      convertCanon table (convertCanon table value true) false = value := by
  have hsent := convertCanon_fits hfits hvalue true
  rw [toInt32_toUInt32 hsent, toInt32_toUInt32 (convertCanon_fits hfits hsent false)]

theorem aperture_heard_iff : toInt32 (toUInt32 (eosPropValue ptpDpcEosAperture
    (toUInt32 (ptpEosGetAperture value true)))) = value ↔ Heard ptpDpcEosAperture value := by
  have hrows : ∀ row ∈ canonAperture,
      (canonAperture.find? fun other => other.data = row.data).map CanonRow.value =
        some row.value := by decide
  rw [eosPropValue, if_pos rfl, Heard, if_pos rfl]
  refine (table_heard_iff hvalue (by unfold Fits; decide)).trans (convertCanon_back_iff ?_)
  rintro row hmem rfl
  exact hrows row hmem

theorem shutter_heard_iff : toInt32 (toUInt32 (eosPropValue ptpDpcEosShutterSpeed
    (toUInt32 (ptpEosGetShutter value true)))) = value ↔ Heard ptpDpcEosShutterSpeed value := by
  have hrows : ∀ row ∈ canonShutter,
      (canonShutter.find? fun other => other.data = row.data).map CanonRow.value =
        some row.value := by decide +kernel
  rw [eosPropValue, if_neg (by decide), if_pos rfl, Heard, if_neg (by decide), if_neg (by decide),
    if_pos rfl]
  refine (table_heard_iff hvalue (by unfold Fits; decide)).trans (convertCanon_back_iff ?_)
  rintro row hmem rfl
  exact hrows row hmem

/-- The rows of 500 and 640 have the same number. -/
theorem iso_heard_iff : toInt32 (toUInt32 (eosPropValue ptpDpcEosIsoSpeed
    (toUInt32 (ptpEosGetIso value true)))) = value ↔ Heard ptpDpcEosIsoSpeed value := by
  have hrows : ∀ row ∈ canonIso, row.value ≠ 640 →
      (canonIso.find? fun other => other.data = row.data).map CanonRow.value =
        some row.value := by decide
  rw [eosPropValue, if_neg (by decide), if_neg (by decide), if_pos rfl, Heard,
    if_neg (by decide), if_pos rfl]
  refine (table_heard_iff hvalue (by unfold Fits; decide)).trans ?_
  by_cases hdouble : value = 640
  · subst hdouble
    exact iff_of_false (by decide) fun h => h.2 rfl
  · rw [and_iff_left hdouble]
    apply convertCanon_back_iff
    rintro row hmem rfl
    exact hrows row hmem hdouble

theorem whiteBalance_heard : toInt32 (toUInt32 (eosPropValue ptpDpcEosWhiteBalance
    (toUInt32 (ptpEosGetWhiteBalance value true)))) = value := by
  rw [eosPropValue, if_neg (by decide), if_neg (by decide), if_neg (by decide),
    if_neg (by decide), if_pos rfl, ptpEosGetWhiteBalance_eq, ptpEosGetWhiteBalance_eq,
    toInt32_toUInt32 hvalue, toInt32_toUInt32 hvalue]

end Round

section Records

variable {memory : Allocator} {names : EnumNames} {payload tail : List UInt8} {start length : Int}
  {records : List EosRecord}

/-- A walk makes the event of each record. -/
theorem walk_events (htail : EosEnd tail) (hint : (payload.length : Int) ≤ intMax)
    {front : List UInt8} {avail : AvailList} {walk : List (Nat × AvailList)}
    (hsplit : payload = front ++ (records.flatMap EosRecord.bytes ++ tail))
    (hwalk : EosWalk memory payload front.length avail walk) :
    (walk.map fun entry => eosEvent names payload entry.1) =
      records.map fun record => eosEventOf names record.type record.word := by
  induction records generalizing front avail walk with
  | nil =>
      have hlength : walk.length = 0 := hwalk.counted.unique (counted_records htail hsplit)
      rw [List.length_eq_zero_iff.mp hlength]
      rfl
  | cons record records ih =>
      rw [List.flatMap_cons, List.append_assoc] at hsplit
      have hrecord : (8 + record.body.length : Int) ≤ intMax := by
        rw [hsplit, List.length_append, List.length_append, record.bytes_length] at hint
        omega
      have hevent : eosEvent names payload front.length =
          eosEventOf names record.type record.word := hsplit ▸ record.eosEvent_eq front _ names
      obtain ⟨after, remaining, -, hremaining, rfl⟩ := (walk_record hrecord hsplit).mp hwalk
      rw [List.map_cons, List.map_cons, hevent]
      congr 1
      apply ih _ hremaining
      rw [hsplit, List.append_assoc]

/-- The entries that `ptp_eos_events` returns are the events of the records. -/
theorem ptpEosEvents_events {r : PtpRuntime} {avail : AvailList} (htail : EosEnd tail)
    (hpayload : r.HasPayload start length (records.flatMap EosRecord.bytes ++ tail))
    {fuel : Nat} {count : Int} {decoded : EosDecoded}
    (hrun : (ptpEosEvents memory names r avail fuel).run r.load = .ok (count, decoded)) :
    decoded.events = records.map fun record => eosEventOf names record.type record.word := by
  obtain ⟨result, hview⟩ := Option.ne_none_iff_exists'.mp
    (ptpEosEvents_stays htail rfl hpayload fuel)
  rw [← Reader.run_of_view hpayload.shows hview, hrun] at hview
  obtain ⟨walk, hwalk, -, -, rfl⟩ := (ptpEosEvents_iff hpayload).mp ⟨fuel, hview⟩
  rw [eosDecoded_events]
  exact walk_events htail hpayload.length_le (List.nil_append _).symm hwalk

end Records

/-- The record of a property that has changed to a value. -/
def EosRecord.Tells (record : EosRecord) (propCode : Nat) (value : Int) : Prop :=
  record.type = ptpEcEosPropValueChanged ∧ record.word 0 = propCode ∧
    record.word 1 = toUInt32 value

/-- Its event has the property's name, and the value that the library has for it. -/
theorem eosEventOf_tells {record : EosRecord} {propCode : Nat} {value : Int}
    (hformat : propCode ≠ ptpDpcEosImageFormat) (htells : record.Tells propCode value)
    (names : EnumNames) :
    (eosEventOf names record.type record.word).name = eosPropName names propCode ∧
      (eosEventOf names record.type record.word).value =
        toInt32 (toUInt32 (eosPropValue propCode (toUInt32 value))) := by
  obtain ⟨htype, rfl, hword⟩ := htells
  rw [eosEventOf, if_pos htype, eosPropWord, if_neg hformat, hword]
  exact ⟨rfl, rfl⟩

theorem validated_mem {avail : AvailList} {code propCode : Nat} {value sent : Int}
    {settings : List (Nat × Int)} (hsettings : validated avail code value = .ok settings)
    (hmem : (propCode, sent) ∈ settings) : propCode = code ∧ sent = value := by
  rw [validated] at hsettings
  cases hvalid : ptpValidatePropertyValue avail code (UInt32.ofNat (toUInt32 value)) with
  | error reason =>
      rw [hvalid] at hsettings
      exact nomatch hsettings
  | ok rc =>
      rw [hvalid] at hsettings
      obtain rfl := Except.ok.inj hsettings
      by_cases htwo : rc = 2
      · rw [if_pos htwo] at hmem
        exact absurd hmem List.not_mem_nil
      · rw [if_neg htwo] at hmem
        exact Prod.mk.inj (List.mem_singleton.mp hmem)

/-- The event of a setting has its name and its value exactly if it is heard. -/
theorem setting_heard_iff {name : String} {value : Int} (hvalue : Fits value)
    (hname : name ∈ ["aperture", "iso", "shutter speed", "white balance"]) {avail : AvailList}
    {settings : List (Nat × Int)} (hsettings : genericSettings avail name value = .ok settings)
    {propCode : Nat} {sent : Int} (hmem : (propCode, sent) ∈ settings) {names : EnumNames}
    (hnames : names ptpDpcEosEvfwbMode = some "PTP_DPC_EOS_EVFWBMode") :
    propCode ≠ ptpDpcEosImageFormat ∧
      (eosPropName names propCode = some name ∧
          toInt32 (toUInt32 (eosPropValue propCode (toUInt32 sent))) = value ↔
        Heard propCode value) := by
  simp only [List.mem_cons, List.not_mem_nil, or_false] at hname
  rcases hname with rfl | rfl | rfl | rfl
  · obtain ⟨rfl, rfl⟩ := validated_mem hsettings hmem
    exact ⟨by decide, (and_iff_right rfl).trans (aperture_heard_iff hvalue)⟩
  · obtain ⟨rfl, rfl⟩ := validated_mem hsettings hmem
    exact ⟨by decide, (and_iff_right rfl).trans (iso_heard_iff hvalue)⟩
  · obtain ⟨rfl, rfl⟩ := validated_mem hsettings hmem
    exact ⟨by decide, (and_iff_right rfl).trans (shutter_heard_iff hvalue)⟩
  · obtain rfl := Except.ok.inj hsettings
    simp only [List.mem_cons, List.not_mem_nil, or_false, Prod.mk.injEq] at hmem
    obtain ⟨rfl, rfl⟩ | ⟨rfl, rfl⟩ := hmem
    · exact ⟨by decide, iff_of_true ⟨rfl, whiteBalance_heard hvalue⟩ rfl⟩
    · have hnot : ¬Heard ptpDpcEosEvfwbMode value := by
        rw [Heard, if_neg (by decide), if_neg (by decide), if_neg (by decide)]
        decide
      refine ⟨by decide, iff_of_false (fun h => ?_) hnot⟩
      have hother : eosPropName names ptpDpcEosEvfwbMode = some "PTP_DPC_EOS_EVFWBMode" := hnames
      rw [hother] at h
      exact absurd (Option.some.inj h.1) (by decide)

/-- An EOS device is sent the settings of a name and a value, and the record of a setting is
reported under the name with the value exactly if the setting is one that is heard. -/
theorem ptpSetGenericProperty_heard_iff {σ : Type} (B : Backend σ) (fuel : Nat) (avail : AvailList)
    {di : Option PtpDeviceInfo} (hdev : ptpDeviceType di = .ok .eos) {name : String}
    (hname : name ∈ ["aperture", "iso", "shutter speed", "white balance"]) {value : Int}
    (hvalue : Fits value) :
    (∀ w : World σ, ptpSetGenericProperty B fuel avail di name value w =
      (do
        let settings ← inspect fun _ => genericSettings avail name value
        sendSettings B fuel 2 settings : M σ Int) w) ∧
    ∀ settings, genericSettings avail name value = .ok settings →
      ∀ propCode sent, (propCode, sent) ∈ settings →
      ∀ (memory : Allocator) (names : EnumNames) (r : PtpRuntime) (available : AvailList)
        (start length : Int) (records : List EosRecord) (tail : List UInt8) (i : Nat)
        (record : EosRecord),
        names ptpDpcEosEvfwbMode = some "PTP_DPC_EOS_EVFWBMode" → EosEnd tail →
        r.HasPayload start length (records.flatMap EosRecord.bytes ++ tail) →
        records[i]? = some record → record.Tells propCode sent →
        ∀ steps count decoded,
          (ptpEosEvents memory names r available steps).run r.load = .ok (count, decoded) →
          ((∃ event, decoded.events[i]? = some event ∧ event.name = some name ∧
              event.value = value) ↔ Heard propCode value) := by
  refine ⟨ptpSetGenericProperty_run hdev hname value, ?_⟩
  intro settings hsettings propCode sent hmem memory names r available start length records tail i
    record hnames htail hpayload hrecord htells steps count decoded hrun
  obtain ⟨hformat, hheard⟩ := setting_heard_iff hvalue hname hsettings hmem hnames
  obtain ⟨hevent, hresult⟩ := eosEventOf_tells hformat htells names
  have hindex : decoded.events[i]? = some (eosEventOf names record.type record.word) := by
    rw [ptpEosEvents_events htail hpayload hrun, List.getElem?_map, hrecord]
    rfl
  rw [hindex, ← hheard, ← hevent, ← hresult]
  simp only [Option.some.injEq, exists_eq_left']

/-! ## An ISO speed -/

/-- A Canon device that supports the first EOS operation. -/
def eosDeviceInfo : PtpDeviceInfo where
  standardVersion := 100
  vendorExtId := 6
  version := 100
  extensions := .replicate _ 0
  functionalMode := 0
  opsSupportedLength := 1
  opsSupported := .replicate _ 0x9101
  eventsSupportedLength := 0
  eventsSupported := .replicate _ 0
  propsSupportedLength := 0
  propsSupported := .replicate _ 0
  captureFormatsLength := 0
  captureFormats := .replicate _ 0
  playbackFormatsLength := 0
  playbackFormats := .replicate _ 0
  manufacturer := .ofFn fun i => canonInc.getD i 0
  model := .replicate _ 0
  deviceVersion := .replicate _ 0
  serialNumber := .replicate _ 0

theorem ptpDeviceType_eosDeviceInfo : ptpDeviceType (some eosDeviceInfo) = .ok .eos := by
  decide +kernel

/-- The record of a changed ISO speed. -/
def isoRecord (raw : UInt8) : EosRecord :=
  ⟨0xC189, [3, 0xD1, 0, 0, raw, 0, 0, 0], by decide, by decide, by simp, le_of_eq rfl⟩

def evfwbNames : EnumNames := fun code =>
  if code = ptpDpcEosEvfwbMode then some "PTP_DPC_EOS_EVFWBMode" else none

/-- What the runtime holds with the record as its payload. -/
def isoReply (raw : UInt8) : PtpRuntime :=
  received (Container.bytes ptpPacketTypeData ⟨0, 0, [isoRecord raw].flatMap EosRecord.bytes ++ []⟩)

/-- `ptp_eos_events` decodes the record to one event, with the ISO speed. -/
def IsoReported (raw : UInt8) (value : Int) : Prop :=
  ∃ steps count decoded,
    (ptpEosEvents zeroedMemory evfwbNames (isoReply raw) .initial steps).run (isoReply raw).load =
      .ok (count, decoded) ∧
    ∃ event, decoded.events[0]? = some event ∧ event.name = some "iso" ∧ event.value = value

theorem isoReply_hasPayload (raw : UInt8) : (isoReply raw).HasPayload 12
    ([isoRecord raw].flatMap EosRecord.bytes ++ []).length
    ([isoRecord raw].flatMap EosRecord.bytes ++ []) :=
  received_hasPayload _ (by simp [EosRecord.bytes_length, isoRecord])

theorem isoRecord_narrow (raw : UInt8) : (isoRecord raw).Narrow := by
  have hword : (isoRecord raw).word 0 = 0xD103 :=
    (field_append 4 0 [3, 0xD1, 0, 0] [raw, 0, 0, 0] (by decide)).trans (by decide)
  intro _
  rw [hword]
  decide

theorem isoRecord_decoded (raw : UInt8) : ∃ steps count decoded,
    (ptpEosEvents zeroedMemory evfwbNames (isoReply raw) .initial steps).run (isoReply raw).load =
      .ok (count, decoded) := by
  have hcarried : EosCarried zeroedMemory AvailList.initial.allocated [isoRecord raw] :=
    ⟨isoRecord_narrow raw, fun h => absurd h (by simp [isoRecord]), fun _ _ => trivial⟩
  have hfaithful : EosFaithful zeroedMemory evfwbNames (isoReply raw) .initial [isoRecord raw] :=
    faithful_of_carried (.inl rfl) (isoReply_hasPayload raw) (.inr rfl) hcarried
  obtain ⟨steps, count, decoded, hrun, -⟩ := hfaithful
  exact ⟨steps, count, decoded, hrun⟩

theorem heard_iso_100 : IsoReported 0x48 100 := by
  obtain ⟨steps, count, decoded, hrun⟩ := isoRecord_decoded 0x48
  obtain ⟨-, hheard⟩ := ptpSetGenericProperty_heard_iff scripted 0 .initial
    ptpDeviceType_eosDeviceInfo (by decide : "iso" ∈ _) (by decide : Fits 100)
  have hreported := hheard [(ptpDpcEosIsoSpeed, 0x48)] rfl _ _ (List.mem_singleton.mpr rfl)
    zeroedMemory evfwbNames (isoReply 0x48) .initial 12 _ [isoRecord 0x48] [] 0 _ rfl (.inl rfl)
    (isoReply_hasPayload 0x48) rfl ⟨rfl, rfl, rfl⟩ steps count decoded hrun
  exact ⟨steps, count, decoded, hrun, hreported.mpr (by decide)⟩

/-- The camera is sent the number of ISO 500 for ISO 640, and reports ISO 500. -/
theorem heard_iso_640 :
    ptpSetGenericProperty scripted 3 .initial (some eosDeviceInfo) "iso" 640
        (scriptedWorld 512 []) =
      ptpEosSetPropValue scripted 3 ptpDpcEosIsoSpeed 0x5b (scriptedWorld 512 []) ∧
    (isoRecord 0x5b).Tells ptpDpcEosIsoSpeed 0x5b ∧ IsoReported 0x5b 500 := by
  refine ⟨?_, ⟨rfl, rfl, rfl⟩, ?_⟩
  · have hsettings : genericSettings .initial "iso" 640 = .ok [(ptpDpcEosIsoSpeed, 0x5b)] := rfl
    rw [ptpSetGenericProperty_run ptpDeviceType_eosDeviceInfo (by decide),
      bind_ok (answer_ok hsettings _)]
    simp only [sendSettings, bind_pure]
  · obtain ⟨steps, count, decoded, hrun⟩ := isoRecord_decoded 0x5b
    obtain ⟨hname, hvalue⟩ := eosEventOf_tells (by decide : ptpDpcEosIsoSpeed ≠ _)
      (⟨rfl, rfl, rfl⟩ : (isoRecord 0x5b).Tells ptpDpcEosIsoSpeed 0x5b) evfwbNames
    refine ⟨steps, count, decoded, hrun, _, ?_, hname, hvalue.trans (by decide)⟩
    rw [ptpEosEvents_events (.inl rfl) (isoReply_hasPayload 0x5b) hrun]
    rfl

end Libpict
