import Libpict.DatasetItems

/-! # Device info

A standard device info dataset is decoded field by field, and tells afterwards which
operations and properties the device supports.
-/

namespace Libpict

open Bytes CInt

/-- The contents of a device info dataset. -/
structure DeviceInfoDataset where
  standardVersion : UInt16
  vendorExtId : UInt32
  version : UInt16
  extensions : List UInt8
  functionalMode : UInt16
  opsSupported : List UInt16
  eventsSupported : List UInt16
  propsSupported : List UInt16
  captureFormats : List UInt16
  playbackFormats : List UInt16
  manufacturer : List UInt8
  model : List UInt8
  deviceVersion : List UInt8
  serialNumber : List UInt8

namespace DeviceInfoDataset

def items (d : DeviceInfoDataset) : List Item :=
  [.number 2 d.standardVersion.toNat, .number 4 d.vendorExtId.toNat, .number 2 d.version.toNat,
    .text d.extensions, .number 2 d.functionalMode.toNat, .codes d.opsSupported,
    .codes d.eventsSupported, .codes d.propsSupported, .codes d.captureFormats,
    .codes d.playbackFormats, .text d.manufacturer, .text d.model, .text d.deviceVersion,
    .text d.serialNumber]

/-- The dataset as the device sends it. -/
def bytes (d : DeviceInfoDataset) : List UInt8 := d.items.flatMap Item.bytes

/-- A string that is empty or, with its terminator, leaves a slot of the array over. -/
def TextFits (chars : List UInt8) (max : Nat) : Prop :=
  (∀ char ∈ chars, 32 ≤ char ∧ char ≤ 126) ∧ (chars = [] ∨ chars.length + 1 ≤ max - 1)

/-- The strings and arrays fit. -/
structure WellFormed (d : DeviceInfoDataset) : Prop where
  extensions : TextFits d.extensions 128
  opsSupported : d.opsSupported.length ≤ 256
  eventsSupported : d.eventsSupported.length ≤ 256
  propsSupported : d.propsSupported.length ≤ 512
  captureFormats : d.captureFormats.length ≤ 32
  playbackFormats : d.playbackFormats.length ≤ 32
  manufacturer : TextFits d.manufacturer 128
  model : TextFits d.model 128
  deviceVersion : TextFits d.deviceVersion 64
  serialNumber : TextFits d.serialNumber 128

/-- The array begins with the entries, and its length is theirs. -/
def HoldsCodes {n : Nat} (codes : Vector UInt16 n) (length : Int) (entries : List UInt16) : Prop :=
  length = entries.length ∧ entries <+: codes.toList

/-- The structure says what the dataset says. -/
structure DecodedAs (d : DeviceInfoDataset) (di : PtpDeviceInfo) : Prop where
  standardVersion : di.standardVersion = d.standardVersion
  vendorExtId : di.vendorExtId = d.vendorExtId
  version : di.version = d.version
  extensions : Slots.Holds di.extensions d.extensions
  functionalMode : di.functionalMode = d.functionalMode
  opsSupported : HoldsCodes di.opsSupported di.opsSupportedLength d.opsSupported
  eventsSupported : HoldsCodes di.eventsSupported di.eventsSupportedLength d.eventsSupported
  propsSupported : HoldsCodes di.propsSupported di.propsSupportedLength d.propsSupported
  captureFormats : HoldsCodes di.captureFormats di.captureFormatsLength d.captureFormats
  playbackFormats : HoldsCodes di.playbackFormats di.playbackFormatsLength d.playbackFormats
  manufacturer : Slots.Holds di.manufacturer d.manufacturer
  model : Slots.Holds di.model d.model
  deviceVersion : Slots.Holds di.deviceVersion d.deviceVersion
  serialNumber : Slots.Holds di.serialNumber d.serialNumber

variable {d : DeviceInfoDataset}

theorem TextFits.item {chars : List UInt8} {max : Nat} (hfits : TextFits chars max)
    (htwo : 2 ≤ max) (hmax : max ≤ 256) : (Item.text chars).Fits (.text max) :=
  ⟨hfits.1, hfits.2.imp_right fun hroom => by omega, htwo, hmax⟩

theorem WellFormed.items (hd : d.WellFormed) :
    List.Forall₂ Item.Fits d.items deviceInfoFields := by
  refine .cons ⟨rfl, d.standardVersion.toNat_lt⟩ (.cons ⟨rfl, d.vendorExtId.toNat_lt⟩
    (.cons ⟨rfl, d.version.toNat_lt⟩ (.cons ?_ (.cons ⟨rfl, d.functionalMode.toNat_lt⟩
    (.cons ?_ (.cons ?_ (.cons ?_ (.cons ?_ (.cons ?_ (.cons ?_ (.cons ?_ (.cons ?_ (.cons ?_
    .nil)))))))))))))
  · exact hd.extensions.item (by decide) (by decide)
  · exact ⟨hd.opsSupported, by decide⟩
  · exact ⟨hd.eventsSupported, by decide⟩
  · exact ⟨hd.propsSupported, by decide⟩
  · exact ⟨hd.captureFormats, by decide⟩
  · exact ⟨hd.playbackFormats, by decide⟩
  · exact hd.manufacturer.item (by decide) (by decide)
  · exact hd.model.item (by decide) (by decide)
  · exact hd.deviceVersion.item (by decide) (by decide)
  · exact hd.serialNumber.item (by decide) (by decide)

section Decode

variable (hd : d.WellFormed)

include hd

theorem number_at (index : Nat) {size value : Nat}
    (hitem : d.items[index]? = some (.number size value))
    (hfield : deviceInfoFields[index]? = some (.number size)) :
    field size (cursorAt d.bytes deviceInfoFields index) d.bytes = value := by
  obtain ⟨hfits, rest, hdrop⟩ := item_at hd.items (List.append_nil _).symm index hitem hfield
  exact field_of_drop hdrop hfits.2

theorem text_at (index : Nat) {chars : List UInt8} {n : Nat}
    (hitem : d.items[index]? = some (.text chars))
    (hfield : deviceInfoFields[index]? = some (.text n)) (string : Vector UInt8 n) :
    Slots.Holds (textAt string d.bytes (cursorAt d.bytes deviceInfoFields index)) chars := by
  obtain ⟨hfits, rest, hdrop⟩ := item_at hd.items (List.append_nil _).symm index hitem hfield
  exact textAt_holds hdrop hfits string

theorem codes_at (index : Nat) {entries : List UInt16} {n : Nat}
    (hitem : d.items[index]? = some (.codes entries))
    (hfield : deviceInfoFields[index]? = some (.codes n)) (buf : Vector UInt16 n) :
    HoldsCodes (codesAt buf d.bytes (cursorAt d.bytes deviceInfoFields index))
      (toInt32 (field 4 (cursorAt d.bytes deviceInfoFields index) d.bytes)) entries := by
  obtain ⟨hfits, rest, hdrop⟩ := item_at hd.items (List.append_nil _).symm index hitem hfield
  exact ⟨count_of_drop hdrop hfits, _, (codesAt_toList hdrop hfits buf).symm⟩

theorem deviceInfoAt_decodedAs (di : PtpDeviceInfo) : d.DecodedAs (deviceInfoAt di d.bytes) where
  standardVersion := by
    rw [deviceInfoAt, number_at hd 0 rfl rfl, UInt16.ofNat_toNat]
  vendorExtId := by
    rw [deviceInfoAt, number_at hd 1 rfl rfl, UInt32.ofNat_toNat]
  version := by
    rw [deviceInfoAt, number_at hd 2 rfl rfl, UInt16.ofNat_toNat]
  extensions := text_at hd 3 rfl rfl di.extensions
  functionalMode := by
    rw [deviceInfoAt, number_at hd 4 rfl rfl, UInt16.ofNat_toNat]
  opsSupported := codes_at hd 5 rfl rfl di.opsSupported
  eventsSupported := codes_at hd 6 rfl rfl di.eventsSupported
  propsSupported := codes_at hd 7 rfl rfl di.propsSupported
  captureFormats := codes_at hd 8 rfl rfl di.captureFormats
  playbackFormats := codes_at hd 9 rfl rfl di.playbackFormats
  manufacturer := text_at hd 10 rfl rfl di.manufacturer
  model := text_at hd 11 rfl rfl di.model
  deviceVersion := text_at hd 12 rfl rfl di.deviceVersion
  serialNumber := text_at hd 13 rfl rfl di.serialNumber

end Decode

/-- The loop finds a code exactly if it is one of the entries. -/
theorem checkCodes_eq {n : Nat} {codes : Vector UInt16 n} {entries : List UInt16}
    (hfront : entries <+: codes.toList) (code : Int) {left i : Nat}
    (hcount : i + left = entries.length) :
    checkCodes codes code left i =
      .ok (if ∃ entry ∈ entries.drop i, (entry.toNat : Int) = code then 1 else 0) := by
  induction left generalizing i with
  | zero =>
      have hnone : entries.drop i = [] := List.drop_eq_nil_of_le (by omega)
      simp [checkCodes, hnone]
  | succ left ih =>
      have hi : i < entries.length := by omega
      have hn : i < n := by
        have hle := hfront.length_le
        rw [Vector.length_toList] at hle
        omega
      have hentry : codes[i] = entries[i] := by
        rw [← Vector.getElem_toList]
        exact (hfront.getElem hi).symm
      have hcons : (∃ entry ∈ entries.drop i, (entry.toNat : Int) = code) ↔
          (entries[i].toNat : Int) = code ∨ ∃ entry ∈ entries.drop (i + 1),
            (entry.toNat : Int) = code := by
        rw [List.drop_eq_getElem_cons hi, List.exists_mem_cons_iff]
      rw [checkCodes, dif_pos hn, hentry, ih (by omega)]
      simp only [hcons]
      by_cases hfound : (entries[i].toNat : Int) = code
      · simp [hfound]
      · simp [hfound]

theorem HoldsCodes.check {n : Nat} {codes : Vector UInt16 n} {length : Int} {entries : List UInt16}
    (hholds : HoldsCodes codes length entries) (code : Int) :
    checkCodes codes code length.toNat 0 = .ok 1 ↔ ∃ entry ∈ entries, (entry.toNat : Int) = code := by
  obtain ⟨rfl, hfront⟩ := hholds
  rw [checkCodes_eq hfront code (by simp), List.drop_zero]
  split
  next hfound => exact iff_of_true rfl hfound
  next hmissing => exact iff_of_false (fun h => absurd (Except.ok.inj h) (by decide)) hmissing

/-- A well-formed dataset is decoded exactly, and `r->di` answers for it. -/
theorem decoded (hd : d.WellFormed) {r : PtpRuntime} {start length : Int}
    (hpayload : r.HasPayload start length d.bytes) (hfits : Fits r.dataLength)
    (hroom : ptpDefaultSize ≤ r.dataLength) (di : PtpDeviceInfo) :
    ∃ di', (ptpParseDeviceInfo r di).run r.load = .ok (0, di', some di') ∧ d.DecodedAs di' ∧
      (∀ op, ptpCheckOpcode (some di') op = .ok 1 ↔
        ∃ code ∈ d.opsSupported, (code.toNat : Int) = op) ∧
      (∀ prop, ptpCheckProp (some di') prop = .ok 1 ↔
        ∃ code ∈ d.propsSupported, (code.toNat : Int) = prop) := by
  have hlength : d.bytes.length ≤ 3400 := (items_length_le hd.items).trans (by decide)
  have hinside : CursorInside r.dataLength d.bytes deviceInfoFields 0 := by
    unfold ptpDefaultSize at hroom
    exact cursorInside_of_items hd.items rfl (Nat.zero_le _) (by omega)
  have hreturns := (ptpParseDeviceInfo_returns _ hpayload.start_eq hfits di
    (· = (0, deviceInfoAt di d.bytes, some (deviceInfoAt di d.bytes)))).mpr ⟨hinside, rfl⟩
  obtain ⟨result, hrun, _, rfl⟩ := (Reader.returns_iff hpayload.shows).mp hreturns
  have hdecoded := deviceInfoAt_decodedAs hd di
  exact ⟨_, hrun, hdecoded, hdecoded.opsSupported.check, hdecoded.propsSupported.check⟩

/-- A small camera. -/
def sample : DeviceInfoDataset :=
  ⟨100, 6, 100, [], 0, [0x1001, 0x1002, 0x1003], [0x4002], [0x5001], [0x3801], [0x3801],
    [0x41, 0x63, 0x6d, 0x65], [0x58, 0x31], [0x31, 0x2e, 0x30], []⟩

theorem decoded_sample : ∃ di',
    (ptpParseDeviceInfo (received (Container.bytes ptpPacketTypeData ⟨0, 0, sample.bytes⟩))
        ⟨0, 0, 0, .replicate _ 1, 0, 0, .replicate _ 1, 0, .replicate _ 1, 0, .replicate _ 1, 0,
          .replicate _ 1, 0, .replicate _ 1, .replicate _ 1, .replicate _ 1, .replicate _ 1,
          .replicate _ 1⟩).run
      (received (Container.bytes ptpPacketTypeData ⟨0, 0, sample.bytes⟩)).load =
        .ok (0, di', some di') ∧
    sample.DecodedAs di' ∧ ptpCheckOpcode (some di') 0x1002 = .ok 1 := by
  have hsample : sample.WellFormed := by
    constructor <;> first | decide +kernel | exact ⟨by decide +kernel, by decide +kernel⟩
  obtain ⟨di', hrun, hdecoded, hopcode, _⟩ := decoded hsample
    (received_hasPayload sample.bytes (by decide))
    (by decide : Fits (received (Container.bytes ptpPacketTypeData
      ⟨0, 0, sample.bytes⟩)).dataLength) (by decide) _
  exact ⟨di', hrun, hdecoded, (hopcode 0x1002).mpr (by decide)⟩

end DeviceInfoDataset

end Libpict
