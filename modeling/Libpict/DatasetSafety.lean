import Libpict.PropDescs

/-! # Datasets that end too early

When the four parsers stay in the payload, return, and report a dataset that is cut off.
-/

namespace Libpict

open Bytes CInt

/-- The parser returns, reads only the payload, and returns an error if the payload ends before
the dataset does. -/
def ParsesSafely {α : Type} (r : PtpRuntime) (start : Int) (payload : List UInt8) (complete : Prop)
    (parser : Reader UInt8 Halt (Int × α)) : Prop :=
  ∃ result, parser.run r.load = .ok result ∧
    (∀ request ∈ parser.reads r.load, Reader.Inside start payload.length request) ∧
    (¬complete → result.1 < 0)

/-! ## The memory that a descriptor needs -/

/-- The blocks that `ptp_parse_prop_desc` asks for. -/
def blocksAsked (τ : DataType) (payload : List UInt8) : List Nat :=
  let current := 5 + τ.extent payload 5
  let form := formOffset τ payload
  let values := if field 1 form payload = ptpEnumerationForm then
    [enumerationFormSize +
      (valuesEnd τ payload (field 2 (form + 1) payload) (form + 3) - (form + 3))] else []
  if τ.wide then τ.extent payload 5 :: τ.extent payload current :: values else values

/-- A complete descriptor of a type that the library names. -/
def PropDescComplete (payload : List UInt8) : Prop :=
  ∃ τ : DataType, field 2 2 payload = τ.code ∧ propDescEnd τ payload ≤ payload.length

/-- The form is a range or an enumeration. -/
def FormKnown (τ : DataType) (payload : List UInt8) : Prop :=
  let form := field 1 (formOffset τ payload) payload
  form = ptpRangeForm ∨ form = ptpEnumerationForm

theorem parsedAt_small (memory : Allocator) (allocations : Nat) {τ : DataType}
    (hsmall : τ.wide = false) (payload : List UInt8) (offset : Nat) (u32 : UInt32)
    (data : Option Buffer) : ∃ d, parsedAt memory allocations τ payload offset u32 data = some d ∧
      d.allocations = allocations := by
  cases τ <;> first | exact ⟨_, rfl, rfl⟩ | cases hsmall

theorem parsedAt_wide (memory : Allocator) (allocations : Nat) {τ : DataType}
    (hwide : τ.wide = true) (payload : List UInt8) (offset : Nat) (u32 : UInt32)
    (data : Option Buffer) :
    parsedAt memory allocations τ payload offset u32 data =
      (memory allocations (τ.extent payload offset)).map fun contents =>
        ⟨τ.extent payload offset, u32,
          some ((⟨τ.extent payload offset, contents⟩ : Buffer).store 0 (τ.bytesAt payload offset)),
          allocations + 1⟩ := by
  cases τ <;> first | rfl | cases hwide

/-- A complete descriptor is parsed exactly if its form is known and its blocks are granted. -/
theorem propDescAt_isSome_iff {memory : Allocator} {allocations : Nat} {τ : DataType}
    {payload : List UInt8} {oi : PtpPropDesc} :
    (∃ result, propDescAt memory allocations τ payload oi = some result) ↔
      FormKnown τ payload ∧ memory.GrantsAll allocations (blocksAsked τ payload) := by
  -- Only the enumeration is left once the two values are there.
  have hform : ∀ {default current : ParsedDatum} {n : Nat},
      parsedAt memory allocations τ payload 5 oi.defaultValue32 oi.defaultValue = some default →
      parsedAt memory default.allocations τ payload (5 + τ.extent payload 5) oi.currentValue32
        oi.currentValue = some current → current.allocations = n →
      ((∃ result, propDescAt memory allocations τ payload oi = some result) ↔
        FormKnown τ payload ∧ memory.GrantsAll n
          (if field 1 (formOffset τ payload) payload = ptpEnumerationForm then
            [enumerationFormSize + (valuesEnd τ payload
              (field 2 (formOffset τ payload + 1) payload) (formOffset τ payload + 3) -
                (formOffset τ payload + 3))] else [])) := by
    rintro default current n hdefault hcurrent rfl
    unfold propDescAt FormKnown
    rw [hdefault]
    simp only [Option.bind_eq_bind, Option.bind_some, hcurrent]
    by_cases hrange : field 1 (formOffset τ payload) payload = ptpRangeForm
    · have hother : field 1 (formOffset τ payload) payload ≠ ptpEnumerationForm := by
        rw [hrange]
        decide
      simp [hrange, Allocator.GrantsAll]
    · by_cases henum : field 1 (formOffset τ payload) payload = ptpEnumerationForm
      · simp only [henum, enumFormAt]
        cases hblock : memory current.allocations (enumerationFormSize + (valuesEnd τ payload
            (field 2 (formOffset τ payload + 1) payload) (formOffset τ payload + 3) -
              (formOffset τ payload + 3))) with
        | none => simp [Allocator.GrantsAll, hblock]
        | some contents => simp [Allocator.GrantsAll, hblock]
      · simp [hrange, henum]
  unfold blocksAsked
  dsimp only
  cases hwide : τ.wide with
  | false =>
      obtain ⟨default, hdefault, hn⟩ := parsedAt_small memory allocations hwide payload 5
        oi.defaultValue32 oi.defaultValue
      obtain ⟨current, hcurrent, hn'⟩ := parsedAt_small memory default.allocations hwide
        payload (5 + τ.extent payload 5) oi.currentValue32 oi.currentValue
      rw [hform hdefault hcurrent (hn'.trans hn), if_neg Bool.false_ne_true]
  | true =>
      have hfirst := parsedAt_wide memory allocations hwide payload 5 oi.defaultValue32
        oi.defaultValue
      rw [if_pos rfl, Allocator.GrantsAll, Allocator.GrantsAll]
      cases hblock : memory allocations (τ.extent payload 5) with
      | none =>
          rw [hblock, Option.map_none] at hfirst
          refine iff_of_false ?_ (by simp)
          rintro ⟨result, hresult⟩
          rw [propDescAt, hfirst] at hresult
          cases hresult
      | some contents =>
          rw [hblock, Option.map_some] at hfirst
          have hsecond := parsedAt_wide memory (allocations + 1) hwide payload
            (5 + τ.extent payload 5) oi.currentValue32 oi.currentValue
          cases hblock' : memory (allocations + 1) (τ.extent payload (5 + τ.extent payload 5)) with
          | none =>
              rw [hblock', Option.map_none] at hsecond
              refine iff_of_false ?_ (by simp)
              rintro ⟨result, hresult⟩
              rw [propDescAt, hfirst] at hresult
              simp only [Option.bind_eq_bind, Option.bind_some, hsecond] at hresult
              cases hresult
          | some contents' =>
              rw [hblock', Option.map_some] at hsecond
              rw [hform hfirst hsecond rfl]
              simp

section Safety

variable {r : PtpRuntime} {start length : Int} {payload : List UInt8}
  (hpayload : r.HasPayload start length payload) (memory : Allocator) (allocations : Nat)

theorem parseDataDataOrU32_unknown {type : Nat} (hunknown : ∀ τ : DataType, type ≠ τ.code) (d : Int)
    (u32 : UInt32) (data : Option Buffer) :
    parseDataDataOrU32 memory allocations d type u32 data =
      .stop (.panic "Unknown data type %d\n") := by
  obtain ⟨h1, h2, h3, h4, h5, h6, h7, h8, h9, h10, h11, h12, h13⟩ :=
    DataType.code_ne_of_unknown hunknown
  simp [parseDataDataOrU32, h1, h2, h3, h4, h5, h6, h7, h8, h9, h10, h11, h12, h13]

include hpayload

/-- The parser never returns anything but 0, and only for a type that it knows. -/
theorem ptpParsePropDesc_ok {oi : PtpPropDesc} {rc : Int} {rest : PtpPropDesc × Nat}
    (hview : (ptpParsePropDesc memory allocations r oi).view start payload = some (.ok (rc, rest))) :
    rc = 0 ∧ ∃ τ : DataType, field 2 2 payload = τ.code := by
  rw [ptpParsePropDesc, hpayload.start_eq, Reader.ofExcept, Reader.done_bind] at hview
  obtain ⟨code, _, hview⟩ := Reader.view_bind_eq_ok.mp hview
  obtain ⟨type, htype, hview⟩ := Reader.view_bind_eq_ok.mp hview
  obtain ⟨readOnly, _, hview⟩ := Reader.view_bind_eq_ok.mp hview
  obtain ⟨default, hdefault, hview⟩ := Reader.view_bind_eq_ok.mp hview
  obtain ⟨current, _, hview⟩ := Reader.view_bind_eq_ok.mp hview
  obtain ⟨form, _, hview⟩ := Reader.view_bind_eq_ok.mp hview
  constructor
  · split at hview
    next =>
      obtain ⟨range, _, hview⟩ := Reader.view_bind_eq_ok.mp hview
      exact (Prod.mk.inj (Except.ok.inj (Option.some.inj hview))).1.symm
    next =>
      split at hview
      next =>
        obtain ⟨⟨enum, n⟩, _, hview⟩ := Reader.view_bind_eq_ok.mp hview
        exact (Prod.mk.inj (Except.ok.inj (Option.some.inj hview))).1.symm
      next => cases hview
  · by_contra hunknown
    have hfield : type = field 2 2 payload := by
      rw [show start + 2 = start + (2 : Nat) from rfl, readLe_view] at htype
      split at htype
      next => exact (Except.ok.inj (Option.some.inj htype)).symm
      next => cases htype
    rw [parseDataDataOrU32_unknown _ _ fun τ h => hunknown ⟨τ, hfield ▸ h⟩] at hdefault
    cases hdefault

theorem parsesSafely_iff_returns {α : Type} {complete : Prop}
    {parser : Reader UInt8 Halt (Int × α)} :
    ParsesSafely r start payload complete parser ↔
      parser.Returns start payload fun a => ¬complete → a.1 < 0 :=
  (Reader.returns_iff hpayload.shows).symm

/-- When the parsers are safe. -/
theorem datasets_safe_iff (hroom : Fits r.dataLength) (di : PtpDeviceInfo) (oi : PtpObjectInfo)
    (si : PtpStorageInfo) (pd : PtpPropDesc) :
    (ParsesSafely r start payload (Complete payload deviceInfoFields) (ptpParseDeviceInfo r di) ↔
      Complete payload deviceInfoFields ∧
        CursorInside r.dataLength payload deviceInfoFields 0) ∧
    (ParsesSafely r start payload (Complete payload objectInfoFields) (ptpParseObjectInfo r oi) ↔
      Complete payload objectInfoFields ∧
        CursorInside r.dataLength payload objectInfoFields 0) ∧
    (ParsesSafely r start payload (Complete payload storageInfoFields) (ptpParseStorageInfo r si) ↔
      payload.length < 26 ∨ Complete payload storageInfoFields ∧
        CursorInside r.dataLength payload storageInfoFields 0) ∧
    (ParsesSafely r start payload (PropDescComplete payload)
        (ptpParsePropDesc memory allocations r pd) ↔
      ∃ τ : DataType, field 2 2 payload = τ.code ∧ propDescEnd τ payload ≤ payload.length ∧
        FormKnown τ payload ∧ memory.GrantsAll allocations (blocksAsked τ payload)) := by
  have hcomplete : ∀ {complete : Prop}, (¬complete → (0 : Int) < 0) ↔ complete := by
    intro complete
    constructor
    · intro h
      by_contra hcut
      exact absurd (h hcut) (lt_irrefl 0)
    · exact fun h hcut => absurd h hcut
  have hnegative : PtpGeneralError.runtimeErr < 0 := by decide
  simp only [parsesSafely_iff_returns hpayload]
  refine ⟨?_, ?_, ?_, ?_⟩
  · rw [ptpParseDeviceInfo_returns _ hpayload.start_eq hroom di fun a => ¬_ → a.1 < 0, hcomplete,
      and_comm]
  · rw [ptpParseObjectInfo_returns hpayload oi fun a => ¬_ → a.1 < 0, hcomplete, and_comm]
  · rw [ptpParseStorageInfo_returns hpayload si fun a => ¬_ → a.1 < 0, hcomplete]
    constructor
    · rintro (⟨hshort, _⟩ | ⟨_, hcursor, hwhole⟩)
      · exact .inl hshort
      · exact .inr ⟨hwhole, hcursor⟩
    · rintro (hshort | ⟨hwhole, hcursor⟩)
      · exact .inl ⟨hshort, fun _ => hnegative⟩
      · by_cases hshort : payload.length < 26
        · exact .inl ⟨hshort, fun _ => hnegative⟩
        · exact .inr ⟨Nat.le_of_not_lt hshort, hcursor, hwhole⟩
  · constructor
    · rintro ⟨⟨rc, pd', n⟩, hview, hsafe⟩
      obtain ⟨rfl, _⟩ := ptpParsePropDesc_ok hpayload _ _ hview
      obtain ⟨τ, htype, hwhole⟩ := hcomplete.mp hsafe
      obtain ⟨result, hview', hresult⟩ := ptpParsePropDesc_view hpayload memory allocations pd
        htype hwhole
      rw [hview] at hview'
      have hparsed := (hresult 0 pd' n).mp (Option.some.inj hview').symm
      exact ⟨τ, htype, hwhole, propDescAt_isSome_iff.mp ⟨_, hparsed.2⟩⟩
    · rintro ⟨τ, htype, hwhole, hready⟩
      obtain ⟨⟨pd', n⟩, hparsed⟩ := propDescAt_isSome_iff.mpr hready
      obtain ⟨result, hview, hresult⟩ := ptpParsePropDesc_view hpayload memory allocations pd
        htype hwhole
      rw [(hresult 0 pd' n).mpr ⟨rfl, hparsed⟩] at hview
      exact ⟨_, hview, fun hcut => absurd ⟨τ, htype, hwhole⟩ hcut⟩

end Safety

/-- A reply with a payload, in the runtime's buffer. -/
def replied (payload : List UInt8) : PtpRuntime :=
  received (Container.bytes ptpPacketTypeData ⟨0, 0, payload⟩)

def blankObjectInfo : PtpObjectInfo :=
  ⟨0, 0, 0, 0, 0, 0, 0, 0, 0, 0, 0, 0, 0, 0, 0, .replicate _ 0, .replicate _ 0, .replicate _ 0,
    .replicate _ 0⟩

def blankDeviceInfo : PtpDeviceInfo :=
  ⟨0, 0, 0, .replicate _ 0, 0, 0, .replicate _ 0, 0, .replicate _ 0, 0, .replicate _ 0, 0,
    .replicate _ 0, 0, .replicate _ 0, .replicate _ 0, .replicate _ 0, .replicate _ 0,
    .replicate _ 0⟩

def blankStorageInfo : PtpStorageInfo := ⟨0, 0, 0, 0, 0, 0, .replicate _ 0, .replicate _ 0⟩

def blankPropDesc : PtpPropDesc := ⟨0, 0, 0, 0, 0, none, none, 0, ⟨0, 0, 0⟩, none⟩

/-- The f-number, with a range. -/
def apertureDesc : List UInt8 :=
  [0x07, 0x50, 0x04, 0x00, 0x01, 0x18, 0x01, 0x18, 0x01, 0x01, 0x18, 0x01, 0x40, 0x06, 0x01, 0x00]

/-- A whole descriptor is parsed safely, and is too short to pass for storage info. -/
theorem datasets_safe_descriptor :
    ParsesSafely (replied apertureDesc) 12 apertureDesc (Complete apertureDesc storageInfoFields)
        (ptpParseStorageInfo (replied apertureDesc) blankStorageInfo) ∧
      ParsesSafely (replied apertureDesc) 12 apertureDesc (PropDescComplete apertureDesc)
        (ptpParsePropDesc zeroedMemory 0 (replied apertureDesc) blankPropDesc) := by
  have hsafe := datasets_safe_iff (received_hasPayload apertureDesc (by decide)) zeroedMemory 0
    (by decide : Fits (replied apertureDesc).dataLength) blankDeviceInfo blankObjectInfo
    blankStorageInfo blankPropDesc
  refine ⟨hsafe.2.2.1.mpr (.inl (by decide)), hsafe.2.2.2.mpr ⟨.uint16, by decide, by decide, ?_, ?_⟩⟩
  · exact .inl (by decide)
  · have hnone : blocksAsked .uint16 apertureDesc = [] := by decide
    rw [hnone]
    trivial

/-- Object info that ends in front of its strings: the parser reads on behind the payload. -/
theorem datasets_safe_truncated :
    ¬ParsesSafely (replied (List.replicate 52 0)) 12 (List.replicate 52 0)
      (Complete (List.replicate 52 0) objectInfoFields)
      (ptpParseObjectInfo (replied (List.replicate 52 0)) blankObjectInfo) := by
  have hpayload : (replied (List.replicate 52 0)).HasPayload 12 (List.replicate 52 0 : List UInt8).length
      (List.replicate 52 0) := received_hasPayload _ (by decide)
  rw [parsesSafely_iff_returns hpayload, ptpParseObjectInfo_returns hpayload blankObjectInfo
    fun a => ¬_ → a.1 < 0]
  exact fun h => absurd h.1 (by decide)

end Libpict
