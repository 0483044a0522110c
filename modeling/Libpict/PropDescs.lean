import Libpict.DatasetBounds
import Libpict.EosWalk

/-! # Property descriptors

The values of a property descriptor are data of the type that the descriptor itself names.
Where such a datum lies in the payload, the three functions that skip or copy one agree on
its size.
-/

namespace Libpict

open Bytes CInt

/-- The data types that the library names. -/
inductive DataType
  | int8
  | uint8
  | int16
  | uint16
  | int32
  | uint32
  | int64
  | uint64
  | uint8Array
  | uint16Array
  | uint32Array
  | uint64Array
  | string
  deriving DecidableEq

namespace DataType

def code : DataType → Nat
  | int8 => ptpTcInt8
  | uint8 => ptpTcUint8
  | int16 => ptpTcInt16
  | uint16 => ptpTcUint16
  | int32 => ptpTcInt32
  | uint32 => ptpTcUint32
  | int64 => ptpTcInt64
  | uint64 => ptpTcUint64
  | uint8Array => ptpTcUint8Array
  | uint16Array => ptpTcUint16Array
  | uint32Array => ptpTcUint32Array
  | uint64Array => ptpTcUint64Array
  | string => ptpTcString

/-- The size of a datum at an offset. -/
def extent (payload : List UInt8) (offset : Nat) : DataType → Nat
  | int8 | uint8 => 1
  | int16 | uint16 => 2
  | int32 | uint32 => 4
  | int64 | uint64 => 8
  | uint8Array => 4 + field 4 offset payload * 1
  | uint16Array => 4 + field 4 offset payload * 2
  | uint32Array => 4 + field 4 offset payload * 4
  | uint64Array => 4 + field 4 offset payload * 8
  | string => 1 + field 1 offset payload * 2

/-- What `ptp_parse_data_u32` makes of a datum of up to four bytes. -/
def number (payload : List UInt8) (offset : Nat) : DataType → Option Int
  | int8 | uint8 => some (field 1 offset payload)
  | int16 => some (toInt16 (field 2 offset payload))
  | uint16 => some (field 2 offset payload)
  | int32 | uint32 => some (toInt32 (field 4 offset payload))
  | _ => none

/-- Some code names no type. -/
theorem code_ne_of_unknown {type : Nat} (hunknown : ∀ τ : DataType, type ≠ τ.code) :
    type ≠ ptpTcInt8 ∧ type ≠ ptpTcUint8 ∧ type ≠ ptpTcInt16 ∧ type ≠ ptpTcUint16 ∧
      type ≠ ptpTcInt32 ∧ type ≠ ptpTcUint32 ∧ type ≠ ptpTcInt64 ∧ type ≠ ptpTcUint64 ∧
      type ≠ ptpTcUint8Array ∧ type ≠ ptpTcUint16Array ∧ type ≠ ptpTcUint32Array ∧
      type ≠ ptpTcUint64Array ∧ type ≠ ptpTcString :=
  ⟨hunknown int8, hunknown uint8, hunknown int16, hunknown uint16, hunknown int32,
    hunknown uint32, hunknown int64, hunknown uint64, hunknown uint8Array, hunknown uint16Array,
    hunknown uint32Array, hunknown uint64Array, hunknown string⟩

end DataType

section Views

variable {start : Int} {payload : List UInt8} {p : Nat} {position : Int}
  (hat : position = start + p)

include hat

theorem readLe_view_at {size : Nat} (hle : p + size ≤ payload.length) :
    (readLe size position).view start payload = some (.ok (field size p payload)) := by
  rw [hat, readLe_view, if_pos hle]

theorem readArraySize_view {size : Nat} (hint : (payload.length : Int) ≤ intMax)
    (hsize : 1 ≤ size) (hle : p + (4 + field 4 p payload * size) ≤ payload.length) :
    (readArraySize position size).view start payload =
      some (.ok ((4 + field 4 p payload * size : Nat) : Int)) := by
  unfold intMax at hint
  have hcount : field 4 p payload ≤ field 4 p payload * size := Nat.le_mul_of_pos_right _ hsize
  have hint32 : toInt32 (field 4 p payload) = field 4 p payload :=
    toInt32_of_fits ⟨by omega, by omega⟩
  have hmul : (field 4 p payload : Int) * size = ((field 4 p payload * size : Nat) : Int) := by
    push_cast
    rfl
  have hfits : Fits (toInt32 (field 4 p payload) * size) ∧
      Fits (4 + toInt32 (field 4 p payload) * size) := by
    rw [hint32, hmul]
    exact ⟨⟨by omega, by omega⟩, ⟨by omega, by omega⟩⟩
  rw [readArraySize, Reader.view_bind_ok (readLe_view_at hat (by omega)), if_pos hfits, hint32, hmul]
  rfl

theorem readStringSize_view (hle : p + 1 ≤ payload.length) :
    (readStringSize position).view start payload =
      some (.ok ((1 + field 1 p payload * 2 : Nat) : Int)) := by
  rw [readStringSize, Reader.view_bind_ok (readLe_view_at hat hle)]
  push_cast
  rfl

variable (hint : (payload.length : Int) ≤ intMax)

include hint

theorem ptpGetPropSize_view (τ : DataType) (hle : p + τ.extent payload p ≤ payload.length) :
    (ptpGetPropSize position τ.code).view start payload =
      some (.ok ((τ.extent payload p : Nat) : Int)) := by
  cases τ with
  | int8 => rfl
  | uint8 => rfl
  | int16 => rfl
  | uint16 => rfl
  | int32 => rfl
  | uint32 => rfl
  | int64 => rfl
  | uint64 => rfl
  | uint8Array => exact readArraySize_view hat hint (by decide) hle
  | uint16Array => exact readArraySize_view hat hint (by decide) hle
  | uint32Array => exact readArraySize_view hat hint (by decide) hle
  | uint64Array => exact readArraySize_view hat hint (by decide) hle
  | string =>
      have hfirst : p + 1 ≤ p + DataType.string.extent payload p :=
        Nat.add_le_add_left (Nat.le_add_right _ _) _
      exact readStringSize_view hat (hfirst.trans hle)

/-- A datum of up to four bytes is read, any other one is skipped. -/
theorem ptpParseDataU32_view (τ : DataType) (out : Int)
    (hle : p + τ.extent payload p ≤ payload.length) :
    (ptpParseDataU32 position τ.code out).view start payload =
      some (.ok (((τ.extent payload p : Nat) : Int), (τ.number payload p).getD out)) := by
  have hskip : ptpParseDataU32 position τ.code out =
        (ptpGetPropSize position τ.code >>= fun size => return (size, out)) →
      τ.number payload p = none →
      (ptpParseDataU32 position τ.code out).view start payload =
        some (.ok (((τ.extent payload p : Nat) : Int), (τ.number payload p).getD out)) := by
    intro hparse hnumber
    rw [hparse, Reader.view_bind_ok (ptpGetPropSize_view hat hint τ hle), hnumber]
    rfl
  have hread : ∀ {size : Nat} {k : Nat → Reader UInt8 Halt (Int × Int)} {result : Int × Int},
      p + size ≤ payload.length → k (field size p payload) = .done result →
      (readLe size position >>= k).view start payload = some (.ok result) := by
    intro size k result hle hk
    rw [Reader.view_bind_ok (readLe_view_at hat hle), hk]
    rfl
  cases τ with
  | int8 => exact hread hle rfl
  | uint8 => exact hread hle rfl
  | int16 => exact hread hle rfl
  | uint16 => exact hread hle rfl
  | int32 =>
      rw [DataType.number, Option.getD_some]
      exact hread hle rfl
  | uint32 =>
      rw [DataType.number, Option.getD_some]
      exact hread hle rfl
  | int64 => exact hskip rfl rfl
  | uint64 => exact hskip rfl rfl
  | uint8Array => exact hskip rfl rfl
  | uint16Array => exact hskip rfl rfl
  | uint32Array => exact hskip rfl rfl
  | uint64Array => exact hskip rfl rfl
  | string => exact hskip rfl rfl

end Views

/-! ## Values that are kept -/

/-- `struct PtpPropDesc` keeps the datum in a block of its own. -/
def DataType.wide : DataType → Bool
  | int8 | uint8 | int16 | uint16 | int32 | uint32 => false
  | _ => true

/-- The bytes of a datum. -/
def DataType.bytesAt (τ : DataType) (payload : List UInt8) (offset : Nat) : List UInt8 :=
  (payload.drop offset).take (τ.extent payload offset)

/-- What `parse_data_data_or_u32` makes of a datum, if the allocator has a block for it. -/
def parsedAt (memory : Allocator) (allocations : Nat) (τ : DataType) (payload : List UInt8)
    (offset : Nat) (u32 : UInt32) (data : Option Buffer) : Option ParsedDatum :=
  match τ.number payload offset with
  | some value => some ⟨τ.extent payload offset, UInt32.ofNat (toUInt32 value), data, allocations⟩
  | none => (memory allocations (τ.extent payload offset)).map fun contents =>
      ⟨τ.extent payload offset, u32,
        some ((⟨τ.extent payload offset, contents⟩ : Buffer).store 0 (τ.bytesAt payload offset)),
        allocations + 1⟩

theorem size_of_parsedAt {memory : Allocator} {allocations : Nat} {τ : DataType}
    {payload : List UInt8} {offset : Nat} {u32 : UInt32} {data : Option Buffer} {d : ParsedDatum}
    (hparsed : parsedAt memory allocations τ payload offset u32 data = some d) :
    d.size = τ.extent payload offset := by
  unfold parsedAt at hparsed
  split at hparsed
  next =>
    cases hparsed
    rfl
  next =>
    obtain ⟨contents, _, rfl⟩ := Option.map_eq_some_iff.mp hparsed
    rfl

section Kept

variable {start : Int} {payload : List UInt8} {p : Nat} {position : Int} {memory : Allocator}
  (hat : position = start + p) (hint : (payload.length : Int) ≤ intMax)

theorem toSize_of_le {size : Nat} (hle : (size : Int) ≤ intMax) : toSize size = size := by
  unfold intMax at hle
  have hsize := toSize_of_nonneg (Int.natCast_nonneg size) (by omega)
  exact_mod_cast hsize

include hat hint

theorem copyDatum_view {allocations size : Nat} (hle : p + size ≤ payload.length) :
    (copyDatum memory allocations position size).view start payload =
      some (match memory allocations size with
        | none => .error .undefined
        | some contents => .ok ((⟨size, contents⟩ : Buffer).store 0 ((payload.drop p).take size),
            allocations + 1)) := by
  have hsize : toSize size = size := toSize_of_le (by omega)
  rw [copyDatum, hsize, hat, copyTo, Reader.bind_assoc, Reader.view_bind_ok (Reader.view_read hle),
    Allocator.malloc]
  cases memory allocations size with
  | none => rfl
  | some contents =>
      simp only [Option.map_some, le_refl, if_true]
      rfl

theorem parseDataDataOrU32_view (τ : DataType) {allocations : Nat} {u32 : UInt32}
    {data : Option Buffer} (hle : p + τ.extent payload p ≤ payload.length) :
    (parseDataDataOrU32 memory allocations position τ.code u32 data).view start payload =
      some (match parsedAt memory allocations τ payload p u32 data with
        | none => .error .undefined
        | some d => .ok d) := by
  have hsmall : ∀ {value : Int}, τ.number payload p = some value →
      parseDataDataOrU32 memory allocations position τ.code u32 data =
        (ptpParseDataU32 position τ.code (toInt32 u32.toNat) >>= fun found =>
          return ⟨found.1, UInt32.ofNat (toUInt32 found.2), data, allocations⟩) →
      (parseDataDataOrU32 memory allocations position τ.code u32 data).view start payload =
        some (match parsedAt memory allocations τ payload p u32 data with
          | none => .error .undefined
          | some d => .ok d) := by
    intro value hnumber hparse
    rw [hparse, Reader.view_bind_ok (ptpParseDataU32_view hat hint τ _ hle), parsedAt, hnumber]
    rfl
  have hwide : ∀ {x : Reader UInt8 Halt Int}, τ.number payload p = none →
      x.view start payload = some (.ok ((τ.extent payload p : Nat) : Int)) →
      parseDataDataOrU32 memory allocations position τ.code u32 data =
        (x >>= fun size => copyDatum memory allocations position size >>= fun copied =>
          return ⟨size, u32, some copied.1, copied.2⟩) →
      (parseDataDataOrU32 memory allocations position τ.code u32 data).view start payload =
        some (match parsedAt memory allocations τ payload p u32 data with
          | none => .error .undefined
          | some d => .ok d) := by
    intro x hnumber hsize hparse
    rw [hparse, Reader.view_bind_ok hsize, Reader.view_bind, copyDatum_view hat hint hle, parsedAt,
      hnumber]
    dsimp only
    rw [DataType.bytesAt]
    cases memory allocations (τ.extent payload p) with
    | none => rfl
    | some contents => rfl
  have harray : ∀ {size : Nat}, getArrItemSize τ.code = .done size →
      parseDataDataOrU32 memory allocations position τ.code u32 data =
        (getArrItemSize τ.code >>= fun itemSize => readArraySize position itemSize >>= fun size =>
          copyDatum memory allocations position size >>= fun copied =>
            return ⟨size, u32, some copied.1, copied.2⟩) →
      parseDataDataOrU32 memory allocations position τ.code u32 data =
        (readArraySize position size >>= fun size =>
          copyDatum memory allocations position size >>= fun copied =>
            return ⟨size, u32, some copied.1, copied.2⟩) := by
    intro size hitem hparse
    rw [hparse, hitem, Reader.done_bind]
  cases τ with
  | int8 => exact hsmall rfl rfl
  | uint8 => exact hsmall rfl rfl
  | int16 => exact hsmall rfl rfl
  | uint16 => exact hsmall rfl rfl
  | int32 => exact hsmall rfl rfl
  | uint32 => exact hsmall rfl rfl
  | int64 => exact hwide (x := .done 8) rfl rfl rfl
  | uint64 => exact hwide (x := .done 8) rfl rfl rfl
  | uint8Array =>
      exact hwide rfl (readArraySize_view hat hint (by decide) hle) (harray rfl rfl)
  | uint16Array =>
      exact hwide rfl (readArraySize_view hat hint (by decide) hle) (harray rfl rfl)
  | uint32Array =>
      exact hwide rfl (readArraySize_view hat hint (by decide) hle) (harray rfl rfl)
  | uint64Array =>
      exact hwide rfl (readArraySize_view hat hint (by decide) hle) (harray rfl rfl)
  | string =>
      have hfirst : p + 1 ≤ p + DataType.string.extent payload p :=
        Nat.add_le_add_left (Nat.le_add_right _ _) _
      exact hwide rfl (readStringSize_view hat (hfirst.trans hle)) rfl

end Kept

/-- Where some values end. -/
def valuesEnd (τ : DataType) (payload : List UInt8) : (count offset : Nat) → Nat
  | 0, offset => offset
  | count + 1, offset => valuesEnd τ payload count (offset + τ.extent payload offset)

theorem le_valuesEnd (τ : DataType) (payload : List UInt8) (count offset : Nat) :
    offset ≤ valuesEnd τ payload count offset := by
  induction count generalizing offset with
  | zero => exact le_rfl
  | succ count ih => exact (Nat.le_add_right _ _).trans (ih _)

section Forms

variable {start : Int} {payload : List UInt8} {p : Nat} {position : Int} {memory : Allocator}
  (hint : (payload.length : Int) ≤ intMax)

include hint

theorem sumPropSizes_view (τ : DataType) {count q : Nat} {length : Int}
    (hat : position + length = start + q) (hnonneg : 0 ≤ length) (hlength : length ≤ q)
    (hle : valuesEnd τ payload count q ≤ payload.length) :
    (sumPropSizes position τ.code count length).view start payload =
      some (.ok (length + (valuesEnd τ payload count q - q : Nat))) := by
  induction count generalizing q length with
  | zero => simp [sumPropSizes, valuesEnd]
  | succ count ih =>
      rw [valuesEnd] at hle ⊢
      have hnext := (le_valuesEnd τ payload count (q + τ.extent payload q)).trans hle
      have hfits : Fits (length + ((τ.extent payload q : Nat) : Int)) := by
        unfold intMax at hint
        exact ⟨by omega, by omega⟩
      rw [sumPropSizes, Reader.view_bind_ok (ptpGetPropSize_view hat hint τ hnext), if_pos hfits,
        ih (by rw [← add_assoc, hat]; push_cast; ring) (by omega) (by push_cast; omega) hle]
      have hmono := le_valuesEnd τ payload count (q + τ.extent payload q)
      congr 2
      omega

/-- The enumeration at an offset, if the allocator has a block for it. -/
def enumFormAt (memory : Allocator) (allocations : Nat) (τ : DataType) (payload : List UInt8)
    (offset : Nat) : Option (PtpEnumerationForm × Nat) :=
  let count := field 2 offset payload
  let size := valuesEnd τ payload count (offset + 2) - (offset + 2)
  (memory allocations (enumerationFormSize + size)).map fun contents =>
    (⟨UInt16.ofNat count, (⟨size, fun index => contents (enumerationFormSize + index)⟩ : Buffer).store
      0 ((payload.drop (offset + 2)).take size)⟩, allocations + 1)

theorem parseEnumForm_view (hat : position = start + p) (τ : DataType) {allocations : Nat}
    (hle : valuesEnd τ payload (field 2 p payload) (p + 2) ≤ payload.length) :
    (parseEnumForm memory allocations position τ.code).view start payload =
      some (match enumFormAt memory allocations τ payload p with
        | none => .error .undefined
        | some form => .ok form) := by
  have hbehind := le_valuesEnd τ payload (field 2 p payload) (p + 2)
  have hat' : position + 2 + 0 = start + (p + 2 : Nat) := by
    rw [hat]
    push_cast
    ring
  have hsum := sumPropSizes_view hint τ hat' le_rfl (Int.natCast_nonneg _) hle
  rw [Int.zero_add] at hsum
  rw [parseEnumForm, Reader.view_bind_ok (readLe_view_at hat (hbehind.trans hle)),
    Reader.view_bind_ok hsum, enumFormAt]
  have hsize : ∀ {size : Nat}, size + 2 ≤ payload.length → toSize size = size ∧
      toSize ((enumerationFormSize : Int) + size) = enumerationFormSize + size := by
    intro size hle
    refine ⟨toSize_of_le (by omega), ?_⟩
    have hsum : ((enumerationFormSize : Nat) : Int) + size = ((enumerationFormSize + size : Nat) : Int) := by
      push_cast
      rfl
    rw [hsum]
    exact toSize_of_le (by unfold enumerationFormSize; omega)
  have hcopy : p + 2 + (valuesEnd τ payload (field 2 p payload) (p + 2) - (p + 2)) ≤
      payload.length := by omega
  generalize valuesEnd τ payload (field 2 p payload) (p + 2) - (p + 2) = size at hcopy ⊢
  obtain ⟨hsize, hblock⟩ := hsize (show size + 2 ≤ payload.length by omega)
  rw [hblock, hsize, Allocator.malloc]
  cases memory allocations (enumerationFormSize + size) with
  | none => rfl
  | some contents =>
      have hread := @Reader.view_read UInt8 Halt start payload _ _ hcopy
      simp only [Option.map_some]
      rw [Int.add_zero] at hat'
      rw [hat', copyTo, Reader.bind_assoc, Reader.view_bind_ok hread, Nat.add_sub_cancel_left]
      simp only [le_refl, if_true]
      rfl

end Forms

/-! ## The whole descriptor -/

/-- Where the form flag of a descriptor is: behind the default and the current value. -/
def formOffset (τ : DataType) (payload : List UInt8) : Nat := valuesEnd τ payload 2 5

/-- Where a descriptor of a type ends: a range has three values, an enumeration counts them. -/
def propDescEnd (τ : DataType) (payload : List UInt8) : Nat :=
  let form := formOffset τ payload
  if field 1 form payload = ptpRangeForm then valuesEnd τ payload 3 (form + 1)
  else if field 1 form payload = ptpEnumerationForm then
    valuesEnd τ payload (field 2 (form + 1) payload) (form + 3)
  else form + 1

theorem formOffset_lt_propDescEnd (τ : DataType) (payload : List UInt8) :
    formOffset τ payload + 1 ≤ propDescEnd τ payload := by
  unfold propDescEnd
  dsimp only
  split
  · exact le_valuesEnd _ _ _ _
  · split
    · exact le_trans (by omega) (le_valuesEnd _ _ _ _)
    · exact le_rfl

/-- The fields that `ptp_parse_prop_desc` fills in front of the form. -/
def PtpPropDesc.filled (oi : PtpPropDesc) (τ : DataType) (payload : List UInt8)
    (default current : ParsedDatum) : PtpPropDesc :=
  { oi with
    code := UInt16.ofNat (field 2 0 payload)
    dataType := UInt16.ofNat τ.code
    readOnly := UInt8.ofNat (field 1 4 payload)
    defaultValue32 := default.u32
    defaultValue := default.data
    currentValue32 := current.u32
    currentValue := current.data
    formType := UInt8.ofNat (field 1 (formOffset τ payload) payload) }

/-- The range at an offset. -/
def rangeFormAt (τ : DataType) (payload : List UInt8) (offset : Nat) (form : PtpRangeForm) :
    PtpRangeForm :=
  let second := offset + τ.extent payload offset
  let third := second + τ.extent payload second
  ⟨(τ.number payload offset).getD form.min, (τ.number payload second).getD form.max,
    (τ.number payload third).getD form.step⟩

/-- What `ptp_parse_prop_desc` makes of a complete descriptor, if it returns. -/
def propDescAt (memory : Allocator) (allocations : Nat) (τ : DataType) (payload : List UInt8)
    (oi : PtpPropDesc) : Option (PtpPropDesc × Nat) := do
  let default ← parsedAt memory allocations τ payload 5 oi.defaultValue32 oi.defaultValue
  let current ← parsedAt memory default.allocations τ payload (5 + τ.extent payload 5)
    oi.currentValue32 oi.currentValue
  let form := formOffset τ payload
  let filled := oi.filled τ payload default current
  if field 1 form payload = ptpRangeForm then
    return ({ filled with rangeForm := rangeFormAt τ payload (form + 1) oi.rangeForm },
      current.allocations)
  else if field 1 form payload = ptpEnumerationForm then do
    let (enumForm, allocations) ← enumFormAt memory current.allocations τ payload (form + 1)
    return ({ filled with enumForm := some enumForm }, allocations)
  else none

section Descriptor

variable {r : PtpRuntime} {start length : Int} {payload : List UInt8}
  (hpayload : r.HasPayload start length payload) (memory : Allocator) (allocations : Nat)
  (oi : PtpPropDesc)

theorem parseRangeForm_view {p : Nat} {position : Int} (hint : (payload.length : Int) ≤ intMax)
    (hat : position = start + p) (τ : DataType) {form : PtpRangeForm}
    (hle : valuesEnd τ payload 3 p ≤ payload.length) :
    (parseRangeForm position τ.code form).view start payload =
      some (.ok (rangeFormAt τ payload p form)) := by
  have hsecond : position + ((τ.extent payload p : Nat) : Int) =
      start + (p + τ.extent payload p : Nat) := by rw [hat]; push_cast; ring
  have hthird : position + ((τ.extent payload p : Nat) : Int) +
      ((τ.extent payload (p + τ.extent payload p) : Nat) : Int) =
      start + (p + τ.extent payload p + τ.extent payload (p + τ.extent payload p) : Nat) := by
    rw [hat]; push_cast; ring
  have hle' : p + τ.extent payload p + τ.extent payload (p + τ.extent payload p) ≤
      payload.length := (le_valuesEnd τ payload 1 _).trans hle
  rw [parseRangeForm, Reader.view_bind_ok (ptpParseDataU32_view hat hint τ _ (by omega)),
    Reader.view_bind_ok (ptpParseDataU32_view hsecond hint τ _ (by omega)),
    Reader.view_bind_ok (ptpParseDataU32_view hthird hint τ _ hle)]
  rfl

include hpayload

/-- On a complete descriptor of a known type the parser stays inside, and returns exactly if it
has the memory and knows the form. -/
theorem ptpParsePropDesc_view {τ : DataType} (htype : field 2 2 payload = τ.code)
    (hcomplete : propDescEnd τ payload ≤ payload.length) :
    ∃ result, (ptpParsePropDesc memory allocations r oi).view start payload = some result ∧
      ∀ rc oi' n, result = .ok (rc, oi', n) ↔
        rc = 0 ∧ propDescAt memory allocations τ payload oi = some (oi', n) := by
  have hint := hpayload.length_le
  have hform := (formOffset_lt_propDescEnd τ payload).trans hcomplete
  have hoffset : formOffset τ payload =
      5 + τ.extent payload 5 + τ.extent payload (5 + τ.extent payload 5) := rfl
  have hdefault : start + 5 = start + (5 : Nat) := rfl
  have hcurrent : start + 5 + ((τ.extent payload 5 : Nat) : Int) =
      start + (5 + τ.extent payload 5 : Nat) := by push_cast; ring
  have hflag : start + 5 + ((τ.extent payload 5 : Nat) : Int) +
      ((τ.extent payload (5 + τ.extent payload 5) : Nat) : Int) =
      start + (formOffset τ payload : Nat) := by rw [hoffset]; push_cast; ring
  rw [ptpParsePropDesc, hpayload.start_eq, Reader.ofExcept, Reader.done_bind,
    Reader.view_bind_ok (readLe_view_at (show start = start + (0 : Nat) by simp) (by omega)),
    Reader.view_bind_ok (readLe_view_at (show start + 2 = start + (2 : Nat) from rfl) (by omega)),
    Reader.view_bind_ok (readLe_view_at (show start + 4 = start + (4 : Nat) from rfl) (by omega)),
    htype]
  dsimp only
  rw [Reader.view_bind, parseDataDataOrU32_view hdefault hint τ (by omega)]
  unfold propDescAt
  cases hfirst : parsedAt memory allocations τ payload 5 oi.defaultValue32 oi.defaultValue with
  | none => exact ⟨_, rfl, by simp⟩
  | some default =>
      dsimp only
      rw [size_of_parsedAt hfirst, Reader.view_bind,
        parseDataDataOrU32_view hcurrent hint τ (by omega)]
      cases hsecond : parsedAt memory default.allocations τ payload (5 + τ.extent payload 5)
          oi.currentValue32 oi.currentValue with
      | none => exact ⟨_, rfl, by simp [hsecond]⟩
      | some current =>
          dsimp only
          rw [size_of_parsedAt hsecond, hflag,
            Reader.view_bind_ok (readLe_view_at rfl (by omega))]
          have hnext : start + (formOffset τ payload : Int) + 1 =
              start + (formOffset τ payload + 1 : Nat) := by push_cast; ring
          unfold propDescEnd at hcomplete
          dsimp only at hcomplete
          by_cases hrange : field 1 (formOffset τ payload) payload = ptpRangeForm
          · rw [if_pos hrange] at hcomplete
            rw [if_pos hrange, Reader.view_bind_ok
              (parseRangeForm_view hint hnext τ hcomplete)]
            refine ⟨_, rfl, fun rc oi' n => ?_⟩
            simp [hsecond, hrange, PtpPropDesc.filled, Prod.ext_iff, eq_comm]
          rw [if_neg hrange] at hcomplete
          rw [if_neg hrange]
          by_cases henum : field 1 (formOffset τ payload) payload = ptpEnumerationForm
          · rw [if_pos henum] at hcomplete
            rw [if_pos henum, Reader.view_bind, parseEnumForm_view hint hnext τ hcomplete]
            cases hvalues : enumFormAt memory current.allocations τ payload
                (formOffset τ payload + 1) with
            | none => exact ⟨_, rfl, by simp [hsecond, henum, hvalues]⟩
            | some form =>
                refine ⟨_, rfl, fun rc oi' n => ?_⟩
                simp [hsecond, henum, hvalues, PtpPropDesc.filled, Prod.ext_iff, eq_comm]
          · rw [if_neg henum]
            exact ⟨_, rfl, by simp [hrange, henum]⟩

end Descriptor

end Libpict
