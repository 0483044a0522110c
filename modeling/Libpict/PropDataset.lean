import Libpict.DatasetSafety
import Libpict.DatasetItems

/-! # Property descriptors as they are encoded

The descriptor names the type of its values. The parser keeps values of up to four bytes as
numbers, and any other one as the bytes it is encoded in.
-/

namespace Libpict

open Bytes CInt

/-- A value of a property. -/
inductive PropValue
  | number (value : Int)
  | array (entries : List Nat)
  | string (units : List UInt16)

/-- What the values of a type look like. -/
inductive Shape
  | number (width : Nat) (signed : Bool)
  | array (width : Nat)
  | string

def DataType.shape : DataType → Shape
  | int8 => .number 1 true
  | uint8 => .number 1 false
  | int16 => .number 2 true
  | uint16 => .number 2 false
  | int32 => .number 4 true
  | uint32 => .number 4 false
  | int64 => .number 8 true
  | uint64 => .number 8 false
  | uint8Array => .array 1
  | uint16Array => .array 2
  | uint32Array => .array 4
  | uint64Array => .array 8
  | string => .string

namespace PropValue

/-- The value is one of the type. -/
def Fits (τ : DataType) (v : PropValue) : Prop :=
  match τ.shape, v with
  | .number width true, number value => -(256 ^ width / 2) ≤ value ∧ value < 256 ^ width / 2
  | .number width false, number value => 0 ≤ value ∧ value < 256 ^ width
  | .array width, array entries => entries.length < 256 ^ 4 ∧ ∀ entry ∈ entries, entry < 256 ^ width
  | .string, string units => units.length < 256
  | _, _ => False

/-- The encoding of the standard: numbers are in two's complement. -/
def bytes (τ : DataType) (v : PropValue) : List UInt8 :=
  match τ.shape, v with
  | .number width _, number value => leBytes width (value % 256 ^ width).toNat
  | .array width, array entries => leBytes 4 entries.length ++ entries.flatMap (leBytes width)
  | .string, string units => wireString units
  | _, _ => []

/-- The bytes are in a block of their own. -/
def HoldsBlock (data : Option Buffer) (bytes : List UInt8) : Prop :=
  ∃ block, data = some block ∧ block.size = bytes.length ∧ block.slice 0 bytes.length = bytes

/-- The value is kept, in the `32` field if it has up to four bytes. -/
def KeptIn (τ : DataType) (v : PropValue) (u32 : UInt32) (data : Option Buffer) : Prop :=
  if τ.wide then HoldsBlock data (v.bytes τ) else ∃ value, v = number value ∧ u32.toNat = toUInt32 value

/-- It is no negative number of one byte. -/
def Plain (τ : DataType) (v : PropValue) : Prop := ∀ value, v = number value → τ = .int8 → 0 ≤ value

end PropValue

/-- What `ptp_parse_data_u32` makes of a number of up to four bytes. -/
def DataType.shown (τ : DataType) (value : Int) : Int :=
  match τ with
  | int8 => value % 256
  | uint32 => toInt32 value
  | uint8 | int16 | uint16 | int32 | int64 | uint64 | uint8Array | uint16Array | uint32Array
    | uint64Array | string => value

namespace DataType

variable {τ : DataType} {value : Int} (hfits : (PropValue.number value).Fits τ)
  (hsmall : τ.wide = false)

include hfits hsmall

theorem shown_eq_iff :
    τ.shown value = value ↔ (τ = .int8 → 0 ≤ value) ∧ (τ = .uint32 → value < 2147483648) := by
  cases τ <;> cases hsmall
  all_goals
    obtain ⟨hlow, hhigh⟩ := hfits
    norm_num at hlow hhigh
    simp only [shown, reduceCtorEq, false_implies, forall_const, and_self, true_and, and_true]
  · omega
  · unfold toInt32
    omega

theorem toUInt32_shown_iff :
    toUInt32 (τ.shown value) = toUInt32 value ↔ (τ = .int8 → 0 ≤ value) := by
  unfold toUInt32
  cases τ <;> cases hsmall
  all_goals
    obtain ⟨hlow, hhigh⟩ := hfits
    norm_num at hlow hhigh
    simp only [shown, reduceCtorEq, false_implies, forall_const, iff_true]
  · omega
  · unfold toInt32
    omega

end DataType

section Values

variable {τ : DataType} {v : PropValue} {payload rest : List UInt8} {p : Nat} (hfits : v.Fits τ)
  (hdrop : payload.drop p = v.bytes τ ++ rest)

include hfits hdrop

/-- The datum is as long as its encoding. -/
theorem extent_of_drop : τ.extent payload p = (v.bytes τ).length := by
  have hcount : ∀ {width : Nat} {entries : List Nat}, entries.length < 256 ^ 4 →
      payload.drop p = leBytes 4 entries.length ++ entries.flatMap (leBytes width) ++ rest →
      4 + field 4 p payload * width =
        (leBytes 4 entries.length ++ entries.flatMap (leBytes width)).length := by
    intro width entries hlt hentries
    rw [List.append_assoc] at hentries
    rw [field_of_drop hentries hlt]
    simp [List.length_flatMap]
  cases v with
  | number value => cases τ <;> first | exact hfits.elim | exact (leBytes_length _ _).symm
  | array entries => cases τ <;> first | exact hfits.elim | exact hcount hfits.1 hdrop
  | string units =>
      cases τ <;> first | exact hfits.elim | skip
      change payload.drop p = wireString units ++ rest at hdrop
      change 1 + field 1 p payload * 2 = (wireString units).length
      rw [wireString_length]
      rw [wireString, List.append_assoc] at hdrop
      rw [field_of_drop hdrop hfits]
      ring

theorem bytesAt_of_drop : τ.bytesAt payload p = v.bytes τ := by
  rw [DataType.bytesAt, extent_of_drop hfits hdrop, hdrop, List.take_left]

/-- A number of up to four bytes, as it is shown. -/
theorem number_of_drop (hsmall : τ.wide = false) :
    ∃ value, v = .number value ∧ τ.number payload p = some (τ.shown value) := by
  cases v with
  | array entries => cases τ <;> first | exact hfits.elim | cases hsmall
  | string units => cases τ <;> first | exact hfits.elim | cases hsmall
  | number value =>
      refine ⟨value, rfl, ?_⟩
      have hfield : ∀ {width : Nat}, payload.drop p =
          leBytes width (value % 256 ^ width).toNat ++ rest →
          field width p payload = (value % 256 ^ width).toNat := by
        intro width hvalue
        apply field_of_drop hvalue
        have hpos : (0 : Int) < 256 ^ width := by positivity
        have hlt := Int.emod_lt_of_pos value hpos
        have hnonneg := Int.emod_nonneg value hpos.ne'
        zify
        rw [Int.toNat_of_nonneg hnonneg]
        exact hlt
      cases τ <;> cases hsmall
      all_goals
        obtain ⟨hlow, hhigh⟩ := hfits
        rw [DataType.number, hfield hdrop, DataType.shown]
        norm_num at hlow hhigh ⊢
      · omega
      · omega
      · unfold toInt16
        omega
      · omega
      · unfold toInt32
        omega
      · unfold toInt32
        omega

/-- What is parsed is kept, but for the sign of a single byte. -/
theorem parsedAt_keptIn {memory : Allocator} {allocations : Nat} {u32 : UInt32}
    {data : Option Buffer} {d : ParsedDatum}
    (hparsed : parsedAt memory allocations τ payload p u32 data = some d) :
    v.KeptIn τ d.u32 d.data ↔ v.Plain τ := by
  cases hwide : τ.wide with
  | true =>
      have hplain : v.Plain τ := by
        rintro value _ rfl
        cases hwide
      rw [parsedAt_wide _ _ hwide] at hparsed
      obtain ⟨contents, _, rfl⟩ := Option.map_eq_some_iff.mp hparsed
      rw [bytesAt_of_drop hfits hdrop, extent_of_drop hfits hdrop, PropValue.KeptIn, if_pos hwide]
      exact iff_of_true ⟨_, rfl, rfl, Buffer.store_slice_self _ _ _⟩ hplain
  | false =>
      obtain ⟨value, rfl, hnumber⟩ := number_of_drop hfits hdrop hwide
      rw [parsedAt, hnumber] at hparsed
      cases hparsed
      have hlt : ∀ x : Int, toUInt32 x < 4294967296 := by
        intro x
        unfold toUInt32
        omega
      have hsame : (PropValue.number value).KeptIn τ (UInt32.ofNat (toUInt32 (τ.shown value))) data ↔
          toUInt32 (τ.shown value) = toUInt32 value := by
        rw [PropValue.KeptIn, if_neg (by rw [hwide]; exact Bool.false_ne_true)]
        rw [UInt32.toNat_ofNat_of_lt' (hlt _)]
        constructor
        · rintro ⟨_, heq, hvalue⟩
          cases heq
          exact hvalue
        · exact fun hvalue => ⟨value, rfl, hvalue⟩
      have hplain : (PropValue.number value).Plain τ ↔ (τ = .int8 → 0 ≤ value) := by
        constructor
        · exact fun h => h value rfl
        · rintro h _ heq
          cases heq
          exact h
      dsimp only
      rw [hsame, hplain]
      exact DataType.toUInt32_shown_iff hfits hwide

end Values

/-- Where some values end, the rest begins. -/
theorem valuesEnd_of_drop {τ : DataType} {values : List PropValue} {payload rest : List UInt8}
    {p : Nat} (hfits : ∀ v ∈ values, v.Fits τ)
    (hdrop : payload.drop p = values.flatMap (PropValue.bytes τ) ++ rest) :
    valuesEnd τ payload values.length p = p + (values.flatMap (PropValue.bytes τ)).length ∧
      payload.drop (valuesEnd τ payload values.length p) = rest := by
  induction values generalizing p with
  | nil => exact ⟨rfl, hdrop⟩
  | cons v values ih =>
      obtain ⟨hv, hvalues⟩ := List.forall_mem_cons.mp hfits
      rw [List.flatMap_cons, List.append_assoc] at hdrop
      have hnext : payload.drop (p + (v.bytes τ).length) =
          values.flatMap (PropValue.bytes τ) ++ rest := by
        rw [← List.drop_drop, hdrop, List.drop_left]
      obtain ⟨hend, hrest⟩ := ih hvalues hnext
      rw [List.length_cons, valuesEnd, extent_of_drop hv hdrop]
      refine ⟨?_, hrest⟩
      rw [hend, List.flatMap_cons, List.length_append, Nat.add_assoc]

/-! ## The dataset -/

/-- The form of a property descriptor. -/
inductive PropForm
  | none
  | range (min max step : Int)
  | enumeration (values : List PropValue)

namespace PropForm

/-- The form flag. -/
def flag : PropForm → Nat
  | none => 0
  | range _ _ _ => 1
  | enumeration _ => 2

/-- What is behind the form flag. -/
def bytes (τ : DataType) : PropForm → List UInt8
  | none => []
  | range min max step => [min, max, step].flatMap fun value => (PropValue.number value).bytes τ
  | enumeration values => leBytes 2 values.length ++ values.flatMap (PropValue.bytes τ)

/-- Numbers of up to four bytes may have a range. -/
def Fits (τ : DataType) : PropForm → Prop
  | none => True
  | range min max step => τ.wide = false ∧
      ∀ value ∈ [min, max, step], (PropValue.number value).Fits τ
  | enumeration values => values.length < 256 ^ 2 ∧ ∀ v ∈ values, v.Fits τ

end PropForm

/-- The contents of a property descriptor. -/
structure PropDescDataset where
  code : UInt16
  type : DataType
  readOnly : UInt8
  default : PropValue
  current : PropValue
  form : PropForm

namespace PropDescDataset

/-- The dataset as the device sends it. -/
def bytes (d : PropDescDataset) : List UInt8 :=
  leBytes 2 d.code.toNat ++ (leBytes 2 d.type.code ++ (leBytes 1 d.readOnly.toNat ++
    ([d.default, d.current].flatMap (PropValue.bytes d.type) ++
      (leBytes 1 d.form.flag ++ d.form.bytes d.type))))

/-- The values are of the type. -/
structure WellFormed (d : PropDescDataset) : Prop where
  default : d.default.Fits d.type
  current : d.current.Fits d.type
  form : d.form.Fits d.type

/-- The form of the structure is that of the dataset. -/
def FormKept (d : PropDescDataset) (oi : PtpPropDesc) : Prop :=
  match d.form with
  | .none => True
  | .range min max step => oi.rangeForm = ⟨min, max, step⟩
  | .enumeration values => ∃ form, oi.enumForm = some form ∧ form.length.toNat = values.length ∧
      PropValue.HoldsBlock (some form.data) (values.flatMap (PropValue.bytes d.type))

/-- The structure says what the dataset says. -/
structure KeptBy (d : PropDescDataset) (oi : PtpPropDesc) : Prop where
  code : oi.code = d.code
  dataType : oi.dataType.toNat = d.type.code
  readOnly : oi.readOnly = d.readOnly
  default : d.default.KeptIn d.type oi.defaultValue32 oi.defaultValue
  current : d.current.KeptIn d.type oi.currentValue32 oi.currentValue
  formType : oi.formType.toNat = d.form.flag
  form : d.FormKept oi

/-- The form is one that the parser knows, and a range of numbers that it can show. -/
def FormShown (d : PropDescDataset) : Prop :=
  match d.form with
  | .none => False
  | .range min max step => ∀ value ∈ [min, max, step],
      (d.type = .int8 → 0 ≤ value) ∧ (d.type = .uint32 → value < 2147483648)
  | .enumeration _ => True

/-- The parser returns 0, and keeps what is in the dataset. -/
def Kept (d : PropDescDataset) (memory : Allocator) (allocations : Nat) (r : PtpRuntime)
    (oi : PtpPropDesc) : Prop :=
  ∃ oi' n, (ptpParsePropDesc memory allocations r oi).run r.load = .ok (0, oi', n) ∧ d.KeptBy oi'

section Described

variable {d : PropDescDataset} (hd : d.WellFormed)

include hd

theorem values_fit : ∀ v ∈ [d.default, d.current], v.Fits d.type := by
  simpa using ⟨hd.default, hd.current⟩

omit hd in
theorem drop_values : d.bytes.drop 5 = [d.default, d.current].flatMap (PropValue.bytes d.type) ++
    (leBytes 1 d.form.flag ++ d.form.bytes d.type) := by
  have hhead : d.bytes = (leBytes 2 d.code.toNat ++ leBytes 2 d.type.code ++
      leBytes 1 d.readOnly.toNat) ++ ([d.default, d.current].flatMap (PropValue.bytes d.type) ++
        (leBytes 1 d.form.flag ++ d.form.bytes d.type)) := by
    simp [bytes]
  rw [hhead]
  exact List.drop_left' (by simp)

theorem drop_form : d.bytes.drop (formOffset d.type d.bytes) =
    leBytes 1 d.form.flag ++ d.form.bytes d.type :=
  (valuesEnd_of_drop (values_fit hd) drop_values).2

theorem field_form : field 1 (formOffset d.type d.bytes) d.bytes = d.form.flag := by
  apply field_of_drop (drop_form hd)
  cases d.form <;> simp [PropForm.flag]

theorem drop_form_bytes :
    d.bytes.drop (formOffset d.type d.bytes + 1) = d.form.bytes d.type := by
  rw [← List.drop_drop, drop_form hd]
  exact List.drop_left' (leBytes_length _ _)

omit hd in
theorem field_code : field 2 0 d.bytes = d.code.toNat :=
  field_of_drop (List.drop_zero) d.code.toNat_lt

omit hd in
theorem field_type : field 2 2 d.bytes = d.type.code := by
  have hdrop : d.bytes.drop 2 = leBytes 2 d.type.code ++ _ := List.drop_left' (leBytes_length _ _)
  apply field_of_drop hdrop
  cases d.type <;> decide

omit hd in
theorem field_readOnly : field 1 4 d.bytes = d.readOnly.toNat := by
  have hhead : d.bytes = (leBytes 2 d.code.toNat ++ leBytes 2 d.type.code) ++
      (leBytes 1 d.readOnly.toNat ++ ([d.default, d.current].flatMap (PropValue.bytes d.type) ++
        (leBytes 1 d.form.flag ++ d.form.bytes d.type))) := by
    simp [bytes]
  have hdrop := congrArg (List.drop 4) hhead
  rw [List.drop_left' (by simp)] at hdrop
  exact field_of_drop hdrop d.readOnly.toNat_lt

/-- The descriptor ends where its dataset does. -/
theorem propDescEnd_le : propDescEnd d.type d.bytes ≤ d.bytes.length := by
  have hbehind := drop_form_bytes hd
  have hform := hd.form
  have hat : formOffset d.type d.bytes + 1 + (d.form.bytes d.type).length = d.bytes.length := by
    have hlength := congrArg List.length (drop_form hd)
    rw [List.length_drop, List.length_append, leBytes_length] at hlength
    omega
  unfold propDescEnd
  dsimp only
  rw [field_form hd]
  cases hcase : d.form with
  | none =>
      rw [hcase] at hat
      rw [PropForm.flag, if_neg (by decide), if_neg (by decide)]
      omega
  | range min max step =>
      rw [hcase] at hat hbehind hform
      have hvalues : ∀ v ∈ [min, max, step].map PropValue.number, v.Fits d.type := by
        simpa using hform.2
      have hdrop : d.bytes.drop (formOffset d.type d.bytes + 1) =
          ([min, max, step].map PropValue.number).flatMap (PropValue.bytes d.type) ++ [] := by
        rw [hbehind, PropForm.bytes, List.flatMap_map, List.append_nil]
      have hend := (valuesEnd_of_drop hvalues hdrop).1
      rw [List.flatMap_map] at hend
      rw [PropForm.flag, if_pos rfl]
      exact (hend.trans hat).le
  | enumeration values =>
      rw [hcase] at hat hbehind hform
      have hcount : field 2 (formOffset d.type d.bytes + 1) d.bytes = values.length :=
        field_of_drop hbehind hform.1
      have hbehind' : d.bytes.drop (formOffset d.type d.bytes + 3) =
          values.flatMap (PropValue.bytes d.type) ++ [] := by
        rw [List.append_nil, show formOffset d.type d.bytes + 3 =
          formOffset d.type d.bytes + 1 + 2 from rfl, ← List.drop_drop, hbehind]
        exact List.drop_left' (leBytes_length _ _)
      have hend := (valuesEnd_of_drop hform.2 hbehind').1
      rw [PropForm.bytes, List.length_append, leBytes_length] at hat
      rw [PropForm.flag, if_neg (by decide), if_pos rfl, hcount, hend]
      omega

omit hd in
/-- What the parser returns is filled from two values and the form. -/
theorem propDescAt_cases {memory : Allocator} {allocations : Nat} {τ : DataType}
    {payload : List UInt8} {oi oi' : PtpPropDesc} {n : Nat}
    (hparsed : propDescAt memory allocations τ payload oi = some (oi', n)) :
    ∃ default current, parsedAt memory allocations τ payload 5 oi.defaultValue32
        oi.defaultValue = some default ∧
      parsedAt memory default.allocations τ payload (5 + τ.extent payload 5) oi.currentValue32
        oi.currentValue = some current ∧
      (field 1 (formOffset τ payload) payload = ptpRangeForm ∧
          oi' = { oi.filled τ payload default current with
            rangeForm := rangeFormAt τ payload (formOffset τ payload + 1) oi.rangeForm } ∨
        field 1 (formOffset τ payload) payload = ptpEnumerationForm ∧ ∃ form,
          enumFormAt memory current.allocations τ payload (formOffset τ payload + 1) =
            some (form, n) ∧
          oi' = { oi.filled τ payload default current with enumForm := some form }) := by
  unfold propDescAt at hparsed
  obtain ⟨default, hdefault, hparsed⟩ := Option.bind_eq_some_iff.mp hparsed
  obtain ⟨current, hcurrent, hparsed⟩ := Option.bind_eq_some_iff.mp hparsed
  refine ⟨default, current, hdefault, hcurrent, ?_⟩
  dsimp only at hparsed
  split at hparsed
  next hrange =>
    cases hparsed
    exact .inl ⟨hrange, rfl⟩
  next =>
    split at hparsed
    next henum =>
      obtain ⟨⟨form, m⟩, hform, hparsed⟩ := Option.bind_eq_some_iff.mp hparsed
      cases hparsed
      exact .inr ⟨henum, form, hform, rfl⟩
    next => cases hparsed

omit hd in
theorem rangeFormAt_of_drop {τ : DataType} {payload : List UInt8} {p : Nat} {min max step : Int}
    (hsmall : τ.wide = false) (hfits : ∀ value ∈ [min, max, step], (PropValue.number value).Fits τ)
    (hdrop : payload.drop p = (PropForm.range min max step).bytes τ) (form : PtpRangeForm) :
    rangeFormAt τ payload p form = ⟨τ.shown min, τ.shown max, τ.shown step⟩ := by
  simp only [List.forall_mem_cons] at hfits
  obtain ⟨hmin, hmax, hstep, _⟩ := hfits
  have hnumber : ∀ {value : Int} {p : Nat} {rest : List UInt8},
      (PropValue.number value).Fits τ →
      payload.drop p = (PropValue.number value).bytes τ ++ rest →
      τ.number payload p = some (τ.shown value) ∧ payload.drop (p + τ.extent payload p) = rest := by
    intro value p rest hfits hdrop
    obtain ⟨_, heq, hshown⟩ := number_of_drop hfits hdrop hsmall
    cases heq
    refine ⟨hshown, ?_⟩
    rw [extent_of_drop hfits hdrop, ← List.drop_drop, hdrop, List.drop_left]
  obtain ⟨hfirst, hdrop⟩ := hnumber hmin hdrop
  obtain ⟨hsecond, hdrop⟩ := hnumber hmax hdrop
  obtain ⟨hthird, _⟩ := hnumber hstep hdrop
  rw [rangeFormAt, hfirst, hsecond, hthird]
  rfl

omit hd in
theorem enumFormAt_of_drop {memory : Allocator} {allocations n : Nat} {τ : DataType}
    {payload : List UInt8} {p : Nat} {values : List PropValue} {form : PtpEnumerationForm}
    (hfits : (PropForm.enumeration values).Fits τ)
    (hdrop : payload.drop p = (PropForm.enumeration values).bytes τ)
    (hform : enumFormAt memory allocations τ payload p = some (form, n)) :
    form.length.toNat = values.length ∧
      PropValue.HoldsBlock (some form.data) (values.flatMap (PropValue.bytes τ)) := by
  have hcount : field 2 p payload = values.length := field_of_drop hdrop hfits.1
  have hbehind : payload.drop (p + 2) = values.flatMap (PropValue.bytes τ) ++ [] := by
    rw [List.append_nil, ← List.drop_drop, hdrop]
    exact List.drop_left' (leBytes_length _ _)
  have hend := (valuesEnd_of_drop hfits.2 hbehind).1
  rw [enumFormAt, hcount, hend, Nat.add_sub_cancel_left, hbehind, List.append_nil,
    List.take_length] at hform
  obtain ⟨contents, _, heq⟩ := Option.map_eq_some_iff.mp hform
  cases heq
  exact ⟨UInt16.toNat_ofNat_of_lt' hfits.1, _, rfl, rfl, Buffer.store_slice_self _ _ _⟩

/-- What is returned is what was encoded, if its numbers can be shown. -/
theorem keptBy_iff {memory : Allocator} {allocations n : Nat} {oi oi' : PtpPropDesc}
    (hparsed : propDescAt memory allocations d.type d.bytes oi = some (oi', n)) :
    d.KeptBy oi' ↔ d.default.Plain d.type ∧ d.current.Plain d.type ∧ d.FormShown := by
  obtain ⟨default, current, hdefault, hcurrent, hform⟩ := propDescAt_cases hparsed
  have hvalues := drop_values (d := d)
  simp only [List.flatMap_cons, List.flatMap_nil, List.append_nil, List.append_assoc] at hvalues
  have hsecond : d.bytes.drop (5 + d.type.extent d.bytes 5) = d.current.bytes d.type ++
      (leBytes 1 d.form.flag ++ d.form.bytes d.type) := by
    rw [extent_of_drop hd.default hvalues, ← List.drop_drop, hvalues, List.drop_left]
  have hkept := parsedAt_keptIn hd.default hvalues hdefault
  have hkept' := parsedAt_keptIn hd.current hsecond hcurrent
  have htype : (UInt16.ofNat d.type.code).toNat = d.type.code :=
    UInt16.toNat_ofNat_of_lt' (by cases d.type <;> decide)
  have hflag : (UInt8.ofNat (field 1 (formOffset d.type d.bytes) d.bytes)).toNat = d.form.flag := by
    rw [field_form hd]
    exact UInt8.toNat_ofNat_of_lt' (by cases d.form <;> simp [PropForm.flag, UInt8.size])
  have hcode : UInt16.ofNat (field 2 0 d.bytes) = d.code := by
    rw [field_code, UInt16.ofNat_toNat]
  have hreadOnly : UInt8.ofNat (field 1 4 d.bytes) = d.readOnly := by
    rw [field_readOnly, UInt8.ofNat_toNat]
  have hall : ∀ {oi'}, oi'.code = UInt16.ofNat (field 2 0 d.bytes) →
      oi'.dataType = UInt16.ofNat d.type.code → oi'.readOnly = UInt8.ofNat (field 1 4 d.bytes) →
      oi'.defaultValue32 = default.u32 → oi'.defaultValue = default.data →
      oi'.currentValue32 = current.u32 → oi'.currentValue = current.data →
      oi'.formType = UInt8.ofNat (field 1 (formOffset d.type d.bytes) d.bytes) →
      (d.KeptBy oi' ↔ d.default.Plain d.type ∧ d.current.Plain d.type ∧ d.FormKept oi') := by
    intro oi' h1 h2 h3 h4 h5 h6 h7 h8
    constructor
    · intro hk
      have hk1 := hk.default
      have hk2 := hk.current
      rw [h4, h5] at hk1
      rw [h6, h7] at hk2
      exact ⟨hkept.mp hk1, hkept'.mp hk2, hk.form⟩
    · rintro ⟨hplain, hplain', hf⟩
      have hk1 := hkept.mpr hplain
      have hk2 := hkept'.mpr hplain'
      rw [← h4, ← h5] at hk1
      rw [← h6, ← h7] at hk2
      exact ⟨h1.trans hcode, by rw [h2, htype], h3.trans hreadOnly, hk1, hk2, by rw [h8, hflag], hf⟩
  have hbehind := drop_form_bytes hd
  have hfits := hd.form
  rcases hform with ⟨hrange, rfl⟩ | ⟨henum, form, hvaluesAt, rfl⟩
  · rw [hall rfl rfl rfl rfl rfl rfl rfl rfl, and_congr_right_iff]
    intro _
    rw [and_congr_right_iff]
    intro _
    rw [field_form hd] at hrange
    unfold FormKept FormShown
    cases hcase : d.form with
    | none =>
        rw [hcase] at hrange
        cases hrange
    | enumeration values =>
        rw [hcase] at hrange
        cases hrange
    | range min max step =>
        rw [hcase] at hbehind hfits
        dsimp only
        rw [rangeFormAt_of_drop hfits.1 hfits.2 hbehind]
        have hshown := fun value hvalue => DataType.shown_eq_iff (hfits.2 value hvalue) hfits.1
        simp only [List.forall_mem_cons] at hshown ⊢
        obtain ⟨hmin, hmax, hstep, _⟩ := hshown
        rw [PtpRangeForm.mk.injEq, hmin, hmax, hstep]
        simp
  · rw [hall rfl rfl rfl rfl rfl rfl rfl rfl, and_congr_right_iff]
    intro _
    rw [and_congr_right_iff]
    intro _
    rw [field_form hd] at henum
    unfold FormKept FormShown
    cases hcase : d.form with
    | none =>
        rw [hcase] at henum
        cases henum
    | range min max step =>
        rw [hcase] at henum
        cases henum
    | enumeration values =>
        rw [hcase] at hbehind hfits
        exact iff_of_true ⟨form, rfl, enumFormAt_of_drop hfits hbehind hvaluesAt⟩ trivial

section Parse

variable {r : PtpRuntime} {start length : Int} (hpayload : r.HasPayload start length d.bytes)
  (memory : Allocator) (allocations : Nat) (oi : PtpPropDesc)

include hpayload

theorem kept_iff_propDescAt : d.Kept memory allocations r oi ↔
    ∃ oi' n, propDescAt memory allocations d.type d.bytes oi = some (oi', n) ∧ d.KeptBy oi' := by
  obtain ⟨result, hview, hresult⟩ := ptpParsePropDesc_view hpayload memory allocations oi
    field_type (propDescEnd_le hd)
  have hrun := Reader.run_of_view hpayload.shows hview
  constructor
  · rintro ⟨oi', n, hok, hkept⟩
    rw [hrun] at hok
    exact ⟨oi', n, ((hresult 0 oi' n).mp hok).2, hkept⟩
  · rintro ⟨oi', n, hparsed, hkept⟩
    exact ⟨oi', n, hrun.trans ((hresult 0 oi' n).mpr ⟨rfl, hparsed⟩), hkept⟩

/-- A well-formed descriptor is parsed and kept exactly if it has a form, its range is one of
numbers that are shown, none of its single bytes is negative, and the memory is there. -/
theorem kept_iff : d.Kept memory allocations r oi ↔
    (d.default.Plain d.type ∧ d.current.Plain d.type ∧ d.FormShown) ∧
      memory.GrantsAll allocations (blocksAsked d.type d.bytes) := by
  rw [kept_iff_propDescAt hd hpayload]
  constructor
  · rintro ⟨oi', n, hparsed, hkept⟩
    exact ⟨(keptBy_iff hd hparsed).mp hkept, (propDescAt_isSome_iff.mp ⟨_, hparsed⟩).2⟩
  · rintro ⟨hshown, hgranted⟩
    have hknown : FormKnown d.type d.bytes := by
      have hform := hshown.2.2
      rw [FormShown] at hform
      rw [FormKnown, field_form hd]
      cases hcase : d.form with
      | none =>
          rw [hcase] at hform
          exact hform.elim
      | range min max step => exact .inl rfl
      | enumeration values => exact .inr rfl
    obtain ⟨⟨oi', n⟩, hparsed⟩ := propDescAt_isSome_iff.mpr ⟨hknown, hgranted⟩
    exact ⟨oi', n, hparsed, (keptBy_iff hd hparsed).mpr hshown⟩

end Parse

end Described

/-- The battery level: from 0 to 100. -/
def batteryLevel (form : PropForm) : PropDescDataset :=
  ⟨0x5001, .uint8, 0, .number 50, .number 50, form⟩

theorem byte_fits {value : Int} (hlow : 0 ≤ value) (hhigh : value < 256) :
    (PropValue.number value).Fits .uint8 := ⟨hlow, hhigh⟩

theorem batteryLevel_wellFormed {form : PropForm} (hform : form.Fits .uint8) :
    (batteryLevel form).WellFormed :=
  ⟨byte_fits (by decide) (by decide), byte_fits (by decide) (by decide), hform⟩

theorem kept_batteryLevel : (batteryLevel (.range 0 100 1)).Kept zeroedMemory 0
    (replied (batteryLevel (.range 0 100 1)).bytes) blankPropDesc := by
  have hform : PropForm.Fits .uint8 (.range 0 100 1) := by
    refine ⟨rfl, ?_⟩
    simp only [List.forall_mem_cons]
    exact ⟨byte_fits (by decide) (by decide), byte_fits (by decide) (by decide),
      byte_fits (by decide) (by decide), by simp⟩
  refine (kept_iff (batteryLevel_wellFormed hform) (received_hasPayload _ (by decide)) _ _ _).mpr
    ⟨⟨?_, ?_, ?_⟩, ?_⟩
  · rintro _ _ htype
    cases htype
  · rintro _ _ htype
    cases htype
  · simp [FormShown, batteryLevel]
  · have hnone : blocksAsked (batteryLevel (.range 0 100 1)).type
        (batteryLevel (.range 0 100 1)).bytes = [] := by decide
    rw [hnone]
    trivial

/-- The same property without a form. -/
theorem kept_formless : ¬∀ (d : PropDescDataset) (r : PtpRuntime) (start length : Int)
    (memory : Allocator) (allocations : Nat) (oi : PtpPropDesc), d.WellFormed →
      r.HasPayload start length d.bytes →
      memory.GrantsAll allocations (blocksAsked d.type d.bytes) →
      d.Kept memory allocations r oi := by
  intro hall
  have hd : (batteryLevel .none).WellFormed := batteryLevel_wellFormed trivial
  have hpayload := received_hasPayload (batteryLevel .none).bytes (by decide)
  have hnone : blocksAsked (batteryLevel .none).type (batteryLevel .none).bytes = [] := by decide
  have hkept := hall _ _ _ _ zeroedMemory 0 blankPropDesc hd hpayload (by rw [hnone]; trivial)
  obtain ⟨oi', n, hparsed, _⟩ := (kept_iff_propDescAt hd hpayload _ _ _).mp hkept
  have hknown := (propDescAt_isSome_iff.mp ⟨_, hparsed⟩).1
  rw [FormKnown, field_form hd] at hknown
  exact absurd hknown (by decide)

end PropDescDataset

end Libpict
