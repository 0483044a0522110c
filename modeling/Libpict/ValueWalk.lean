import Libpict.PropDataset
import Libpict.PropDescJson

/-! # Walking over values

Three functions say how long a datum is. They agree on every datum, so that the values of an
enumeration are copied as they are encoded and met again, one behind the other, when the
descriptor is printed.
-/

namespace Libpict

open Bytes CInt Exec

/-! ## One datum -/

/-- The bytes are a datum of the type. -/
def DataType.Encodes (τ : DataType) (datum : List UInt8) : Prop := τ.extent datum 0 = datum.length

instance (τ : DataType) (datum : List UInt8) : Decidable (τ.Encodes datum) :=
  inferInstanceAs (Decidable (_ = _))

/-- The count that an array begins with. -/
def DataType.arrayCount (datum : List UInt8) : DataType → Nat
  | uint8Array | uint16Array | uint32Array | uint64Array => field 4 0 datum
  | _ => 0

section Datum

variable {τ : DataType} {datum : List UInt8} (hdatum : τ.Encodes datum)

theorem field_drop (size p : Nat) (payload : List UInt8) :
    field size p payload = field size 0 (payload.drop p) := by
  unfold field
  rw [List.drop_zero]

include hdatum

/-- A datum is found where it begins. -/
theorem extent_of_encodes {payload rest : List UInt8} {p : Nat}
    (hdrop : payload.drop p = datum ++ rest) : τ.extent payload p = datum.length := by
  have harray : ∀ {size : Nat}, 4 + field 4 0 datum * size = datum.length →
      4 + field 4 p payload * size = datum.length := by
    intro size hlength
    rw [field_drop, hdrop, field_append _ _ _ _ (by omega)]
    exact hlength
  cases τ with
  | int8 => exact hdatum
  | uint8 => exact hdatum
  | int16 => exact hdatum
  | uint16 => exact hdatum
  | int32 => exact hdatum
  | uint32 => exact hdatum
  | int64 => exact hdatum
  | uint64 => exact hdatum
  | uint8Array => exact harray hdatum
  | uint16Array => exact harray hdatum
  | uint32Array => exact harray hdatum
  | uint64Array => exact harray hdatum
  | string =>
      have hlength : 1 + field 1 0 datum * 2 = datum.length := hdatum
      change 1 + field 1 p payload * 2 = datum.length
      rw [field_drop, hdrop, field_append _ _ _ _ (by omega)]
      exact hlength

/-- With fewer than 2^27 entries its size is an `int`. -/
theorem datum_length_le (hcount : τ.arrayCount datum < 2 ^ 27) :
    (datum.length : Int) ≤ intMax := by
  have harray : ∀ {size : Nat}, size ≤ 8 → field 4 0 datum < 2 ^ 27 →
      4 + field 4 0 datum * size = datum.length → (datum.length : Int) ≤ intMax := by
    intro size hsize hcount hlength
    have hmul := Nat.mul_le_mul (Nat.le_of_lt_succ hcount) hsize
    unfold intMax
    omega
  have hfixed : ∀ {size : Nat}, size ≤ 8 → size = datum.length →
      (datum.length : Int) ≤ intMax := by
    intro size hsize hlength
    unfold intMax
    omega
  cases τ with
  | int8 => exact hfixed (by decide : 1 ≤ 8) hdatum
  | uint8 => exact hfixed (by decide : 1 ≤ 8) hdatum
  | int16 => exact hfixed (by decide : 2 ≤ 8) hdatum
  | uint16 => exact hfixed (by decide : 2 ≤ 8) hdatum
  | int32 => exact hfixed (by decide : 4 ≤ 8) hdatum
  | uint32 => exact hfixed (by decide : 4 ≤ 8) hdatum
  | int64 => exact hfixed (by decide : 8 ≤ 8) hdatum
  | uint64 => exact hfixed (by decide : 8 ≤ 8) hdatum
  | uint8Array => exact harray (by decide) hcount hdatum
  | uint16Array => exact harray (by decide) hcount hdatum
  | uint32Array => exact harray (by decide) hcount hdatum
  | uint64Array => exact harray (by decide) hcount hdatum
  | string =>
      have hlength : 1 + field 1 0 datum * 2 = datum.length := hdatum
      have hlt : field 1 0 datum < 256 ^ 1 := field_lt ..
      unfold intMax
      omega

end Datum

/-- The three functions give a datum in memory the same size. -/
structure SameSize (memory : Reader.Memory UInt8 Halt) (d : Int) (τ : DataType) (size : Nat) :
    Prop where
  propSize : (ptpGetPropSize d τ.code).run memory = .ok (size : Int)
  dataU32 : ∀ out, ∃ out', (ptpParseDataU32 d τ.code out).run memory = .ok ((size : Int), out')
  dataOrU32 : ∀ (blocks : Allocator) allocations u32 data,
    (τ.wide = true → (blocks allocations size).isSome) → ∃ parsed,
      (parseDataDataOrU32 blocks allocations d τ.code u32 data).run memory = .ok parsed ∧
        parsed.size = size

theorem parsedAt_isSome {blocks : Allocator} {allocations p : Nat} {τ : DataType}
    {payload : List UInt8} {u32 : UInt32} {data : Option Buffer}
    (hblock : τ.wide = true → (blocks allocations (τ.extent payload p)).isSome) :
    ∃ parsed, parsedAt blocks allocations τ payload p u32 data = some parsed ∧
      parsed.allocations = if τ.wide then allocations + 1 else allocations := by
  cases hwide : τ.wide with
  | false => exact parsedAt_small blocks allocations hwide payload p u32 data
  | true =>
      obtain ⟨contents, hcontents⟩ := Option.isSome_iff_exists.mp (hblock hwide)
      rw [parsedAt_wide blocks allocations hwide, hcontents]
      exact ⟨_, rfl, rfl⟩

theorem sameSize_of_shows {memory : Reader.Memory UInt8 Halt} {d : Int} {τ : DataType}
    {datum : List UInt8} (hdatum : τ.Encodes datum) (hint : (datum.length : Int) ≤ intMax)
    (hshows : Reader.Shows memory d datum) : SameSize memory d τ datum.length := by
  have hat : d = d + (0 : Nat) := by simp
  have hle : 0 + τ.extent datum 0 ≤ datum.length := by rw [Nat.zero_add, hdatum]
  constructor
  · have hview := ptpGetPropSize_view hat hint τ hle
    rw [hdatum] at hview
    exact Reader.run_of_view hshows hview
  · intro out
    have hview := ptpParseDataU32_view hat hint τ out hle
    rw [hdatum] at hview
    exact ⟨_, Reader.run_of_view hshows hview⟩
  · intro blocks allocations u32 data hblock
    rw [← hdatum] at hblock
    obtain ⟨parsed, hparsed, -⟩ : ∃ parsed, parsedAt blocks allocations τ datum 0 u32 data =
      some parsed ∧ _ := parsedAt_isSome hblock
    have hview : (parseDataDataOrU32 blocks allocations d τ.code u32 data).view d datum = _ :=
      parseDataDataOrU32_view hat hint τ hle
    rw [hparsed] at hview
    exact ⟨parsed, Reader.run_of_view hshows hview, by rw [size_of_parsedAt hparsed, hdatum]⟩

/-! ## The values of an enumeration -/

/-- What the loop of `ptp_prop_desc_json` meets: where each value lies and what is parsed of it,
and where the last one ends. -/
def visitEnum (memory : Allocator) (type : Nat) (form : PtpEnumerationForm) : (left : Nat) →
    (allocations : Nat) → (of : Int) → (value : UInt32) →
    Except Halt (List (Int × ParsedDatum) × Int)
  | 0, _, of, _ => .ok ([], of)
  | left + 1, allocations, of, value => do
      let parsed ← (parseDataDataOrU32 memory allocations of type value none).run
        (Reader.only .undefined (form.data.slice 0 form.data.size))
      let (visited, behind) ←
        visitEnum memory type form left parsed.allocations (of + parsed.size) parsed.u32
      return ((of, parsed) :: visited, behind)

/-- What is printed of the values met, the `i`-th of `length` first. -/
def visitsText (length : Int) : (i : Nat) → List (Int × ParsedDatum) → List UInt8
  | _, [] => []
  | i, visit :: visited =>
      Json.signed (toInt32 visit.2.u32.toNat) ++ (if length - 1 ≤ i then [] else ascii ", ") ++
        visitsText length (i + 1) visited

/-- The serialiser prints what the walk meets. -/
theorem enumText_eq (memory : Allocator) (type : Nat) (form : PtpEnumerationForm)
    (left i allocations : Nat) (of : Int) (value : UInt32) :
    enumText memory type form left i allocations of value =
      (visitEnum memory type form left allocations of value).toOption.map fun found =>
        visitsText form.length.toNat i found.1 := by
  induction left generalizing i allocations of value with
  | zero => rfl
  | succ left ih =>
      rw [enumText, visitEnum]
      cases (parseDataDataOrU32 memory allocations of type value none).run
        (Reader.only .undefined (form.data.slice 0 form.data.size)) with
      | error reason => rfl
      | ok parsed =>
          dsimp only
          rw [ih]
          change _ = Option.map _ (Except.toOption (visitEnum memory type form left
            parsed.allocations (of + parsed.size) parsed.u32 >>= fun found =>
              return ((of, parsed) :: found.1, found.2)))
          cases visitEnum memory type form left parsed.allocations (of + parsed.size)
            parsed.u32 with
          | error reason => rfl
          | ok found => rfl

/-- Where some data lie that follow one another, and how long they are. -/
def places : (of : Int) → List (List UInt8) → List (Int × Int)
  | _, [] => []
  | of, datum :: data => (of, (datum.length : Int)) :: places (of + datum.length) data

/-- The walk meets the values one after the other. -/
theorem visitEnum_of_values {memory : Allocator} {τ : DataType} {form : PtpEnumerationForm}
    {values : List (List UInt8)} {front : List UInt8} {allocations : Nat} (value : UInt32)
    (hvalues : ∀ datum ∈ values, τ.Encodes datum)
    (hblock : form.data.slice 0 form.data.size = front ++ values.flatten)
    (hint : ((front ++ values.flatten).length : Int) ≤ intMax)
    (hmemory : τ.wide = true → memory.GrantsAll allocations (values.map List.length)) :
    ∃ visited, visitEnum memory τ.code form values.length allocations front.length value =
        .ok (visited, ((front ++ values.flatten).length : Int)) ∧
      visited.map (fun visit => (visit.1, visit.2.size)) = places front.length values := by
  induction values generalizing front allocations value with
  | nil =>
      refine ⟨[], ?_, rfl⟩
      rw [List.flatten_nil, List.append_nil]
      rfl
  | cons datum values ih =>
      obtain ⟨hdatum, hvalues⟩ := List.forall_mem_cons.mp hvalues
      rw [List.flatten_cons] at hblock hint
      have hdrop : (front ++ (datum ++ values.flatten)).drop front.length =
          datum ++ values.flatten := List.drop_left
      have hextent := extent_of_encodes hdatum hdrop
      have hle : front.length + τ.extent (front ++ (datum ++ values.flatten)) front.length ≤
          (front ++ (datum ++ values.flatten)).length := by
        rw [hextent, List.length_append, List.length_append]
        omega
      have hgranted : τ.wide = true → (memory allocations
          (τ.extent (front ++ (datum ++ values.flatten)) front.length)).isSome := fun hwide => by
        rw [hextent]
        exact (hmemory hwide).1
      obtain ⟨parsed, hparsed, hallocations⟩ : ∃ parsed, parsedAt memory allocations τ
        (front ++ (datum ++ values.flatten)) front.length value none = some parsed ∧ _ :=
        parsedAt_isSome hgranted
      have hsize : parsed.size = datum.length := by rw [size_of_parsedAt hparsed, hextent]
      have hview : (parseDataDataOrU32 memory allocations front.length τ.code value none).view 0
          (front ++ (datum ++ values.flatten)) = _ :=
        parseDataDataOrU32_view (by simp) hint τ hle
      rw [hparsed] at hview
      have hrun := Reader.run_of_view (Reader.only_shows .undefined _) hview
      have hnext : (front.length : Int) + parsed.size = (front ++ datum).length := by
        rw [hsize, List.length_append, Int.natCast_add]
      rw [← List.append_assoc] at hblock hint
      have hrest : τ.wide = true → memory.GrantsAll parsed.allocations (values.map List.length) :=
        fun hwide => by
          rw [hallocations, if_pos hwide]
          exact (hmemory hwide).2
      obtain ⟨visited, hvisited, hplaces⟩ := ih parsed.u32 hvalues hblock hint hrest
      refine ⟨(front.length, parsed) :: visited, ?_, ?_⟩
      · rw [List.length_cons, visitEnum, hblock, List.flatten_cons, List.append_assoc]
        rw [← hnext, List.append_assoc] at hvisited
        exact except_bind_eq_ok.mpr ⟨parsed, hrun, except_bind_eq_ok.mpr ⟨_, hvisited, rfl⟩⟩
      · rw [List.map_cons, hplaces, places, hsize, List.length_append, Int.natCast_add]

/-! ## The descriptor they come from -/

theorem valuesEnd_of_encodes {τ : DataType} {values : List (List UInt8)} {payload rest : List UInt8}
    {p : Nat} (hvalues : ∀ datum ∈ values, τ.Encodes datum)
    (hdrop : payload.drop p = values.flatten ++ rest) :
    valuesEnd τ payload values.length p = p + values.flatten.length := by
  induction values generalizing p with
  | nil => rfl
  | cons datum values ih =>
      obtain ⟨hdatum, hvalues⟩ := List.forall_mem_cons.mp hvalues
      rw [List.flatten_cons, List.append_assoc] at hdrop
      have hnext : payload.drop (p + datum.length) = values.flatten ++ rest := by
        rw [← List.drop_drop, hdrop, List.drop_left]
      rw [List.length_cons, valuesEnd, extent_of_encodes hdatum hdrop, ih hvalues hnext,
        List.flatten_cons, List.length_append, Nat.add_assoc]

/-- A descriptor with an enumeration, its values as they are encoded. -/
structure EnumDescriptor where
  code : UInt16
  type : DataType
  readOnly : UInt8
  default : List UInt8
  current : List UInt8
  values : List (List UInt8)
  default_encodes : type.Encodes default
  current_encodes : type.Encodes current
  values_encode : ∀ datum ∈ values, type.Encodes datum
  values_length : values.length < 2 ^ 16

namespace EnumDescriptor

variable (d : EnumDescriptor)

/-- The descriptor as the device sends it. -/
def bytes : List UInt8 :=
  leBytes 2 d.code.toNat ++ (leBytes 2 d.type.code ++ (leBytes 1 d.readOnly.toNat ++
    (d.default ++ (d.current ++ (leBytes 1 ptpEnumerationForm ++
      (leBytes 2 d.values.length ++ d.values.flatten))))))

section Positions

variable (rest : List UInt8)

theorem drop_default : (d.bytes ++ rest).drop 5 = d.default ++ (d.current ++
    (leBytes 1 ptpEnumerationForm ++ (leBytes 2 d.values.length ++ (d.values.flatten ++ rest)))) := by
  have hheader : leBytes 2 d.code.toNat ++ (leBytes 2 d.type.code ++ leBytes 1 d.readOnly.toNat) ++
      (d.default ++ (d.current ++ (leBytes 1 ptpEnumerationForm ++ (leBytes 2 d.values.length ++
        (d.values.flatten ++ rest))))) = d.bytes ++ rest := by
    simp [bytes, List.append_assoc]
  rw [← hheader, List.drop_left' (by simp)]

theorem field_type : field 2 2 (d.bytes ++ rest) = d.type.code := by
  have hcode : d.type.code < 256 ^ 2 := by cases d.type <;> decide
  have hbehind : (d.bytes ++ rest).drop 2 = leBytes 2 d.type.code ++
      ((leBytes 1 d.readOnly.toNat ++ (d.default ++ (d.current ++ (leBytes 1 ptpEnumerationForm ++
        (leBytes 2 d.values.length ++ d.values.flatten))))) ++ rest) := by
    rw [bytes, List.append_assoc, List.drop_left' (leBytes_length _ _), List.append_assoc]
  exact field_of_drop hbehind hcode

theorem formOffset_eq :
    formOffset d.type (d.bytes ++ rest) = 5 + (d.default.length + d.current.length) := by
  have hencodes : ∀ datum ∈ [d.default, d.current], d.type.Encodes datum :=
    List.forall_mem_cons.mpr ⟨d.default_encodes, List.forall_mem_singleton.mpr d.current_encodes⟩
  have hdrop : (d.bytes ++ rest).drop 5 = [d.default, d.current].flatten ++
      (leBytes 1 ptpEnumerationForm ++ (leBytes 2 d.values.length ++ (d.values.flatten ++ rest))) := by
    rw [drop_default]
    simp [List.append_assoc]
  rw [formOffset, ← List.length_append]
  simpa using valuesEnd_of_encodes hencodes hdrop

theorem drop_form : (d.bytes ++ rest).drop (formOffset d.type (d.bytes ++ rest)) =
    leBytes 1 ptpEnumerationForm ++ (leBytes 2 d.values.length ++ (d.values.flatten ++ rest)) := by
  rw [formOffset_eq, ← List.drop_drop, drop_default, ← List.append_assoc,
    List.drop_left' List.length_append]

theorem field_form : field 1 (formOffset d.type (d.bytes ++ rest)) (d.bytes ++ rest) =
    ptpEnumerationForm := field_of_drop (d.drop_form rest) (by decide)

theorem drop_count : (d.bytes ++ rest).drop (formOffset d.type (d.bytes ++ rest) + 1) =
    leBytes 2 d.values.length ++ (d.values.flatten ++ rest) := by
  rw [← List.drop_drop, drop_form, List.drop_left' (leBytes_length _ _)]

theorem field_count : field 2 (formOffset d.type (d.bytes ++ rest) + 1) (d.bytes ++ rest) =
    d.values.length := field_of_drop (d.drop_count rest) d.values_length

theorem drop_values : (d.bytes ++ rest).drop (formOffset d.type (d.bytes ++ rest) + 3) =
    d.values.flatten ++ rest := by
  rw [show formOffset d.type (d.bytes ++ rest) + 3 = formOffset d.type (d.bytes ++ rest) + 1 + 2
    from rfl, ← List.drop_drop, drop_count, List.drop_left' (leBytes_length _ _)]

theorem valuesEnd_eq : valuesEnd d.type (d.bytes ++ rest) d.values.length
    (formOffset d.type (d.bytes ++ rest) + 3) =
      formOffset d.type (d.bytes ++ rest) + 3 + d.values.flatten.length :=
  valuesEnd_of_encodes d.values_encode (d.drop_values rest)

theorem complete : propDescEnd d.type (d.bytes ++ rest) ≤ (d.bytes ++ rest).length := by
  have hlength := congrArg List.length (d.drop_values rest)
  rw [List.length_drop, List.length_append, List.length_append] at hlength
  have hform := congrArg List.length (d.drop_form rest)
  rw [List.length_drop, List.length_append, List.length_append, List.length_append, leBytes_length,
    leBytes_length] at hform
  have hother : ¬ptpEnumerationForm = ptpRangeForm := by decide
  rw [propDescEnd, field_form, if_neg hother, if_pos rfl, field_count, valuesEnd_eq,
    List.length_append]
  rw [List.length_append] at hform
  omega

/-- The block that is copied. -/
theorem enumFormAt_bytes {memory : Allocator} {allocations n : Nat} {form : PtpEnumerationForm}
    (hform : enumFormAt memory allocations d.type (d.bytes ++ rest)
      (formOffset d.type (d.bytes ++ rest) + 1) = some (form, n)) :
    form.length.toNat = d.values.length ∧
      form.data.slice 0 form.data.size = d.values.flatten := by
  rw [enumFormAt, field_count, Nat.add_assoc, valuesEnd_eq, Nat.add_sub_cancel_left, drop_values,
    List.take_left] at hform
  obtain ⟨contents, -, heq⟩ := Option.map_eq_some_iff.mp hform
  cases heq
  exact ⟨UInt16.toNat_ofNat_of_lt' d.values_length, Buffer.store_slice_self _ _ _⟩

end Positions

/-- What `ptp_parse_prop_desc` leaves of the values: the copy is what was encoded, and the walk
over it meets each value where it begins and ends where the copy does. -/
structure Aligned (oi : PtpPropDesc) : Prop where
  dataType : oi.dataType.toNat = d.type.code
  walk : ∃ form, oi.enumForm = some form ∧ form.length.toNat = d.values.length ∧
    form.data.slice 0 form.data.size = d.values.flatten ∧
    ∀ (memory : Allocator) allocations value,
      (d.type.wide = true → memory.GrantsAll allocations (d.values.map List.length)) →
      ∃ visited, visitEnum memory oi.dataType.toNat form form.length.toNat allocations 0 value =
          .ok (visited, (form.data.size : Int)) ∧
        visited.map (fun visit => (visit.1, visit.2.size)) = places 0 d.values

theorem aligned_of_parsed {rest : List UInt8} (hint : ((d.bytes ++ rest).length : Int) ≤ intMax)
    {memory : Allocator} {allocations n : Nat} {oi oi' : PtpPropDesc}
    (hparsed : propDescAt memory allocations d.type (d.bytes ++ rest) oi = some (oi', n)) :
    d.Aligned oi' := by
  obtain ⟨default, current, -, -, ⟨hrange, -⟩ | ⟨-, form, hform, rfl⟩⟩ :=
    PropDescDataset.propDescAt_cases hparsed
  · rw [field_form] at hrange
    cases hrange
  · obtain ⟨hlength, hblock⟩ := d.enumFormAt_bytes rest hform
    have htype : (UInt16.ofNat d.type.code).toNat = d.type.code :=
      UInt16.toNat_ofNat_of_lt' (by cases d.type <;> decide)
    refine ⟨htype, form, rfl, hlength, hblock, fun memory allocations value hmemory => ?_⟩
    have hsize := congrArg List.length hblock
    rw [Buffer.slice_length] at hsize
    have hvalues := congrArg List.length (d.drop_values rest)
    rw [List.length_drop, List.length_append, List.length_append] at hvalues
    rw [List.length_append] at hint
    have hint' : ((([] : List UInt8) ++ d.values.flatten).length : Int) ≤ intMax := by
      rw [List.nil_append]
      omega
    obtain ⟨visited, hvisited, hplaces⟩ := visitEnum_of_values value d.values_encode
      hblock hint' hmemory
    rw [List.nil_append, ← hsize] at hvisited
    refine ⟨visited, ?_, hplaces⟩
    dsimp only
    rw [PtpPropDesc.filled, htype, hlength]
    exact hvisited

end EnumDescriptor

/-- The three functions agree on the size of every datum, and so the values of an enumeration
are copied and met again as they were encoded. -/
theorem values_stay_aligned :
    (∀ (τ : DataType) (datum : List UInt8), τ.Encodes datum → τ.arrayCount datum < 2 ^ 27 →
      ∀ (memory : Reader.Memory UInt8 Halt) (start : Int), Reader.Shows memory start datum →
        SameSize memory start τ datum.length) ∧
    (∀ (d : EnumDescriptor) (rest : List UInt8) (r : PtpRuntime) (start length : Int),
      r.HasPayload start length (d.bytes ++ rest) →
      ∀ (memory : Allocator) allocations oi,
        (memory.GrantsAll allocations (blocksAsked d.type (d.bytes ++ rest)) → ∃ oi' n,
          (ptpParsePropDesc memory allocations r oi).run r.load = .ok (0, oi', n)) ∧
        ∀ rc oi' n, (ptpParsePropDesc memory allocations r oi).run r.load = .ok (rc, oi', n) →
          rc = 0 ∧ d.Aligned oi') := by
  refine ⟨fun τ datum hdatum hcount memory start hshows =>
    sameSize_of_shows hdatum (datum_length_le hdatum hcount) hshows, ?_⟩
  intro d rest r start length hpayload memory allocations oi
  obtain ⟨result, hview, hresult⟩ := ptpParsePropDesc_view hpayload memory allocations oi
    (d.field_type rest) (d.complete rest)
  have hrun := Reader.run_of_view hpayload.shows hview
  rw [hrun]
  constructor
  · intro hgrants
    have hknown : FormKnown d.type (d.bytes ++ rest) := Or.inr (d.field_form rest)
    obtain ⟨⟨oi', n⟩, hparsed⟩ := propDescAt_isSome_iff.mpr ⟨hknown, hgrants⟩
    exact ⟨oi', n, (hresult 0 oi' n).mpr ⟨rfl, hparsed⟩⟩
  · intro rc oi' n hreturn
    obtain ⟨rfl, hparsed⟩ := (hresult rc oi' n).mp hreturn
    exact ⟨rfl, d.aligned_of_parsed hpayload.length_le hparsed⟩

/-- An enumeration of strings. -/
def threeNames : EnumDescriptor where
  code := 0xd001
  type := .string
  readOnly := 0
  default := [0]
  current := [2, 0x41, 0, 0, 0]
  values := [[0], [2, 0x41, 0, 0, 0], [1, 0x42, 0]]
  default_encodes := by decide
  current_encodes := by decide
  values_encode := by
    simp only [List.forall_mem_cons, List.not_mem_nil, false_imp_iff, implies_true, and_true]
    decide
  values_length := by decide

theorem values_stay_aligned_names : ∃ oi' n,
    (ptpParsePropDesc zeroedMemory 0 (replied (threeNames.bytes ++ [])) blankPropDesc).run
      (replied (threeNames.bytes ++ [])).load = .ok (0, oi', n) ∧ threeNames.Aligned oi' ∧
    SameSize (Reader.only .undefined [1, 0x42, 0]) 0 .string 3 := by
  have hpayload := received_hasPayload (threeNames.bytes ++ []) (by decide)
  have hparse := values_stay_aligned.2 threeNames [] _ _ _ hpayload zeroedMemory 0 blankPropDesc
  have hgrants : zeroedMemory.GrantsAll 0
      (blocksAsked threeNames.type (threeNames.bytes ++ [])) := ⟨rfl, rfl, rfl, trivial⟩
  obtain ⟨oi', n, hrun⟩ := hparse.1 hgrants
  exact ⟨oi', n, hrun, (hparse.2 0 oi' n hrun).2, values_stay_aligned.1 .string [1, 0x42, 0]
    (by decide) (by decide) _ 0 (Reader.only_shows _ _)⟩

end Libpict
