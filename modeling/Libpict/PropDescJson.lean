import Libpict.DatasetSafety
import Libpict.EmittedJson

/-! # Emitted property descriptors

What the parser leaves in a descriptor of an integer type is enough for its serialiser, except
for a range that does not come to an end.
-/

namespace Libpict

open Bytes CInt Exec Json

/-! ## Integer types -/

def DataType.isInteger : DataType → Bool
  | int8 | uint8 | int16 | uint16 | int32 | uint32 | int64 | uint64 => true
  | _ => false

/-- The size of a value of an integer type. -/
def DataType.width (τ : DataType) : Nat := τ.extent [] 0

theorem integer_of_code {type : Nat} (htype : isIntegerType type) :
    ∃ τ : DataType, τ.code = type ∧ τ.isInteger = true := by
  obtain rfl | rfl | rfl | rfl | rfl | rfl | rfl | rfl := htype
  · exact ⟨.int8, rfl, rfl⟩
  · exact ⟨.uint8, rfl, rfl⟩
  · exact ⟨.int16, rfl, rfl⟩
  · exact ⟨.uint16, rfl, rfl⟩
  · exact ⟨.int32, rfl, rfl⟩
  · exact ⟨.uint32, rfl, rfl⟩
  · exact ⟨.int64, rfl, rfl⟩
  · exact ⟨.uint64, rfl, rfl⟩

section Integer

variable {τ : DataType} (hτ : τ.isInteger = true)

include hτ

theorem extent_of_integer (payload : List UInt8) (p : Nat) : τ.extent payload p = τ.width := by
  cases τ <;> first | rfl | cases hτ

omit hτ in
theorem number_isSome (payload : List UInt8) (p : Nat) :
    (τ.number payload p).isSome = !τ.wide := by
  cases τ <;> rfl

theorem ptpGetPropSize_integer (d : Int) : ptpGetPropSize d τ.code = .done (τ.width : Int) := by
  cases τ <;> first | rfl | cases hτ

/-! ## Enumerations -/

/-- The allocator has a block for every value that needs one. -/
def BlocksGranted (memory : Allocator) (τ : DataType) (allocations count : Nat) : Prop :=
  τ.wide = true → ∀ k < count, (memory (allocations + k) τ.width).isSome

theorem parse_integer {memory : Allocator} {allocations p : Nat} {value : UInt32}
    {window : List UInt8} (hint : (window.length : Int) ≤ intMax)
    (hle : p + τ.width ≤ window.length) :
    (parseDataDataOrU32 memory allocations (p : Int) τ.code value none).run
        (Reader.only .undefined window) =
      match parsedAt memory allocations τ window p value none with
      | none => .error .undefined
      | some d => .ok d := by
  apply Reader.run_of_view (Reader.only_shows _ _)
  apply parseDataDataOrU32_view (by simp) hint
  rw [extent_of_integer hτ]
  exact hle

/-- The values of an enumeration are printed if they lie in its data and the allocator has a
block for each that needs one. -/
theorem enumText_isSome_iff {memory : Allocator} {form : PtpEnumerationForm}
    (hint : (form.data.size : Int) ≤ intMax)
    (hroom : form.length.toNat * τ.width ≤ form.data.size) {left i allocations : Nat}
    {value : UInt32} (hcount : i + left = form.length.toNat) :
    (enumText memory τ.code form left i allocations ((i * τ.width : Nat) : Int) value).isSome ↔
      BlocksGranted memory τ allocations left := by
  induction left generalizing i allocations value with
  | zero => exact iff_of_true rfl fun _ k hk => absurd hk (Nat.not_lt_zero k)
  | succ left ih =>
      have hlength : (form.data.slice 0 form.data.size).length = form.data.size := by simp
      have hle : i * τ.width + τ.width ≤ (form.data.slice 0 form.data.size).length := by
        have hmul : (i + 1) * τ.width ≤ form.length.toNat * τ.width :=
          Nat.mul_le_mul_right _ (by omega)
        rw [Nat.succ_mul] at hmul
        omega
      have hnumber := @number_isSome τ (form.data.slice 0 form.data.size) (i * τ.width)
      have hnext : ((i * τ.width : Nat) : Int) + ((τ.width : Nat) : Int) =
          (((i + 1) * τ.width : Nat) : Int) := by
        rw [Nat.succ_mul]
        push_cast
        rfl
      have hjoined : ∀ (piece : List UInt8) (text : Option (List UInt8)),
          (joined (some piece) text).isSome = text.isSome := by
        intro piece text
        cases text <;> rfl
      rw [enumText, parse_integer hτ (by rw [hlength]; exact hint) hle, parsedAt]
      cases hsome : τ.number (form.data.slice 0 form.data.size) (i * τ.width) with
      | some number =>
          have hwide : τ.wide = false := by simpa [hsome] using hnumber
          dsimp only
          rw [hjoined, extent_of_integer hτ, hnext, ih (by omega)]
          unfold BlocksGranted
          simp [hwide]
      | none =>
          have hwide : τ.wide = true := by simpa [hsome] using hnumber
          dsimp only
          rw [extent_of_integer hτ]
          cases hblock : memory allocations τ.width with
          | none =>
              refine iff_of_false Bool.false_ne_true fun hgranted => ?_
              have hfirst := hgranted hwide 0 (Nat.succ_pos _)
              rw [Nat.add_zero, hblock] at hfirst
              exact absurd hfirst Bool.false_ne_true
          | some contents =>
              rw [Option.map_some]
              dsimp only
              rw [hjoined, hnext, ih (by omega)]
              constructor
              · intro hgranted _ k hk
                cases k with
                | zero => rw [Nat.add_zero, hblock]; rfl
                | succ k =>
                    have hlater := hgranted hwide k (Nat.lt_of_succ_lt_succ hk)
                    rwa [Nat.add_assoc, Nat.add_comm 1] at hlater
              · intro hgranted _ k hk
                have hlater := hgranted hwide (k + 1) (Nat.succ_lt_succ hk)
                rwa [← Nat.add_assoc, Nat.add_right_comm] at hlater

end Integer

/-- What is printed of an enumeration fills an array. -/
theorem enumText_fills {memory : Allocator} {type : Nat} {form : PtpEnumerationForm}
    {left i allocations : Nat} {of : Int} {value : UInt32} {body : List UInt8}
    (hcount : i + left = form.length.toNat)
    (htext : enumText memory type form left i allocations of value = some body) :
    left = 0 ∧ body = [] ∨ 0 < left ∧ Fills body := by
  induction left generalizing i allocations of value body with
  | zero => exact .inl ⟨rfl, (Option.some.inj htext).symm⟩
  | succ left ih =>
      rw [enumText] at htext
      split at htext
      next => cases htext
      next parsed _ =>
        cases hrest : enumText memory type form left (i + 1) parsed.allocations
            (of + parsed.size) parsed.u32 with
        | none =>
            rw [hrest] at htext
            cases htext
        | some rest =>
            rw [hrest] at htext
            obtain rfl := Option.some.inj htext
            dsimp only
            obtain ⟨rfl, rfl⟩ | ⟨hleft, hfills⟩ := ih (by omega) hrest
            · rw [if_pos (by omega)]
              exact .inr ⟨Nat.succ_pos _, by simpa using fills_last (reads_signed _)⟩
            · rw [if_neg (by omega), List.append_assoc]
              exact .inr ⟨Nat.succ_pos _, fills_more (reads_signed _) hfills⟩

/-! ## What the parser leaves -/

/-- A form that can be printed: a range, or an enumeration whose values of an integer type lie
in its data. -/
def FormStored (pd : PtpPropDesc) : Prop :=
  pd.formType.toNat = ptpRangeForm ∨ pd.formType.toNat = ptpEnumerationForm ∧
    ∃ form, pd.enumForm = some form ∧ ∀ τ : DataType, τ.isInteger = true →
      τ.code = pd.dataType.toNat →
      form.length.toNat * τ.width ≤ form.data.size ∧ (form.data.size : Int) ≤ intMax

theorem sumPropSizes_integer {τ : DataType} (hτ : τ.isInteger = true) {d length n : Int}
    {left : Nat} {load : Reader.Memory UInt8 Halt} (hlength : Fits length)
    (hrun : (sumPropSizes d τ.code left length).run load = .ok n) :
    n = length + ((left * τ.width : Nat) : Int) ∧ Fits n := by
  induction left generalizing length with
  | zero =>
      obtain rfl := Except.ok.inj hrun
      exact ⟨by simp, hlength⟩
  | succ left ih =>
      rw [sumPropSizes, ptpGetPropSize_integer hτ, Reader.done_bind] at hrun
      by_cases hfits : Fits (length + (τ.width : Int))
      · rw [if_pos hfits] at hrun
        obtain ⟨rfl, hn⟩ := ih hfits hrun
        refine ⟨?_, hn⟩
        rw [Nat.succ_mul]
        push_cast
        ring
      · rw [if_neg hfits] at hrun
        cases hrun

theorem parseEnumForm_integer {τ : DataType} (hτ : τ.isInteger = true) {memory : Allocator}
    {allocations m : Nat} {d : Int} {load : Reader.Memory UInt8 Halt} {form : PtpEnumerationForm}
    (hrun : (parseEnumForm memory allocations d τ.code).run load = .ok (form, m)) :
    form.length.toNat * τ.width ≤ form.data.size ∧ (form.data.size : Int) ≤ intMax := by
  rw [parseEnumForm, Reader.run_bind] at hrun
  obtain ⟨count, -, hrun⟩ := except_bind_eq_ok.mp hrun
  rw [Reader.run_bind] at hrun
  obtain ⟨length, hlength, hrun⟩ := except_bind_eq_ok.mp hrun
  obtain ⟨hsum, hfits⟩ := sumPropSizes_integer hτ (by decide) hlength
  rw [zero_add] at hsum
  unfold Fits at hfits
  have hsize : toSize length = count * τ.width := by
    have hsize := toSize_of_nonneg (by omega : 0 ≤ length) (by omega)
    omega
  have htotal : toSize (enumerationFormSize + length) = 2 + count * τ.width := by
    have htotal := toSize_of_nonneg (by unfold enumerationFormSize; omega :
      0 ≤ (enumerationFormSize : Int) + length) (by unfold enumerationFormSize; omega)
    unfold enumerationFormSize at htotal ⊢
    omega
  rw [Allocator.malloc, htotal, hsize] at hrun
  cases hblock : memory allocations (2 + count * τ.width) with
  | none =>
      rw [hblock] at hrun
      cases hrun
  | some contents =>
      rw [hblock, Option.map_some] at hrun
      dsimp only at hrun
      rw [Reader.run_bind] at hrun
      obtain ⟨data, hdata, hrun⟩ := except_bind_eq_ok.mp hrun
      rw [copyTo, Reader.run_bind] at hdata
      obtain ⟨bytes, -, hdata⟩ := except_bind_eq_ok.mp hdata
      dsimp only at hdata
      have hform := (Prod.mk.inj (Except.ok.inj hrun)).1
      split at hdata
      next =>
        obtain rfl := Except.ok.inj hdata
        rw [← hform]
        have hcount : (UInt16.ofNat count).toNat ≤ count := by
          rw [UInt16.toNat_ofNat']
          exact Nat.mod_le _ _
        have hmul : (UInt16.ofNat count).toNat * τ.width ≤ count * τ.width :=
          Nat.mul_le_mul_right _ hcount
        have hstored : 2 + count * τ.width - enumerationFormSize = count * τ.width := by
          unfold enumerationFormSize
          omega
        dsimp only [Buffer.store_size]
        rw [hstored]
        unfold intMax
        exact ⟨hmul, by omega⟩
      next => cases hdata

theorem run_readLe_lt {r : PtpRuntime} {size value : Nat} {offset : Int}
    (hrun : (readLe size offset).run r.load = .ok value) : value < 256 ^ size := by
  rw [readLe, Reader.run_bind, Reader.run_read] at hrun
  obtain ⟨bytes, hbytes, hrun⟩ := except_bind_eq_ok.mp hrun
  obtain rfl := Except.ok.inj hrun
  have hlength : bytes.length = size := by
    unfold PtpRuntime.load at hbytes
    split at hbytes
    next => cases hbytes
    next =>
      split at hbytes
      next =>
        obtain rfl := Except.ok.inj hbytes
        simp
      next => cases hbytes
  have hlt := leValue_lt bytes
  rwa [hlength] at hlt

/-- The form that `ptp_parse_prop_desc` leaves is the one it has read. -/
theorem form_of_run {memory : Allocator} {allocations n : Nat} {r : PtpRuntime}
    {oi pd : PtpPropDesc} {rc : Int}
    (hrun : (ptpParsePropDesc memory allocations r oi).run r.load = .ok (rc, pd, n)) :
    (pd.formType.toNat = ptpRangeForm ∧ ∃ d form,
      (parseRangeForm d pd.dataType.toNat form).run r.load = .ok pd.rangeForm) ∨
    (pd.formType.toNat = ptpEnumerationForm ∧ ∃ d m form m', pd.enumForm = some form ∧
      (parseEnumForm memory m d pd.dataType.toNat).run r.load = .ok (form, m')) := by
  rw [ptpParsePropDesc, Reader.run_bind] at hrun
  obtain ⟨d, -, hrun⟩ := except_bind_eq_ok.mp hrun
  rw [Reader.run_bind] at hrun
  obtain ⟨code, -, hrun⟩ := except_bind_eq_ok.mp hrun
  rw [Reader.run_bind] at hrun
  obtain ⟨type, htype, hrun⟩ := except_bind_eq_ok.mp hrun
  rw [Reader.run_bind] at hrun
  obtain ⟨readOnly, -, hrun⟩ := except_bind_eq_ok.mp hrun
  rw [Reader.run_bind] at hrun
  obtain ⟨default, -, hrun⟩ := except_bind_eq_ok.mp hrun
  rw [Reader.run_bind] at hrun
  obtain ⟨current, -, hrun⟩ := except_bind_eq_ok.mp hrun
  rw [Reader.run_bind] at hrun
  obtain ⟨formType, hformType, hrun⟩ := except_bind_eq_ok.mp hrun
  have htype' : (UInt16.ofNat type).toNat = type :=
    UInt16.toNat_ofNat_of_lt' (run_readLe_lt htype)
  have hformType' : (UInt8.ofNat formType).toNat = formType :=
    UInt8.toNat_ofNat_of_lt' (run_readLe_lt hformType)
  dsimp only at hrun
  split at hrun
  next hrange =>
    rw [Reader.run_bind] at hrun
    obtain ⟨range, hform, hrun⟩ := except_bind_eq_ok.mp hrun
    obtain rfl := (Prod.mk.inj (Prod.mk.inj (Except.ok.inj hrun)).2).1
    rw [← htype'] at hform
    exact .inl ⟨hformType'.trans hrange, _, _, hform⟩
  next =>
    split at hrun
    next henum =>
      rw [Reader.run_bind] at hrun
      obtain ⟨⟨form, m⟩, hform, hrun⟩ := except_bind_eq_ok.mp hrun
      obtain rfl := (Prod.mk.inj (Prod.mk.inj (Except.ok.inj hrun)).2).1
      rw [← htype'] at hform
      exact .inr ⟨hformType'.trans henum, _, _, form, m, rfl, hform⟩
    next => cases hrun

/-- What `ptp_parse_prop_desc` leaves can be printed. -/
theorem formStored_of_run {memory : Allocator} {allocations n : Nat} {r : PtpRuntime}
    {oi pd : PtpPropDesc} {rc : Int}
    (hrun : (ptpParsePropDesc memory allocations r oi).run r.load = .ok (rc, pd, n)) :
    FormStored pd := by
  obtain ⟨hrange, -⟩ | ⟨henum, d, m, form, m', hform, hparse⟩ := form_of_run hrun
  · exact .inl hrange
  · refine .inr ⟨henum, form, hform, fun τ hτ hcode => ?_⟩
    rw [← hcode] at hparse
    exact parseEnumForm_integer hτ hparse

/-! ## The text -/

/-- The loop over the entries of a descriptor of an integer type comes to its end: a range
ends, and an enumeration gets the blocks that it asks for. -/
def EntriesEnd (memory : Allocator) (allocations : Nat) (pd : PtpPropDesc) : Prop :=
  if pd.formType.toNat = ptpRangeForm then RangeEnds pd.rangeForm
  else ∀ (form : PtpEnumerationForm) (τ : DataType), pd.enumForm = some form →
    τ.code = pd.dataType.toNat → BlocksGranted memory τ allocations form.length.toNat

theorem entriesText_isSome_iff {memory : Allocator} {allocations : Nat} {value : UInt32}
    {pd : PtpPropDesc} (hinteger : isIntegerType pd.dataType.toNat) (hstored : FormStored pd)
    (hmin : Fits pd.rangeForm.min) :
    (∃ fuel, (entriesText memory allocations value pd fuel).isSome) ↔
      EntriesEnd memory allocations pd := by
  unfold entriesText EntriesEnd
  by_cases hrange : pd.formType.toNat = ptpRangeForm
  · simp only [if_pos hrange]
    exact rangeText_isSome_iff hmin
  · simp only [if_neg hrange]
    obtain ⟨τ, hcode, hτ⟩ := integer_of_code hinteger
    obtain ⟨-, form, hform, hinside⟩ := hstored.resolve_left hrange
    obtain ⟨hroom, hint⟩ := hinside τ hτ hcode
    have htext := @enumText_isSome_iff τ hτ memory form hint hroom form.length.toNat 0 allocations
      value (by omega)
    rw [Nat.zero_mul, Nat.cast_zero] at htext
    rw [hform, ← hcode]
    constructor
    · rintro ⟨_, hsome⟩ form' τ' hform' hcode'
      obtain rfl := Option.some.inj hform'
      obtain rfl : τ' = τ := by
        cases τ' <;> cases τ <;> first | rfl | exact absurd hcode' (by decide)
      exact htext.mp hsome
    · intro hend
      exact ⟨0, htext.mpr (hend form τ rfl rfl)⟩

theorem entriesText_fills {memory : Allocator} {allocations : Nat} {value : UInt32}
    {pd : PtpPropDesc} {fuel : Nat} {body : List UInt8}
    (htext : entriesText memory allocations value pd fuel = some body) :
    body = [] ∨ Fills body := by
  unfold entriesText at htext
  split at htext
  next =>
    obtain ⟨-, hbody⟩ | ⟨-, hbody⟩ := rangeText_fills htext
    · exact .inl hbody
    · exact .inr hbody
  next =>
    obtain ⟨form, -, henum⟩ := Option.bind_eq_some_iff.mp htext
    obtain ⟨-, hbody⟩ | ⟨-, hbody⟩ := enumText_fills (by omega) henum
    · exact .inl hbody
    · exact .inr hbody

/-- `ptp_prop_desc_json` emits JSON about a descriptor of an integer type, if its loop ends. -/
theorem propDesc_emits_iff {memory : Allocator} {allocations : Nat} {value : UInt32}
    {pd : PtpPropDesc} (hinteger : isIntegerType pd.dataType.toNat) (hstored : FormStored pd)
    (hmin : Fits pd.rangeForm.min) :
    (∃ fuel, EmitsJson fun max => ptpPropDescJson max memory allocations value pd fuel) ↔
      EntriesEnd memory allocations pd := by
  rw [← @entriesText_isSome_iff memory allocations value pd hinteger hstored hmin]
  refine exists_congr fun fuel => ?_
  rw [emitsJson_iff_run (ptpPropDescJson_prints _ _ _ _ _), propDescText, valuesText,
    if_pos hinteger]
  cases htext : entriesText memory allocations value pd fuel with
  | none => simp [allJoined, joined, runText]
  | some body =>
      have hopen : run ⟨.value, []⟩ (ascii "\x7b\n") = some ⟨.firstKey, [.object]⟩ := rfl
      have hcode : run ⟨.firstKey, [.object]⟩ (ascii "\"code\": " ++ decimal pd.code.toNat ++
          ascii ",\n") = some ⟨.key, [.object]⟩ := run_member rfl (reads_decimal _) rfl rfl
      have htype : run ⟨.key, [.object]⟩ (ascii "\"type\": " ++ decimal pd.dataType.toNat ++
          ascii ",\n") = some ⟨.key, [.object]⟩ := run_member rfl (reads_decimal _) rfl rfl
      have hcurrent : run ⟨.key, [.object]⟩ (ascii "\"currentValue32\": " ++
          signed (toInt32 pd.currentValue32.toNat) ++ ascii ",\n") = some ⟨.key, [.object]⟩ :=
        run_member rfl (reads_signed _) rfl rfl
      have hdefault : run ⟨.key, [.object]⟩ (ascii "\"defaultValue32\": " ++
          decimal pd.defaultValue32.toNat ++ ascii ",\n") = some ⟨.key, [.object]⟩ :=
        run_member rfl (reads_decimal _) rfl rfl
      have hentries : run ⟨.key, [.object]⟩ (ascii "\"validEntries\": [") =
          some ⟨.first, [.array, .object]⟩ := rfl
      have hcomma : run ⟨.done, [.object]⟩ (ascii ",\n") = some ⟨.key, [.object]⟩ := rfl
      have hform : run ⟨.key, [.object]⟩ (ascii "\"form_type\": " ++ decimal pd.formType.toNat ++
          ascii "\n") = some ⟨.done, [.object]⟩ := run_member rfl (reads_decimal _) rfl rfl
      have hclose : run ⟨.done, [.object]⟩ (ascii "\x7d") = some ⟨.done, []⟩ := rfl
      have hvalues : runText ⟨.key, [.object]⟩ (joined (some (ascii "\"currentValue32\": " ++
          signed (toInt32 pd.currentValue32.toNat) ++ ascii ",\n"))
          (some (ascii "\"defaultValue32\": " ++ decimal pd.defaultValue32.toNat ++
            ascii ",\n"))) = some ⟨.key, [.object]⟩ := by
        rw [runText_step hcurrent, runText_some, hdefault]
      refine iff_of_true ⟨⟨.done, []⟩, ?_, trivial⟩ rfl
      simp only [allJoined]
      rw [runText_step hopen, runText_step hcode, runText_step htype, runText_part hvalues,
        runText_step hentries, runText_codes (entriesText_fills htext), runText_step hcomma,
        runText_step hform, runText_some, hclose]

end Libpict
