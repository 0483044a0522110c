import Libpict.ValueWalk

/-! # The valid entries of a property

A range and an enumeration stand for lists of values. The serialiser prints the list of an
enumeration, and that of a range up to its maximum, which it leaves out.
-/

namespace Libpict

open Bytes CInt Exec Json

/-! ## Lists of values -/

/-- The text of a list of values. -/
def listText : List Int → List UInt8
  | [] => []
  | [value] => signed value
  | value :: values => signed value ++ ascii ", " ++ listText values

theorem listText_cons (value : Int) (values : List Int) : listText (value :: values) =
    signed value ++ (if values = [] then [] else ascii ", ") ++ listText values := by
  cases values with
  | nil => simp [listText]
  | cons next values => rfl

theorem signed_ne_nil (value : Int) : signed value ≠ [] := by
  have hdecimal : ∀ n, decimal n ≠ [] := by
    intro n
    unfold decimal
    split
    · exact List.cons_ne_nil _ _
    next hne => simp [Nat.digits_ne_nil_iff_ne_zero.mpr hne]
  unfold signed
  split
  · exact List.cons_ne_nil _ _
  · exact hdecimal _

/-- A list with one more value has a longer text. -/
theorem listText_length_lt (values : List Int) (last : Int) :
    (listText values).length < (listText (values ++ [last])).length := by
  have hlast := List.length_pos_iff.mpr (signed_ne_nil last)
  induction values with
  | nil => exact hlast
  | cons value values ih =>
      have hmore : values ++ [last] ≠ [] := by simp
      rw [List.cons_append, listText_cons, listText_cons, if_neg hmore]
      split
      · simp only [List.length_append, List.length_nil] at ih ⊢
        omega
      · simp only [List.length_append] at ih ⊢
        omega

/-- The `k`-th value of a range. -/
def PtpRangeForm.nth (form : PtpRangeForm) (k : Nat) : Int := form.min + k * form.step

/-- The values of a range: its minimum, and every step from it up to its maximum. -/
def legalValues (form : PtpRangeForm) : List Int :=
  (List.range ((form.max - form.min) / form.step + 1).toNat).map form.nth

theorem mem_legalValues {form : PtpRangeForm} (hstep : 0 < form.step) (value : Int) :
    value ∈ legalValues form ↔ ∃ k : Nat, value = form.nth k ∧ value ≤ form.max := by
  have hbound : ∀ k : Nat, form.nth k ≤ form.max ↔
      k < ((form.max - form.min) / form.step + 1).toNat := by
    intro k
    have hle : form.nth k ≤ form.max ↔ (k : Int) ≤ (form.max - form.min) / form.step := by
      rw [Int.le_ediv_iff_mul_le hstep, PtpRangeForm.nth]
      omega
    omega
  simp only [legalValues, List.mem_map, List.mem_range]
  constructor
  · rintro ⟨k, hk, rfl⟩
    exact ⟨k, rfl, (hbound k).mpr hk⟩
  · rintro ⟨k, rfl, hk⟩
    exact ⟨k, (hbound k).mp hk, rfl⟩

/-! ## Ranges -/

section Range

variable {form : PtpRangeForm}

theorem nth_succ (k : Nat) : form.nth (k + 1) = form.nth k + form.step := by
  unfold PtpRangeForm.nth
  push_cast
  ring

theorem nth_mono (hstep : 0 < form.step) {j k : Nat} (hle : j ≤ k) : form.nth j ≤ form.nth k := by
  have hmono : Monotone form.nth := by
    apply monotone_nat_of_le_succ
    intro k
    rw [nth_succ]
    omega
  exact hmono hle

/-- From its `k`-th value on, the loop prints the next ones up to the first that is not below the
maximum. -/
theorem rangeText_steps (hstep : 0 < form.step) (hlast : Fits (form.max - form.step))
    {k count : Nat} (hbelow : ∀ j < k + count, form.nth j < form.max)
    (hend : form.max ≤ form.nth (k + count)) (hlow : Fits (form.nth k))
    (hhigh : Fits (form.nth (k + count))) (extra : Nat) :
    rangeText form (count + 1 + extra) (form.nth k) =
      some (listText ((List.range' k count).map form.nth)) := by
  induction count generalizing k with
  | zero =>
      rw [Nat.add_zero] at hend
      rw [Nat.zero_add, Nat.add_comm, rangeText, if_neg (not_lt.mpr hend)]
      rfl
  | succ count ih =>
      rw [← Nat.add_assoc, Nat.add_right_comm] at hend hhigh
      have hnext : Fits (form.nth (k + 1)) := by
        have hfirst := nth_mono hstep (Nat.le_add_right k 1)
        have hsecond := nth_mono hstep (Nat.le_add_right (k + 1) count)
        unfold Fits at *
        omega
      have hrest := ih (fun j hj => hbelow j (by omega)) hend hnext hhigh
      have hcomma : form.max - form.step ≤ form.nth k ↔ count = 0 := by
        have hsucc : form.nth (k + 1) = form.nth k + form.step := nth_succ k
        constructor
        · intro hle
          by_contra hne
          have hlt := hbelow (k + 1) (by omega)
          omega
        · rintro rfl
          rw [Nat.add_zero] at hend
          omega
      rw [show count + 1 + 1 + extra = count + 1 + extra + 1 by omega, rangeText,
        if_pos (hbelow k (by omega)), if_pos hlast, ← nth_succ, if_pos hnext, hrest,
        List.range'_succ, List.map_cons, listText_cons]
      simp only [hcomma, List.map_eq_nil_iff, List.range'_eq_nil_iff]
      rfl

/-- The loop prints some values, whatever fuel above some bound it is given. -/
def RangePrints (form : PtpRangeForm) (values : List Int) : Prop :=
  ∃ enough, ∀ fuel ≥ enough, rangeText form fuel form.min = some (listText values)

/-- A range whose values are all printed: it has none, or its maximum is not among them and the
loop comes to its end without an overflow. A range of one value must not go on. -/
def RangeListed (form : PtpRangeForm) : Prop :=
  form.max < form.min ∨ form.max = form.min ∧ form.step ≤ 0 ∨
    form.min < form.max ∧ 0 < form.step ∧ ¬form.step ∣ form.max - form.min ∧
      Fits (form.max - form.step) ∧
      Fits (form.nth ((form.max - form.min) / form.step + 1).toNat)

/-- A range that ends below its minimum, or at it, has nothing printed. -/
theorem rangePrints_nil (hend : form.max ≤ form.min) : RangePrints form [] := by
  refine ⟨1, fun fuel hfuel => ?_⟩
  obtain ⟨extra, rfl⟩ := Nat.exists_eq_add_of_le hfuel
  rw [Nat.add_comm, rangeText, if_neg (not_lt.mpr hend)]
  rfl

theorem RangePrints.unique {values : List Int} {count : Nat} (hprints : RangePrints form values)
    (hcount : RangePrints form ((List.range count).map form.nth)) :
    listText values = listText ((List.range count).map form.nth) := by
  obtain ⟨enough, hprints⟩ := hprints
  obtain ⟨enough', hcount⟩ := hcount
  have hfirst := hprints (enough + enough') (by omega)
  have hsecond := hcount (enough + enough') (by omega)
  exact Option.some.inj (hfirst.symm.trans hsecond)

/-- What is printed of a range that ends. -/
theorem rangePrints_count (hmin : Fits form.min) (hstep : 0 < form.step)
    (hlast : Fits (form.max - form.step)) {count : Nat} (hbelow : ∀ j < count, form.nth j < form.max)
    (hend : form.max ≤ form.nth count) (hfits : Fits (form.nth count)) :
    RangePrints form ((List.range count).map form.nth) := by
  have hzero : form.nth 0 = form.min := by simp [PtpRangeForm.nth]
  refine ⟨count + 1, fun fuel hfuel => ?_⟩
  obtain ⟨extra, rfl⟩ := Nat.exists_eq_add_of_le hfuel
  rw [← hzero] at hmin
  rw [← Nat.zero_add count] at hbelow hend hfits
  have hsteps := rangeText_steps hstep hlast hbelow hend hmin hfits extra
  rw [hzero, ← List.range_eq_range'] at hsteps
  exact hsteps

section Quotient

variable (hstep : 0 < form.step) (hle : form.min ≤ form.max)

include hstep hle

theorem quotient_eq : ((form.max - form.min) / form.step + 1).toNat =
    ((form.max - form.min) / form.step).toNat + 1 := by
  have hnonneg := Int.ediv_nonneg (by omega : 0 ≤ form.max - form.min) hstep.le
  omega

/-- The maximum lies between two neighbours, or is the first of them. -/
theorem nth_quotient : form.nth ((form.max - form.min) / form.step).toNat ≤ form.max ∧
    form.max < form.nth (((form.max - form.min) / form.step).toNat + 1) ∧
    (form.nth ((form.max - form.min) / form.step).toNat = form.max ↔
      form.step ∣ form.max - form.min) := by
  have hnonneg := Int.ediv_nonneg (by omega : 0 ≤ form.max - form.min) hstep.le
  have hdiv := Int.mul_ediv_add_emod (form.max - form.min) form.step
  have hlow := Int.emod_nonneg (form.max - form.min) hstep.ne'
  have hhigh := Int.emod_lt_of_pos (form.max - form.min) hstep
  have hnth : form.nth ((form.max - form.min) / form.step).toNat =
      form.max - (form.max - form.min) % form.step := by
    rw [PtpRangeForm.nth, Int.toNat_of_nonneg hnonneg, Int.mul_comm]
    omega
  rw [nth_succ, hnth, Int.dvd_iff_emod_eq_zero]
  omega

end Quotient

/-- All values of a range are printed exactly if its maximum is not among them. -/
theorem range_listed_iff (hmin : Fits form.min) :
    (∃ values, RangePrints form values ∧
      (form.min ≤ form.max → 0 < form.step → values = legalValues form)) ↔ RangeListed form := by
  have hzero : form.nth 0 = form.min := by simp [PtpRangeForm.nth]
  constructor
  · rintro ⟨values, hprints, hlegal⟩
    obtain ⟨enough, htext⟩ := hprints
    have hends := (rangeText_isSome_iff hmin).mp ⟨enough, by rw [htext enough le_rfl]; rfl⟩
    have hprints : RangePrints form values := ⟨enough, htext⟩
    -- One value less than there are legal ones is not what has been printed.
    have hshort : ∀ count, 0 < form.step → form.min ≤ form.max →
        ((form.max - form.min) / form.step).toNat = count →
        ¬RangePrints form ((List.range count).map form.nth) := by
      rintro count hstep hle rfl hcount
      have hsame := hprints.unique hcount
      rw [hlegal hle hstep, legalValues, quotient_eq hstep hle, List.range_succ, List.map_append]
        at hsame
      have hlonger := listText_length_lt ((List.range ((form.max - form.min) / form.step).toNat).map
        form.nth) (form.nth ((form.max - form.min) / form.step).toNat)
      exact absurd (congrArg List.length hsame) hlonger.ne'
    rcases lt_trichotomy form.max form.min with hlt | heq | hgt
    · exact Or.inl hlt
    · refine Or.inr (Or.inl ⟨heq, not_lt.mp fun hstep => ?_⟩)
      exact hshort 0 hstep heq.ge (by simp [heq]) (rangePrints_nil heq.le)
    · obtain ⟨hstep, hlast, n, hn, hfits⟩ := hends.resolve_left (not_le.mpr hgt)
      obtain ⟨hlow, hhigh, hdvd⟩ := nth_quotient hstep hgt.le
      have hnot : ¬form.step ∣ form.max - form.min := by
        intro hdvd'
        have hreached := hdvd.mpr hdvd'
        refine hshort _ hstep hgt.le rfl (rangePrints_count hmin hstep hlast ?_ hreached.ge ?_)
        · intro j hj
          have hnext := nth_mono hstep (Nat.succ_le_of_lt hj)
          rw [Nat.succ_eq_add_one, nth_succ] at hnext
          omega
        · unfold Fits at hfits hmin ⊢
          change form.max ≤ form.nth n at hn
          change _ ∧ form.nth n ≤ _ at hfits
          omega
      refine Or.inr (Or.inr ⟨hgt, hstep, hnot, hlast, ?_⟩)
      rw [quotient_eq hstep hgt.le]
      have hbelow : form.nth ((form.max - form.min) / form.step).toNat < form.max :=
        lt_of_le_of_ne hlow fun h => hnot (hdvd.mp h)
      have hmore : ((form.max - form.min) / form.step).toNat + 1 ≤ n := by
        by_contra hless
        have hback := nth_mono hstep (Nat.le_of_lt_succ (not_le.mp hless))
        change form.max ≤ form.nth n at hn
        omega
      have hupper := nth_mono hstep hmore
      change _ ∧ form.nth n ≤ _ at hfits
      unfold Fits at hmin ⊢
      omega
  · rintro (hempty | ⟨hone, hstep⟩ | ⟨hlt, hstep, hdvd, hlast, hfits⟩)
    · exact ⟨[], rangePrints_nil hempty.le, fun hle => absurd hle (not_le.mpr hempty)⟩
    · exact ⟨[], rangePrints_nil hone.le, fun _ hpos => absurd hpos (not_lt.mpr hstep)⟩
    · obtain ⟨hlow, hhigh, hreached⟩ := nth_quotient hstep hlt.le
      refine ⟨legalValues form, ?_, fun _ _ => rfl⟩
      rw [legalValues]
      rw [quotient_eq hstep hlt.le] at hfits ⊢
      refine rangePrints_count hmin hstep hlast ?_ hhigh.le hfits
      intro j hj
      have hbound := nth_mono hstep (Nat.le_of_lt_succ hj)
      have hbelow : form.nth ((form.max - form.min) / form.step).toNat < form.max :=
        lt_of_le_of_ne hlow fun h => hdvd (hreached.mp h)
      exact lt_of_le_of_lt hbound hbelow

end Range

/-! ## Enumerations -/

/-- The values of an enumeration, as they are decoded. -/
def decodedValues (τ : DataType) (form : PtpEnumerationForm) : List Int :=
  (List.range form.length.toNat).map fun k =>
    (τ.number (form.data.slice 0 form.data.size) (k * τ.width)).getD 0

section Small

variable {τ : DataType} (hsmall : τ.wide = false)

include hsmall

theorem isInteger_of_small : τ.isInteger = true := by
  cases τ <;> first | rfl | cases hsmall

theorem isIntegerType_of_small : isIntegerType τ.code := by
  cases τ <;> first | decide | cases hsmall

/-- A value of up to four bytes is an `int`. -/
theorem number_fits (payload : List UInt8) (p : Nat) :
    ∃ number, τ.number payload p = some number ∧ Fits number := by
  have hone : field 1 p payload < 256 ^ 1 := field_lt ..
  have htwo : field 2 p payload < 256 ^ 2 := field_lt ..
  cases τ with
  | int8 => exact ⟨_, rfl, by unfold Fits; omega⟩
  | uint8 => exact ⟨_, rfl, by unfold Fits; omega⟩
  | int16 => exact ⟨_, rfl, by unfold Fits toInt16; omega⟩
  | uint16 => exact ⟨_, rfl, by unfold Fits; omega⟩
  | int32 => exact ⟨_, rfl, toInt32_fits _⟩
  | uint32 => exact ⟨_, rfl, toInt32_fits _⟩
  | int64 => cases hsmall
  | uint64 => cases hsmall
  | uint8Array => cases hsmall
  | uint16Array => cases hsmall
  | uint32Array => cases hsmall
  | uint64Array => cases hsmall
  | string => cases hsmall

theorem enumText_values {memory : Allocator} {form : PtpEnumerationForm}
    (hint : (form.data.size : Int) ≤ intMax)
    (hroom : form.length.toNat * τ.width ≤ form.data.size) {left i allocations : Nat}
    {value : UInt32} (hcount : i + left = form.length.toNat) :
    enumText memory τ.code form left i allocations ((i * τ.width : Nat) : Int) value =
      some (listText ((List.range' i left).map fun k =>
        (τ.number (form.data.slice 0 form.data.size) (k * τ.width)).getD 0)) := by
  induction left generalizing i allocations value with
  | zero => rfl
  | succ left ih =>
      have hinteger := isInteger_of_small hsmall
      have hlength : (form.data.slice 0 form.data.size).length = form.data.size := by simp
      have hle : i * τ.width + τ.width ≤ (form.data.slice 0 form.data.size).length := by
        have hmul : (i + 1) * τ.width ≤ form.length.toNat * τ.width :=
          Nat.mul_le_mul_right _ (by omega)
        rw [Nat.succ_mul] at hmul
        omega
      have hnext : ((i * τ.width : Nat) : Int) + ((τ.width : Nat) : Int) =
          (((i + 1) * τ.width : Nat) : Int) := by
        rw [Nat.succ_mul]
        push_cast
        rfl
      obtain ⟨number, hnumber, hfits⟩ := number_fits hsmall (form.data.slice 0 form.data.size)
        (i * τ.width)
      have hshown : toInt32 (UInt32.ofNat (toUInt32 number)).toNat = number := by
        have hlt : toUInt32 number < 4294967296 := by
          unfold toUInt32
          omega
        rw [UInt32.toNat_ofNat_of_lt' hlt, toInt32_toUInt32 hfits]
      have hcomma : (form.length.toNat : Int) - 1 ≤ i ↔ left = 0 := by omega
      rw [enumText, parse_integer hinteger (by rw [hlength]; exact hint) hle, parsedAt, hnumber]
      dsimp only
      rw [extent_of_integer hinteger, hnext, ih (by omega), hshown, List.range'_succ, List.map_cons,
        listText_cons, hnumber, Option.getD_some]
      simp only [hcomma, List.map_eq_nil_iff, List.range'_eq_nil_iff]
      rfl

end Small

/-! ## The whole text -/

/-- What is in front of the entries of a descriptor of an integer type. -/
def frontText (pd : PtpPropDesc) : List UInt8 :=
  ascii "\x7b\n" ++ (ascii "\"code\": " ++ decimal pd.code.toNat ++ ascii ",\n") ++
    (ascii "\"type\": " ++ decimal pd.dataType.toNat ++ ascii ",\n") ++
    (ascii "\"currentValue32\": " ++ signed (toInt32 pd.currentValue32.toNat) ++ ascii ",\n") ++
    (ascii "\"defaultValue32\": " ++ decimal pd.defaultValue32.toNat ++ ascii ",\n") ++
    ascii "\"validEntries\": ["

/-- What is behind them. -/
def backText (pd : PtpPropDesc) : List UInt8 :=
  ascii "],\n" ++ (ascii "\"form_type\": " ++ decimal pd.formType.toNat ++ ascii "\n") ++
    ascii "\x7d"

/-- The text about a descriptor whose entries are some values. -/
def descriptorText (pd : PtpPropDesc) (values : List Int) : List UInt8 :=
  frontText pd ++ (listText values ++ backText pd)

/-- With enough fuel and on every buffer with room, the serialiser prints some values as the
entries. -/
def ListsEntries (memory : Allocator) (allocations : Nat) (value : UInt32) (pd : PtpPropDesc)
    (values : List Int) : Prop :=
  ∃ enough, ∀ fuel ≥ enough, ∀ max : Int, ((descriptorText pd values).length : Int) ≤ max →
    ptpPropDescJson max memory allocations value pd fuel = .ok (descriptorText pd values)

section Descriptor

variable {memory : Allocator} {allocations : Nat} {value : UInt32} {pd : PtpPropDesc}

theorem propDescText_eq (hinteger : isIntegerType pd.dataType.toNat) (fuel : Nat) :
    propDescText memory allocations value pd fuel =
      (entriesText memory allocations value pd fuel).map fun body =>
        frontText pd ++ (body ++ backText pd) := by
  rw [propDescText, valuesText, if_pos hinteger]
  cases entriesText memory allocations value pd fuel with
  | none => simp [allJoined, joined]
  | some body => simp [allJoined, joined, frontText, backText]

theorem listsEntries_iff (hinteger : isIntegerType pd.dataType.toNat) {values : List Int} :
    ListsEntries memory allocations value pd values ↔
      ∃ enough, ∀ fuel ≥ enough,
        entriesText memory allocations value pd fuel = some (listText values) := by
  refine exists_congr fun enough => forall_congr' fun fuel => imp_congr_right fun _ => ?_
  have hprints := ptpPropDescJson_prints memory allocations value pd fuel
  rw [propDescText_eq hinteger] at hprints
  cases htext : entriesText memory allocations value pd fuel with
  | none =>
      rw [htext] at hprints
      refine iff_of_false (fun hall => ?_) (by simp)
      exact hprints _ _ (hall _ le_rfl)
  | some body =>
      rw [htext] at hprints
      constructor
      · intro hall
        have hsame := (hprints _).1 _ (hall _ le_rfl)
        rw [descriptorText] at hsame
        rw [List.append_cancel_right (List.append_cancel_left hsame)]
      · intro hbody max hmax
        obtain rfl := Option.some.inj hbody
        exact (hprints max).2 hmax

end Descriptor

/-! ## What the parser leaves of a range -/

theorem ptpParseDataU32_fits {r : PtpRuntime} {τ : DataType} (hsmall : τ.wide = false)
    {d out size out' : Int} (hrun : (ptpParseDataU32 d τ.code out).run r.load = .ok (size, out')) :
    Fits out' := by
  have hread : ∀ {width : Nat} {k : Nat → Reader UInt8 Halt (Int × Int)},
      (readLe width d >>= k).run r.load = .ok (size, out') →
      (∀ found < 256 ^ width, ∃ size out, k found = .done (size, out) ∧ Fits out) → Fits out' := by
    intro width k hrun hk
    rw [Reader.run_bind] at hrun
    obtain ⟨found, hfound, hrest⟩ := except_bind_eq_ok.mp hrun
    obtain ⟨size', out'', hdone, hfits⟩ := hk found (run_readLe_lt hfound)
    rw [hdone] at hrest
    cases hrest
    exact hfits
  have hsmallFits : ∀ {found : Nat}, found < 65536 → Fits (found : Int) := by
    intro found hlt
    unfold Fits
    omega
  cases τ with
  | int8 => exact hread hrun fun found hlt => ⟨_, _, rfl, hsmallFits (by omega)⟩
  | uint8 => exact hread hrun fun found hlt => ⟨_, _, rfl, hsmallFits (by omega)⟩
  | int16 => exact hread hrun fun found _ => ⟨_, _, rfl, by unfold Fits toInt16; omega⟩
  | uint16 => exact hread hrun fun found hlt => ⟨_, _, rfl, hsmallFits (by omega)⟩
  | int32 => exact hread hrun fun found _ => ⟨_, _, rfl, toInt32_fits _⟩
  | uint32 => exact hread hrun fun found _ => ⟨_, _, rfl, toInt32_fits _⟩
  | int64 => cases hsmall
  | uint64 => cases hsmall
  | uint8Array => cases hsmall
  | uint16Array => cases hsmall
  | uint32Array => cases hsmall
  | uint64Array => cases hsmall
  | string => cases hsmall

theorem min_fits {r : PtpRuntime} {τ : DataType} (hsmall : τ.wide = false) {d : Int}
    {form range : PtpRangeForm} (hrun : (parseRangeForm d τ.code form).run r.load = .ok range) :
    Fits range.min := by
  rw [parseRangeForm, Reader.run_bind] at hrun
  obtain ⟨⟨size, min⟩, hmin, hrun⟩ := except_bind_eq_ok.mp hrun
  rw [Reader.run_bind] at hrun
  obtain ⟨⟨size', max⟩, -, hrun⟩ := except_bind_eq_ok.mp hrun
  rw [Reader.run_bind] at hrun
  obtain ⟨⟨size'', step⟩, -, hrun⟩ := except_bind_eq_ok.mp hrun
  obtain rfl := Except.ok.inj hrun
  exact ptpParseDataU32_fits hsmall hmin

/-! ## Legal entries -/

/-- The values are those of the form: of a range that is one, every value from the minimum to
the maximum; of an enumeration, every value. -/
def LegalEntries (τ : DataType) (pd : PtpPropDesc) (values : List Int) : Prop :=
  if pd.formType.toNat = ptpRangeForm then
    pd.rangeForm.min ≤ pd.rangeForm.max → 0 < pd.rangeForm.step →
      values = legalValues pd.rangeForm
  else ∀ form, pd.enumForm = some form → values = decodedValues τ form

/-- The entries of a parsed descriptor of an integer type of up to four bytes are printed, and
are the legal ones, exactly if its form is not a range or one that is printed whole. -/
theorem validEntries_iff {r : PtpRuntime} {blocks : Allocator} {m n : Nat} {oi pd : PtpPropDesc}
    {rc : Int} (hrun : (ptpParsePropDesc blocks m r oi).run r.load = .ok (rc, pd, n))
    {τ : DataType} (hsmall : τ.wide = false) (hcode : τ.code = pd.dataType.toNat)
    (memory : Allocator) (allocations : Nat) (value : UInt32) :
    (∃ values, ListsEntries memory allocations value pd values ∧ LegalEntries τ pd values) ↔
      (pd.formType.toNat = ptpRangeForm → RangeListed pd.rangeForm) := by
  have hinteger : isIntegerType pd.dataType.toNat := hcode ▸ isIntegerType_of_small hsmall
  simp only [listsEntries_iff hinteger]
  by_cases hrange : pd.formType.toNat = ptpRangeForm
  · simp only [entriesText, LegalEntries, hrange, forall_const]
    obtain ⟨-, d, form, hparse⟩ | ⟨henum, -⟩ := form_of_run hrun
    · rw [← hcode] at hparse
      exact range_listed_iff (min_fits hsmall hparse)
    · rw [hrange] at henum
      cases henum
  · simp only [entriesText, LegalEntries, hrange, false_implies, iff_true]
    obtain ⟨-, form, hform, hstored⟩ := (formStored_of_run hrun).resolve_left hrange
    obtain ⟨hroom, hint⟩ := hstored τ (isInteger_of_small hsmall) hcode
    refine ⟨decodedValues τ form, ⟨0, fun fuel _ => ?_⟩, fun form' hform' => ?_⟩
    · have htext := @enumText_values τ hsmall memory form hint hroom form.length.toNat 0 allocations
        value (by omega)
      rw [Nat.zero_mul, Nat.cast_zero, ← List.range_eq_range'] at htext
      rw [hform, Option.bind_some, ← hcode]
      exact htext
    · rw [hform] at hform'
      cases hform'
      rfl

open PropDescDataset (batteryLevel)

/-- The battery level with a range, as it is parsed. -/
def parsedLevel (max step : Int) : PtpPropDesc :=
  { blankPropDesc with
    code := 0x5001
    dataType := 2
    defaultValue32 := 50
    currentValue32 := 50
    formType := 1
    rangeForm := ⟨0, max, step⟩ }

/-- The battery level from 0 to 101 by twos: the maximum is not among its values. -/
theorem validEntries_twos : ∃ values,
    ListsEntries zeroedMemory 0 0 (parsedLevel 101 2) values ∧
      LegalEntries .uint8 (parsedLevel 101 2) values := by
  have hrun : (ptpParsePropDesc zeroedMemory 0
      (replied (batteryLevel (.range 0 101 2)).bytes) blankPropDesc).run
        (replied (batteryLevel (.range 0 101 2)).bytes).load =
      .ok (0, parsedLevel 101 2, 0) := rfl
  refine (validEntries_iff hrun rfl rfl zeroedMemory 0 0).mpr fun _ => ?_
  exact .inr (.inr ⟨by decide, by decide, by decide, by decide, by decide⟩)

/-- The battery level from 0 to 100: its maximum is not printed. -/
theorem validEntries_level :
    (ptpParsePropDesc zeroedMemory 0 (replied (batteryLevel (.range 0 100 1)).bytes)
        blankPropDesc).run (replied (batteryLevel (.range 0 100 1)).bytes).load =
      .ok (0, parsedLevel 100 1, 0) ∧
    ListsEntries zeroedMemory 0 0 (parsedLevel 100 1)
      ((List.range 100).map fun k : Nat => (k : Int)) ∧
    ¬∃ values, ListsEntries zeroedMemory 0 0 (parsedLevel 100 1) values ∧
      LegalEntries .uint8 (parsedLevel 100 1) values := by
  have hinteger : isIntegerType (parsedLevel 100 1).dataType.toNat := .inr (.inl rfl)
  refine ⟨rfl, ?_, ?_⟩
  · have hprints : RangePrints (parsedLevel 100 1).rangeForm
        ((List.range 100).map (parsedLevel 100 1).rangeForm.nth) :=
      rangePrints_count (by decide) (by decide) (by decide)
        (fun j hj => by simp [PtpRangeForm.nth, parsedLevel]; omega) (by decide) (by decide)
    have hnth : (parsedLevel 100 1).rangeForm.nth = fun k : Nat => (k : Int) := by
      funext k
      simp [PtpRangeForm.nth, parsedLevel]
    rw [hnth] at hprints
    exact (listsEntries_iff hinteger).mpr hprints
  · simp only [listsEntries_iff hinteger]
    intro hlisted
    have hwhole : RangeListed (parsedLevel 100 1).rangeForm :=
      (range_listed_iff (by decide)).mp hlisted
    obtain hempty | hsingle | ⟨-, -, hreached, -⟩ := hwhole
    · exact absurd hempty (by decide)
    · exact absurd hsingle.1 (by decide)
    · exact hreached ⟨100, rfl⟩

end Libpict
