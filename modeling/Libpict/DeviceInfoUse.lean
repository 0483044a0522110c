import Libpict.DatasetSafety

/-! # What a parsed device info can be used for

The rest of the library takes the lengths in a device info for the number of codes in its
arrays. Whatever the parser returns with, the lengths are the counts of the reply and the
codes those behind them, if the reply reaches to the last array and no count in it is the
one that passes the check of its size as a negative number.
-/

namespace Libpict

open Bytes CInt

/-! ## The cursor never moves back -/

section Cursor

variable {start : Int}

theorem readLe_behind {size : Nat} {position : Int} (hle : start ≤ position) :
    (readLe size position).Behind start fun _ => True :=
  (Reader.behind_read hle).bind fun _ _ => Reader.behind_pure trivial

theorem storeAt_behind {α : Type} {n : Nat} (array : Vector α n) (index : Nat) (a : α) :
    (storeAt array index a).Behind start fun _ => True := by
  unfold storeAt
  split
  · exact trivial
  · exact trivial

theorem readChars_behind {n : Nat} {d max of : Int} (hd : start ≤ d) (hof : 0 ≤ of)
    (left i wchr : Nat) (string : Vector UInt8 n) :
    (readChars d max left i wchr of string).Behind start fun found => 0 ≤ found.1 := by
  induction left generalizing i wchr of string with
  | zero => exact Reader.behind_pure hof
  | succ left ih =>
      have hnext : 0 ≤ of + 2 := by omega
      refine (readLe_behind (by omega)).bind fun found _ =>
        (storeAt_behind _ _ _).bind fun string _ => ?_
      split
      · exact Reader.behind_pure hnext
      · exact ih hnext _ _ _

theorem ptpReadString_behind {n : Nat} {d : Int} (hd : start ≤ d) (string : Vector UInt8 n)
    (max : Int) : (ptpReadString d string max).Behind start fun found => 0 ≤ found.1 := by
  have hone : (0 : Int) ≤ 1 := by decide
  refine (readLe_behind hd).bind fun length _ => ?_
  split
  · exact (storeAt_behind _ _ _).bind fun string _ => Reader.behind_pure hone
  · refine (readChars_behind hd hone length 0 0 string).bind ?_
    rintro ⟨of, i, wchr, string⟩ (hof : 0 ≤ of)
    dsimp only
    split
    · exact Reader.behind_pure hof
    · exact (storeAt_behind _ _ _).bind fun string _ => Reader.behind_pure hof

theorem readEntries_behind {n : Nat} {bs max of : Int} (hbs : start ≤ bs) (hof : 0 ≤ of)
    (left i : Nat) (buf : Vector UInt16 n) :
    (readEntries bs max left i of buf).Behind start fun found => 0 ≤ found.1 := by
  induction left generalizing i of buf with
  | zero => exact Reader.behind_pure hof
  | succ left ih =>
      unfold readEntries
      split
      · exact Reader.behind_stop _
      · exact (readLe_behind (by omega)).bind fun entry _ =>
          (storeAt_behind _ _ _).bind fun buf _ => ih (by omega) _ _

theorem boundcheck_behind (bs : Int) (be : Option Int) (size : Int) :
    (boundcheck bs be size).Behind start fun _ => True := by
  unfold boundcheck
  split
  · exact Reader.behind_pure trivial
  · split
    · exact Reader.behind_stop _
    · split
      · exact Reader.behind_stop _
      · exact Reader.behind_pure trivial

theorem ptpReadUint16ArrayS_behind {n : Nat} {bs : Int} (hbs : start ≤ bs) (be : Option Int)
    (buf : Vector UInt16 n) (max : Int) :
    (ptpReadUint16ArrayS bs be buf max).Behind start fun found => 0 ≤ found.1 := by
  refine (readLe_behind hbs).bind fun count _ => ?_
  generalize toInt32 count = length
  dsimp only
  split
  · refine (boundcheck_behind _ _ _).bind fun _ _ => ?_
    have hfour : (0 : Int) ≤ 4 := by omega
    refine (readEntries_behind hbs hfour _ 0 buf).bind ?_
    rintro ⟨of, buf⟩ (hof : 0 ≤ of)
    exact Reader.behind_pure hof
  · exact Reader.behind_stop _

theorem ptpParseDeviceInfo_behind {r : PtpRuntime} (hstart : ptpGetPayload r = .ok start)
    (di : PtpDeviceInfo) : (ptpParseDeviceInfo r di).Behind start fun _ => True := by
  rw [ptpParseDeviceInfo, hstart, Reader.ofExcept, Reader.done_bind]
  refine (readLe_behind (by omega)).bind fun _ _ => ?_
  refine (readLe_behind (by omega)).bind fun _ _ => ?_
  refine (readLe_behind (by omega)).bind fun _ _ => ?_
  refine (ptpReadString_behind (by omega) _ _).bind ?_
  rintro ⟨of₁, _⟩ (h₁ : 0 ≤ of₁)
  refine (readLe_behind (by omega)).bind fun _ _ => ?_
  refine (ptpReadUint16ArrayS_behind (by omega) _ _ _).bind ?_
  rintro ⟨of₂, _⟩ (h₂ : 0 ≤ of₂)
  refine (ptpReadUint16ArrayS_behind (by omega) _ _ _).bind ?_
  rintro ⟨of₃, _⟩ (h₃ : 0 ≤ of₃)
  refine (ptpReadUint16ArrayS_behind (by omega) _ _ _).bind ?_
  rintro ⟨of₄, _⟩ (h₄ : 0 ≤ of₄)
  refine (ptpReadUint16ArrayS_behind (by omega) _ _ _).bind ?_
  rintro ⟨of₅, _⟩ (h₅ : 0 ≤ of₅)
  refine (ptpReadUint16ArrayS_behind (by omega) _ _ _).bind ?_
  rintro ⟨of₆, _⟩ (h₆ : 0 ≤ of₆)
  refine (ptpReadString_behind (by omega) _ _).bind ?_
  rintro ⟨of₇, _⟩ (h₇ : 0 ≤ of₇)
  refine (ptpReadString_behind (by omega) _ _).bind ?_
  rintro ⟨of₈, _⟩ (h₈ : 0 ≤ of₈)
  refine (ptpReadString_behind (by omega) _ _).bind ?_
  rintro ⟨of₉, _⟩ (h₉ : 0 ≤ of₉)
  exact (ptpReadString_behind (by omega) _ _).bind fun _ _ => Reader.behind_pure trivial

end Cursor

/-- What the buffer holds from the payload on, and that there is nothing behind it. -/
theorem PtpRuntime.HasPayload.window {r : PtpRuntime} {start length : Int} {payload : List UInt8}
    (hpayload : r.HasPayload start length payload) : ∃ rest,
      Reader.Shows r.load start (payload ++ rest) ∧
      ∀ offset size found, r.load offset size = .ok found → start ≤ offset →
        Reader.Inside start (payload ++ rest).length (offset, size) := by
  have hload := hpayload.shows 0 payload.length (by omega)
  rw [Int.natCast_zero, Int.add_zero, List.drop_zero, List.take_length, PtpRuntime.load] at hload
  split at hload
  next => cases hload
  next buffer hdata =>
    split at hload
    next hinside =>
      obtain ⟨base, rfl⟩ := Int.eq_ofNat_of_zero_le hinside.1
      rw [Int.toNat_natCast, Int.toNat_natCast] at hload
      have hsize : base + payload.length ≤ buffer.size := by omega
      obtain ⟨room, hroom⟩ := Nat.exists_eq_add_of_le hsize
      have hwindow : payload ++ buffer.slice (base + payload.length) room =
          buffer.slice base (payload.length + room) := by
        rw [Buffer.slice_add, Except.ok.inj hload]
      have hlength : (payload ++ buffer.slice (base + payload.length) room).length =
          payload.length + room := by rw [hwindow, Buffer.slice_length]
      refine ⟨buffer.slice (base + payload.length) room, ?_, ?_⟩
      · intro offset size hle
        rw [hlength] at hle
        rw [← Int.natCast_add, PtpRuntime.load_some hdata _ _ (by omega), hwindow,
          Buffer.slice_drop_take _ _ _ _ _ hle]
      · intro offset size found hfound hbehind
        rw [PtpRuntime.load, hdata] at hfound
        dsimp only at hfound
        split at hfound
        next hfits =>
          rw [hlength]
          refine ⟨hbehind, hfits.2.1, ?_⟩
          dsimp only
          omega
        next => cases hfound
    next => cases hload

/-! ## Fields in front of what is behind the payload -/

section Append

variable {payload : List UInt8} {fields : List Field}

theorem Field.cursorEnd_append {field : Field} {offset : Nat}
    (hinside : field.cursorEnd payload offset ≤ payload.length) (rest : List UInt8) :
    field.cursorEnd (payload ++ rest) offset = field.cursorEnd payload offset := by
  cases field with
  | number size => rfl
  | text max =>
      simp only [Field.cursorEnd, stringTaken] at hinside ⊢
      rw [field_append _ _ _ _ (by omega)]
  | codes max =>
      simp only [Field.cursorEnd] at hinside ⊢
      rw [field_append _ _ _ _ (by omega)]

theorem cursorAt_le_succ (index : Nat) :
    cursorAt payload fields index ≤ cursorAt payload fields (index + 1) := by
  cases hfield : fields[index]? with
  | some field =>
      rw [cursorAt_succ hfield]
      exact field.le_cursorEnd _
  | none =>
      have hle := List.getElem?_eq_none_iff.mp hfield
      rw [cursorAt, cursorAt, List.take_of_length_le hle, List.take_of_length_le (by omega)]

theorem cursorAt_mono : Monotone (cursorAt payload fields) := monotone_nat_of_le_succ cursorAt_le_succ

/-- Up to the end of the payload, what is behind it does not matter. -/
theorem cursorAt_append {index : Nat} (hinside : cursorAt payload fields index ≤ payload.length)
    (rest : List UInt8) : cursorAt (payload ++ rest) fields index = cursorAt payload fields index := by
  induction index with
  | zero => rfl
  | succ index ih =>
      have hbefore := ih ((cursorAt_le_succ index).trans hinside)
      cases hfield : fields[index]? with
      | some field =>
          rw [cursorAt_succ hfield] at hinside
          rw [cursorAt_succ hfield, cursorAt_succ hfield, hbefore, Field.cursorEnd_append hinside]
      | none =>
          have hle := List.getElem?_eq_none_iff.mp hfield
          rw [cursorAt, cursorAt, List.take_of_length_le hle] at hbefore
          rw [cursorAt, cursorAt, List.take_of_length_le (by omega)]
          exact hbefore

/-- The parser has admitted the fields it has passed. -/
theorem CursorInside.admitted {room : Int} (hcursor : CursorInside room payload fields 0)
    {index : Nat} {field : Field} (hfield : fields[index]? = some field) :
    field.Admitted room payload (cursorAt payload fields index) := by
  have hdrop : ∀ passed ≤ index,
      CursorInside room payload (fields.drop passed) (cursorAt payload fields passed) := by
    intro passed hle
    induction passed with
    | zero => exact hcursor
    | succ passed ih =>
        have hlt := (List.getElem?_eq_some_iff.mp hfield).1
        have hpassed := List.getElem?_eq_getElem (by omega : passed < fields.length)
        exact ((cursorInside_drop hpassed).mp (ih (by omega))).2
  exact ((cursorInside_drop hfield).mp (hdrop index le_rfl)).1

end Append

/-! ## Lengths that can be trusted -/

/-- The array begins with the codes of the field at an offset of the payload, all of them, and
the field lies in the payload. -/
structure CodesFrom {n : Nat} (payload : List UInt8) (offset : Nat) (codes : Vector UInt16 n)
    (length : Int) : Prop where
  nonneg : 0 ≤ length
  le : length ≤ n
  count : length = field 4 offset payload
  inside : offset + (4 + 2 * length) ≤ payload.length
  code : ∀ slot (hslot : slot < n), (slot : Int) < length →
    codes[slot] = UInt16.ofNat (field 2 (offset + 4 + 2 * slot) payload)

/-- The five arrays have come from the payload. -/
structure PtpDeviceInfo.Usable (payload : List UInt8) (di : PtpDeviceInfo) : Prop where
  ops : CodesFrom payload (cursorAt payload deviceInfoFields 5) di.opsSupported
    di.opsSupportedLength
  events : CodesFrom payload (cursorAt payload deviceInfoFields 6) di.eventsSupported
    di.eventsSupportedLength
  props : CodesFrom payload (cursorAt payload deviceInfoFields 7) di.propsSupported
    di.propsSupportedLength
  captureFormats : CodesFrom payload (cursorAt payload deviceInfoFields 8) di.captureFormats
    di.captureFormatsLength
  playbackFormats : CodesFrom payload (cursorAt payload deviceInfoFields 9) di.playbackFormats
    di.playbackFormatsLength

/-- The count of the `index`-th field. -/
def countAt (payload : List UInt8) (index : Nat) : Nat :=
  field 4 (cursorAt payload deviceInfoFields index) payload

section Codes

variable {payload : List UInt8} {offset n : Nat} {codes : Vector UInt16 n} {length : Int}

/-- Where the cursor goes on behind the codes. -/
theorem CodesFrom.cursorEnd_le (hcodes : CodesFrom payload offset codes length) :
    (Field.codes n).cursorEnd payload offset ≤ payload.length := by
  obtain ⟨hnonneg, -, hcount, hinside, -⟩ := hcodes
  have hlt : field 4 offset payload < 256 ^ 4 := field_lt ..
  rw [Field.cursorEnd]
  unfold toInt32
  omega

theorem entriesAt_getElem {count slot : Nat} (hslot : slot < (entriesAt payload offset count).length) :
    (entriesAt payload offset count)[slot] = UInt16.ofNat (field 2 (offset + 2 * slot) payload) := by
  simp [entriesAt, unitsAt]

/-- A count that is admitted is the length, unless it is -1 as an `int`. -/
theorem codesFrom_iff {room : Int} (rest : List UInt8) (buf : Vector UInt16 n)
    (hadmitted : (Field.codes n).Admitted room (payload ++ rest) offset)
    (hinside : (Field.codes n).cursorEnd payload offset ≤ payload.length) :
    CodesFrom payload offset (codesAt buf (payload ++ rest) offset)
      (toInt32 (field 4 offset (payload ++ rest))) ↔ field 4 offset payload ≠ 0xFFFFFFFF := by
  have hlt : field 4 offset payload < 256 ^ 4 := field_lt ..
  rw [Field.Admitted] at hadmitted
  rw [Field.cursorEnd] at hinside
  rw [codesAt]
  rw [field_append _ _ _ _ (by omega)] at hadmitted ⊢
  obtain ⟨hmax, hnonneg, -⟩ := hadmitted
  constructor
  · rintro ⟨hlength, -, -, -, -⟩ hcount
    unfold toInt32 at hlength
    omega
  · intro hcount
    have hcast : toInt32 (field 4 offset payload) = field 4 offset payload := by
      unfold toInt32 at hnonneg ⊢
      omega
    rw [hcast] at hmax hinside ⊢
    rw [Int.toNat_natCast] at hinside ⊢
    refine ⟨Int.natCast_nonneg _, hmax, Eq.refl _, by omega, fun slot hslot hlength => ?_⟩
    have hentry : slot < (entriesAt (payload ++ rest) (offset + 4) (field 4 offset payload)).length := by
      rw [entriesAt, List.length_map, unitsAt_length]
      omega
    rw [Slots.getElem_put, if_pos (Nat.zero_le _), Nat.sub_zero, List.getD_eq_getElem?_getD,
      List.getElem?_eq_getElem hentry, Option.getD_some, entriesAt_getElem,
      field_append _ _ _ _ (by omega)]

end Codes

/-! ## Positions of the standard -/

/-- Where the standard has a field of a layout. -/
def standardAt (payload : List UInt8) (fields : List Field) (index : Nat) : Nat :=
  (fields.take index).foldl (fun offset field => field.standardEnd payload offset) 0

section Standard

variable {payload : List UInt8}

theorem standardAt_succ {layout : List Field} {index : Nat} {field : Field}
    (hfield : layout[index]? = some field) : standardAt payload layout (index + 1) =
      field.standardEnd payload (standardAt payload layout index) := by
  rw [standardAt, List.take_add_one, hfield, Option.toList_some, List.foldl_append]
  rfl

theorem cursorEnd_text {offset max : Nat} (hfits : field 1 offset payload ≤ max - 1) :
    (Field.text max).cursorEnd payload offset = (Field.text max).standardEnd payload offset := by
  rw [Field.cursorEnd, stringTaken, Nat.min_eq_left hfits]
  rfl

theorem CodesFrom.cursorEnd_eq {offset n : Nat} {codes : Vector UInt16 n} {length : Int}
    (hcodes : CodesFrom payload offset codes length) (hn : n < 2 ^ 31) :
    (Field.codes n).cursorEnd payload offset = (Field.codes n).standardEnd payload offset := by
  obtain ⟨-, hle, hcount, -, -⟩ := hcodes
  have hcast : (toInt32 (field 4 offset payload)).toNat = field 4 offset payload := by
    unfold toInt32
    omega
  rw [Field.cursorEnd, hcast]
  rfl

/-- If the first string fits its array, the arrays have come from where the standard has them. -/
theorem PtpDeviceInfo.Usable.standard {di : PtpDeviceInfo} (husable : di.Usable payload)
    (hstring : field 1 8 payload ≤ 127) {index : Nat} (hindex : index ≤ 10) :
    cursorAt payload deviceInfoFields index = standardAt payload deviceInfoFields index := by
  induction index with
  | zero => rfl
  | succ index ih =>
      have hfield := List.getElem?_eq_getElem
        (by rw [deviceInfoFields]; simp; omega : index < deviceInfoFields.length)
      rw [cursorAt_succ hfield, standardAt_succ hfield, ← ih (by omega)]
      have hthird : cursorAt payload deviceInfoFields 3 = 8 := rfl
      rcases (by omega : index = 0 ∨ index = 1 ∨ index = 2 ∨ index = 3 ∨ index = 4 ∨ index = 5 ∨
        index = 6 ∨ index = 7 ∨ index = 8 ∨ index = 9) with
        rfl | rfl | rfl | rfl | rfl | rfl | rfl | rfl | rfl | rfl
      · rfl
      · rfl
      · rfl
      · exact cursorEnd_text hstring
      · rfl
      · exact husable.ops.cursorEnd_eq (by decide)
      · exact husable.events.cursorEnd_eq (by decide)
      · exact husable.props.cursorEnd_eq (by decide)
      · exact husable.captureFormats.cursorEnd_eq (by decide)
      · exact husable.playbackFormats.cursorEnd_eq (by decide)

end Standard

/-- Whatever the parser returns with is right if the payload reaches to the end of the last
array and no count in it is the largest one, and only then. The arrays are those of the standard
if the string in front of them fits its own. -/
theorem ptpParseDeviceInfo_usable_iff {r : PtpRuntime} {start length : Int} {payload : List UInt8}
    (hpayload : r.HasPayload start length payload) (hroom : Fits r.dataLength)
    {di di' : PtpDeviceInfo} {rc : Int} {last : Option PtpDeviceInfo}
    (hrun : (ptpParseDeviceInfo r di).run r.load = .ok (rc, di', last)) :
    rc = 0 ∧ last = some di' ∧ (di'.Usable payload ↔
      cursorAt payload deviceInfoFields 10 ≤ payload.length ∧
        ∀ index ∈ [5, 6, 7, 8, 9], countAt payload index ≠ 0xFFFFFFFF) ∧
      (di'.Usable payload → field 1 8 payload ≤ 127 → ∀ index ≤ 10,
        cursorAt payload deviceInfoFields index = standardAt payload deviceInfoFields index) := by
  obtain ⟨rest, hshows, hends⟩ := hpayload.window
  have hview := (ptpParseDeviceInfo_behind hpayload.start_eq di).view_of_run hshows hends hrun
  obtain ⟨hcursor, heq⟩ := (ptpParseDeviceInfo_returns (payload ++ rest) hpayload.start_eq hroom di
    (· = (rc, di', last))).mp ⟨_, hview, rfl⟩
  cases heq
  refine ⟨rfl, rfl, ?_, fun husable hstring index hindex => husable.standard hstring hindex⟩
  by_cases hinside : cursorAt payload deviceInfoFields 10 ≤ payload.length
  · have hat : ∀ index ≤ 10, cursorAt (payload ++ rest) deviceInfoFields index =
        cursorAt payload deviceInfoFields index := fun index hindex =>
      cursorAt_append ((cursorAt_mono hindex).trans hinside) rest
    have hcodes : ∀ {n index : Nat} (buf : Vector UInt16 n) (hindex : index < 10)
        (hfield : deviceInfoFields[index]? = some (.codes n)),
        CodesFrom payload (cursorAt payload deviceInfoFields index)
          (codesAt buf (payload ++ rest) (cursorAt (payload ++ rest) deviceInfoFields index))
          (toInt32 (field 4 (cursorAt (payload ++ rest) deviceInfoFields index)
            (payload ++ rest))) ↔ countAt payload index ≠ 0xFFFFFFFF := by
      intro n index buf hindex hfield
      have hend := (cursorAt_mono hindex).trans hinside
      have hadmitted := hcursor.admitted hfield
      rw [Nat.succ_eq_add_one, cursorAt_succ hfield] at hend
      rw [hat index hindex.le] at hadmitted ⊢
      exact codesFrom_iff rest buf hadmitted hend
    rw [and_iff_right hinside]
    constructor
    · rintro ⟨hops, hevents, hprops, hcapture, hplayback⟩
      simp only [List.forall_mem_cons, List.not_mem_nil, false_imp_iff, implies_true, and_true]
      exact ⟨(hcodes _ (by decide) rfl).mp hops, (hcodes _ (by decide) rfl).mp hevents,
        (hcodes _ (by decide) rfl).mp hprops, (hcodes _ (by decide) rfl).mp hcapture,
        (hcodes _ (by decide) rfl).mp hplayback⟩
    · intro hcounts
      exact ⟨(hcodes _ (by decide) rfl).mpr (hcounts 5 (by decide)),
        (hcodes _ (by decide) rfl).mpr (hcounts 6 (by decide)),
        (hcodes _ (by decide) rfl).mpr (hcounts 7 (by decide)),
        (hcodes _ (by decide) rfl).mpr (hcounts 8 (by decide)),
        (hcodes _ (by decide) rfl).mpr (hcounts 9 (by decide))⟩
  · refine iff_of_false (fun husable => hinside ?_) fun h => hinside h.1
    rw [cursorAt_succ (rfl : deviceInfoFields[9]? = some (.codes 32))]
    exact husable.playbackFormats.cursorEnd_le

/-- A device info of one operation and nothing else, and the same with the largest count. -/
def smallDeviceInfo (operations : List UInt8) : List UInt8 :=
  List.replicate 8 0 ++ [0] ++ [0, 0] ++ operations ++ List.replicate 20 0

theorem ptpParseDeviceInfo_usable_small : ∃ di',
    (ptpParseDeviceInfo (replied (smallDeviceInfo [1, 0, 0, 0, 0x01, 0x10])) blankDeviceInfo).run
      (replied (smallDeviceInfo [1, 0, 0, 0, 0x01, 0x10])).load = .ok (0, di', some di') ∧
    di'.Usable (smallDeviceInfo [1, 0, 0, 0, 0x01, 0x10]) := by
  have hpayload := received_hasPayload (smallDeviceInfo [1, 0, 0, 0, 0x01, 0x10]) (by decide)
  have hroom : Fits (replied (smallDeviceInfo [1, 0, 0, 0, 0x01, 0x10])).dataLength := by decide
  have hreturns := (ptpParseDeviceInfo_returns (smallDeviceInfo [1, 0, 0, 0, 0x01, 0x10])
    hpayload.start_eq hroom blankDeviceInfo fun _ => True).mpr ⟨by decide +kernel, trivial⟩
  obtain ⟨⟨rc, di', last⟩, hrun, -, -⟩ := (Reader.returns_iff hpayload.shows).mp hreturns
  obtain ⟨rfl, rfl, husable, -⟩ := ptpParseDeviceInfo_usable_iff hpayload hroom hrun
  exact ⟨di', hrun, husable.mpr (by decide +kernel)⟩

/-- A count of -1 asks for no bytes, passes for a length, and stays in the structure. -/
theorem ptpParseDeviceInfo_negative : ∃ di',
    (ptpParseDeviceInfo (replied (smallDeviceInfo [255, 255, 255, 255])) blankDeviceInfo).run
      (replied (smallDeviceInfo [255, 255, 255, 255])).load = .ok (0, di', some di') ∧
    di'.opsSupportedLength = -1 ∧ ¬di'.Usable (smallDeviceInfo [255, 255, 255, 255]) := by
  have hpayload := received_hasPayload (smallDeviceInfo [255, 255, 255, 255]) (by decide)
  have hroom : Fits (replied (smallDeviceInfo [255, 255, 255, 255])).dataLength := by decide
  have hreturns := (ptpParseDeviceInfo_returns (smallDeviceInfo [255, 255, 255, 255])
    hpayload.start_eq hroom blankDeviceInfo
    fun found => found.1 = 0 ∧ found.2.2 = some found.2.1 ∧ found.2.1.opsSupportedLength = -1).mpr
    ⟨by decide +kernel, rfl, rfl, by decide +kernel⟩
  obtain ⟨⟨rc, di', last⟩, hrun, -, hrc, hlast, hlength⟩ :=
    (Reader.returns_iff hpayload.shows).mp hreturns
  dsimp only at hrc hlast hlength
  subst hrc hlast
  refine ⟨di', hrun, hlength, fun husable => ?_⟩
  have hnonneg := husable.ops.nonneg
  omega

end Libpict
