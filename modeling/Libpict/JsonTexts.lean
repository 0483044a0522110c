import Libpict.Serialisers

/-! # The texts of the serialisers

What a serialiser prints into a buffer with room for it, as a text that does not depend on
the buffer.
-/

namespace Libpict

open CInt Json

/-- A serialiser prints a text. -/
def PrintsAll (json : (max : Int) → Except Halt (List UInt8)) : Option (List UInt8) → Prop
  | some text => ∀ max,
      (∀ out, json max = .ok out → out = text) ∧ ((text.length : Int) ≤ max → json max = .ok text)
  | none => ∀ max out, json max ≠ .ok out

/-- On every buffer with room for it, the serialiser prints one well-formed JSON text. -/
def EmitsJson (json : (max : Int) → Except Halt (List UInt8)) : Prop :=
  ∃ text, (∀ max : Int, (text.length : Int) < max → json max = .ok text) ∧ WellFormed text

/-- One text behind another. -/
def joined (front back : Option (List UInt8)) : Option (List UInt8) :=
  front.bind fun front => back.map (front ++ ·)

/-- Texts one behind the other. -/
def allJoined : List (Option (List UInt8)) → Option (List UInt8)
  | [] => some []
  | [text] => text
  | text :: texts => joined text (allJoined texts)

theorem ok_of_bind {α β : Type} {x : Except Halt α} {f : α → Except Halt β} {b : β}
    (h : (x >>= f) = .ok b) : ∃ a, x = .ok a ∧ f a = .ok b := by
  cases x with
  | error reason => cases h
  | ok a => exact ⟨a, rfl, h⟩

/-! ## Parts -/

/-- A part of a serialiser, wherever it prints to. -/
abbrev Part : Type 1 := {β : Type} → (β → List UInt8 → Except Halt β) → β → Except Halt β

/-- A part prints the pieces of a text one by one, with some given ones at the end; without a
text it does not return. -/
def Splits (last : List (List UInt8)) (part : Part) : Option (List UInt8) → Prop
  | some text => ∃ front, (front ++ last).flatten = text ∧
      ∀ (β : Type) (print : β → List UInt8 → Except Halt β) (out : β),
        part print out = (front ++ last).foldlM print out
  | none => ∀ (β : Type) (print : β → List UInt8 → Except Halt β) (out out' : β),
      part print out ≠ .ok out'

section Parts

variable {part next : Part} {last : List (List UInt8)} {front back : Option (List UInt8)}

theorem foldlM_singleton {β : Type} (print : β → List UInt8 → Except Halt β) (out : β)
    (piece : List UInt8) : [piece].foldlM print out = print out piece := by
  rw [List.foldlM_cons]
  cases print out piece <;> rfl

theorem splits_last (piece : List UInt8) :
    Splits [piece] (fun print out => print out piece) (some piece) :=
  ⟨[], List.flatten_singleton, fun _ print out => (foldlM_singleton print out piece).symm⟩

theorem splits_print (piece : List UInt8) :
    Splits [] (fun print out => print out piece) (some piece) :=
  ⟨[piece], List.flatten_singleton, fun _ print out => (foldlM_singleton print out piece).symm⟩

theorem splits_nothing : Splits [] (fun _ out => .ok out) (some []) :=
  ⟨[], rfl, fun _ _ _ => rfl⟩

theorem splits_error (reason : Halt) : Splits last (fun _ _ => .error reason) none := by
  intro β print out out' h
  cases h

theorem Splits.bind (hpart : Splits [] part front) (hnext : Splits last next back) :
    Splits last (fun print out => part print out >>= next print) (joined front back) := by
  cases front with
  | none =>
      intro β print out out' h
      obtain ⟨between, hbetween, -⟩ := ok_of_bind h
      exact hpart β print out between hbetween
  | some front =>
      cases back with
      | none =>
          intro β print out out' h
          obtain ⟨between, -, hout⟩ := ok_of_bind h
          exact hnext β print between out' hout
      | some back =>
          obtain ⟨first, hfirst, hpart⟩ := hpart
          obtain ⟨second, hsecond, hnext⟩ := hnext
          rw [List.append_nil] at hfirst
          simp only [List.append_nil] at hpart
          refine ⟨first ++ second, ?_, fun β print out => ?_⟩
          · rw [List.append_assoc, List.flatten_append, hfirst, hsecond]
          · rw [List.append_assoc, List.foldlM_append]
            change part print out >>= next print = _
            rw [hpart β print out]
            exact congrArg _ (funext fun between => hnext β print between)

theorem Splits.ite {p : Prop} [Decidable p] (hpart : Splits last part front)
    (hnext : Splits last next back) :
    Splits last (fun print out => if p then part print out else next print out)
      (if p then front else back) := by
  by_cases hp : p
  · simp only [if_pos hp]
    exact hpart
  · simp only [if_neg hp]
    exact hnext

theorem splits_string {n : Nat} (before : List UInt8) (array : Vector UInt8 n)
    (after : List UInt8) :
    Splits [] (fun print out => printString print out before array after)
      ((cString array).toOption.map fun chars => before ++ chars ++ after) := by
  unfold printString
  cases hstring : cString array with
  | error reason => exact splits_error reason
  | ok chars => exact splits_print _

/-! ## Pieces on a text -/

theorem ok_of_osnprintf {max : Int} {out piece out' : List UInt8}
    (h : osnprintf max out piece = .ok out') : out' = out ++ piece := by
  unfold osnprintf at h
  split at h
  next => cases h
  next => exact (Except.ok.inj h).symm

theorem osnprintf_pieces (max : Int) (pieces : List (List UInt8)) (out : List UInt8) :
    (∀ out', pieces.foldlM (osnprintf max) out = .ok out' → out' = out ++ pieces.flatten) ∧
      ((out.length + pieces.flatten.length : Int) ≤ max →
        pieces.foldlM (osnprintf max) out = .ok (out ++ pieces.flatten)) := by
  induction pieces generalizing out with
  | nil =>
      rw [List.flatten_nil, List.append_nil]
      exact ⟨fun out' h => (Except.ok.inj h).symm, fun _ => rfl⟩
  | cons piece pieces ih =>
      obtain ⟨hdone, hroom⟩ := ih (out ++ piece)
      rw [List.foldlM_cons, List.flatten_cons, ← List.append_assoc]
      constructor
      · intro out' h
        obtain ⟨between, hbetween, hrest⟩ := ok_of_bind h
        obtain rfl := ok_of_osnprintf hbetween
        exact hdone out' hrest
      · intro hle
        rw [List.length_append] at hle
        push_cast at hle
        have hpiece : osnprintf max out piece = .ok (out ++ piece) := if_neg (by omega)
        rw [hpiece]
        refine hroom ?_
        rw [List.length_append]
        push_cast
        omega

/-- A serialiser that starts with something in its buffer. -/
theorem Splits.prints (hpart : Splits last part back) (start : List UInt8) :
    PrintsAll (fun max => part (osnprintf max) start) (joined (some start) back) := by
  cases back with
  | none => exact fun max out => hpart _ (osnprintf max) start out
  | some back =>
      obtain ⟨front, rfl, hpieces⟩ := hpart
      intro max
      have hrun : part (osnprintf max) start = (front ++ last).foldlM (osnprintf max) start :=
        hpieces _ (osnprintf max) start
      obtain ⟨hdone, hroom⟩ := osnprintf_pieces max (front ++ last) start
      dsimp only
      rw [hrun]
      refine ⟨hdone, fun hle => hroom ?_⟩
      rwa [List.length_append, Nat.cast_add] at hle

theorem Splits.printsAll (hpart : Splits last part back) :
    PrintsAll (fun max => part (osnprintf max) []) back := by
  have hprints := hpart.prints []
  cases back with
  | none => exact hprints
  | some back => exact hprints

end Parts

/-- A serialiser emits JSON if it prints a text and the text is well formed. -/
theorem emitsJson_iff {json : (max : Int) → Except Halt (List UInt8)} {text : Option (List UInt8)}
    (hprints : PrintsAll json text) : EmitsJson json ↔ ∃ printed ∈ text, WellFormed printed := by
  constructor
  · rintro ⟨printed, hjson, hwell⟩
    have hprinted := hjson (printed.length + 1) (by omega)
    cases text with
    | none => exact absurd hprinted (hprints _ _)
    | some text =>
        obtain rfl := (hprints _).1 _ hprinted
        exact ⟨_, rfl, hwell⟩
  · rintro ⟨printed, htext, hwell⟩
    obtain rfl := Option.mem_def.mp htext
    exact ⟨printed, fun max hroom => (hprints max).2 (by omega), hwell⟩

/-! ## Loops -/

/-- What the loop over a code array prints. -/
def codesText {n : Nat} (codes : Vector UInt16 n) (length : Int) : (left i : Nat) →
    Option (List UInt8)
  | 0, _ => some []
  | left + 1, i =>
      if h : i < n then
        joined (some (decimal codes[i].toNat ++ if length - 1 ≤ i then [] else ascii ", "))
          (codesText codes length left (i + 1))
      else none

theorem printCodes_splits {n : Nat} (codes : Vector UInt16 n) (length : Int) (left i : Nat) :
    Splits [] (fun print out => printCodes print codes length left i out)
      (codesText codes length left i) := by
  induction left generalizing i with
  | zero => exact splits_nothing
  | succ left ih =>
      unfold printCodes codesText
      by_cases hi : i < n
      · simp only [dif_pos hi]
        exact (splits_print _).bind (ih (i + 1))
      · simp only [dif_neg hi]
        exact splits_error _

/-- What the loop over a range prints. -/
def rangeText (form : PtpRangeForm) : (fuel : Nat) → (i : Int) → Option (List UInt8)
  | 0, _ => none
  | fuel + 1, i =>
      if i < form.max then
        if Fits (form.max - form.step) then
          joined (some (signed i ++ if form.max - form.step ≤ i then [] else ascii ", "))
            (if Fits (i + form.step) then rangeText form fuel (i + form.step) else none)
        else none
      else some []

theorem printRange_splits (form : PtpRangeForm) (fuel : Nat) (i : Int) :
    Splits [] (fun print out => printRange print form fuel i out) (rangeText form fuel i) := by
  induction fuel generalizing i with
  | zero => exact splits_error _
  | succ fuel ih =>
      unfold printRange rangeText
      apply Splits.ite
      · apply Splits.ite
        · apply (splits_print _).bind
          exact (ih (i + form.step)).ite (splits_error _)
        · exact splits_error _
      · exact splits_nothing

/-- What the loop over an enumeration prints. -/
def enumText (memory : Allocator) (type : Nat) (form : PtpEnumerationForm) : (left i : Nat) →
    (allocations : Nat) → (of : Int) → (value : UInt32) → Option (List UInt8)
  | 0, _, _, _, _ => some []
  | left + 1, i, allocations, of, value =>
      match (parseDataDataOrU32 memory allocations of type value none).run
        (Reader.only .undefined (form.data.slice 0 form.data.size)) with
      | .error _ => none
      | .ok parsed =>
          joined (some (signed (toInt32 parsed.u32.toNat) ++
              if (form.length.toNat : Int) - 1 ≤ i then [] else ascii ", "))
            (enumText memory type form left (i + 1) parsed.allocations (of + parsed.size)
              parsed.u32)

theorem printEnum_splits (memory : Allocator) (type : Nat) (form : PtpEnumerationForm)
    (left i allocations : Nat) (of : Int) (value : UInt32) :
    Splits [] (fun print out => printEnum print memory type form left i allocations of value out)
      (enumText memory type form left i allocations of value) := by
  induction left generalizing i allocations of value with
  | zero => exact splits_nothing
  | succ left ih =>
      unfold printEnum enumText
      cases (parseDataDataOrU32 memory allocations of type value none).run
        (Reader.only .undefined (form.data.slice 0 form.data.size)) with
      | error reason => exact splits_error reason
      | ok parsed => exact (splits_print _).bind (ih _ _ _ _)

/-- What the loop over the events prints. -/
def eventsPart (length : Int) : (i : Nat) → List PtpGenericEvent → List UInt8
  | _, [] => []
  | i, event :: events =>
      if event.name = none ∧ event.code = 0 then eventsPart length (i + 1) events
      else eventText event ++ (((if (i : Int) - 1 = length then [] else ascii ",") ++ ascii "\n") ++
        eventsPart length (i + 1) events)

theorem printEvents_splits (length : Int) (i : Nat) (events : List PtpGenericEvent) :
    Splits [] (fun print out => printEvents print length i events out)
      (some (eventsPart length i events)) := by
  induction events generalizing i with
  | nil => exact splits_nothing
  | cons event events ih =>
      unfold printEvents eventsPart
      by_cases hskip : event.name = none ∧ event.code = 0
      · simp only [if_pos hskip]
        exact ih (i + 1)
      · simp only [if_neg hskip]
        exact (splits_print _).bind ((splits_print _).bind (ih (i + 1)))

/-! ## Whole texts -/

/-- The text of `ptp_device_info_json`. -/
def deviceInfoText (di : PtpDeviceInfo) : Option (List UInt8) :=
  allJoined [some (ascii "\x7b\n    \"opsSupported\": ["),
    codesText di.opsSupported di.opsSupportedLength di.opsSupportedLength.toNat 0,
    some (ascii "],\n"),
    some (ascii "    \"eventsSupported\": ["),
    codesText di.eventsSupported di.eventsSupportedLength di.eventsSupportedLength.toNat 0,
    some (ascii "],\n"),
    some (ascii "    \"propsSupported\": ["),
    codesText di.propsSupported di.propsSupportedLength di.propsSupportedLength.toNat 0,
    some (ascii "],\n"),
    (cString di.manufacturer).toOption.map
      (ascii "    \"manufacturer\": \"" ++ · ++ ascii "\",\n"),
    (cString di.extensions).toOption.map (ascii "    \"extensions\": \"" ++ · ++ ascii "\",\n"),
    (cString di.model).toOption.map (ascii "    \"model\": \"" ++ · ++ ascii "\",\n"),
    (cString di.deviceVersion).toOption.map
      (ascii "    \"deviceVersion\": \"" ++ · ++ ascii "\",\n"),
    (cString di.serialNumber).toOption.map
      (ascii "    \"serialNumber\": \"" ++ · ++ ascii "\"\n"),
    some (ascii "\x7d")]

theorem printDevice_splits (di : PtpDeviceInfo) :
    Splits [ascii "\x7d"] (fun print out => printDevice print di out) (deviceInfoText di) := by
  unfold printDevice deviceInfoText
  apply (splits_print _).bind
  apply (printCodes_splits _ _ _ _).bind
  apply (splits_print _).bind
  apply (splits_print _).bind
  apply (printCodes_splits _ _ _ _).bind
  apply (splits_print _).bind
  apply (splits_print _).bind
  apply (printCodes_splits _ _ _ _).bind
  apply (splits_print _).bind
  apply (splits_string _ _ _).bind
  apply (splits_string _ _ _).bind
  apply (splits_string _ _ _).bind
  apply (splits_string _ _ _).bind
  apply (splits_string _ _ _).bind
  exact splits_last _

theorem ptpDeviceInfoJson_prints (di : PtpDeviceInfo) :
    PrintsAll (fun max => ptpDeviceInfoJson max di) (deviceInfoText di) :=
  (printDevice_splits di).printsAll

def imageSizeText (so : PtpObjectInfo) : Option (List UInt8) :=
  if so.compressedSize ≠ 0 then
    joined (some (ascii "\"imgWidth\": " ++ decimal so.imgWidth.toNat ++ ascii ","))
      (some (ascii "\"imgHeight\": " ++ decimal so.imgHeight.toNat ++ ascii ","))
  else some []

theorem printImageSize_splits (so : PtpObjectInfo) :
    Splits [] (fun print out => printImageSize print so out) (imageSizeText so) := by
  unfold printImageSize imageSizeText
  exact ((splits_print _).bind (splits_print _)).ite splits_nothing

/-- The text of `ptp_object_info_json`. -/
def objectInfoText (names : EnumNames) (so : PtpObjectInfo) : Option (List UInt8) :=
  allJoined [some (ascii "\x7b"),
    some (ascii "\"storage_id\": " ++ decimal so.storageId.toNat ++ ascii ","),
    some (ascii "\"compressedSize\": " ++ decimal so.compressedSize.toNat ++ ascii ","),
    some (ascii "\"parent\": " ++ decimal so.parentObj.toNat ++ ascii ","),
    some (ascii "\"format\": \"" ++ ascii (evalObjFormat names so.objFormat.toNat) ++ ascii "\","),
    some (ascii "\"format_int\": " ++ decimal so.objFormat.toNat ++ ascii ","),
    some (ascii "\"protection\": \"" ++ ascii (evalProtection so.protection.toNat) ++ ascii "\","),
    (cString so.filename).toOption.map (ascii "\"filename\": \"" ++ · ++ ascii "\","),
    imageSizeText so,
    (cString so.dateCreated).toOption.map (ascii "\"dateCreated\": \"" ++ · ++ ascii "\","),
    (cString so.dateModified).toOption.map (ascii "\"dateModified\": \"" ++ · ++ ascii "\""),
    some (ascii "\x7d")]

/-- The first brace is not one of the pieces. -/
theorem printObject_splits (names : EnumNames) (so : PtpObjectInfo) :
    ∃ text, objectInfoText names so = joined (some (ascii "\x7b")) text ∧
      Splits [ascii "\x7d"] (fun print out => printObject print names so out) text := by
  refine ⟨_, rfl, ?_⟩
  unfold printObject
  apply (splits_print _).bind
  apply (splits_print _).bind
  apply (splits_print _).bind
  apply (splits_print _).bind
  apply (splits_print _).bind
  apply (splits_print _).bind
  apply (splits_string _ _ _).bind
  apply (printImageSize_splits so).bind
  apply (splits_string _ _ _).bind
  apply (splits_string _ _ _).bind
  exact splits_last _

theorem ptpObjectInfoJson_prints (names : EnumNames) (so : PtpObjectInfo) :
    PrintsAll (fun max => ptpObjectInfoJson max names so) (objectInfoText names so) := by
  obtain ⟨text, htext, hsplits⟩ := printObject_splits names so
  rw [htext]
  exact hsplits.prints _

/-- The text of `ptp_storage_info_json`. -/
def storageInfoText (so : PtpStorageInfo) : Option (List UInt8) :=
  allJoined [some (ascii "\x7b"),
    some (ascii "\"storageType\": \"" ++ ascii (evalStorageType so.storageType.toNat) ++
      ascii "\","),
    some (ascii "\"fsType\": " ++ decimal so.fsType.toNat ++ ascii ","),
    some (ascii "\"maxCapacity\": " ++ decimal so.maxCapacity.toNat ++ ascii ","),
    some (ascii "\"freeSpace\": " ++ decimal so.freeSpace.toNat),
    some (ascii "\x7d")]

theorem printStorage_splits (so : PtpStorageInfo) :
    Splits [ascii "\x7d"] (fun print out => printStorage print so out) (storageInfoText so) := by
  unfold printStorage storageInfoText
  apply (splits_print _).bind
  apply (splits_print _).bind
  apply (splits_print _).bind
  apply (splits_print _).bind
  apply (splits_print _).bind
  exact splits_last _

theorem ptpStorageInfoJson_prints (so : PtpStorageInfo) :
    PrintsAll (fun max => ptpStorageInfoJson max so) (storageInfoText so) :=
  (printStorage_splits so).printsAll

def valuesText (pd : PtpPropDesc) : Option (List UInt8) :=
  if isIntegerType pd.dataType.toNat then
    joined (some (ascii "\"currentValue32\": " ++ signed (toInt32 pd.currentValue32.toNat) ++
      ascii ",\n"))
      (some (ascii "\"defaultValue32\": " ++ decimal pd.defaultValue32.toNat ++ ascii ",\n"))
  else if pd.dataType.toNat = ptpTcUint8Array ∨ pd.dataType.toNat = ptpTcUint16Array ∨
      pd.dataType.toNat = ptpTcUint32Array ∨ pd.dataType.toNat = ptpTcUint64Array ∨
      pd.dataType.toNat = ptpTcString then none
  else some []

theorem printValues_splits (pd : PtpPropDesc) :
    Splits [] (fun print out => printValues print pd out) (valuesText pd) := by
  unfold printValues valuesText
  exact ((splits_print _).bind (splits_print _)).ite
    ((splits_error _).ite splits_nothing)

def entriesText (memory : Allocator) (allocations : Nat) (value : UInt32) (pd : PtpPropDesc)
    (fuel : Nat) : Option (List UInt8) :=
  if pd.formType.toNat = ptpRangeForm then rangeText pd.rangeForm fuel pd.rangeForm.min
  else pd.enumForm.bind fun form =>
    enumText memory pd.dataType.toNat form form.length.toNat 0 allocations 0 value

theorem printEntries_splits (memory : Allocator) (allocations : Nat) (value : UInt32)
    (pd : PtpPropDesc) (fuel : Nat) :
    Splits [] (fun print out => printEntries print memory allocations value pd fuel out)
      (entriesText memory allocations value pd fuel) := by
  unfold printEntries entriesText
  apply (printRange_splits _ _ _).ite
  cases pd.enumForm with
  | none => exact splits_error _
  | some form => exact printEnum_splits _ _ _ _ _ _ _ _

/-- The text of `ptp_prop_desc_json`. -/
def propDescText (memory : Allocator) (allocations : Nat) (value : UInt32) (pd : PtpPropDesc)
    (fuel : Nat) : Option (List UInt8) :=
  allJoined [some (ascii "\x7b\n"),
    some (ascii "\"code\": " ++ decimal pd.code.toNat ++ ascii ",\n"),
    some (ascii "\"type\": " ++ decimal pd.dataType.toNat ++ ascii ",\n"),
    valuesText pd,
    some (ascii "\"validEntries\": ["),
    entriesText memory allocations value pd fuel,
    some (ascii "],\n"),
    some (ascii "\"form_type\": " ++ decimal pd.formType.toNat ++ ascii "\n"),
    some (ascii "\x7d")]

theorem printPropDesc_splits (memory : Allocator) (allocations : Nat) (value : UInt32)
    (pd : PtpPropDesc) (fuel : Nat) :
    Splits [ascii "\x7d"]
      (fun print out => printPropDesc print memory allocations value pd fuel out)
      (propDescText memory allocations value pd fuel) := by
  unfold printPropDesc propDescText
  apply (splits_print _).bind
  apply (splits_print _).bind
  apply (splits_print _).bind
  apply (printValues_splits _).bind
  apply (splits_print _).bind
  apply (printEntries_splits _ _ _ _ _).bind
  apply (splits_print _).bind
  apply (splits_print _).bind
  exact splits_last _

theorem ptpPropDescJson_prints (memory : Allocator) (allocations : Nat) (value : UInt32)
    (pd : PtpPropDesc) (fuel : Nat) :
    PrintsAll (fun max => ptpPropDescJson max memory allocations value pd fuel)
      (propDescText memory allocations value pd fuel) :=
  (printPropDesc_splits memory allocations value pd fuel).printsAll

/-- The text about a list of events. -/
def eventsText (length : Int) (events : List PtpGenericEvent) : Option (List UInt8) :=
  if length = 0 then some (ascii "[]")
  else allJoined [some (ascii "["), some (eventsPart length 0 events), some (ascii "]")]

/-- The list of some events. -/
theorem printFound_splits {length : Int} (hsome : length ≠ 0) (events : List PtpGenericEvent) :
    Splits [ascii "]"] (fun print out => do
        let out ← print out (ascii "[")
        let out ← printEvents print length 0 events out
        print out (ascii "]")) (eventsText length events) := by
  unfold eventsText
  rw [if_neg hsome]
  apply (splits_print _).bind
  apply (printEvents_splits _ _ _).bind
  exact splits_last _

theorem printEventList_prints (length : Int) (events : List PtpGenericEvent) :
    PrintsAll (fun max => printEventList max length events) (eventsText length events) := by
  unfold printEventList printFound
  by_cases hzero : length = 0
  · simp only [if_pos hzero, eventsText]
    exact fun max => ⟨fun out h => (Except.ok.inj h).symm, fun _ => rfl⟩
  · simp only [if_neg hzero]
    exact (printFound_splits hzero events).printsAll

end Libpict
