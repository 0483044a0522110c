import Libpict.JsonTexts

/-! # Emitted JSON

When the texts of the serialisers are well-formed JSON.
-/

namespace Libpict

open CInt Json

/-- Read a text, if there is one. -/
def runText (s : State) (text : Option (List UInt8)) : Option State := text.bind (run s)

@[simp] theorem runText_some (s : State) (text : List UInt8) : runText s (some text) = run s text :=
  rfl

theorem runText_joined (s : State) (front back : Option (List UInt8)) :
    runText s (joined front back) = (runText s front).bind fun s' => runText s' back := by
  cases front with
  | none => rfl
  | some front =>
      cases back with
      | none => cases h : run s front <;> simp [runText, joined, h]
      | some back => exact run_append s front back

theorem joined_assoc (first second third : Option (List UInt8)) :
    joined (joined first second) third = joined first (joined second third) := by
  cases first <;> cases second <;> cases third <;> simp [joined]

theorem runText_step {s s' : State} {front : List UInt8} (hfront : run s front = some s')
    (back : Option (List UInt8)) : runText s (joined (some front) back) = runText s' back := by
  rw [runText_joined, runText_some, hfront, Option.bind_some]

theorem runText_part {s s' : State} {front : Option (List UInt8)}
    (hfront : runText s front = some s') (back : Option (List UInt8)) :
    runText s (joined front back) = runText s' back := by
  rw [runText_joined, hfront, Option.bind_some]

theorem runText_two (s : State) (front back : List UInt8) :
    runText s (joined (some front) (some back)) = run s (front ++ back) := rfl

theorem emitsJson_iff_run {json : (max : Int) → Except Halt (List UInt8)}
    {text : Option (List UInt8)} (hprints : PrintsAll json text) :
    EmitsJson json ↔ ∃ s, runText ⟨.value, []⟩ text = some s ∧ s.Final := by
  rw [emitsJson_iff hprints]
  cases text with
  | none => simp [runText]
  | some text => simp [runText, WellFormed]

/-- A text of characters that stand for themselves in JSON. -/
def PlainText (text : String) : Prop := ∀ b ∈ ascii text, isPlain b = true

instance (text : String) : Decidable (PlainText text) :=
  List.decidableBAll (fun b => isPlain b = true) (ascii text)

/-! ## Storage -/

theorem evalStorageType_plain (id : Nat) : PlainText (evalStorageType id) := by
  unfold evalStorageType
  split_ifs <;> exact List.all_eq_true.mp rfl

/-- `ptp_storage_info_json` always emits JSON. -/
theorem storageInfo_emits (so : PtpStorageInfo) :
    EmitsJson fun max => ptpStorageInfoJson max so := by
  have hopen : run ⟨.value, []⟩ (ascii "\x7b") = some ⟨.firstKey, [.object]⟩ := rfl
  have htype : run ⟨.firstKey, [.object]⟩ (ascii "\"storageType\": \"" ++
      ascii (evalStorageType so.storageType.toNat) ++ ascii "\",") = some ⟨.key, [.object]⟩ :=
    run_quoted rfl (evalStorageType_plain _) rfl
  have hfs : run ⟨.key, [.object]⟩ (ascii "\"fsType\": " ++ decimal so.fsType.toNat ++
      ascii ",") = some ⟨.key, [.object]⟩ := run_member rfl (reads_decimal _) rfl rfl
  have hmax : run ⟨.key, [.object]⟩ (ascii "\"maxCapacity\": " ++
      decimal so.maxCapacity.toNat ++ ascii ",") = some ⟨.key, [.object]⟩ :=
    run_member rfl (reads_decimal _) rfl rfl
  have hfree : run ⟨.key, [.object]⟩ (ascii "\"freeSpace\": " ++ decimal so.freeSpace.toNat ++
      ascii "\x7d") = some ⟨.done, []⟩ := run_member rfl (reads_decimal _) rfl rfl
  rw [emitsJson_iff_run (ptpStorageInfoJson_prints so)]
  refine ⟨⟨.done, []⟩, ?_, trivial⟩
  simp only [storageInfoText, allJoined]
  rw [runText_step hopen, runText_step htype, runText_step hfs, runText_step hmax, runText_two,
    hfree]

/-! ## Device information -/

/-- The codes that are printed fill an array. -/
theorem codesText_fills {n : Nat} (codes : Vector UInt16 n) {length : Int} {left i : Nat}
    (hlength : ((i + (left + 1) : Nat) : Int) = length) (hroom : i + (left + 1) ≤ n) :
    ∃ body, codesText codes length (left + 1) i = some body ∧ Fills body := by
  induction left generalizing i with
  | zero =>
      have hi : i < n := by omega
      rw [codesText, dif_pos hi, if_pos (by omega), codesText, joined]
      exact ⟨_, rfl, by simpa using fills_last (reads_decimal _)⟩
  | succ left ih =>
      have hi : i < n := by omega
      obtain ⟨body, hbody, hfills⟩ := @ih (i + 1) (by omega) (by omega)
      rw [codesText, dif_pos hi, if_neg (by omega), hbody, joined]
      refine ⟨_, rfl, ?_⟩
      dsimp only
      rw [List.append_assoc]
      exact fills_more (reads_decimal _) hfills

theorem codesText_whole {n : Nat} (codes : Vector UInt16 n) {length : Int} (hroom : length ≤ n) :
    ∃ body, codesText codes length length.toNat 0 = some body ∧ (body = [] ∨ Fills body) := by
  rcases hleft : length.toNat with _ | left
  · exact ⟨[], rfl, .inl rfl⟩
  · obtain ⟨body, hbody, hfills⟩ := @codesText_fills _ codes length left 0 (by omega) (by omega)
    exact ⟨body, hbody, .inr hfills⟩

theorem runText_codes {body : List UInt8} (hbody : body = [] ∨ Fills body) (frames : List Frame)
    (rest : Option (List UInt8)) :
    runText ⟨.first, .array :: frames⟩ (joined (some body) (joined (some (ascii "],\n")) rest)) =
      runText ⟨.done, frames⟩ (joined (some (ascii ",\n")) rest) := by
  have hbracket : ascii "],\n" = 0x5D :: ascii ",\n" := rfl
  cases rest with
  | none => rfl
  | some rest =>
      have hrun := run_array hbody frames (ascii ",\n" ++ rest)
      rw [← List.cons_append, ← hbracket] at hrun
      exact hrun

/-- Up to the opening quote of a string. -/
theorem runText_quoted {s s' : State} {before : List UInt8} (hbefore : run s before = some s')
    (chars after : List UInt8) (back : Option (List UInt8)) :
    runText s (joined (some (before ++ chars ++ after)) back) =
      runText s' (joined (some (chars ++ after)) back) := by
  rw [runText_joined, runText_joined, runText_some, runText_some, List.append_assoc,
    run_append_of_run hbefore]

/-- The strings that `ptp_device_info_json` prints. -/
def deviceStrings (di : PtpDeviceInfo) : Except Halt (List (List UInt8)) := do
  let manufacturer ← cString di.manufacturer
  let extensions ← cString di.extensions
  let model ← cString di.model
  let deviceVersion ← cString di.deviceVersion
  let serialNumber ← cString di.serialNumber
  return [manufacturer, extensions, model, deviceVersion, serialNumber]

/-- The arrays have room for the codes that they are said to hold. -/
structure CodesInside (di : PtpDeviceInfo) : Prop where
  ops : di.opsSupportedLength ≤ 256
  events : di.eventsSupportedLength ≤ 256
  props : di.propsSupportedLength ≤ 512

theorem extensions_link : IsLink (ascii "\",\n" ++ ascii "    \"extensions\": \"") :=
  isLink_of_key (ascii "\n    ") (ascii "xtensions") (ascii " \"") 0x65
    (List.all_eq_true.mp rfl) rfl (List.all_eq_true.mp rfl) fun _ => rfl

theorem model_link : IsLink (ascii "\",\n" ++ ascii "    \"model\": \"") :=
  isLink_of_key (ascii "\n    ") (ascii "odel") (ascii " \"") 0x6D
    (List.all_eq_true.mp rfl) rfl (List.all_eq_true.mp rfl) fun _ => rfl

theorem deviceVersion_link : IsLink (ascii "\",\n" ++ ascii "    \"deviceVersion\": \"") :=
  isLink_of_key (ascii "\n    ") (ascii "eviceVersion") (ascii " \"") 0x64
    (List.all_eq_true.mp rfl) rfl (List.all_eq_true.mp rfl) fun _ => rfl

theorem serialNumber_link : IsLink (ascii "\",\n" ++ ascii "    \"serialNumber\": \"") :=
  isLink_of_key (ascii "\n    ") (ascii "erialNumber") (ascii " \"") 0x73
    (List.all_eq_true.mp rfl) rfl (List.all_eq_true.mp rfl) fun _ => rfl

/-- The text of a device inside of some objects, which end behind it, is well formed exactly if the
strings are there and stay inside. -/
theorem deviceInfo_closes_iff {di : PtpDeviceInfo} (hcodes : CodesInside di) (k : Nat) :
    (∃ s, runText ⟨.value, List.replicate k .object⟩
        (joined (deviceInfoText di) (some (List.replicate k 0x7D))) = some s ∧ s.Final) ↔
      ∃ strings, deviceStrings di = .ok strings ∧
        StayWithin (List.replicate k .object) strings (List.replicate k .object) := by
  obtain ⟨ops, hops, hopsBody⟩ := codesText_whole di.opsSupported hcodes.ops
  obtain ⟨events, hevents, heventsBody⟩ := codesText_whole di.eventsSupported hcodes.events
  obtain ⟨props, hprops, hpropsBody⟩ := codesText_whole di.propsSupported hcodes.props
  rw [deviceInfoText, hops, hevents, hprops, deviceStrings]
  cases cString di.manufacturer with
  | error reason => simp [allJoined, joined, runText, Except.toOption, bind, Except.bind]
  | ok manufacturer =>
  cases cString di.extensions with
  | error reason => simp [allJoined, joined, runText, Except.toOption, bind, Except.bind]
  | ok extensions =>
  cases cString di.model with
  | error reason => simp [allJoined, joined, runText, Except.toOption, bind, Except.bind]
  | ok model =>
  cases cString di.deviceVersion with
  | error reason => simp [allJoined, joined, runText, Except.toOption, bind, Except.bind]
  | ok deviceVersion =>
  cases cString di.serialNumber with
  | error reason => simp [allJoined, joined, runText, Except.toOption, bind, Except.bind]
  | ok serialNumber =>
  generalize hframes : List.replicate k Frame.object = F
  have hopen : run ⟨.value, F⟩ (ascii "\x7b\n    \"opsSupported\": [") =
      some ⟨.first, .array :: .object :: F⟩ := rfl
  have hcomma : run ⟨.done, .object :: F⟩ (ascii ",\n") = some ⟨.key, .object :: F⟩ := rfl
  have heventsKey : run ⟨.key, .object :: F⟩ (ascii "    \"eventsSupported\": [") =
      some ⟨.first, .array :: .object :: F⟩ := rfl
  have hpropsKey : run ⟨.key, .object :: F⟩ (ascii "    \"propsSupported\": [") =
      some ⟨.first, .array :: .object :: F⟩ := rfl
  have hmanufacturer : run ⟨.key, .object :: F⟩ (ascii "    \"manufacturer\": \"") =
      some ⟨.text false .chars, .object :: F⟩ := rfl
  have hquoted := quoted_closes_iff serialNumber
    [(manufacturer, ascii "\",\n" ++ ascii "    \"extensions\": \""),
      (extensions, ascii "\",\n" ++ ascii "    \"model\": \""),
      (model, ascii "\",\n" ++ ascii "    \"deviceVersion\": \""),
      (deviceVersion, ascii "\",\n" ++ ascii "    \"serialNumber\": \"")]
    (List.all_eq_true.mp rfl : ∀ b ∈ ([0x0A] : List UInt8), isSpace b = true)
    (by
      simp only [List.forall_mem_cons, List.not_mem_nil, false_imp_iff, implies_true, and_true]
      exact ⟨extensions_link, model_link, deviceVersion_link, serialNumber_link⟩) k F
  have hstrings : (∃ strings, (Except.ok [manufacturer, extensions, model, deviceVersion,
      serialNumber] : Except Halt _) = .ok strings ∧ StayWithin F strings F) ↔
      StayWithin F [manufacturer, extensions, model, deviceVersion, serialNumber] F := by
    simp
  have hending : ascii "\"\n" ++ (ascii "\x7d" ++ List.replicate k 0x7D) =
      0x22 :: ([0x0A] ++ List.replicate (k + 1) 0x7D) := rfl
  rw [hframes] at hquoted
  refine Iff.trans ?_ (hquoted.trans hstrings.symm)
  simp only [allJoined, Except.toOption, Option.map_some, joined_assoc]
  rw [runText_step hopen, runText_codes hopsBody, runText_step hcomma, runText_step heventsKey,
    runText_codes heventsBody, runText_step hcomma, runText_step hpropsKey,
    runText_codes hpropsBody, runText_step hcomma, runText_quoted hmanufacturer, ← hending]
  simp only [joined, Option.bind_some, Option.map_some, quoted, List.append_assoc, runText_some]

/-- `ptp_device_info_json` emits JSON exactly if its strings are there and stay inside. -/
theorem deviceInfo_emits_iff {di : PtpDeviceInfo} (hcodes : CodesInside di) :
    (EmitsJson fun max => ptpDeviceInfoJson max di) ↔
      ∃ strings, deviceStrings di = .ok strings ∧ StayInside strings [] := by
  have hnone : joined (deviceInfoText di) (some []) = deviceInfoText di := by
    cases deviceInfoText di <;> simp [joined]
  have hcloses := deviceInfo_closes_iff hcodes 0
  simp only [List.replicate_zero, hnone, stayWithin_nil_iff] at hcloses
  rw [emitsJson_iff_run (ptpDeviceInfoJson_prints di), hcloses]

/-! ## Objects -/

/-- Every name of the enumerations is plain. -/
def PlainNames (names : EnumNames) : Prop := ∀ code name, names code = some name → PlainText name

theorem ptpGetEnumAll_plain {names : EnumNames} (hnames : PlainNames names) (code : Int) :
    PlainText (ptpGetEnumAll names code) := by
  unfold ptpGetEnumAll
  cases hname : names code with
  | none => exact List.all_eq_true.mp rfl
  | some name => exact hnames code name hname

theorem evalObjFormat_plain {names : EnumNames} (hnames : PlainNames names) (code : Int) :
    PlainText (evalObjFormat names code) := by
  unfold evalObjFormat
  split
  · exact List.all_eq_true.mp rfl
  · exact ptpGetEnumAll_plain hnames code

theorem evalProtection_plain (code : Nat) : PlainText (evalProtection code) := by
  unfold evalProtection
  split_ifs <;> exact List.all_eq_true.mp rfl

/-- The strings that `ptp_object_info_json` prints. -/
def objectStrings (so : PtpObjectInfo) : Except Halt (List (List UInt8)) := do
  let filename ← cString so.filename
  let dateCreated ← cString so.dateCreated
  let dateModified ← cString so.dateModified
  return [filename, dateCreated, dateModified]

theorem dateModified_link : IsLink (ascii "\"," ++ ascii "\"dateModified\": \"") :=
  isLink_of_key [] (ascii "ateModified") (ascii " \"") 0x64
    (List.all_eq_true.mp rfl) rfl (List.all_eq_true.mp rfl) fun _ => rfl

/-- What comes between the file name and the date of creation. -/
theorem imageSize_link (so : PtpObjectInfo) : ∃ size, imageSizeText so = some size ∧
    IsLink (ascii "\"," ++ (size ++ ascii "\"dateCreated\": \"")) := by
  unfold imageSizeText
  by_cases hsize : so.compressedSize ≠ 0
  · rw [if_pos hsize]
    refine ⟨_, rfl, ?_⟩
    have hfront : ∀ s, run s (ascii "\"," ++ ascii "\"imgWidth\": ") ≠ none →
        ∃ frames, s = ⟨.text false .chars, .object :: frames⟩ := fun s =>
      @inside_of_run_key s [] (ascii "mgWidth") [0x20] 0x69 (List.all_eq_true.mp rfl) rfl
        (List.all_eq_true.mp rfl)
    have hkey : ∀ frames, run ⟨.text false .chars, .object :: frames⟩ (ascii "\",") =
        some ⟨.key, .object :: frames⟩ := fun _ => rfl
    have hwidth : ∀ frames, run ⟨.key, .object :: frames⟩ (ascii "\"imgWidth\": " ++
        decimal so.imgWidth.toNat ++ ascii ",") = some ⟨.key, .object :: frames⟩ := fun _ =>
      run_member rfl (reads_decimal _) rfl rfl
    have hheight : ∀ frames, run ⟨.key, .object :: frames⟩ (ascii "\"imgHeight\": " ++
        decimal so.imgHeight.toNat ++ ascii ",") = some ⟨.key, .object :: frames⟩ := fun _ =>
      run_member rfl (reads_decimal _) rfl rfl
    have hdate : ∀ frames, run ⟨.key, .object :: frames⟩ (ascii "\"dateCreated\": \"") =
        some ⟨.text false .chars, .object :: frames⟩ := fun _ => rfl
    have hrun := fun frames => (run_append_of_run (hkey frames) _).trans
      ((run_append_of_run (hwidth frames) _).trans
        ((run_append_of_run (hheight frames) _).trans (hdate frames)))
    simp only [List.append_assoc] at hrun ⊢
    rw [← List.append_assoc (ascii "\",")] at hrun ⊢
    exact isLink_append hfront hrun
  · rw [if_neg hsize]
    exact ⟨_, rfl, isLink_of_key [] (ascii "ateCreated") (ascii " \"") 0x64
      (List.all_eq_true.mp rfl) rfl (List.all_eq_true.mp rfl) fun _ => rfl⟩

/-- `ptp_object_info_json` emits JSON exactly if its strings are there and stay inside. -/
theorem objectInfo_emits_iff {names : EnumNames} (hnames : PlainNames names) (so : PtpObjectInfo) :
    (EmitsJson fun max => ptpObjectInfoJson max names so) ↔
      ∃ strings, objectStrings so = .ok strings ∧ StayInside strings [] := by
  obtain ⟨size, hsize, hlink⟩ := imageSize_link so
  rw [emitsJson_iff_run (ptpObjectInfoJson_prints names so), objectInfoText, hsize, objectStrings]
  cases cString so.filename with
  | error reason => simp [allJoined, joined, runText, Except.toOption, bind, Except.bind]
  | ok filename =>
  cases cString so.dateCreated with
  | error reason => simp [allJoined, joined, runText, Except.toOption, bind, Except.bind]
  | ok dateCreated =>
  cases cString so.dateModified with
  | error reason => simp [allJoined, joined, runText, Except.toOption, bind, Except.bind]
  | ok dateModified =>
  have hopen : run ⟨.value, []⟩ (ascii "\x7b") = some ⟨.firstKey, [.object]⟩ := rfl
  have hid : run ⟨.firstKey, [.object]⟩ (ascii "\"storage_id\": " ++ decimal so.storageId.toNat ++
      ascii ",") = some ⟨.key, [.object]⟩ := run_member rfl (reads_decimal _) rfl rfl
  have hcompressed : run ⟨.key, [.object]⟩ (ascii "\"compressedSize\": " ++
      decimal so.compressedSize.toNat ++ ascii ",") = some ⟨.key, [.object]⟩ :=
    run_member rfl (reads_decimal _) rfl rfl
  have hparent : run ⟨.key, [.object]⟩ (ascii "\"parent\": " ++ decimal so.parentObj.toNat ++
      ascii ",") = some ⟨.key, [.object]⟩ := run_member rfl (reads_decimal _) rfl rfl
  have hformat : run ⟨.key, [.object]⟩ (ascii "\"format\": \"" ++
      ascii (evalObjFormat names so.objFormat.toNat) ++ ascii "\",") = some ⟨.key, [.object]⟩ :=
    run_quoted rfl (evalObjFormat_plain hnames _) rfl
  have hformatInt : run ⟨.key, [.object]⟩ (ascii "\"format_int\": " ++
      decimal so.objFormat.toNat ++ ascii ",") = some ⟨.key, [.object]⟩ :=
    run_member rfl (reads_decimal _) rfl rfl
  have hprotection : run ⟨.key, [.object]⟩ (ascii "\"protection\": \"" ++
      ascii (evalProtection so.protection.toNat) ++ ascii "\",") = some ⟨.key, [.object]⟩ :=
    run_quoted rfl (evalProtection_plain _) rfl
  have hfilename : run ⟨.key, [.object]⟩ (ascii "\"filename\": \"") =
      some ⟨.text false .chars, [.object]⟩ := rfl
  have hquoted := quoted_final_iff dateModified
    [(filename, ascii "\"," ++ (size ++ ascii "\"dateCreated\": \"")),
      (dateCreated, ascii "\"," ++ ascii "\"dateModified\": \"")]
    (List.forall_mem_nil _ : ∀ b ∈ ([] : List UInt8), isSpace b = true)
    (by
      simp only [List.forall_mem_cons, List.not_mem_nil, false_imp_iff, implies_true, and_true]
      exact ⟨hlink, dateModified_link⟩) []
  have hstrings : (∃ strings, (Except.ok [filename, dateCreated, dateModified] :
      Except Halt _) = .ok strings ∧ StayInside strings []) ↔
      StayInside [filename, dateCreated, dateModified] [] := by
    simp
  have hending : ascii "\"" ++ ascii "\x7d" = 0x22 :: ([] ++ [0x7D]) := rfl
  refine Iff.trans ?_ (hquoted.trans hstrings.symm)
  simp only [allJoined, Except.toOption, Option.map_some]
  rw [runText_step hopen, runText_step hid, runText_step hcompressed, runText_step hparent,
    runText_step hformat, runText_step hformatInt, runText_step hprotection,
    runText_quoted hfilename, ← hending]
  simp only [joined, Option.bind_some, Option.map_some, quoted, List.append_assoc, runText_some]

/-! ## Property descriptors -/

/-- A range whose values come to its end: some value at or above the maximum is an `int`. -/
def RangeEnds (form : PtpRangeForm) : Prop :=
  form.max ≤ form.min ∨ 0 < form.step ∧ Fits (form.max - form.step) ∧
    ∃ n : Nat, form.max ≤ form.min + n * form.step ∧ Fits (form.min + n * form.step)

/-- What is printed of a range fills an array. -/
theorem rangeText_fills {form : PtpRangeForm} {fuel : Nat} {i : Int} {body : List UInt8}
    (htext : rangeText form fuel i = some body) :
    form.max ≤ i ∧ body = [] ∨ i < form.max ∧ Fills body := by
  induction fuel generalizing i body with
  | zero => cases htext
  | succ fuel ih =>
      rw [rangeText] at htext
      by_cases hi : i < form.max
      · rw [if_pos hi] at htext
        split at htext
        next =>
          cases hrest : (if Fits (i + form.step) then rangeText form fuel (i + form.step) else none)
            with
          | none =>
              rw [hrest] at htext
              cases htext
          | some rest =>
              rw [hrest] at htext
              obtain rfl := Option.some.inj htext
              have hnext := (Option.ite_none_right_eq_some.mp hrest).2
              dsimp only
              obtain ⟨hend, rfl⟩ | ⟨hmore, hfills⟩ := ih hnext
              · rw [if_pos (by omega)]
                exact .inr ⟨hi, by simpa using fills_last (reads_signed i)⟩
              · rw [if_neg (by omega), List.append_assoc]
                exact .inr ⟨hi, fills_more (reads_signed i) hfills⟩
        next => cases htext
      · rw [if_neg hi] at htext
        exact .inl ⟨not_lt.mp hi, (Option.some.inj htext).symm⟩

/-- The loop from a value on ends. -/
theorem rangeText_isSome_iff {form : PtpRangeForm} {i : Int} (hi : Fits i) :
    (∃ fuel, (rangeText form fuel i).isSome) ↔ form.max ≤ i ∨ 0 < form.step ∧
      Fits (form.max - form.step) ∧
        ∃ n : Nat, form.max ≤ i + n * form.step ∧ Fits (i + n * form.step) := by
  constructor
  · rintro ⟨fuel, hsome⟩
    induction fuel generalizing i with
    | zero => cases hsome
    | succ fuel ih =>
        rw [rangeText] at hsome
        by_cases hlt : i < form.max
        · rw [if_pos hlt] at hsome
          split at hsome
          next hfits =>
            by_cases hnext : Fits (i + form.step)
            · rw [if_pos hnext] at hsome
              have hrest : (rangeText form fuel (i + form.step)).isSome := by
                cases hrest : rangeText form fuel (i + form.step) with
                | none =>
                    rw [hrest] at hsome
                    exact absurd hsome Bool.false_ne_true
                | some rest => rfl
              obtain hend | ⟨hstep, -, n, hn, hfitsn⟩ := ih hnext hrest
              · exact .inr ⟨by omega, hfits, 1, by simpa using hend, by simpa using hnext⟩
              · refine .inr ⟨hstep, hfits, n + 1, ?_, ?_⟩
                · push_cast
                  linarith
                · have heq : i + ((n + 1 : Nat) : Int) * form.step =
                      i + form.step + n * form.step := by
                    push_cast
                    ring
                  rwa [heq]
            · rw [if_neg hnext] at hsome
              exact absurd hsome Bool.false_ne_true
          next => cases hsome
        · exact .inl (not_lt.mp hlt)
  · rintro (hend | ⟨hstep, hfits, n, hn, hfitsn⟩)
    · exact ⟨1, by rw [rangeText, if_neg (not_lt.mpr hend)]; rfl⟩
    · induction n generalizing i with
      | zero => exact ⟨1, by rw [rangeText, if_neg (by simpa using hn)]; rfl⟩
      | succ n ih =>
          by_cases hlt : i < form.max
          · have heq : i + ((n + 1 : Nat) : Int) * form.step =
                i + form.step + n * form.step := by
              push_cast
              ring
            rw [heq] at hn hfitsn
            have hpos : 0 ≤ (n : Int) * form.step := by positivity
            have hnext : Fits (i + form.step) := by
              unfold Fits at hi hfitsn ⊢
              omega
            obtain ⟨fuel, hsome⟩ := ih hnext hn hfitsn
            obtain ⟨rest, hrest⟩ := Option.isSome_iff_exists.mp hsome
            refine ⟨fuel + 1, ?_⟩
            rw [rangeText, if_pos hlt, if_pos hfits, if_pos hnext, hrest]
            rfl
          · exact ⟨1, by rw [rangeText, if_neg hlt]; rfl⟩

/-! ## Events -/

/-- An event whose texts are plain. -/
structure PlainEvent (event : PtpGenericEvent) : Prop where
  name : ∀ name, event.name = some name → PlainText name
  text : ∀ text, event.strValue = some text → PlainText text

/-- An event that is left out. -/
def Skipped (event : PtpGenericEvent) : Prop := event.name = none ∧ event.code = 0

instance (event : PtpGenericEvent) : Decidable (Skipped event) :=
  inferInstanceAs (Decidable (_ ∧ _))

/-- An array of two values. -/
theorem reads_pair {first second : List UInt8} (hfirst : Reads first) (hsecond : Reads second) :
    Reads (ascii "[" ++ first ++ ascii ", " ++ second ++ ascii "]") := by
  have hshape : ascii "[" ++ first ++ ascii ", " ++ second ++ ascii "]" =
      0x5B :: ((first ++ 0x2C :: 0x20 :: second) ++ [0x5D]) := by
    have hopen : ascii "[" = [0x5B] := rfl
    have hcomma : ascii ", " = [0x2C, 0x20] := rfl
    have hclose : ascii "]" = [0x5D] := rfl
    rw [hopen, hcomma, hclose]
    simp
  rw [hshape]
  exact reads_array (.inr (fills_more hfirst (fills_last hsecond)))

/-- The entry of an event is an array. -/
theorem eventText_reads {event : PtpGenericEvent} (hplain : PlainEvent event) :
    Reads (eventText event) := by
  have hquote : ∀ text, PlainText text → Reads (0x22 :: (ascii text ++ [0x22])) :=
    fun text htext => reads_string htext
  have hname : ascii "[\"" = ascii "[" ++ [0x22] := rfl
  have hnumber : ascii "\", " = [0x22] ++ ascii ", " := rfl
  have htext : ascii "\", \"" = [0x22] ++ ascii ", " ++ [0x22] := rfl
  have hclose : ascii "\"]" = [0x22] ++ ascii "]" := rfl
  unfold eventText
  cases hsome : event.name with
  | none => exact reads_pair (reads_decimal _) (reads_decimal _)
  | some name =>
      dsimp only
      cases hvalue : event.strValue with
      | none =>
          have hpair := reads_pair (hquote name (hplain.name name hsome))
            (reads_decimal (toUInt32 event.value))
          simpa [hname, hnumber] using hpair
      | some text =>
          have hpair := reads_pair (hquote name (hplain.name name hsome))
            (hquote text (hplain.text text hvalue))
          simpa [hname, htext, hclose] using hpair

/-- Behind an entry there is always a comma. -/
theorem run_eventsPart {length : Int} {i : Nat} {events : List PtpGenericEvent}
    (hplain : ∀ event ∈ events, PlainEvent event) (hlength : (i : Int) + events.length ≤ length)
    {mode : Mode} (hmode : mode.Starts) (frames : List Frame) :
    run ⟨mode, .array :: frames⟩ (eventsPart length i events) =
      some ⟨if ∀ event ∈ events, Skipped event then mode else .value, .array :: frames⟩ := by
  induction events generalizing i mode with
  | nil => simp [eventsPart]
  | cons event events ih =>
      have hrest := fun event hevent => hplain event (List.mem_cons_of_mem _ hevent)
      rw [List.length_cons] at hlength
      push_cast at hlength
      have hnext : ((i + 1 : Nat) : Int) + events.length ≤ length := by
        push_cast
        omega
      rw [eventsPart]
      by_cases hskip : Skipped event
      · have hskipped : event.name = none ∧ event.code = 0 := hskip
        rw [if_pos hskipped, ih hrest hnext hmode]
        simp [hskip]
      · have hall : ¬∀ event' ∈ event :: events, Skipped event' := fun h =>
          hskip (h event List.mem_cons_self)
        have hkept : ¬(event.name = none ∧ event.code = 0) := hskip
        have hcomma : ascii "," ++ ascii "\n" = 0x2C :: [0x0A] := rfl
        have hdone : run ⟨.done, .array :: frames⟩ (0x2C :: [0x0A]) = some ⟨.value, .array :: frames⟩ := rfl
        have hread := eventText_reads (hplain event List.mem_cons_self) mode (.array :: frames) 0x2C [0x0A]
          hmode rfl
        rw [hdone] at hread
        rw [if_neg hkept, if_neg (by omega), hcomma, ← List.append_assoc, run_append_of_run hread,
          ih hrest hnext (.inl rfl), if_neg hall, ite_self]

/-- The list of events is emitted as JSON exactly if it leaves out every event. -/
theorem events_emit_iff {events : List PtpGenericEvent}
    (hplain : ∀ event ∈ events, PlainEvent event) :
    (EmitsJson fun max => printEventList max events.length events) ↔
      ∀ event ∈ events, Skipped event := by
  rw [emitsJson_iff_run (printEventList_prints _ _), eventsText]
  by_cases hzero : (events.length : Int) = 0
  · have hnil : events = [] := List.eq_nil_of_length_eq_zero (by omega)
    subst hnil
    rw [if_pos hzero]
    exact iff_of_true ⟨⟨.done, []⟩, rfl, trivial⟩ fun event hevent =>
      absurd hevent List.not_mem_nil
  · have hopen : run ⟨.value, []⟩ (ascii "[") = some ⟨.first, [.array]⟩ := rfl
    have hpart := @run_eventsPart events.length 0 events hplain (by simp) .first (.inr rfl) []
    rw [if_neg hzero]
    simp only [allJoined]
    rw [runText_step hopen, runText_step hpart, runText_some]
    by_cases hall : ∀ event ∈ events, Skipped event
    · rw [if_pos hall]
      exact iff_of_true ⟨⟨.done, []⟩, rfl, trivial⟩ hall
    · have hclose : run ⟨.value, [.array]⟩ (ascii "]") = none := rfl
      rw [if_neg hall, hclose]
      simp [hall]

end Libpict
