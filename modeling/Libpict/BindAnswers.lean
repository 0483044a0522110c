import Libpict.Bind
import Libpict.DatasetSafety
import Libpict.Overlay

/-! # Answers of the bindings

Which requests are answered by one JSON value.
-/

namespace Libpict

open CInt Exec Json

/-! ## Lists of items -/

/-- Items with a comma between any two of them fill an array, whichever of the two it belongs to. -/
theorem separated_fill {join : Texts → List UInt8} (hnone : join [] = [])
    (hone : ∀ item, join [item] = item)
    (hmore : ∀ item next items, join (item :: next :: items) = item ++ 0x2C :: join (next :: items))
    {items : Texts} (hitems : ∀ item ∈ items, Reads item) :
    join items = [] ∨ Fills (join items) := by
  rcases items with _ | ⟨item, items⟩
  · exact .inl hnone
  · right
    induction items generalizing item with
    | nil =>
        rw [hone]
        exact fills_last (hitems item List.mem_cons_self)
    | cons next items ih =>
        rw [hmore]
        apply fills_comma (hitems item List.mem_cons_self)
        apply ih
        intro item hitem
        exact hitems item (List.mem_cons_of_mem _ hitem)

theorem commaTexts_fill {items : Texts} (hitems : ∀ item ∈ items, Reads item) :
    (commaTexts items).flatten = [] ∨ Fills (commaTexts items).flatten := by
  have hcomma : ascii "," = [0x2C] := rfl
  refine @separated_fill (fun items => (commaTexts items).flatten) rfl ?_ ?_ items hitems
  · intro item
    simp [commaTexts]
  · intro item next items
    simp [commaTexts, hcomma]

theorem endedTexts_fill {items : Texts} (hitems : ∀ item ∈ items, Reads item) :
    (endedTexts items).flatten = [] ∨ Fills (endedTexts items).flatten := by
  have hcomma : ascii "," = [0x2C] := rfl
  refine @separated_fill (fun items => (endedTexts items).flatten) rfl ?_ ?_ items hitems
  · intro item
    simp [endedTexts]
  · intro item next items
    simp [endedTexts, hcomma]

theorem wordTexts_read (words : List UInt32) : ∀ item ∈ wordTexts words, Reads item := by
  intro item hitem
  obtain ⟨word, -, rfl⟩ := List.mem_map.mp hitem
  exact reads_decimal _

theorem byteTexts_read (bytes : List UInt8) : ∀ item ∈ byteTexts bytes, Reads item := by
  intro item hitem
  obtain ⟨byte, -, rfl⟩ := List.mem_map.mp hitem
  exact reads_decimal _

/-- The texts of an answer whose last member is an array of items. -/
theorem answer_array {start : List UInt8} {items : Texts}
    (hstart : run ⟨.value, []⟩ start = some ⟨.first, [.array, .object]⟩)
    (hitems : items.flatten = [] ∨ Fills items.flatten) :
    WellFormed (start :: (items ++ [ascii "]\x7d"])).flatten := by
  rw [List.flatten_cons, List.flatten_append, List.flatten_singleton]
  exact wellFormed_array hstart hitems

theorem errorText_json (x : Int) : WellFormed [errorText x].flatten := by
  rw [List.flatten_singleton]
  exact ⟨⟨.done, []⟩, run_member rfl (reads_signed x) rfl rfl, trivial⟩

/-! ## Bindings that always answer -/

section Bindings

variable {σ : Type}

/-- Whatever the binding returns is one JSON value. -/
def AlwaysJson (binding : Binding σ) : Prop :=
  ∀ bind w, Yields (binding bind) w fun texts => WellFormed texts.flatten

theorem printsError_json (call : BindReq → M σ Int) : AlwaysJson (printsError call) := by
  intro bind w
  apply Yields.bind
  intro x t _
  exact .pure (errorText_json x)

theorem printsNumber_json (call : M σ Int) : AlwaysJson (printsNumber call) := by
  intro bind w
  apply Yields.bind
  intro y t _
  refine .pure ⟨⟨.done, []⟩, ?_, trivial⟩
  rw [List.flatten_singleton]
  exact run_member rfl (reads_signed y) rfl rfl

theorem start_runs (x : Int) : run ⟨.value, []⟩ (ascii "\x7b\"error\": " ++ signed x ++
    ascii ", \"resp\": [") = some ⟨.first, [.array, .object]⟩ :=
  run_member rfl (reads_signed x) rfl rfl

theorem printsWords_json (call : BindReq → M σ (Int × Option (List UInt32))) :
    AlwaysJson (printsWords call) := by
  intro bind w
  apply Yields.bind
  rintro ⟨x, arr⟩ t _
  dsimp only
  split
  · exact .pure (errorText_json x)
  · cases arr with
    | none => rintro texts u ⟨⟩
    | some arr => exact .pure (answer_array (start_runs x) (commaTexts_fill (wordTexts_read arr)))

theorem printsPayload_json {start : List UInt8}
    (hstart : run ⟨.value, []⟩ start = some ⟨.first, [.array, .object]⟩)
    (call : BindReq → M σ Int) : AlwaysJson (printsPayload start call) := by
  intro bind w
  apply Yields.bind
  intro x t _
  split
  · exact .pure (errorText_json x)
  · apply Yields.bind
    intro length u _
    split
    · exact .pure (errorText_json _)
    · apply Yields.bind
      intro bytes v _
      exact .pure (answer_array hstart (commaTexts_fill (byteTexts_read bytes)))

/-- The texts of an answer with one more member. -/
theorem answer_member {before item after : List UInt8}
    (hbefore : run ⟨.value, []⟩ before = some ⟨.value, [.object]⟩) (hitem : Reads item)
    (hends : after.head?.any endsNumber = true)
    (hafter : run ⟨.done, [.object]⟩ after = some ⟨.done, []⟩) :
    WellFormed [before ++ item ++ after].flatten := by
  rw [List.flatten_singleton]
  exact ⟨⟨.done, []⟩, run_member hbefore hitem hends hafter, trivial⟩

variable (lib : BindLibrary σ)

theorem bindStatus_json : AlwaysJson (bindStatus : Binding σ) := by
  intro bind w
  apply Yields.bind
  intro r t _
  exact .pure (answer_member rfl (reads_signed _) rfl rfl)

theorem bindGetStatus_json : AlwaysJson (bindGetStatus : Binding σ) := by
  intro bind w
  apply Yields.bind
  intro r t _
  exact .pure (answer_member rfl (reads_signed _) rfl rfl)

theorem bindInit_json : AlwaysJson (bindInit lib) := by
  intro bind w
  apply Yields.bind
  intro initialized t _
  have hrest : ∀ u, Yields (do
      lib.ptpInit
      lib.setBindInitialized
      let r ← runtime
      return [ascii "\x7b\"error\": " ++ signed 0 ++ ascii ", \"buffer\": " ++
        signed r.dataLength ++ ascii "\x7d"]) u fun texts => WellFormed texts.flatten := by
    intro u
    refine Yields.bind fun _ _ _ => Yields.bind fun _ _ _ => Yields.bind fun r _ _ => ?_
    exact .pure (answer_member (run_member rfl (reads_signed 0) rfl rfl) (reads_signed _) rfl rfl)
  cases initialized with
  | true => exact Yields.bind fun _ u _ => hrest u
  | false => exact hrest t

theorem bindGetLiveviewFrame_json : AlwaysJson (bindGetLiveviewFrame lib) := by
  intro bind w
  apply Yields.bind
  intro size t _
  apply Yields.bind
  rintro ⟨x, lv⟩ u _
  dsimp only
  split
  · rintro texts v ⟨⟩
  · exact .pure (answer_array (start_runs _) (endedTexts_fill (byteTexts_read _)))

theorem bindMlGetBmpLv_json : AlwaysJson (bindMlGetBmpLv lib) := by
  intro bind w
  apply Yields.bind
  rintro ⟨x, buffer⟩ t _
  dsimp only
  cases buffer with
  | none => rintro texts u ⟨⟩
  | some buffer => exact .pure (answer_array (start_runs x) (endedTexts_fill (wordTexts_read _)))

theorem bindGetProperty_json : AlwaysJson (bindGetProperty lib) := by
  intro bind w
  apply Yields.bind
  intro x t _
  split
  · exact .pure (errorText_json x)
  · apply Yields.bind
    intro value u _
    exact .pure (answer_member (run_member rfl (reads_signed x) rfl rfl) (reads_decimal _) rfl rfl)

theorem enumText_reads (entry : { entry : Int × Int × String × Int // PlainText entry.2.2.1 }) :
    Reads (ascii "\x7b\"type\": " ++ signed entry.val.1 ++ ascii ", \"vendor\": " ++
      signed entry.val.2.1 ++ ascii ", \"name\": \"" ++ ascii entry.val.2.2.1 ++
      ascii "\", \"value\": " ++ signed entry.val.2.2.2 ++ ascii "\x7d") := by
  apply reads_of_run
  intro mode frames hmode
  have hopen : run ⟨mode, frames⟩ (ascii "\x7b\"type\": ") = some ⟨.value, .object :: frames⟩ := by
    rcases hmode with rfl | rfl <;> rfl
  exact run_member (run_quoted (run_member (run_member hopen (reads_signed _) rfl rfl)
    (reads_signed _) rfl rfl) entry.property rfl) (reads_signed _) rfl rfl

theorem bindGetEnums_json : AlwaysJson (bindGetEnums lib) := by
  intro bind w
  refine .pure (answer_array (start_runs 0) (commaTexts_fill fun item hitem => ?_))
  obtain ⟨entry, -, rfl⟩ := List.mem_map.mp hitem
  exact enumText_reads entry

theorem bindGetReturnCode_json : AlwaysJson (bindGetReturnCode : Binding σ) := by
  intro bind w
  apply Yields.bind
  intro code t _
  apply Yields.bind
  intro length u _
  apply Yields.bind
  intro params v _
  refine .pure (answer_array (run_member rfl (reads_signed code) rfl rfl)
    (commaTexts_fill fun item hitem => ?_))
  obtain ⟨param, -, rfl⟩ := List.mem_map.mp hitem
  exact reads_decimal param

theorem bindDownloadFile_json : AlwaysJson (bindDownloadFile lib) := by
  intro bind w
  apply Yields.bind
  intro f t _
  apply Yields.bind
  rintro ⟨x, file⟩ u _
  dsimp only
  split
  · exact .pure (errorText_json _)
  · exact .pure (answer_member rfl (reads_signed x) rfl rfl)

end Bindings

/-! ## Texts that are not JSON -/

/-- Behind a hexadecimal digit the machine is stuck or in a number. -/
theorem step_upperHex {digit : UInt8} (hdigit : digit ∈ ascii "0123456789ABCDEF") :
    afterValue [.object] digit = none ∧ (step ⟨.value, [.object]⟩ digit = none ∨
      ∃ part, step ⟨.value, [.object]⟩ digit = some ⟨.number part, [.object]⟩) := by
  have hall : ∀ digit ∈ ascii "0123456789ABCDEF", afterValue [.object] digit = none ∧
      step ⟨.value, [.object]⟩ digit ∈
        [none, some ⟨.number .zero, [.object]⟩, some ⟨.number .int, [.object]⟩] := by
    decide +kernel
  obtain ⟨hafter, hstart⟩ := hall digit hdigit
  refine ⟨hafter, ?_⟩
  simp only [List.mem_cons, List.not_mem_nil, or_false] at hstart
  obtain hstuck | hzero | hint := hstart
  · exact .inl hstuck
  · exact .inr ⟨.zero, hzero⟩
  · exact .inr ⟨.int, hint⟩

/-- Hexadecimal digits and a key without quotes. -/
theorem run_upperHex {digits : List UInt8} (hdigits : ∀ d ∈ digits, d ∈ ascii "0123456789ABCDEF")
    (rest : List UInt8) {mode : Mode} (hmode : mode = .value ∨ ∃ part, mode = .number part) :
    run ⟨mode, [.object]⟩ (digits ++ 0x2C :: 0x20 :: 0x62 :: rest) = none := by
  induction digits generalizing mode with
  | nil =>
      obtain rfl | ⟨part, rfl⟩ := hmode
      · rfl
      · cases part <;> rfl
  | cons digit digits ih =>
      obtain ⟨hafter, hvalue⟩ := step_upperHex (hdigits digit List.mem_cons_self)
      have hrest := fun {mode} => @ih (fun d hd => hdigits d (List.mem_cons_of_mem _ hd)) mode
      obtain rfl | ⟨part, rfl⟩ := hmode
      · obtain hstuck | ⟨part, hnumber⟩ := hvalue
        · exact run_cons_of_stuck hstuck _
        · exact (run_cons_of_step hnumber _).trans (hrest (.inr ⟨part, rfl⟩))
      · cases hnext : part.next digit with
        | some next =>
            have hstep : step ⟨.number part, [.object]⟩ digit = some ⟨.number next, [.object]⟩ := by
              rw [step, hnext]
            exact (run_cons_of_step hstep _).trans (hrest (.inr ⟨next, rfl⟩))
        | none =>
            have hstuck : step ⟨.number part, [.object]⟩ digit = none := by
              rw [step, hnext]
              dsimp only
              rw [hafter, ite_self]
            exact run_cons_of_stuck hstuck _

theorem upperHex_digits (n : Nat) : ∀ d ∈ upperHex n, d ∈ ascii "0123456789ABCDEF" := by
  have hdigit : ∀ k < 16, UInt8.ofNat (if k < 10 then 0x30 + k else 0x37 + k) ∈
      ascii "0123456789ABCDEF" := by
    decide
  intro d hd
  rw [upperHex] at hd
  split at hd
  · obtain rfl := List.mem_singleton.mp hd
    decide
  · obtain ⟨k, hk, rfl⟩ := List.mem_map.mp hd
    exact hdigit k (Nat.digits_lt_base (by decide) (List.mem_reverse.mp hk))

theorem not_wellFormed_of_stuck {text : List UInt8} (hstuck : run ⟨.value, []⟩ text = none) :
    ¬WellFormed text := by
  rintro ⟨s, hrun, -⟩
  rw [hstuck] at hrun
  cases hrun

/-! ## The information about a device -/

theorem allJoined_length_le {texts : List (Option (List UInt8))} {bounds : List Nat}
    (hbounds : List.Forall₂ (fun text bound => ∀ piece, text = some piece → piece.length ≤ bound)
      texts bounds) {text : List UInt8} (htext : allJoined texts = some text) :
    text.length ≤ bounds.sum := by
  induction hbounds generalizing text with
  | nil =>
      obtain rfl := Option.some.inj htext
      exact le_rfl
  | @cons first bound texts bounds hfirst hrest ih =>
      rw [List.sum_cons]
      cases texts with
      | nil => exact (hfirst text htext).trans (Nat.le_add_right _ _)
      | cons next texts =>
          rw [allJoined, joined, Option.bind_eq_some_iff] at htext
          · obtain ⟨front, hfront, hjoin⟩ := htext
            obtain ⟨back, hback, rfl⟩ := Option.map_eq_some_iff.mp hjoin
            rw [List.length_append]
            exact Nat.add_le_add (hfirst front hfront) (ih hback)
          · rintro ⟨⟩

theorem isSome_of_allJoined {texts : List (Option (List UInt8))} {text : List UInt8}
    (htext : allJoined texts = some text) : ∀ piece ∈ texts, piece.isSome := by
  induction texts generalizing text with
  | nil => exact List.forall_mem_nil _
  | cons first texts ih =>
      cases texts with
      | nil =>
          intro piece hpiece
          obtain rfl := List.mem_singleton.mp hpiece
          exact Option.isSome_iff_exists.mpr ⟨text, htext⟩
      | cons next texts =>
          rw [allJoined, joined, Option.bind_eq_some_iff] at htext
          · obtain ⟨front, hfront, hjoin⟩ := htext
            obtain ⟨back, hback, -⟩ := Option.map_eq_some_iff.mp hjoin
            rw [List.forall_mem_cons]
            exact ⟨Option.isSome_iff_exists.mpr ⟨front, hfront⟩, ih hback⟩
          · rintro ⟨⟩

/-- Codes that are printed lie inside their array and take up to seven characters each. -/
theorem codesText_bounds {n : Nat} {codes : Vector UInt16 n} {length : Int} {left i : Nat}
    {text : List UInt8} (htext : codesText codes length left i = some text) :
    (left = 0 ∨ i + left ≤ n) ∧ text.length ≤ 7 * left := by
  induction left generalizing i text with
  | zero =>
      obtain rfl := Option.some.inj htext
      exact ⟨.inl rfl, le_rfl⟩
  | succ left ih =>
      rw [codesText] at htext
      split at htext
      next hi =>
        rw [joined, Option.bind_some] at htext
        obtain ⟨rest, hrest, rfl⟩ := Option.map_eq_some_iff.mp htext
        obtain ⟨hroom, hlength⟩ := ih hrest
        have hcode : (decimal codes[i].toNat).length ≤ 5 :=
          decimal_length_le (by decide) (codes[i].toNat_lt.trans (by decide))
        have hends : (if length - 1 ≤ i then [] else ascii ", ").length ≤ 2 := by
          split
          · exact Nat.zero_le _
          · exact le_of_eq rfl
        refine ⟨.inr (by omega), ?_⟩
        rw [List.length_append, List.length_append]
        omega
      next => cases htext

theorem codesText_length_le {n : Nat} {codes : Vector UInt16 n} {length : Int} (piece : List UInt8)
    (htext : codesText codes length length.toNat 0 = some piece) :
    length ≤ n ∧ piece.length ≤ 7 * n := by
  obtain ⟨hroom, hlength⟩ := codesText_bounds htext
  omega

theorem stringPiece_length_le {n : Nat} {array : Vector UInt8 n} {before after : List UInt8}
    (piece : List UInt8)
    (htext : (cString array).toOption.map (before ++ · ++ after) = some piece) :
    piece.length ≤ before.length + n + after.length := by
  obtain ⟨chars, hchars, rfl⟩ := Option.map_eq_some_iff.mp htext
  have hlength : chars.length ≤ n := by
    unfold cString at hchars
    split at hchars
    · obtain rfl := Option.some.inj hchars
      exact (List.takeWhile_sublist _).length_le.trans (by simp)
    · cases hchars
  rw [List.length_append, List.length_append]
  omega

/-- The text about a device is there only if the arrays have room for the codes, and is short. -/
theorem deviceInfoText_bounds {di : PtpDeviceInfo} {text : List UInt8}
    (htext : deviceInfoText di = some text) : CodesInside di ∧ text.length < ptpDefaultSize := by
  have hthere := isSome_of_allJoined htext
  have hinside : ∀ {n : Nat} (codes : Vector UInt16 n) {length : Int},
      (codesText codes length length.toNat 0).isSome → length ≤ n := by
    intro n codes length hsome
    obtain ⟨piece, hpiece⟩ := Option.isSome_iff_exists.mp hsome
    exact (codesText_length_le piece hpiece).1
  have hconst : ∀ (text piece : List UInt8), some text = some piece →
      piece.length ≤ text.length := by
    rintro text _ ⟨⟩
    exact le_rfl
  have hcodes : ∀ {n : Nat} {codes : Vector UInt16 n} {length : Int} (piece : List UInt8),
      codesText codes length length.toNat 0 = some piece → piece.length ≤ 7 * n :=
    fun piece hpiece => (codesText_length_le piece hpiece).2
  refine ⟨⟨hinside di.opsSupported (hthere _ (by simp)),
    hinside di.eventsSupported (hthere _ (by simp)),
    hinside di.propsSupported (hthere _ (by simp))⟩, ?_⟩
  have hlength := allJoined_length_le
    (.cons (hconst _) (.cons hcodes (.cons (hconst _) (.cons (hconst _) (.cons hcodes
      (.cons (hconst _) (.cons (hconst _) (.cons hcodes (.cons (hconst _)
        (.cons stringPiece_length_le (.cons stringPiece_length_le (.cons stringPiece_length_le
          (.cons stringPiece_length_le (.cons stringPiece_length_le
            (.cons (hconst _) .nil))))))))))))))) htext
  exact hlength.trans_lt (by decide)

/-- Inside an answer the text about a device is a value if its strings stay inside. -/
theorem deviceInfo_answer_iff {di : PtpDeviceInfo} {x max : Int} (hmax : ptpDefaultSize ≤ max)
    {text : List UInt8} (htext : ptpDeviceInfoJson max di = .ok text) :
    WellFormed [ascii "\x7b\"error\": " ++ signed x ++ ascii ", \"resp\": " ++ inBuffer max text ++
        ascii "\x7d"].flatten ↔
      ∃ strings, deviceStrings di = .ok strings ∧ StayWithin [.object] strings [.object] := by
  have hprints := ptpDeviceInfoJson_prints di
  cases hwhole : deviceInfoText di with
  | none =>
      rw [hwhole] at hprints
      exact absurd htext (hprints max text)
  | some whole =>
      rw [hwhole] at hprints
      obtain rfl := (hprints max).1 text htext
      obtain ⟨hcodes, hlength⟩ := deviceInfoText_bounds hwhole
      have hfits : inBuffer max text = text := List.take_of_length_le (by omega)
      have hopen : run ⟨.value, []⟩ (ascii "\x7b\"error\": " ++ signed x ++
          ascii ", \"resp\": ") = some ⟨.value, [.object]⟩ :=
        run_member rfl (reads_signed x) rfl rfl
      have hcloses := deviceInfo_closes_iff hcodes 1
      rw [hwhole] at hcloses
      rw [List.flatten_singleton, hfits, List.append_assoc, WellFormed, run_append_of_run hopen]
      exact hcloses

/-! ## The list of events -/

theorem eventsPart_of_skipped {length : Int} {i : Nat} {events : List PtpGenericEvent}
    (hskipped : ∀ event ∈ events, Skipped event) : eventsPart length i events = [] := by
  induction events generalizing i with
  | nil => rfl
  | cons event events ih =>
      have hfirst : event.name = none ∧ event.code = 0 := hskipped event List.mem_cons_self
      rw [eventsPart, if_pos hfirst]
      exact ih fun event hevent => hskipped event (List.mem_cons_of_mem _ hevent)

/-- A list that does not leave out every event ends in a line feed. -/
theorem eventsPart_ends {length : Int} {i : Nat} {events : List PtpGenericEvent}
    (hkept : ¬∀ event ∈ events, Skipped event) :
    ∃ front, eventsPart length i events = front ++ [0x0A] := by
  induction events generalizing i with
  | nil => exact absurd (List.forall_mem_nil _) hkept
  | cons event events ih =>
      rw [eventsPart]
      by_cases hrest : ∀ event ∈ events, Skipped event
      · have hfirst : ¬(event.name = none ∧ event.code = 0) := fun hfirst =>
          hkept (List.forall_mem_cons.mpr ⟨hfirst, hrest⟩)
        rw [if_neg hfirst, eventsPart_of_skipped hrest, List.append_nil, ← List.append_assoc]
        exact ⟨_, rfl⟩
      · obtain ⟨front, hfront⟩ := @ih (i + 1) hrest
        rw [hfront]
        split
        · exact ⟨front, rfl⟩
        · exact ⟨_, by rw [← List.append_assoc, ← List.append_assoc]⟩

/-- What has been printed in front of the last bracket has not left the buffer. -/
theorem printEventList_room {max length : Int} (hsome : length ≠ 0) {events : List PtpGenericEvent}
    {text : List UInt8} (htext : printEventList max length events = .ok text) :
    ∃ out : List UInt8, text = out ++ ascii "]" ∧ (out.length : Int) ≤ max := by
  unfold printEventList printFound at htext
  rw [if_neg hsome] at htext
  obtain ⟨first, -, hrest⟩ := except_bind_eq_ok.mp htext
  obtain ⟨out, -, hlast⟩ := except_bind_eq_ok.mp hrest
  unfold osnprintf at hlast
  split at hlast
  next => cases hlast
  next hroom =>
    cases hlast
    exact ⟨out, rfl, by omega⟩

theorem printEventList_text {max length : Int} (hsome : length ≠ 0) {events : List PtpGenericEvent}
    {text : List UInt8} (htext : printEventList max length events = .ok text) :
    text = ascii "[" ++ (eventsPart length 0 events ++ ascii "]") := by
  have hprints := printEventList_prints length events
  rw [eventsText, if_neg hsome] at hprints
  exact (hprints max).1 text htext

/-- Inside an answer the list of events is a value if it leaves out every event, also where the
buffer cuts off its end. -/
theorem events_answer_iff {events : List PtpGenericEvent}
    (hplain : ∀ event ∈ events, PlainEvent event) {text : List UInt8}
    (htext : printEventList 10000 events.length events = .ok text) :
    WellFormed [ascii "\x7b\"error\": 0, \"resp\": ", inBuffer 10000 text, ascii "\x7d"].flatten ↔
      ∀ event ∈ events, Skipped event := by
  have hopen : run ⟨.value, []⟩ (ascii "\x7b\"error\": 0, \"resp\": ") = some ⟨.value, [.object]⟩ :=
    rfl
  have hflat : [ascii "\x7b\"error\": 0, \"resp\": ", inBuffer 10000 text, ascii "\x7d"].flatten =
      ascii "\x7b\"error\": 0, \"resp\": " ++ (inBuffer 10000 text ++ ascii "\x7d") := by
    simp
  rw [hflat]
  by_cases hskipped : ∀ event ∈ events, Skipped event
  · have hempty : text = ascii "[]" := by
      by_cases hzero : (events.length : Int) = 0
      · rw [printEventList, printFound, if_pos hzero] at htext
        exact (Except.ok.inj htext).symm
      · rw [printEventList_text hzero htext, eventsPart_of_skipped hskipped]
        rfl
    subst hempty
    refine iff_of_true ⟨⟨.done, []⟩, ?_, trivial⟩ hskipped
    rw [run_append_of_run hopen]
    rfl
  · refine iff_of_false (not_wellFormed_of_stuck ?_) hskipped
    have hsome : (events.length : Int) ≠ 0 := by
      intro hzero
      rw [List.eq_nil_of_length_eq_zero (Int.ofNat_eq_zero.mp hzero)] at hskipped
      exact hskipped (List.forall_mem_nil _)
    obtain ⟨out, hout, hroom⟩ := printEventList_room hsome htext
    obtain ⟨front, hfront⟩ := @eventsPart_ends events.length 0 events hskipped
    have hwhole : text = (ascii "[" ++ front) ++ [0x0A, 0x5D] := by
      rw [printEventList_text hsome htext, hfront]
      simp [show ascii "]" = [0x5D] from rfl]
    -- the buffer has room for all but the line feed and the bracket
    have hkept : (ascii "[" ++ front).length ≤ 9999 := by
      have hlength := congrArg List.length (hout.symm.trans hwhole)
      have hbracket : (ascii "]").length = 1 := rfl
      simp only [List.length_append, List.length_cons, List.length_nil, hbracket] at hlength ⊢
      omega
    have hcut : inBuffer 10000 text = (ascii "[" ++ front) ++
        [0x0A, 0x5D].take (9999 - (ascii "[" ++ front).length) := by
      have hsize : ((10000 : Int) - 1).toNat = 9999 := rfl
      rw [hwhole, inBuffer, hsize, List.take_append, List.take_of_length_le hkept]
    have hfrontRun : run ⟨.first, [.array, .object]⟩ front = some ⟨.value, [.array, .object]⟩ := by
      have hpart := @run_eventsPart events.length 0 events hplain (by simp) .first (.inr rfl)
        [.object]
      rw [if_neg hskipped, hfront, run_append] at hpart
      cases hrun : run ⟨.first, [.array, .object]⟩ front with
      | none =>
          rw [hrun] at hpart
          cases hpart
      | some s =>
          rw [hrun, Option.bind_some, run_cons] at hpart
          obtain ⟨t, hstep, hnil⟩ := Option.bind_eq_some_iff.mp hpart
          cases hnil
          rw [step_lineFeed hstep]
    -- whatever of them is cut off, the last comma has nothing behind it
    have hstuck : ∀ k,
        run ⟨.value, [.array, .object]⟩ ([0x0A, 0x5D].take k ++ ascii "\x7d") = none := by
      rintro (_ | _ | k)
      · rfl
      · rfl
      · rfl
    have hbracket : run ⟨.value, [.object]⟩ (ascii "[") = some ⟨.first, [.array, .object]⟩ := rfl
    rw [run_append_of_run hopen, hcut, List.append_assoc, List.append_assoc,
      run_append_of_run hbracket, run_append_of_run hfrontRun]
    exact hstuck _

/-! ## Requests -/

section Requests

variable {σ : Type} (lib : BindLibrary σ)

/-- The result of a call is an error. -/
abbrev EndsInError {α : Type} (call : M σ (Int × α)) (w : World σ) : Prop :=
  Yields call w fun result => result.1 ≠ 0

/-- A structure that is printed where nothing reads it leaves its member without a value. -/
theorem printsInfo_json_iff {α : Type} {call : BindReq → M σ (Int × α)}
    {json : α → Except Halt (List UInt8)} {bind : BindReq} {w w' : World σ} {texts : Texts}
    (hrun : printsInfo call json bind w = .ok texts w') :
    WellFormed texts.flatten ↔ EndsInError (call bind) w := by
  obtain ⟨⟨x, info⟩, t, hcall, hrest⟩ := bind_eq_ok.mp hrun
  rw [EndsInError, yields_iff_of_ok hcall]
  dsimp only at hrest ⊢
  by_cases hx : x = 0
  · subst hx
    rw [if_neg (not_not.mpr rfl)] at hrest
    obtain ⟨printed, u, -, hrest⟩ := bind_eq_ok.mp hrest
    cases hrest
    exact iff_of_false (not_wellFormed_of_stuck rfl) (not_not.mpr rfl)
  · rw [if_pos hx] at hrest
    cases hrest
    exact iff_of_true (errorText_json x) hx

theorem printsInfo_ok {α : Type} {call : BindReq → M σ (Int × α)}
    {json : α → Except Halt (List UInt8)} {bind : BindReq} {w w' : World σ} {info : α}
    {text : List UInt8} (hcall : call bind w = .ok (0, info) w') (hjson : json info = .ok text) :
    printsInfo call json bind w =
      .ok [ascii "\x7b\"error\": 0, \"resp\": ", ascii "\x7d"] w' := by
  unfold printsInfo
  rw [bind_ok hcall]
  dsimp only
  rw [if_neg (not_not.mpr rfl), bind_ok (answer_ok hjson w')]
  rfl

theorem custom_json_iff {bind : BindReq} {w w' : World σ} {texts : Texts}
    (hrun : bindCustom lib bind w = .ok texts w') :
    WellFormed texts.flatten ↔ Yields (customCall lib bind) w fun x => x ≠ 0 := by
  obtain ⟨x, t, hcall, hrest⟩ := bind_eq_ok.mp hrun
  rw [yields_iff_of_ok hcall]
  by_cases hx : x = 0
  · rw [if_neg (not_not.mpr hx)] at hrest
    obtain ⟨length, u, -, hrest⟩ := bind_eq_ok.mp hrest
    obtain ⟨bytes, v, -, hrest⟩ := bind_eq_ok.mp hrest
    cases hrest
    refine iff_of_false (not_wellFormed_of_stuck ?_) (not_not.mpr hx)
    have hopen : run ⟨.value, []⟩ (ascii "\x7b\"error\": " ++ signed x ++ ascii ", \"resp\": ") =
        some ⟨.value, [.object]⟩ := run_member rfl (reads_signed x) rfl rfl
    have hkey : ascii ", bytes: [" = 0x2C :: 0x20 :: 0x62 :: ascii "ytes: [" := rfl
    rw [List.flatten_cons, List.append_assoc, List.append_assoc, run_append_of_run hopen, hkey]
    exact run_upperHex (upperHex_digits _) _ (.inl rfl)
  · rw [if_pos hx] at hrest
    cases hrest
    exact iff_of_true (errorText_json x) hx

theorem helloWorld_json_iff {bind : BindReq} {w w' : World σ} {texts : Texts}
    (hname : PlainText bind.name) (hrun : bindHelloWorld bind w = .ok texts w') :
    WellFormed texts.flatten ↔ StayInside [bind.string.getD (ascii "null")] [] := by
  unfold bindHelloWorld at hrun
  split at hrun
  next => cases hrun
  next =>
  cases hrun
  generalize bind.string.getD (ascii "null") = string
  have hparams := @commaTexts_fill
    ((bind.params.toList.take bind.paramsLength.toNat).map signed) fun item hitem => by
      obtain ⟨param, -, rfl⟩ := List.mem_map.mp hitem
      exact reads_signed param
  rw [List.flatten_cons, List.flatten_append, List.flatten_singleton]
  generalize (commaTexts ((bind.params.toList.take bind.paramsLength.toNat).map signed)).flatten =
    params at hparams
  have hopen : run ⟨.value, []⟩ (ascii "\x7b\"name\": \"" ++ ascii bind.name ++
      ascii "\", \"string\": \"") = some ⟨.text false .chars, [.object]⟩ := run_quoted rfl hname rfl
  have hbehind : ∀ frames, run ⟨.text false .chars, .object :: frames⟩
      (ascii "\", \"params\": [" ++ (params ++ ascii "]\x7d")) = some ⟨.done, frames⟩ := by
    intro frames
    have hkey : run ⟨.text false .chars, .object :: frames⟩ (ascii "\", \"params\": [") =
        some ⟨.first, .array :: .object :: frames⟩ := rfl
    rw [run_append_of_run hkey]
    exact run_array hparams _ [0x7D]
  have hinside := fun s => @inside_of_run_key s [0x20] (ascii "arams")
    (ascii " [" ++ (params ++ ascii "]\x7d")) 0x70 (List.all_eq_true.mp rfl) rfl
    (List.all_eq_true.mp rfl)
  rw [List.append_assoc, List.append_assoc, WellFormed, run_append_of_run hopen, run_append]
  constructor
  · rintro ⟨s, hrun, hfinal⟩
    cases hstring : run ⟨.text false .chars, [.object]⟩ string with
    | none =>
        rw [hstring] at hrun
        cases hrun
    | some t =>
        rw [hstring, Option.bind_some] at hrun
        have hne : run t (ascii "\", \"params\": [" ++ (params ++ ascii "]\x7d")) ≠ none := by
          rw [hrun]
          exact Option.some_ne_none s
        obtain ⟨frames, rfl⟩ := hinside t hne
        rw [hbehind] at hrun
        cases hrun
        cases frames with
        | nil => exact ⟨[], hstring, rfl⟩
        | cons frame frames => exact absurd hfinal id
  · rintro ⟨frames, hstring, rfl⟩
    exact ⟨⟨.done, []⟩, by rw [hstring, Option.bind_some, hbehind], trivial⟩

/-- The device information is read and dumped without a shorter buffer than that of `ptp_init`. -/
def KeepsBuffer : Prop := ∀ (w t u : World σ) (result : Int × PtpDeviceInfo),
  ptpDefaultSize ≤ w.r.dataLength → lib.ptpGetDeviceInfo w = .ok result t →
    lib.ptpDump t = .ok () u → ptpDefaultSize ≤ u.r.dataLength

variable {lib} in
theorem getDeviceInfo_json_iff (hkeeps : KeepsBuffer lib) {bind : BindReq} {w w' : World σ}
    {texts : Texts} (hready : ptpDefaultSize ≤ w.r.dataLength)
    (hrun : bindGetDeviceInfo lib bind w = .ok texts w') :
    WellFormed texts.flatten ↔ Yields lib.ptpGetDeviceInfo w fun result => result.1 = 0 →
      ∃ strings, deviceStrings result.2 = .ok strings ∧ StayWithin [.object] strings [.object] := by
  obtain ⟨⟨x, di⟩, t, hcall, hrest⟩ := bind_eq_ok.mp hrun
  rw [yields_iff_of_ok hcall]
  dsimp only at hrest ⊢
  obtain ⟨⟨⟩, u, hdump, hrest⟩ := bind_eq_ok.mp hrest
  have hroom := hkeeps w t u _ hready hcall hdump
  by_cases hx : x = 0
  · rw [if_neg (not_not.mpr hx)] at hrest
    obtain ⟨r, v, hruntime, hrest⟩ := bind_eq_ok.mp hrest
    cases hruntime
    obtain ⟨text, v, hinspect, hlast⟩ := bind_eq_ok.mp hrest
    obtain ⟨htext, rfl⟩ := inspect_eq_ok hinspect
    cases hlast
    rw [deviceInfo_answer_iff hroom htext]
    exact ⟨fun h _ => h, fun h => h hx⟩
  · rw [if_pos hx] at hrest
    cases hrest
    exact iff_of_true (errorText_json x) fun h => absurd h hx

/-- The events that an answer lists. -/
def foundEvents : M σ (List PtpGenericEvent) := do
  let dev ← lib.ptpDeviceType
  if dev = .eos then do
    let x ← lib.ptpEosGetEvent
    if x ≠ 0 then return []
    else do
      let events ← lib.ptpEosEvents
      return events.val
  else return []

/-- The events that an answer about all properties lists. -/
def foundProps : M σ (List PtpGenericEvent) := do
  let dev ← lib.ptpDeviceType
  if dev = .eos then foundEvents lib else return []

theorem getEvents_json_iff {bind : BindReq} {w w' : World σ} {texts : Texts}
    (hrun : bindGetEvents lib bind w = .ok texts w') :
    WellFormed texts.flatten ↔
      Yields (foundEvents lib) w fun events => ∀ event ∈ events, Skipped event := by
  obtain ⟨dev, t, hdev, hrest⟩ := bind_eq_ok.mp hrun
  by_cases heos : dev = .eos
  · rw [if_pos heos] at hrest
    obtain ⟨x, u, hx, hrest⟩ := bind_eq_ok.mp hrest
    by_cases herror : x ≠ 0
    · have hfound : foundEvents lib w = .ok [] u := by
        rw [foundEvents, bind_ok hdev, if_pos heos, bind_ok hx, if_pos herror]
        rfl
      rw [if_pos herror] at hrest
      cases hrest
      rw [yields_iff_of_ok hfound]
      exact iff_of_true (errorText_json x) (List.forall_mem_nil _)
    · rw [if_neg herror] at hrest
      obtain ⟨events, v, hevents, hrest⟩ := bind_eq_ok.mp hrest
      have hfound : foundEvents lib w = .ok events.val v := by
        rw [foundEvents, bind_ok hdev, if_pos heos, bind_ok hx, if_neg herror, bind_ok hevents]
        rfl
      obtain ⟨text, z, hinspect, hlast⟩ := bind_eq_ok.mp hrest
      obtain ⟨htext, -⟩ := inspect_eq_ok hinspect
      cases hlast
      rw [yields_iff_of_ok hfound]
      exact events_answer_iff events.property htext
  · have hfound : foundEvents lib w = .ok [] t := by
      rw [foundEvents, bind_ok hdev, if_neg heos]
      rfl
    rw [yields_iff_of_ok hfound]
    refine iff_of_true ?_ (List.forall_mem_nil _)
    rw [if_neg heos] at hrest
    obtain ⟨x, u, -, hrest⟩ := bind_eq_ok.mp hrest
    split at hrest
    · cases hrest
      exact ⟨⟨.done, []⟩, rfl, trivial⟩
    · split at hrest
      all_goals
        cases hrest
        exact errorText_json _

theorem getAllProps_json_iff {bind : BindReq} {w w' : World σ} {texts : Texts}
    (hrun : bindGetAllProps lib bind w = .ok texts w') :
    WellFormed texts.flatten ↔
      Yields (foundProps lib) w fun events => ∀ event ∈ events, Skipped event := by
  obtain ⟨dev, t, hdev, hrest⟩ := bind_eq_ok.mp hrun
  by_cases heos : dev = .eos
  · have hfound : foundProps lib w = foundEvents lib t := by
      rw [foundProps, bind_ok hdev, if_pos heos]
    rw [if_pos heos] at hrest
    rw [Yields, hfound]
    exact getEvents_json_iff lib hrest
  · have hfound : foundProps lib w = .ok [] t := by
      rw [foundProps, bind_ok hdev, if_neg heos]
      rfl
    rw [if_neg heos] at hrest
    cases hrest
    rw [yields_iff_of_ok hfound]
    exact iff_of_true ⟨⟨.done, []⟩, rfl, trivial⟩ (List.forall_mem_nil _)

/-! ## All requests -/

/-- When the answer to a request is JSON. -/
def AnswersJson (bind : BindReq) (w : World σ) : Prop :=
  match bind.name with
  | "ptp_hello_world" => StayInside [bind.string.getD (ascii "null")] []
  | "ptp_get_device_info" => Yields lib.ptpGetDeviceInfo w fun result => result.1 = 0 →
      ∃ strings, deviceStrings result.2 = .ok strings ∧ StayWithin [.object] strings [.object]
  | "ptp_get_liveview_frame.jpg" => False
  | "ptp_get_events" => Yields (foundEvents lib) w fun events => ∀ event ∈ events, Skipped event
  | "ptp_get_all_props" => Yields (foundProps lib) w fun events => ∀ event ∈ events, Skipped event
  | "ptp_get_storage_info" => EndsInError (storageInfoCall lib bind) w
  | "ptp_get_object_info" => EndsInError (objectInfoCall lib bind) w
  | "ptp_custom" => Yields (customCall lib bind) w fun x => x ≠ 0
  | _ => True

/-- The routes with a condition. -/
def conditionalRoutes : List String := ["ptp_hello_world", "ptp_get_device_info",
  "ptp_get_liveview_frame.jpg", "ptp_get_events", "ptp_get_all_props", "ptp_get_storage_info",
  "ptp_get_object_info", "ptp_custom"]

/-- The answers of a route are JSON exactly then. -/
def ExactRoute (name : String) (binding : Binding σ) : Prop :=
  ∀ (bind : BindReq) (w w' : World σ) (texts : Texts), bind.name = name →
    (bind.name = "ptp_get_device_info" → ptpDefaultSize ≤ w.r.dataLength) →
      binding bind w = .ok texts w' → (WellFormed texts.flatten ↔ AnswersJson lib bind w)

variable {lib}

theorem exactRoute_of_always {name : String} {binding : Binding σ} (halways : AlwaysJson binding)
    (hname : name ∉ conditionalRoutes) : ExactRoute lib name binding := by
  intro bind w w' texts hbind _ hrun
  refine iff_of_true (halways bind w texts w' hrun) ?_
  rw [← hbind] at hname
  simp only [conditionalRoutes, List.mem_cons, List.not_mem_nil, or_false, not_or] at hname
  unfold AnswersJson
  split <;> simp_all

theorem routes_exact (hkeeps : KeepsBuffer lib) :
    ∀ route ∈ routes lib, ExactRoute lib route.1 route.2 := by
  have hhello : ExactRoute lib "ptp_hello_world" bindHelloWorld := by
    intro bind w w' texts hname _ hrun
    have hplain : PlainText bind.name := by
      rw [hname]
      exact List.all_eq_true.mp rfl
    simp only [AnswersJson, hname]
    exact helloWorld_json_iff hplain hrun
  have hdevice : ExactRoute lib "ptp_get_device_info" (bindGetDeviceInfo lib) := by
    intro bind w w' texts hname hready hrun
    simp only [AnswersJson, hname]
    exact getDeviceInfo_json_iff hkeeps (hready hname) hrun
  have hframe : ExactRoute lib "ptp_get_liveview_frame.jpg" bindGetLiveviewFrameJpg := by
    intro bind w w' texts hname _ hrun
    simp only [AnswersJson, hname]
    cases hrun
    exact iff_of_false (by decide) id
  have hevents : ExactRoute lib "ptp_get_events" (bindGetEvents lib) := by
    intro bind w w' texts hname _ hrun
    simp only [AnswersJson, hname]
    exact getEvents_json_iff lib hrun
  have hprops : ExactRoute lib "ptp_get_all_props" (bindGetAllProps lib) := by
    intro bind w w' texts hname _ hrun
    simp only [AnswersJson, hname]
    exact getAllProps_json_iff lib hrun
  have hstorage : ExactRoute lib "ptp_get_storage_info" (bindGetStorageInfo lib) := by
    intro bind w w' texts hname _ hrun
    simp only [AnswersJson, hname]
    exact printsInfo_json_iff hrun
  have hobject : ExactRoute lib "ptp_get_object_info" (bindGetObjectInfo lib) := by
    intro bind w w' texts hname _ hrun
    simp only [AnswersJson, hname]
    exact printsInfo_json_iff hrun
  have hcustom : ExactRoute lib "ptp_custom" (bindCustom lib) := by
    intro bind w w' texts hname _ hrun
    simp only [AnswersJson, hname]
    exact custom_json_iff lib hrun
  have always : ∀ {name : String} {binding : Binding σ}, AlwaysJson binding →
      decide (name ∉ conditionalRoutes) = true → ExactRoute lib name binding :=
    fun halways hname => exactRoute_of_always halways (of_decide_eq_true hname)
  unfold routes
  simp only [List.forall_mem_cons]
  exact ⟨hhello, always (printsError_json _) rfl, always bindStatus_json rfl,
    always (printsError_json _) rfl, always (bindInit_json lib) rfl,
    always (printsError_json _) rfl, always (printsError_json _) rfl,
    always (printsError_json _) rfl, always (printsError_json _) rfl, hdevice,
    always (printsError_json _) rfl, always (printsError_json _) rfl,
    always (printsError_json _) rfl, always (printsError_json _) rfl,
    always (printsError_json _) rfl, always (printsError_json _) rfl,
    always (printsError_json _) rfl, always (printsError_json _) rfl,
    always (printsError_json _) rfl, always (printsError_json _) rfl,
    always (bindGetLiveviewFrame_json lib) rfl, always (printsNumber_json _) rfl, hframe,
    always (bindMlGetBmpLv_json lib) rfl, always (printsError_json _) rfl,
    always (printsError_json _) rfl, always (printsError_json _) rfl,
    always (printsNumber_json _) rfl, hevents, hprops, always (printsError_json _) rfl,
    always (bindGetProperty_json lib) rfl, always (bindGetEnums_json lib) rfl,
    always bindGetStatus_json rfl, always bindGetReturnCode_json rfl,
    always (printsWords_json _) rfl, hstorage, always (printsWords_json _) rfl, hobject,
    always (printsError_json _) rfl, always (printsPayload_json rfl _) rfl,
    always (printsPayload_json rfl _) rfl, always (bindDownloadFile_json lib) rfl, hcustom,
    List.forall_mem_nil _⟩

/-- A request that returns is answered by one JSON value exactly if its condition holds. -/
theorem bindRunReq_json_iff (hkeeps : KeepsBuffer lib) {bind : BindReq}
    (hroute : bind.name ∈ (routes lib).map Prod.fst) {w w' : World σ} {texts : Texts}
    (hready : bind.name = "ptp_get_device_info" → ptpDefaultSize ≤ w.r.dataLength)
    (hrun : bindRunReq lib bind w = .ok texts w') :
    WellFormed texts.flatten ↔ AnswersJson lib bind w := by
  unfold bindRunReq at hrun
  cases hfind : (routes lib).find? fun route => route.1 = bind.name with
  | none =>
      obtain ⟨route, hmem, hname⟩ := List.mem_map.mp hroute
      exact absurd hname (by simpa using List.find?_eq_none.mp hfind route hmem)
  | some route =>
      rw [hfind] at hrun
      have hname : route.1 = bind.name := by simpa using List.find?_some hfind
      exact routes_exact hkeeps route (List.mem_of_find?_eq_some hfind) bind w w' texts hname.symm
        hready hrun

end Requests

/-! ## A storage -/

/-- A library whose other functions do not return. -/
def idleLibrary {σ : Type} (B : Backend σ) (fuel : Nat) : BindLibrary σ where
  backend := B
  fuel := fuel
  memory := zeroedMemory
  allocations := 0
  storageInfo := blankStorageInfo
  bindInitialized := halt .spent
  setBindInitialized := halt .spent
  ptpClose := halt .spent
  ptpInit := halt .spent
  ptpDeviceInit := halt .spent
  ptpDeviceClose := halt .spent
  ptpOpenSession := halt .spent
  ptpCloseSession := halt .spent
  ptpGetDeviceInfo := halt .spent
  ptpDump := halt .spent
  ptpGetObjectInfo _ := halt .spent
  ptpSendObjectInfo _ := halt .spent
  ptpSend _ _ _ := halt .spent
  ptpSendData _ _ _ _ := halt .spent
  ptpDeviceType := halt .spent
  ptpEosDriveLens _ := halt .spent
  ptpLiveviewSize := halt .spent
  ptpLiveviewFrame := halt .spent
  ptpMlInitBmpLv := halt .spent
  ptpMlGetBmpLv := halt .spent
  ptpSetPropValue _ _ := halt .spent
  ptpSetGenericProperty _ _ := halt .spent
  ptpGetPropValue _ := halt .spent
  ptpParsePropValue := halt .spent
  ptpEosGetEvent := halt .spent
  ptpEosEvents := halt .spent
  ptpGetEvent := halt .spent
  ptpLiveviewType := halt .spent
  ptpLiveviewInit := halt .spent
  ptpLiveviewDeinit := halt .spent
  ptpEosSetRemoteMode _ := halt .spent
  ptpEosSetEventMode _ := halt .spent
  ptpEnums := []
  enumNames := noNames
  ptpEosRemoteReleaseOn _ := halt .spent
  ptpEosRemoteReleaseOff _ := halt .spent
  ptpPreTakePicture := halt .spent
  ptpTakePicture := halt .spent
  ptpCheckOpcode _ := halt .spent
  ptpEosCancelAf := halt .spent
  ptpDeviceReset := halt .spent
  ptpGetThumbnail _ := halt .spent
  fopen _ := halt .spent
  ptpReadInt := halt .spent

theorem idleLibrary_keepsBuffer {σ : Type} (B : Backend σ) (fuel : Nat) :
    KeepsBuffer (idleLibrary B fuel) := by
  rintro w t u result - ⟨⟩

/-- The reply about a storage without a name. -/
def storageReply : UsbReply := ⟨some ⟨0, 0, List.replicate 28 0⟩, ⟨0x2001, 0, []⟩⟩

/-- The request for the first storage. -/
def storageRequest : BindReq := ⟨"ptp_get_storage_info", .replicate _ 0, 1, none, none⟩

theorem storageInfo_answer : ∃ fuel v,
    bindRunReq (idleLibrary (answering storageReply.bytes) fuel) storageRequest
      (answeringWorld 512) =
        .ok [ascii "\x7b\"error\": 0, \"resp\": ", ascii "\x7d"] v := by
  obtain ⟨fuel, v, hsend, hpresented, hholds⟩ := @ptpSend_answeringHeld storageReply rfl 512
    (by decide) (by decide) (commandOf 0x1005 [uint32Of 0] (by decide)) (some 1)
  have hpayload : v.r.HasPayload 12 28 (List.replicate 28 0) := hpresented.hasPayload hholds
  have hparse : (ptpParseStorageInfo v.r blankStorageInfo).run v.r.load =
      .ok (0, blankStorageInfo) := by
    apply Reader.run_of_view hpayload.shows
    rw [ptpParseStorageInfo, hpayload.length_eq, hpayload.start_eq]
    rfl
  have hlock : (ptpMutexLock : M Unit Unit) (answeringWorld 512) =
      .ok () (answeringHeld 512 (some 1)) := rfl
  have hcall : ∃ u, ptpGetStorageInfo (answering storageReply.bytes) fuel (uint32Of 0)
      blankStorageInfo (answeringWorld 512) = .ok (0, blankStorageInfo) u := by
    refine ⟨final (ptpMutexUnlock v), ?_⟩
    rw [ptpGetStorageInfo, bind_ok hlock, bind_ok hsend, if_neg (by decide),
      bind_ok (inspect_ok hparse)]
    rfl
  obtain ⟨u, hcall⟩ := hcall
  have hprinted : ∃ text, ptpStorageInfoJson 1024 blankStorageInfo = .ok text := ⟨_, rfl⟩
  obtain ⟨text, htext⟩ := hprinted
  have hroute : (routes (idleLibrary (answering storageReply.bytes) fuel)).find?
      (fun route => route.1 = storageRequest.name) = some ("ptp_get_storage_info",
        bindGetStorageInfo (idleLibrary (answering storageReply.bytes) fuel)) := rfl
  refine ⟨fuel, u, ?_⟩
  rw [bindRunReq, hroute]
  change bindGetStorageInfo (idleLibrary (answering storageReply.bytes) fuel) storageRequest
    (answeringWorld 512) = _
  exact printsInfo_ok hcall htext

theorem storageRequest_route {σ : Type} (lib : BindLibrary σ) :
    storageRequest.name ∈ (routes lib).map Prod.fst := by
  simp [routes, storageRequest]

/-- The storage information is printed into a buffer, and the answer has no value. -/
theorem storageInfo_not_json : ∃ fuel v,
    bindRunReq (idleLibrary (answering storageReply.bytes) fuel) storageRequest
      (answeringWorld 512) =
        .ok [ascii "\x7b\"error\": 0, \"resp\": ", ascii "\x7d"] v ∧
    storageRequest.name ∈
      (routes (idleLibrary (answering storageReply.bytes) fuel)).map Prod.fst ∧
    ¬WellFormed [ascii "\x7b\"error\": 0, \"resp\": ", ascii "\x7d"].flatten := by
  obtain ⟨fuel, v, hrun⟩ := storageInfo_answer
  exact ⟨fuel, v, hrun, storageRequest_route _, not_wellFormed_of_stuck rfl⟩

/-- A library that describes a device as well. -/
def describingLibrary {σ : Type} (B : Backend σ) (fuel : Nat) (di : PtpDeviceInfo) :
    BindLibrary σ :=
  { idleLibrary B fuel with
    ptpGetDeviceInfo := pure (0, di)
    ptpDump := pure () }

theorem describingLibrary_keepsBuffer {σ : Type} (B : Backend σ) (fuel : Nat) (di : PtpDeviceInfo) :
    KeepsBuffer (describingLibrary B fuel di) := by
  intro w t u result hready hget hdump
  obtain ⟨-, rfl⟩ := EStateM.Result.ok.inj hget
  obtain ⟨-, rfl⟩ := EStateM.Result.ok.inj hdump
  exact hready

/-- A device of the model `X`. -/
def namedDevice : PtpDeviceInfo :=
  { blankDeviceInfo with model := blankDeviceInfo.model.set 0 0x58 }

/-- The request for its description. -/
def deviceRequest : BindReq := ⟨"ptp_get_device_info", .replicate _ 0, 0, none, none⟩

/-- The device is described in JSON, the storage is not. -/
theorem bindRunReq_json_storage :
    (∃ texts w', bindRunReq (describingLibrary (answering okResponse) 0 namedDevice) deviceRequest
        (answeringWorld 512) = .ok texts w' ∧ WellFormed texts.flatten) ∧
    ∃ fuel, ¬AnswersJson (idleLibrary (answering storageReply.bytes) fuel) storageRequest
      (answeringWorld 512) := by
  constructor
  · let lib := describingLibrary (answering okResponse) 0 namedDevice
    obtain ⟨texts, w', hrun, -⟩ := run_of_returnsOn (bindRunReq lib deviceRequest)
      (answeringWorld 512) (fun _ _ => true) (by decide +kernel)
    have hroute : deviceRequest.name ∈ (routes lib).map Prod.fst := by
      simp [routes, deviceRequest]
    refine ⟨texts, w', hrun, (bindRunReq_json_iff (describingLibrary_keepsBuffer _ 0 namedDevice)
      hroute (fun _ => le_rfl) hrun).mpr ?_⟩
    have hname : deviceRequest.name = "ptp_get_device_info" := rfl
    have hstrings : deviceStrings namedDevice = .ok [[], [], [0x58], [], []] := by decide +kernel
    simp only [AnswersJson, hname]
    have hcall : lib.ptpGetDeviceInfo (answeringWorld 512) =
        .ok (0, namedDevice) (answeringWorld 512) := rfl
    refine (yields_iff_of_ok hcall _).mpr fun _ => ⟨_, hstrings, ?_⟩
    exact ⟨_, rfl, _, rfl, _, rfl, _, rfl, _, rfl, rfl⟩
  · obtain ⟨fuel, v, hrun⟩ := storageInfo_answer
    refine ⟨fuel, fun hanswers => ?_⟩
    exact not_wellFormed_of_stuck rfl ((bindRunReq_json_iff (idleLibrary_keepsBuffer _ fuel)
      (storageRequest_route _) (fun hname => absurd hname (by decide)) hrun).mpr hanswers)

end Libpict
