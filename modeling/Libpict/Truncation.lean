import Libpict.DatasetSafety
import Libpict.JsonTexts

/-! # Truncation

The serialisers, as they print to the memory of their caller. `osnprintf` only looks at the room
that is left when it is called again, so that a text whose end has been cut off is noticed
unless it is cut in its last piece.
-/

namespace Libpict

open CInt Json

/-- The memory that a serialiser prints to, and its `curr`. -/
structure Printed where
  buffer : Buffer
  curr : Int

/-- `vsnprintf` with room for `size` bytes: what fits in front of the terminator is stored. -/
def vsnprintf (buffer : Buffer) (offset size : Nat) (piece : List UInt8) : Buffer :=
  if size = 0 then buffer else buffer.store offset (piece.take (size - 1) ++ [0])

/-- `curr += osnprintf(buffer, curr, max, ..)`: whatever has been stored, all of the piece is
counted. -/
def osnprintfAt (max : Int) (out : Printed) (piece : List UInt8) : Except Halt Printed :=
  if max - out.curr < 0 then .error (.panic "osnprintf overflow %d/%d")
  else if Fits (out.curr + piece.length) then
    .ok ⟨vsnprintf out.buffer out.curr.toNat (max - out.curr).toNat piece,
      out.curr + piece.length⟩
  else .error .undefined

/-- `strncpy` of a text to the start of a buffer: it fills up with zeros, or stops short of the
terminator. -/
def strncpy (buffer : Buffer) (text : List UInt8) (size : Nat) : Buffer :=
  buffer.store 0 ((text ++ List.replicate (size - text.length) 0).take size)

section Serialisers

variable (max : Int)

/-- `ptp_device_info_json`, on the memory of its caller. -/
def ptpDeviceInfoJsonAt (di : PtpDeviceInfo) (buffer : Buffer) : Except Halt Printed :=
  printDevice (osnprintfAt max) di ⟨buffer, 0⟩

/-- `ptp_object_info_json`; `sprintf` stores the first brace with its terminator. -/
def ptpObjectInfoJsonAt (names : EnumNames) (so : PtpObjectInfo) (buffer : Buffer) :
    Except Halt Printed :=
  printObject (osnprintfAt max) names so ⟨buffer.store 0 (ascii "\x7b" ++ [0]), 1⟩

/-- `ptp_storage_info_json`. -/
def ptpStorageInfoJsonAt (so : PtpStorageInfo) (buffer : Buffer) : Except Halt Printed :=
  printStorage (osnprintfAt max) so ⟨buffer, 0⟩

/-- `ptp_prop_desc_json`. -/
def ptpPropDescJsonAt (memory : Allocator) (allocations : Nat) (value : UInt32) (pd : PtpPropDesc)
    (fuel : Nat) (buffer : Buffer) : Except Halt Printed :=
  printPropDesc (osnprintfAt max) memory allocations value pd fuel ⟨buffer, 0⟩

def printEventListAt (length : Int) (events : List PtpGenericEvent) (buffer : Buffer) :
    Except Halt Printed :=
  printFound (osnprintfAt max) ⟨strncpy buffer (ascii "[]") max.toNat, 2⟩ length events ⟨buffer, 0⟩

/-- `ptp_eos_events_json`. -/
def ptpEosEventsJsonAt (memory : Allocator) (names : EnumNames) (r : PtpRuntime)
    (avail : AvailList) (fuel : Nat) (buffer : Buffer) : Except Halt Printed := do
  let (length, decoded) ← (ptpEosEvents memory names r avail fuel).run r.load
  printEventListAt max length decoded.events buffer

end Serialisers

/-- The text of `ptp_eos_events_json`. -/
def eosEventsText (memory : Allocator) (names : EnumNames) (r : PtpRuntime) (avail : AvailList)
    (fuel : Nat) : Option (List UInt8) :=
  ((ptpEosEvents memory names r avail fuel).run r.load).toOption.bind fun found =>
    eventsText found.1 found.2.events

/-- All of a text has been printed with its terminator, and nothing behind the buffer. -/
structure Printed.Complete (max : Int) (start : Buffer) (whole : List UInt8) (printed : Printed) :
    Prop where
  curr : printed.curr = whole.length
  inside : printed.curr < max
  text : printed.buffer.slice 0 (whole.length + 1) = whole ++ [0]
  untouched : ∀ i : Nat, max ≤ i → printed.buffer.byte i = start.byte i

/-- Whenever the serialiser returns, it has printed the whole text. -/
def Untruncated (max : Int) (json : Buffer → Except Halt Printed) (text : Option (List UInt8)) :
    Prop :=
  ∀ start printed, json start = .ok printed → ∃ whole ∈ text, printed.Complete max start whole

/-- The text is not just as long as the buffer, and not one byte longer. -/
def OffLimit (max : Int) (text : Option (List UInt8)) : Prop :=
  ∀ whole ∈ text, (whole.length : Int) ≤ intMax →
    (whole.length : Int) ≠ max ∧ (whole.length : Int) ≠ max + 1

/-! ## Pieces -/

/-- A text has been printed. Where it fits with its terminator, it is in the buffer. -/
structure Shows (max : Int) (start : Buffer) (text : List UInt8) (out : Printed) : Prop where
  curr : out.curr = text.length
  held : (text.length : Int) < max → out.buffer.slice 0 text.length = text ∧
    ∀ i : Nat, max ≤ i → out.buffer.byte i = start.byte i

theorem shows_start (max : Int) (buffer : Buffer) : Shows max buffer [] ⟨buffer, 0⟩ :=
  ⟨rfl, fun _ => ⟨rfl, fun _ _ => rfl⟩⟩

section Pieces

variable {max : Int} {start : Buffer} {text : List UInt8} {out out' : Printed}

theorem osnprintfAt_eq_ok {piece : List UInt8} (hshows : Shows max start text out)
    (hrun : osnprintfAt max out piece = .ok out') :
    (text.length : Int) ≤ max ∧ (text.length + piece.length : Int) ≤ intMax := by
  rw [osnprintfAt, hshows.curr] at hrun
  split at hrun
  next => cases hrun
  next hguard =>
    split at hrun
    next hfits =>
      unfold Fits at hfits
      unfold intMax
      omega
    next => cases hrun

/-- A piece is printed behind the others. Where all of it fits, so does the terminator. -/
theorem Shows.print (hshows : Shows max start text out) (piece : List UInt8)
    (hguard : (text.length : Int) ≤ max)
    (hfits : (text.length + piece.length : Int) ≤ intMax) :
    ∃ out', osnprintfAt max out piece = .ok out' ∧ Shows max start (text ++ piece) out' ∧
      (((text ++ piece).length : Int) < max → out'.Complete max start (text ++ piece)) := by
  unfold intMax at hfits
  have hcount : out.curr + piece.length = ((text ++ piece).length : Nat) := by
    rw [hshows.curr, List.length_append, Nat.cast_add]
  have hrun : osnprintfAt max out piece =
      .ok ⟨vsnprintf out.buffer text.length (max - text.length).toNat piece,
        out.curr + piece.length⟩ := by
    rw [osnprintfAt, hshows.curr, if_neg (by omega), if_pos (by unfold Fits; omega),
      Int.toNat_natCast]
  have hcomplete : ((text ++ piece).length : Int) < max →
      Printed.Complete max start (text ++ piece)
        ⟨vsnprintf out.buffer text.length (max - text.length).toNat piece,
          out.curr + piece.length⟩ := by
    intro hroom
    rw [List.length_append] at hroom
    obtain ⟨hheld, huntouched⟩ := hshows.held (by omega)
    have hstored : vsnprintf out.buffer text.length (max - text.length).toNat piece =
        out.buffer.store text.length (piece ++ [0]) := by
      rw [vsnprintf, if_neg (by omega), List.take_of_length_le (by omega)]
    refine ⟨hcount, ?_, ?_, fun i hi => ?_⟩
    · dsimp only
      rw [hcount, List.length_append]
      exact hroom
    · have hextend := out.buffer.store_slice_extend 0 text.length (piece ++ [0])
      rw [Nat.zero_add, hheld, List.length_append, List.length_singleton, ← Nat.add_assoc,
        ← List.length_append, ← List.append_assoc] at hextend
      rw [hstored]
      exact hextend
    · have hbehind : ¬(text.length ≤ i ∧ i < text.length + (piece ++ [(0 : UInt8)]).length) := by
        rw [List.length_append, List.length_singleton]
        omega
      rw [hstored, Buffer.store]
      dsimp only
      rw [if_neg hbehind]
      exact huntouched i hi
  refine ⟨_, hrun, ⟨hcount, fun hroom => ?_⟩, hcomplete⟩
  obtain ⟨-, -, hslice, huntouched⟩ := hcomplete hroom
  refine ⟨?_, huntouched⟩
  have hfront := Buffer.slice_drop_take
    (vsnprintf out.buffer text.length (max - text.length).toNat piece) 0
    ((text ++ piece).length + 1) 0 (text ++ piece).length (by omega)
  rw [List.drop_zero, hslice, List.take_left, Nat.zero_add] at hfront
  exact hfront.symm

theorem Shows.run_ok (hshows : Shows max start text out) {pieces : List (List UInt8)}
    (hrun : pieces.foldlM (osnprintfAt max) out = .ok out') :
    Shows max start (text ++ pieces.flatten) out' := by
  induction pieces generalizing text out with
  | nil =>
      obtain rfl := Except.ok.inj hrun
      rwa [List.flatten_nil, List.append_nil]
  | cons piece pieces ih =>
      rw [List.foldlM_cons] at hrun
      obtain ⟨between, hprint, hrest⟩ := ok_of_bind hrun
      obtain ⟨hguard, hfits⟩ := osnprintfAt_eq_ok hshows hprint
      obtain ⟨between', hprint', hnext, -⟩ := hshows.print piece hguard hfits
      obtain rfl := Except.ok.inj (hprint.symm.trans hprint')
      rw [List.flatten_cons, ← List.append_assoc]
      exact ih hnext hrest

/-- As long as the pieces in front of each fit, the run goes on. -/
theorem Shows.run_returns (hshows : Shows max start text out) {pieces : List (List UInt8)}
    (hroom : (text.length + pieces.flatten.length : Int) ≤ max)
    (hfits : (text.length + pieces.flatten.length : Int) ≤ intMax) :
    ∃ out', pieces.foldlM (osnprintfAt max) out = .ok out' := by
  induction pieces generalizing text out with
  | nil => exact ⟨out, rfl⟩
  | cons piece pieces ih =>
      rw [List.flatten_cons, List.length_append, Nat.cast_add] at hroom hfits
      obtain ⟨between, hprint, hnext, -⟩ := hshows.print piece (by omega) (by omega)
      rw [List.foldlM_cons, hprint]
      apply ih hnext <;>
      · rw [List.length_append, Nat.cast_add]
        omega

end Pieces

/-! ## Serialisers -/

section Whole

variable {max : Int} {part : Part} {last : UInt8} {lead whole : List UInt8}
  {start : Buffer} {out : Printed}

/-- A run that ends with a single byte is a run of the pieces in front of it, and its print. -/
theorem part_eq {text : List UInt8} (hsplits : Splits [[last]] part (some text)) :
    ∃ front : List (List UInt8), text = front.flatten ++ [last] ∧
      ∀ out, part (osnprintfAt max) out =
        front.foldlM (osnprintfAt max) out >>= fun between => osnprintfAt max between [last] := by
  obtain ⟨front, rfl, hpieces⟩ := hsplits
  refine ⟨front, by simp, fun out => ?_⟩
  have hrun : part (osnprintfAt max) out = (front ++ [[last]]).foldlM (osnprintfAt max) out :=
    hpieces _ (osnprintfAt max) out
  rw [hrun, List.foldlM_append]
  exact congrArg _ (funext fun between => foldlM_singleton _ between [last])

/-- The serialiser also returns if only its last byte, or the terminator, is cut off. -/
theorem Shows.part_returns (hshows : Shows max start lead out) {text : List UInt8}
    (hsplits : Splits [[last]] part (some text)) (hroom : ((lead ++ text).length : Int) ≤ max + 1)
    (hfits : ((lead ++ text).length : Int) ≤ intMax) :
    ∃ printed, part (osnprintfAt max) out = .ok printed ∧
      printed.curr = (lead ++ text).length := by
  obtain ⟨front, rfl, hrun⟩ := @part_eq max _ _ _ hsplits
  rw [List.length_append, List.length_append, List.length_singleton] at hroom hfits
  push_cast at hroom hfits
  obtain ⟨between, hfront⟩ := @Shows.run_returns _ _ _ _ hshows front (by omega) (by omega)
  have hbetween := hshows.run_ok hfront
  obtain ⟨printed, hprint, hprinted, -⟩ := hbetween.print [last]
    (by rw [List.length_append]; push_cast; omega)
    (by rw [List.length_append, List.length_singleton]; push_cast; omega)
  refine ⟨printed, ?_, ?_⟩
  · rw [hrun, hfront]
    exact hprint
  · rw [hprinted.curr, List.append_assoc]

theorem Shows.part_ok (hshows : Shows max start lead out) {text : List UInt8}
    (hsplits : Splits [[last]] part (some text)) {printed : Printed}
    (hreturns : part (osnprintfAt max) out = .ok printed) :
    ((lead ++ text).length : Int) ≤ max + 1 ∧ ((lead ++ text).length : Int) ≤ intMax ∧
      (((lead ++ text).length : Int) < max → printed.Complete max start (lead ++ text)) := by
  obtain ⟨front, rfl, hrun⟩ := @part_eq max _ _ _ hsplits
  rw [hrun] at hreturns
  obtain ⟨between, hfront, hprint⟩ := ok_of_bind hreturns
  have hbetween := hshows.run_ok hfront
  obtain ⟨hguard, hfits⟩ := osnprintfAt_eq_ok hbetween hprint
  obtain ⟨printed', hprint', -, hcomplete⟩ := hbetween.print [last] hguard hfits
  obtain rfl := Except.ok.inj (hprint.symm.trans hprint')
  rw [← List.append_assoc]
  rw [List.length_singleton] at hfits
  refine ⟨?_, ?_, hcomplete⟩ <;>
  · rw [List.length_append, List.length_singleton]
    push_cast
    omega

/-- A serialiser with a last piece of one byte. -/
theorem untruncated_iff {text : Option (List UInt8)} (hsplits : Splits [[last]] part text)
    {begun : Buffer → Printed} (hbegun : ∀ buffer, Shows max buffer lead (begun buffer)) :
    Untruncated max (fun buffer => part (osnprintfAt max) (begun buffer))
        (joined (some lead) text) ↔ OffLimit max (joined (some lead) text) := by
  cases text with
  | none =>
      refine iff_of_true (fun buffer printed hrun => ?_) fun whole hwhole => ?_
      · exact absurd hrun (hsplits _ _ _ _)
      · cases hwhole
  | some text =>
      have hjoined : joined (some lead) (some text) = some (lead ++ text) := rfl
      rw [hjoined]
      constructor
      · rintro huntruncated whole hwhole hfits
        obtain rfl := Option.mem_some.mp hwhole
        by_contra hlimit
        obtain ⟨printed, hreturns, hcurr⟩ := (hbegun ⟨0, fun _ => 0⟩).part_returns hsplits
          (by omega) hfits
        obtain ⟨whole', hwhole', hcomplete⟩ := huntruncated _ printed hreturns
        have hinside := hcomplete.inside
        omega
      · intro hlimit buffer printed hreturns
        obtain ⟨hroom, hfits, hcomplete⟩ := (hbegun buffer).part_ok hsplits hreturns
        have hoff := hlimit _ rfl hfits
        exact ⟨_, rfl, hcomplete (by omega)⟩

theorem joined_nil (text : Option (List UInt8)) : joined (some []) text = text := by
  cases text <;> rfl

end Whole

theorem printEventListAt_untruncated_iff {max : Int} (hmax : 0 < max) (length : Int)
    (events : List PtpGenericEvent) :
    Untruncated max (printEventListAt max length events) (eventsText length events) ↔
      OffLimit max (eventsText length events) := by
  by_cases hzero : length = 0
  · have hjson : printEventListAt max length events = fun buffer =>
        .ok ⟨strncpy buffer (ascii "[]") max.toNat, 2⟩ := by
      funext buffer
      rw [printEventListAt, printFound, if_pos hzero]
    have htext : eventsText length events = some (ascii "[]") := by rw [eventsText, if_pos hzero]
    have hlength : (ascii "[]").length = 2 := rfl
    rw [hjson, htext]
    constructor
    · intro huntruncated whole hwhole _
      obtain rfl := Option.mem_some.mp hwhole
      obtain ⟨whole', -, hcomplete⟩ := huntruncated ⟨0, fun _ => 0⟩ _ rfl
      have hinside : (2 : Int) < max := hcomplete.inside
      omega
    · intro hlimit buffer printed hrun
      obtain rfl := Except.ok.inj hrun
      have hoff := hlimit _ rfl (by decide)
      have hsize : 3 ≤ max.toNat := by omega
      have hstored : strncpy buffer (ascii "[]") max.toNat =
          buffer.store 0 (ascii "[]" ++ List.replicate (max.toNat - 2) 0) := by
        rw [strncpy, List.take_of_length_le (by simp [hlength]; omega), hlength]
      refine ⟨_, rfl, rfl, ?_, ?_, fun i hi => ?_⟩
      · dsimp only
        omega
      · dsimp only
        rw [hstored, Buffer.store_slice_take _ _ _ _ (by simp [hlength]; omega)]
        obtain ⟨zeros, hzeros⟩ := Nat.exists_eq_add_of_le hsize
        have hfill : max.toNat - 2 = zeros + 1 := by omega
        rw [hfill, List.replicate_succ]
        rfl
      · dsimp only
        rw [hstored, Buffer.store]
        dsimp only
        rw [if_neg (by simp [hlength]; omega)]
  · have hjson : printEventListAt max length events = fun buffer => (do
        let out ← osnprintfAt max ⟨buffer, 0⟩ (ascii "[")
        let out ← printEvents (osnprintfAt max) length 0 events out
        osnprintfAt max out (ascii "]")) := by
      funext buffer
      rw [printEventListAt, printFound, if_neg hzero]
    have hwhole := untruncated_iff (printFound_splits hzero events) (shows_start max)
    rw [joined_nil] at hwhole
    rw [hjson]
    exact hwhole

/-- On every buffer, a serialiser that returns has printed its whole text with the terminator,
and nothing behind the buffer, exactly if that text is not just as long as the buffer or one
byte longer. -/
theorem json_untruncated_iff {max : Int} (hmax : 0 < max) (names : EnumNames)
    (memory : Allocator) :
    (∀ di, Untruncated max (ptpDeviceInfoJsonAt max di) (deviceInfoText di) ↔
      OffLimit max (deviceInfoText di)) ∧
    (∀ so, Untruncated max (ptpObjectInfoJsonAt max names so) (objectInfoText names so) ↔
      OffLimit max (objectInfoText names so)) ∧
    (∀ so, Untruncated max (ptpStorageInfoJsonAt max so) (storageInfoText so) ↔
      OffLimit max (storageInfoText so)) ∧
    (∀ allocations value pd fuel,
      Untruncated max (ptpPropDescJsonAt max memory allocations value pd fuel)
          (propDescText memory allocations value pd fuel) ↔
        OffLimit max (propDescText memory allocations value pd fuel)) ∧
    ∀ r avail fuel, Untruncated max (ptpEosEventsJsonAt max memory names r avail fuel)
        (eosEventsText memory names r avail fuel) ↔
      OffLimit max (eosEventsText memory names r avail fuel) := by
  refine ⟨fun di => ?_, fun so => ?_, fun so => ?_, fun allocations value pd fuel => ?_,
    fun r avail fuel => ?_⟩
  · have hwhole := untruncated_iff (printDevice_splits di) (shows_start max)
    rwa [joined_nil] at hwhole
  · obtain ⟨text, htext, hsplits⟩ := printObject_splits names so
    rw [htext]
    refine untruncated_iff hsplits fun buffer => ⟨rfl, fun hroom => ⟨?_, fun i hi => ?_⟩⟩
    · exact Buffer.store_slice_take _ _ _ _ (by decide)
    · have hlead : (ascii "\x7b").length = 1 := rfl
      dsimp only
      rw [Buffer.store]
      dsimp only
      rw [if_neg (by rw [List.length_append, List.length_singleton]; omega)]
  · have hwhole := untruncated_iff (printStorage_splits so) (shows_start max)
    rwa [joined_nil] at hwhole
  · have hwhole := untruncated_iff (printPropDesc_splits memory allocations value pd fuel)
      (shows_start max)
    rwa [joined_nil] at hwhole
  · rw [eosEventsText]
    cases hrun : (ptpEosEvents memory names r avail fuel).run r.load with
    | error reason =>
        refine iff_of_true (fun buffer printed hjson => ?_) fun whole hwhole => ?_
        · rw [ptpEosEventsJsonAt, hrun] at hjson
          cases hjson
        · cases hwhole
    | ok found =>
        have hjson : ptpEosEventsJsonAt max memory names r avail fuel =
            printEventListAt max found.1 found.2.events := by
          funext buffer
          rw [ptpEosEventsJsonAt, hrun]
          rfl
        rw [hjson]
        exact printEventListAt_untruncated_iff hmax found.1 found.2.events

/-- The text about a blank storage has 70 characters. -/
theorem storageInfoText_blank :
    ∃ whole, storageInfoText blankStorageInfo = some whole ∧ whole.length = 70 := by
  have hlength : (storageInfoText blankStorageInfo).map List.length = some 70 := by decide +kernel
  exact Option.map_eq_some_iff.mp hlength

theorem offLimit_of_length {max : Int} {text : Option (List UInt8)} {n : Nat}
    (hlength : text.map List.length = some n) (hshort : (n : Int) < max) : OffLimit max text := by
  obtain ⟨whole, rfl, rfl⟩ := Option.map_eq_some_iff.mp hlength
  intro whole' hwhole _
  obtain rfl := Option.some.inj hwhole
  omega

/-- A property from 0 to 10 in steps of 5. -/
def steppedPropDesc : PtpPropDesc :=
  { blankPropDesc with
    dataType := ptpTcUint8.toUInt16
    formType := ptpRangeForm.toUInt8
    rangeForm := ⟨0, 10, 5⟩ }

/-- The texts about a device, an object, a storage, a property and no events, all of them
shorter than the buffer. -/
theorem json_untruncated_room :
    Untruncated 1000 (ptpDeviceInfoJsonAt 1000 blankDeviceInfo) (deviceInfoText blankDeviceInfo) ∧
    Untruncated 1000 (ptpObjectInfoJsonAt 1000 noNames blankObjectInfo)
      (objectInfoText noNames blankObjectInfo) ∧
    Untruncated 1000 (ptpStorageInfoJsonAt 1000 blankStorageInfo)
      (storageInfoText blankStorageInfo) ∧
    Untruncated 1000 (ptpPropDescJsonAt 1000 zeroedMemory 0 0 steppedPropDesc 4)
      (propDescText zeroedMemory 0 0 steppedPropDesc 4) ∧
    Untruncated 1000 (ptpEosEventsJsonAt 1000 zeroedMemory noNames
        (received (Container.bytes ptpPacketTypeData ⟨0, 0, []⟩)) AvailList.initial 1)
      (eosEventsText zeroedMemory noNames
        (received (Container.bytes ptpPacketTypeData ⟨0, 0, []⟩)) AvailList.initial 1) := by
  obtain ⟨hdevice, hobject, hstorage, hprop, hevents⟩ :=
    @json_untruncated_iff 1000 (by decide) noNames zeroedMemory
  exact ⟨(hdevice _).mpr (offLimit_of_length (n := 191) (by decide +kernel) (by decide)),
    (hobject _).mpr (offLimit_of_length (n := 157) (by decide +kernel) (by decide)),
    (hstorage _).mpr (offLimit_of_length (n := 70) (by decide +kernel) (by decide)),
    (hprop _ _ _ _).mpr (offLimit_of_length (n := 106) (by decide +kernel) (by decide)),
    (hevents _ _ _).mpr (offLimit_of_length (n := 2) (by decide +kernel) (by decide))⟩

/-- In a buffer of 70 bytes the last brace is cut off, and nobody notices. -/
theorem json_untruncated_limit :
    (∃ printed, ptpStorageInfoJsonAt 70 blankStorageInfo ⟨70, fun _ => 0⟩ = .ok printed ∧
      printed.curr = 70) ∧
    ¬Untruncated 70 (ptpStorageInfoJsonAt 70 blankStorageInfo)
      (storageInfoText blankStorageInfo) := by
  obtain ⟨whole, htext, hlength⟩ := storageInfoText_blank
  have hsplits := printStorage_splits blankStorageInfo
  rw [htext] at hsplits
  obtain ⟨printed, hreturns, hcurr⟩ := (shows_start 70 ⟨70, fun _ => 0⟩).part_returns hsplits
    (by rw [List.nil_append, hlength]; decide) (by rw [List.nil_append, hlength]; decide)
  rw [List.nil_append, hlength] at hcurr
  refine ⟨⟨printed, hreturns, hcurr⟩, fun huntruncated => ?_⟩
  obtain ⟨whole', -, hcomplete⟩ := huntruncated _ printed hreturns
  have hinside := hcomplete.inside
  rw [hcurr] at hinside
  exact absurd hinside (by decide)

end Libpict
