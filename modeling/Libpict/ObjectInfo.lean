import Libpict.DatasetItems

/-! # Object info, packed and parsed

`ptp_pack_object_info` writes the dataset that `ptp_parse_object_info` reads. The reader takes
one unit less than an array holds, so a string that fills its array is not read to its end,
and the strings behind it are read from the rest of it.
-/

namespace Libpict

open Bytes CInt

/-! ## Strings one after the other -/

/-- An array of a dataset, and the string that is sent for it. -/
structure TextSlot where
  size : Nat
  old : Vector UInt8 size
  chars : List UInt8

namespace TextSlot

/-- The string consists of printable characters and has room in its array. -/
structure Sound (slot : TextSlot) : Prop where
  ascii : ∀ char ∈ slot.chars, 32 ≤ char ∧ char ≤ 126
  room : slot.chars.length + 1 ≤ slot.size
  two_le : 2 ≤ slot.size
  le : slot.size ≤ 255

/-- Where the cursor goes over some strings, their arrays hold them. -/
def Hold (payload : List UInt8) : List TextSlot → (offset : Nat) → Prop
  | [], _ => True
  | slot :: slots, offset => Slots.Holds (textAt slot.old payload offset) slot.chars ∧
      Hold payload slots ((Field.text slot.size).cursorEnd payload offset)

/-- Every string leaves a slot of its array over; one may fill it if there was a zero at the
end of the array and the strings behind are empty. -/
def Fit : List TextSlot → Prop
  | [] => True
  | slot :: slots => (slot.chars.length + 2 ≤ slot.size ∨
      slot.old[slot.chars.length]? = some 0 ∧ ∀ other ∈ slots, other.chars = []) ∧ Fit slots

variable {payload rest : List UInt8} {p : Nat} {slot : TextSlot}

theorem Sound.fits (hsound : slot.Sound) (hshort : slot.chars.length + 2 ≤ slot.size) :
    (Item.text slot.chars).Fits (.text slot.size) :=
  ⟨hsound.ascii, .inr hshort, hsound.two_le, hsound.le.trans (by decide)⟩

/-- A byte 0 is an empty string. -/
theorem zero_step (slot : TextSlot) (hdrop : payload.drop p = 0 :: rest) (htwo : 2 ≤ slot.size) :
    Slots.Holds (textAt slot.old payload p) [] ∧
      (Field.text slot.size).cursorEnd payload p ≤ payload.length ∧
      payload.drop ((Field.text slot.size).cursorEnd payload p) = rest := by
  have hcount : field 1 p payload = 0 := by
    rw [field, hdrop]
    rfl
  have htaken : stringTaken slot.size payload p = 0 := by simp [stringTaken, hcount]
  have hlength := congrArg List.length hdrop
  rw [List.length_drop, List.length_cons] at hlength
  refine ⟨?_, ?_, ?_⟩
  · have hstored : storedString (unitsAt payload (p + 1) 0) = [] ++ 0 :: [] := by
      simp [storedString, storedChars]
    rw [textAt, htaken, hstored]
    exact (Slots.holds_put_zero_iff [] rfl (by simp; omega)).mpr rfl
  · rw [Field.cursorEnd, htaken]
    omega
  · rw [Field.cursorEnd, htaken, ← List.drop_drop, hdrop]
    rfl

/-- A string that fills its array is read without its terminator. -/
theorem full_step (hdrop : payload.drop p = stringBytes slot.chars ++ rest) (hsound : slot.Sound)
    (hfull : slot.size < slot.chars.length + 2) :
    textAt slot.old payload p = Slots.put slot.old 0 slot.chars ∧
      (Field.text slot.size).cursorEnd payload p ≤ payload.length ∧
      payload.drop ((Field.text slot.size).cursorEnd payload p) = 0 :: 0 :: rest := by
  have hroom := hsound.room
  have htwo := hsound.two_le
  have hle := hsound.le
  have hne : slot.chars ≠ [] := by
    rintro hempty
    rw [hempty, List.length_nil] at hfull
    omega
  have hunits : stringUnits slot.chars = slot.chars.map UInt8.toUInt16 ++ [0] := if_neg hne
  have hbytes : stringBytes slot.chars = leBytes 1 (slot.chars.length + 1) ++
      (((slot.chars.map UInt8.toUInt16).flatMap fun unit => leBytes 2 unit.toNat) ++ [0, 0]) := by
    rw [stringBytes_eq, wireString, stringUnits_length hne, hunits, List.flatMap_append]
    rfl
  rw [hbytes, List.append_assoc, List.append_assoc] at hdrop
  have hlength := congrArg List.length hdrop
  simp only [List.length_drop, List.length_append, leBytes_length, flatMap_units_length,
    List.length_map, List.length_cons, List.length_nil] at hlength
  have hp : p + 1 ≤ payload.length := by omega
  have htaken : stringTaken slot.size payload p = slot.chars.length := by
    rw [stringTaken, field_of_drop hdrop (by omega)]
    omega
  have hbehind : payload.drop (p + 1) =
      ((slot.chars.map UInt8.toUInt16).flatMap fun unit => leBytes 2 unit.toNat) ++
        ([0, 0] ++ rest) := by
    rw [← List.drop_drop, hdrop]
    exact List.drop_left' (leBytes_length _ _)
  have hread := unitsAt_of_drop hbehind hp
  rw [List.length_map] at hread
  have hzero : (0 : UInt16) ∉ slot.chars.map UInt8.toUInt16 := by
    intro hmem
    obtain ⟨char, hchar, hnul⟩ := List.mem_map.mp hmem
    have hlow := UInt8.le_iff_toNat_le.mp (hsound.ascii char hchar).1
    have hnul' := congrArg UInt16.toNat hnul
    rw [UInt8.toNat_toUInt16] at hnul'
    exact absurd (hnul' ▸ hlow) (by decide)
  refine ⟨?_, ?_, ?_⟩
  · rw [textAt, htaken, hread, storedString_of_not_mem (by simpa using hne) hzero,
      storedChars_toUInt16 hsound.ascii]
  · rw [Field.cursorEnd, htaken]
    omega
  · rw [Field.cursorEnd, htaken, ← Nat.add_assoc, ← List.drop_drop, hbehind,
      List.drop_left' (by rw [flatMap_units_length, List.length_map])]
    rfl

variable (room : Int)

/-- Where two zeros are in front of some strings, only empty ones are found. -/
theorem hold_zeros_iff {slots : List TextSlot} (hsound : ∀ slot ∈ slots, slot.Sound)
    (hdrop : payload.drop p = 0 :: 0 :: slots.flatMap fun slot => stringBytes slot.chars) :
    CursorInside room payload (slots.map fun slot => .text slot.size) p ∧ Hold payload slots p ↔
      ∀ slot ∈ slots, slot.chars = [] := by
  induction slots generalizing p with
  | nil =>
      have hlength := congrArg List.length hdrop
      simp only [List.length_drop, List.length_cons] at hlength
      exact iff_of_true ⟨(by omega : p ≤ payload.length), trivial⟩ (by simp)
  | cons slot slots ih =>
      obtain ⟨hslot, hslots⟩ := List.forall_mem_cons.mp hsound
      obtain ⟨hholds, _, hnext⟩ := zero_step slot hdrop hslot.two_le
      rw [List.map_cons, CursorInside, Field.Admitted, true_and, Hold, List.forall_mem_cons]
      by_cases hempty : slot.chars = []
      · have hrest := ih hslots (p := (Field.text slot.size).cursorEnd payload p)
          (by rw [hnext, List.flatMap_cons, hempty]; rfl)
        rw [hempty] at *
        rw [and_iff_right hholds, hrest]
        exact (and_iff_right rfl).symm
      · refine iff_of_false ?_ fun h => hempty h.1
        rintro ⟨_, hother, _⟩
        exact hempty (hother.unique hholds (zero_not_mem_of_ascii hslot.ascii) (by simp))

theorem fit_of_empty {slots : List TextSlot} (hsound : ∀ slot ∈ slots, slot.Sound)
    (hempty : ∀ slot ∈ slots, slot.chars = []) : Fit slots := by
  induction slots with
  | nil => trivial
  | cons slot slots ih =>
      obtain ⟨hslot, hslots⟩ := List.forall_mem_cons.mp hsound
      obtain ⟨hchars, hrest⟩ := List.forall_mem_cons.mp hempty
      have htwo := hslot.two_le
      exact ⟨.inl (by rw [hchars, List.length_nil, Nat.zero_add]; exact htwo), ih hslots hrest⟩

/-- Some strings are found exactly if they fit. -/
theorem hold_iff_fit {slots : List TextSlot} (hsound : ∀ slot ∈ slots, slot.Sound)
    (hdrop : payload.drop p = slots.flatMap fun slot => stringBytes slot.chars)
    (hp : p ≤ payload.length) :
    CursorInside room payload (slots.map fun slot => .text slot.size) p ∧ Hold payload slots p ↔
      Fit slots := by
  induction slots generalizing p with
  | nil => exact iff_of_true ⟨hp, trivial⟩ trivial
  | cons slot slots ih =>
      obtain ⟨hslot, hslots⟩ := List.forall_mem_cons.mp hsound
      rw [List.flatMap_cons] at hdrop
      rw [List.map_cons, CursorInside, Field.Admitted, true_and, Hold, Fit]
      by_cases hshort : slot.chars.length + 2 ≤ slot.size
      · rw [stringBytes_eq] at hdrop
        obtain ⟨hnext, hle⟩ := cursorEnd_of_drop (hslot.fits hshort) hdrop hp
        rw [and_iff_right (textAt_holds hdrop (hslot.fits hshort) slot.old), ih hslots hnext hle]
        exact (and_iff_right (.inl hshort)).symm
      · -- the rest of the string is what the strings behind are read from
        obtain ⟨hstored, _, hnext⟩ := full_step hdrop hslot (by omega)
        rw [hstored, Slots.holds_put_iff rfl (by have := hslot.room; omega), or_iff_right hshort]
        have hzeros := hold_zeros_iff room hslots hnext
        constructor
        · rintro ⟨hinside, ⟨_, hnul⟩, hhold⟩
          have hempty := hzeros.mp ⟨hinside, hhold⟩
          exact ⟨⟨hnul, hempty⟩, fit_of_empty hslots hempty⟩
        · rintro ⟨⟨hnul, hempty⟩, _⟩
          obtain ⟨hinside, hhold⟩ := hzeros.mpr hempty
          exact ⟨hinside, ⟨rfl, hnul⟩, hhold⟩

/-- A string is not read beyond its end. -/
theorem cursorEnd_le (hdrop : payload.drop p = stringBytes slot.chars ++ rest)
    (hsound : slot.Sound) (n : Nat) : (Field.text n).cursorEnd payload p ≤ payload.length := by
  have hroom := hsound.room
  have hle := hsound.le
  have hunits : (stringUnits slot.chars).length ≤ 255 := by
    by_cases hempty : slot.chars = []
    · simp [hempty, stringUnits]
    · rw [stringUnits_length hempty]
      omega
  rw [stringBytes_eq] at hdrop
  have hlength := congrArg List.length hdrop
  rw [List.length_drop, List.length_append, wireString_length] at hlength
  rw [wireString, List.append_assoc] at hdrop
  rw [Field.cursorEnd, stringTaken, field_of_drop hdrop (by omega)]
  omega

/-- Behind the two zeros that a full string leaves over, the third string is the first one that
is read from anything else. -/
theorem inside_of_zeros {slots : List TextSlot} (hsound : ∀ slot ∈ slots, slot.Sound)
    (hdrop : payload.drop p = 0 :: 0 :: slots.flatMap fun slot => stringBytes slot.chars)
    (hfew : slots.length ≤ 3) :
    CursorInside room payload (slots.map fun slot => .text slot.size) p := by
  cases slots with
  | nil =>
      have hlength := congrArg List.length hdrop
      simp only [List.length_drop, List.length_cons] at hlength
      exact (by omega : p ≤ payload.length)
  | cons a slots =>
      obtain ⟨ha, hslots⟩ := List.forall_mem_cons.mp hsound
      obtain ⟨_, hle, hnext⟩ := zero_step a hdrop ha.two_le
      refine ⟨trivial, ?_⟩
      cases slots with
      | nil => exact hle
      | cons b slots =>
          obtain ⟨hb, hslots⟩ := List.forall_mem_cons.mp hslots
          obtain ⟨_, hle, hnext⟩ := zero_step b hnext hb.two_le
          refine ⟨trivial, ?_⟩
          cases slots with
          | nil => exact hle
          | cons c slots =>
              have hnone : slots = [] := by
                apply List.eq_nil_of_length_eq_zero
                simp only [List.length_cons] at hfew
                omega
              subst hnone
              rw [List.flatMap_cons] at hnext
              exact ⟨trivial, cursorEnd_le hnext ha c.size⟩

/-- The cursor goes over four strings and stays inside. -/
theorem cursorInside {slots : List TextSlot} (hsound : ∀ slot ∈ slots, slot.Sound)
    (hdrop : payload.drop p = slots.flatMap fun slot => stringBytes slot.chars)
    (hp : p ≤ payload.length) (hfew : slots.length ≤ 4) :
    CursorInside room payload (slots.map fun slot => .text slot.size) p := by
  induction slots generalizing p with
  | nil => exact hp
  | cons slot slots ih =>
      obtain ⟨hslot, hslots⟩ := List.forall_mem_cons.mp hsound
      rw [List.length_cons] at hfew
      rw [List.flatMap_cons] at hdrop
      refine ⟨trivial, ?_⟩
      by_cases hshort : slot.chars.length + 2 ≤ slot.size
      · rw [stringBytes_eq] at hdrop
        obtain ⟨hnext, hle⟩ := cursorEnd_of_drop (hslot.fits hshort) hdrop hp
        exact ih hslots hnext hle (by omega)
      · obtain ⟨_, _, hnext⟩ := full_step hdrop hslot (by omega)
        exact inside_of_zeros room hslots hnext (by omega)

end TextSlot

/-! ## What is packed -/

/-- `strlen` finds the string that an array holds. -/
theorem cString_eq_iff {n : Nat} {array : Vector UInt8 n} {string : List UInt8} :
    cString array = .ok string ↔ Slots.Holds array string ∧ 0 ∉ string := by
  have hfront : ∀ rest : List UInt8, 0 ∉ string →
      (string ++ 0 :: rest).takeWhile (· ≠ 0) = string := by
    intro rest hzero
    rw [List.takeWhile_append_of_pos fun char hchar => by
      simpa using fun hnul : char = 0 => hzero (hnul ▸ hchar)]
    simp
  constructor
  · intro hstring
    rw [cString] at hstring
    split at hstring
    next hmem =>
      obtain ⟨front, rest, hsplit, hzero⟩ := List.eq_append_cons_of_mem hmem
      cases hstring
      have hwhile : (front ++ 0 :: rest).takeWhile (· ≠ 0) = front := by
        rw [List.takeWhile_append_of_pos fun char hchar => by
          simpa using fun hnul : char = 0 => hzero (hnul ▸ hchar)]
        simp
      rw [hsplit, hwhile]
      exact ⟨⟨rest, by rw [hsplit, List.append_assoc]; rfl⟩, hzero⟩
    next => cases hstring
  · rintro ⟨⟨rest, hrest⟩, hzero⟩
    rw [List.append_assoc, List.singleton_append] at hrest
    rw [cString, ← hrest, if_pos (by simp), hfront rest hzero]

/-- The first bytes of a buffer, and how many they are. -/
structure Packed (size : Nat) (packed : Nat × Buffer) (bytes : List UInt8) : Prop where
  count : packed.1 = bytes.length
  size_eq : packed.2.size = size
  slice : packed.2.slice 0 bytes.length = bytes

/-- A string is packed behind the bytes. -/
theorem packString_packed {n size : Nat} {array : Vector UInt8 n} {string bytes : List UInt8}
    {packed : Nat × Buffer} (hpacked : Packed size packed bytes)
    (hstring : cString array = .ok string)
    (hroom : bytes.length + (stringBytes string).length ≤ size) :
    ∃ packed', packString packed array = .ok packed' ∧
      Packed size packed' (bytes ++ stringBytes string) := by
  have hstore : storeBytes packed.2 packed.1 (stringBytes string) =
      .ok (packed.2.store packed.1 (stringBytes string)) := by
    apply storeBytes_of_room
    rw [hpacked.count, hpacked.size_eq]
    exact hroom
  refine ⟨(packed.1 + (stringBytes string).length, packed.2.store packed.1 (stringBytes string)),
    ?_, ?_, hpacked.size_eq, ?_⟩
  · rw [packString, hstring]
    change (ptpWriteString packed.2 packed.1 string >>= _) = _
    rw [ptpWriteString, hstore]
    rfl
  · rw [hpacked.count, List.length_append]
  · have hextend := packed.2.store_slice_extend 0 bytes.length (stringBytes string)
    rw [hpacked.slice, Nat.zero_add, ← hpacked.count] at hextend
    rw [List.length_append, ← hpacked.count]
    exact hextend

/-- The numbers of an object info, in the order of the dataset. -/
def objectNumbers (oi : PtpObjectInfo) : List Item :=
  [.number 4 oi.storageId.toNat, .number 2 oi.objFormat.toNat, .number 2 oi.protection.toNat,
    .number 4 oi.compressedSize.toNat, .number 2 oi.thumbFormat.toNat,
    .number 4 oi.thumbCompressedSize.toNat, .number 4 oi.thumbWidth.toNat,
    .number 4 oi.thumbHeight.toNat, .number 4 oi.imgWidth.toNat, .number 4 oi.imgHeight.toNat,
    .number 4 oi.imgBitDepth.toNat, .number 4 oi.parentObj.toNat, .number 2 oi.assocType.toNat,
    .number 4 oi.assocDesc.toNat, .number 4 oi.sequenceNum.toNat]

/-- The strings of an object info. -/
structure ObjectStrings where
  filename : List UInt8
  dateCreated : List UInt8
  dateModified : List UInt8
  keywords : List UInt8

/-- The arrays end in a zero each, and the strings in front of it are printable. -/
structure ObjectStrings.Of (s : ObjectStrings) (oi : PtpObjectInfo) : Prop where
  filename : cString oi.filename = .ok s.filename
  dateCreated : cString oi.dateCreated = .ok s.dateCreated
  dateModified : cString oi.dateModified = .ok s.dateModified
  keywords : cString oi.keywords = .ok s.keywords
  ascii : ∀ string ∈ [s.filename, s.dateCreated, s.dateModified, s.keywords],
    ∀ char ∈ string, 32 ≤ char ∧ char ≤ 126

/-- The arrays that the strings are read to. -/
def objectSlots (old : PtpObjectInfo) (s : ObjectStrings) : List TextSlot :=
  [⟨64, old.filename, s.filename⟩, ⟨32, old.dateCreated, s.dateCreated⟩,
    ⟨32, old.dateModified, s.dateModified⟩, ⟨64, old.keywords, s.keywords⟩]

/-- The dataset that is packed. -/
def objectBytes (oi : PtpObjectInfo) (s : ObjectStrings) : List UInt8 :=
  (objectNumbers oi).flatMap Item.bytes ++
    (objectSlots oi s).flatMap fun slot => stringBytes slot.chars

section Pack

variable {oi old : PtpObjectInfo} {s : ObjectStrings} (hs : s.Of oi)

include hs

theorem objectSlots_sound (old : PtpObjectInfo) : ∀ slot ∈ objectSlots old s, slot.Sound := by
  obtain ⟨hfilename, hcreated, hmodified, hkeywords, hascii⟩ := hs
  have hlength : ∀ {n : Nat} {array : Vector UInt8 n} {string : List UInt8},
      cString array = .ok string → string.length + 1 ≤ n := by
    intro n array string hstring
    have hle := (cString_eq_iff.mp hstring).1.length_le
    rwa [List.length_append, Vector.length_toList] at hle
  simp only [List.forall_mem_cons] at hascii
  obtain ⟨hascii1, hascii2, hascii3, hascii4, _⟩ := hascii
  have hsizes : (2 ≤ 64 ∧ 64 ≤ 255) ∧ 2 ≤ 32 ∧ 32 ≤ 255 := by decide
  simp only [objectSlots, List.forall_mem_cons]
  exact ⟨⟨hascii1, hlength hfilename, hsizes.1.1, hsizes.1.2⟩,
    ⟨hascii2, hlength hcreated, hsizes.2.1, hsizes.2.2⟩,
    ⟨hascii3, hlength hmodified, hsizes.2.1, hsizes.2.2⟩,
    ⟨hascii4, hlength hkeywords, hsizes.1.1, hsizes.1.2⟩, by simp⟩

omit hs in
theorem objectNumbers_length : ((objectNumbers oi).flatMap Item.bytes).length = 52 := by
  simp [objectNumbers, Item.bytes]

theorem stringBytes_le {slot : TextSlot} (hslot : slot ∈ objectSlots old s) :
    (stringBytes slot.chars).length ≤ 2 * slot.size + 1 := by
  have hroom := (objectSlots_sound hs old slot hslot).room
  by_cases hempty : slot.chars = []
  · rw [hempty]
    exact Nat.le_add_left _ _
  · rw [stringBytes_length hempty]
    omega

theorem objectBytes_length : (objectBytes oi s).length < 1024 := by
  have hle : ∀ slot ∈ objectSlots oi s, (stringBytes slot.chars).length ≤ 2 * slot.size + 1 :=
    fun _ => stringBytes_le hs
  simp only [objectSlots, List.forall_mem_cons] at hle
  obtain ⟨h1, h2, h3, h4, _⟩ := hle
  rw [objectBytes, List.length_append, objectNumbers_length]
  simp only [objectSlots, List.flatMap_cons, List.flatMap_nil, List.length_append,
    List.length_nil]
  omega

/-- The dataset is packed to the beginning of the buffer. -/
theorem ptpPackObjectInfo_eq {buf : Buffer} {max : Int} (hmax : 1024 ≤ max)
    (hbuf : 1024 ≤ buf.size) : ∃ buf', ptpPackObjectInfo oi buf max =
      .ok ((objectBytes oi s).length, buf') ∧
        buf'.slice 0 (objectBytes oi s).length = objectBytes oi s := by
  have htotal := objectBytes_length hs
  obtain ⟨numbers, hnumbers⟩ : ∃ numbers, (objectNumbers oi).flatMap Item.bytes = numbers := ⟨_, rfl⟩
  have hlength : numbers.length = 52 := by rw [← hnumbers, objectNumbers_length]
  have hbytes : objectBytes oi s = numbers ++ stringBytes s.filename ++
      stringBytes s.dateCreated ++ stringBytes s.dateModified ++ stringBytes s.keywords := by
    rw [objectBytes, hnumbers]
    simp [objectSlots]
  rw [hbytes] at htotal ⊢
  simp only [List.length_append] at htotal
  have hstart : Packed buf.size (52, buf.store 0 numbers) numbers :=
    ⟨hlength.symm, rfl, buf.store_slice_self 0 numbers⟩
  obtain ⟨first, hrun1, hfirst⟩ := packString_packed hstart hs.filename (by omega)
  obtain ⟨second, hrun2, hsecond⟩ := packString_packed hfirst hs.dateCreated
    (by simp only [List.length_append]; omega)
  obtain ⟨third, hrun3, hthird⟩ := packString_packed hsecond hs.dateModified
    (by simp only [List.length_append]; omega)
  obtain ⟨fourth, hrun4, hfourth⟩ := packString_packed hthird hs.keywords
    (by simp only [List.length_append]; omega)
  refine ⟨fourth.2, ?_, hfourth.slice⟩
  have hstore : storeBytes buf 0 numbers = .ok (buf.store 0 numbers) :=
    storeBytes_of_room (by omega)
  rw [ptpPackObjectInfo, if_neg (by omega)]
  have hsame : leBytes 4 oi.storageId.toNat ++ leBytes 2 oi.objFormat.toNat ++
      leBytes 2 oi.protection.toNat ++ leBytes 4 oi.compressedSize.toNat ++
      leBytes 2 oi.thumbFormat.toNat ++ leBytes 4 oi.thumbCompressedSize.toNat ++
      leBytes 4 oi.thumbWidth.toNat ++ leBytes 4 oi.thumbHeight.toNat ++
      leBytes 4 oi.imgWidth.toNat ++ leBytes 4 oi.imgHeight.toNat ++
      leBytes 4 oi.imgBitDepth.toNat ++ leBytes 4 oi.parentObj.toNat ++
      leBytes 2 oi.assocType.toNat ++ leBytes 4 oi.assocDesc.toNat ++
      leBytes 4 oi.sequenceNum.toNat = numbers := by
    rw [← hnumbers]
    simp [objectNumbers, Item.bytes]
  dsimp only
  rw [hsame, hstore]
  change (packString (52, buf.store 0 numbers) oi.filename >>= _) = _
  rw [hrun1]
  change (packString first oi.dateCreated >>= _) = _
  rw [hrun2]
  change (packString second oi.dateModified >>= _) = _
  rw [hrun3]
  change packString third oi.keywords = _
  rw [hrun4, ← hfourth.count]

end Pack

/-! ## What is parsed -/

/-- The two structures agree in every number, and their arrays hold the same strings. -/
structure SameObject (oi oi' : PtpObjectInfo) : Prop where
  storageId : oi'.storageId = oi.storageId
  objFormat : oi'.objFormat = oi.objFormat
  protection : oi'.protection = oi.protection
  compressedSize : oi'.compressedSize = oi.compressedSize
  thumbFormat : oi'.thumbFormat = oi.thumbFormat
  thumbCompressedSize : oi'.thumbCompressedSize = oi.thumbCompressedSize
  thumbWidth : oi'.thumbWidth = oi.thumbWidth
  thumbHeight : oi'.thumbHeight = oi.thumbHeight
  imgWidth : oi'.imgWidth = oi.imgWidth
  imgHeight : oi'.imgHeight = oi.imgHeight
  imgBitDepth : oi'.imgBitDepth = oi.imgBitDepth
  parentObj : oi'.parentObj = oi.parentObj
  assocType : oi'.assocType = oi.assocType
  assocDesc : oi'.assocDesc = oi.assocDesc
  sequenceNum : oi'.sequenceNum = oi.sequenceNum
  filename : cString oi'.filename = cString oi.filename
  dateCreated : cString oi'.dateCreated = cString oi.dateCreated
  dateModified : cString oi'.dateModified = cString oi.dateModified
  keywords : cString oi'.keywords = cString oi.keywords

/-- The object info is packed in less than 1024 bytes, and parsed from these to `old`, wherever
they are the payload, it is the same again. -/
def Survives (oi old : PtpObjectInfo) (buf : Buffer) (max : Int) : Prop :=
  ∃ (n : Nat) (buf' : Buffer), ptpPackObjectInfo oi buf max = .ok (n, buf') ∧ n < 1024 ∧
    ∀ (r : PtpRuntime) (start length : Int), r.HasPayload start length (buf'.slice 0 n) →
      ∃ oi', (ptpParseObjectInfo r old).run r.load = .ok (0, oi') ∧ SameObject oi oi'

section Parse

variable {oi old : PtpObjectInfo} {s : ObjectStrings}

theorem objectNumbers_fits :
    List.Forall₂ Item.Fits (objectNumbers oi) (objectInfoFields.take 15) :=
  .cons ⟨rfl, oi.storageId.toNat_lt⟩ (.cons ⟨rfl, oi.objFormat.toNat_lt⟩
    (.cons ⟨rfl, oi.protection.toNat_lt⟩ (.cons ⟨rfl, oi.compressedSize.toNat_lt⟩
    (.cons ⟨rfl, oi.thumbFormat.toNat_lt⟩ (.cons ⟨rfl, oi.thumbCompressedSize.toNat_lt⟩
    (.cons ⟨rfl, oi.thumbWidth.toNat_lt⟩ (.cons ⟨rfl, oi.thumbHeight.toNat_lt⟩
    (.cons ⟨rfl, oi.imgWidth.toNat_lt⟩ (.cons ⟨rfl, oi.imgHeight.toNat_lt⟩
    (.cons ⟨rfl, oi.imgBitDepth.toNat_lt⟩ (.cons ⟨rfl, oi.parentObj.toNat_lt⟩
    (.cons ⟨rfl, oi.assocType.toNat_lt⟩ (.cons ⟨rfl, oi.assocDesc.toNat_lt⟩
    (.cons ⟨rfl, oi.sequenceNum.toNat_lt⟩ .nil))))))))))))))

theorem object_number_at (index : Nat) {size value : Nat}
    (hitem : (objectNumbers oi)[index]? = some (.number size value))
    (hfield : (objectInfoFields.take 15)[index]? = some (.number size)) :
    field size (cursorAt (objectBytes oi s) (objectInfoFields.take 15) index) (objectBytes oi s) =
      value := by
  obtain ⟨hfits, rest, hdrop⟩ := item_at objectNumbers_fits rfl index hitem hfield
  exact field_of_drop hdrop hfits.2

/-- Behind the numbers there are the strings. -/
theorem object_strings_at (oi old : PtpObjectInfo) (s : ObjectStrings) :
    (objectBytes oi s).drop (cursorAt (objectBytes oi s) objectInfoFields 15) =
    (objectSlots old s).flatMap fun slot => stringBytes slot.chars :=
  drop_cursor objectNumbers_fits (rfl : (objectBytes oi s).drop 0 = _ ++ _) (Nat.zero_le _) 15

theorem object_strings_le (oi : PtpObjectInfo) (s : ObjectStrings) :
    cursorAt (objectBytes oi s) objectInfoFields 15 ≤ (objectBytes oi s).length := by
  have hcursor : cursorAt (objectBytes oi s) objectInfoFields 15 = 52 := by
    simp [cursorAt, objectInfoFields, Field.cursorEnd]
  rw [hcursor, objectBytes, List.length_append, objectNumbers_length]
  exact Nat.le_add_right _ _

/-- The numbers always agree, and the strings where the arrays hold them. -/
theorem sameObject_of_strings
    (hfilename : cString (objectInfoAt old (objectBytes oi s)).filename = cString oi.filename)
    (hcreated : cString (objectInfoAt old (objectBytes oi s)).dateCreated = cString oi.dateCreated)
    (hmodified : cString (objectInfoAt old (objectBytes oi s)).dateModified =
      cString oi.dateModified)
    (hkeywords : cString (objectInfoAt old (objectBytes oi s)).keywords = cString oi.keywords) :
    SameObject oi (objectInfoAt old (objectBytes oi s)) where
  storageId := (congrArg UInt32.ofNat (object_number_at 0 rfl rfl)).trans UInt32.ofNat_toNat
  objFormat := (congrArg UInt16.ofNat (object_number_at 1 rfl rfl)).trans UInt16.ofNat_toNat
  protection := (congrArg UInt16.ofNat (object_number_at 2 rfl rfl)).trans UInt16.ofNat_toNat
  compressedSize := (congrArg UInt32.ofNat (object_number_at 3 rfl rfl)).trans UInt32.ofNat_toNat
  thumbFormat := (congrArg UInt16.ofNat (object_number_at 4 rfl rfl)).trans UInt16.ofNat_toNat
  thumbCompressedSize := (congrArg UInt32.ofNat (object_number_at 5 rfl rfl)).trans UInt32.ofNat_toNat
  thumbWidth := (congrArg UInt32.ofNat (object_number_at 6 rfl rfl)).trans UInt32.ofNat_toNat
  thumbHeight := (congrArg UInt32.ofNat (object_number_at 7 rfl rfl)).trans UInt32.ofNat_toNat
  imgWidth := (congrArg UInt32.ofNat (object_number_at 8 rfl rfl)).trans UInt32.ofNat_toNat
  imgHeight := (congrArg UInt32.ofNat (object_number_at 9 rfl rfl)).trans UInt32.ofNat_toNat
  imgBitDepth := (congrArg UInt32.ofNat (object_number_at 10 rfl rfl)).trans UInt32.ofNat_toNat
  parentObj := (congrArg UInt32.ofNat (object_number_at 11 rfl rfl)).trans UInt32.ofNat_toNat
  assocType := (congrArg UInt16.ofNat (object_number_at 12 rfl rfl)).trans UInt16.ofNat_toNat
  assocDesc := (congrArg UInt32.ofNat (object_number_at 13 rfl rfl)).trans UInt32.ofNat_toNat
  sequenceNum := (congrArg UInt32.ofNat (object_number_at 14 rfl rfl)).trans UInt32.ofNat_toNat
  filename := hfilename
  dateCreated := hcreated
  dateModified := hmodified
  keywords := hkeywords

/-- The string is found again exactly if the array holds it. -/
theorem cString_eq_of_slot {n m : Nat} (array : Vector UInt8 n) {other : Vector UInt8 m}
    {string : List UInt8} (hascii : ∀ char ∈ string, 32 ≤ char ∧ char ≤ 126)
    (hstring : cString other = .ok string) :
    cString array = cString other ↔ Slots.Holds array string := by
  rw [hstring, cString_eq_iff]
  exact and_iff_left (zero_not_mem_of_ascii hascii)

section Strings

variable (hs : s.Of oi)

include hs

theorem sameObject_iff_fit : SameObject oi (objectInfoAt old (objectBytes oi s)) ↔
    TextSlot.Fit (objectSlots old s) := by
  have hsound := objectSlots_sound hs old
  have hstrings := object_strings_at oi old s
  have hinside := TextSlot.cursorInside 0 hsound hstrings (object_strings_le oi s) le_rfl
  rw [← TextSlot.hold_iff_fit 0 hsound hstrings (object_strings_le oi s),
    and_iff_right hinside]
  have hascii := hs.ascii
  simp only [List.forall_mem_cons] at hascii
  obtain ⟨hascii1, hascii2, hascii3, hascii4, _⟩ := hascii
  have hfilename := cString_eq_of_slot (objectInfoAt old (objectBytes oi s)).filename
    hascii1 hs.filename
  have hcreated := cString_eq_of_slot (objectInfoAt old (objectBytes oi s)).dateCreated
    hascii2 hs.dateCreated
  have hmodified := cString_eq_of_slot (objectInfoAt old (objectBytes oi s)).dateModified
    hascii3 hs.dateModified
  have hkeywords := cString_eq_of_slot (objectInfoAt old (objectBytes oi s)).keywords
    hascii4 hs.keywords
  constructor
  · intro hsame
    exact ⟨hfilename.mp hsame.filename, hcreated.mp hsame.dateCreated,
      hmodified.mp hsame.dateModified, hkeywords.mp hsame.keywords, trivial⟩
  · rintro ⟨hhold1, hhold2, hhold3, hhold4, _⟩
    exact sameObject_of_strings (hfilename.mpr hhold1) (hcreated.mpr hhold2)
      (hmodified.mpr hhold3) (hkeywords.mpr hhold4)

/-- The parser returns, on every packed dataset. -/
theorem ptpParseObjectInfo_run {r : PtpRuntime} {start length : Int}
    (hpayload : r.HasPayload start length (objectBytes oi s)) :
    (ptpParseObjectInfo r old).run r.load = .ok (0, objectInfoAt old (objectBytes oi s)) := by
  have hstrings := TextSlot.cursorInside r.dataLength (objectSlots_sound hs old)
    (object_strings_at oi old s) (object_strings_le oi s) le_rfl
  have hinside : CursorInside r.dataLength (objectBytes oi s) objectInfoFields 0 :=
    ⟨trivial, trivial, trivial, trivial, trivial, trivial, trivial, trivial, trivial, trivial,
      trivial, trivial, trivial, trivial, trivial, hstrings⟩
  have hreturns := (ptpParseObjectInfo_returns hpayload old
    (· = (0, objectInfoAt old (objectBytes oi s)))).mpr ⟨hinside, rfl⟩
  obtain ⟨result, hrun, _, rfl⟩ := (Reader.returns_iff hpayload.shows).mp hreturns
  exact hrun

theorem survives_iff_same {buf : Buffer} {max : Int} (hmax : 1024 ≤ max) (hbuf : 1024 ≤ buf.size) :
    Survives oi old buf max ↔ SameObject oi (objectInfoAt old (objectBytes oi s)) := by
  obtain ⟨buf', hpack, hslice⟩ := ptpPackObjectInfo_eq hs hmax hbuf
  have hlength := objectBytes_length hs
  constructor
  · rintro ⟨n, other, hother, _, hparse⟩
    rw [hpack] at hother
    cases hother
    rw [hslice] at hparse
    have hpayload := received_hasPayload (objectBytes oi s) (by omega)
    obtain ⟨oi', hrun, hsame⟩ := hparse _ _ _ hpayload
    rw [ptpParseObjectInfo_run hs hpayload] at hrun
    cases hrun
    exact hsame
  · intro hsame
    refine ⟨_, buf', hpack, hlength, ?_⟩
    intro r start length hpayload
    rw [hslice] at hpayload
    exact ⟨_, ptpParseObjectInfo_run hs hpayload, hsame⟩

/-- An object info survives exactly if its strings fit. -/
theorem object_info_survives_iff {buf : Buffer} {max : Int} (hmax : 1024 ≤ max)
    (hbuf : max ≤ buf.size) :
    Survives oi old buf max ↔ TextSlot.Fit (objectSlots old s) :=
  (survives_iff_same hs hmax (by omega)).trans (sameObject_iff_fit hs)

end Strings

end Parse

/-- A structure whose arrays are filled. -/
def filledObject (filename : Vector UInt8 64) (date : Vector UInt8 32) : PtpObjectInfo :=
  ⟨1, 0x3801, 0, 4096, 0, 0, 0, 0, 640, 480, 24, 0, 0, 0, 0, filename, date, .replicate _ 0,
    .replicate _ 0⟩

theorem object_info_survives_short :
    Survives (filledObject (Slots.put (.replicate _ 0) 0 [0x41, 0x42]) (.replicate _ 0))
      (filledObject (.replicate _ 1) (.replicate _ 1)) ⟨1024, fun _ => 0⟩ 1024 :=
  (object_info_survives_iff (s := ⟨[0x41, 0x42], [], [], []⟩)
    ⟨by decide +kernel, by decide +kernel, by decide +kernel, by decide +kernel, by decide +kernel⟩
    (by decide) (by decide)).mpr
    ⟨.inl (by decide), .inl (by decide), .inl (by decide), .inl (by decide), trivial⟩

/-- A name of 63 characters, and a date behind it. -/
theorem object_info_survives_full : ¬∀ (oi old : PtpObjectInfo) (s : ObjectStrings) (buf : Buffer)
    (max : Int), s.Of oi → 1024 ≤ max → max ≤ buf.size → Survives oi old buf max := by
  intro hall
  have hs : ObjectStrings.Of ⟨.replicate 63 0x41, [0x32], [], []⟩
      (filledObject (Slots.put (.replicate _ 0) 0 (.replicate 63 0x41))
        (Slots.put (.replicate _ 0) 0 [0x32])) :=
    ⟨by decide +kernel, by decide +kernel, by decide +kernel, by decide +kernel, by decide +kernel⟩
  have hsurvives := hall _ (filledObject (.replicate _ 0) (.replicate _ 0)) _ ⟨1024, fun _ => 0⟩
    1024 hs (by decide) (by decide)
  rw [survives_iff_same hs (by decide) (by decide), sameObject_iff_fit hs] at hsurvives
  rcases hsurvives.1 with hroom | ⟨_, hempty⟩
  · exact absurd hroom (by decide)
  · exact absurd (hempty _ (List.mem_cons_self ..)) (by decide)

end Libpict
