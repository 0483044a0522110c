import Mathlib.Data.List.TakeWhile
import Libpict.StringLaws

/-! # Strings off the wire

What the three string readers make of everything that a device may send as a string.
-/

namespace Libpict

open Bytes CInt

/-! ## Counted strings -/

/-- A count and as many units, as they travel. -/
def wireString (units : List UInt16) : List UInt8 :=
  leBytes 1 units.length ++ units.flatMap fun unit => leBytes 2 unit.toNat

/-- A character as it should be shown: `?` for one that is not ASCII, a blank for a control. -/
def shownChar (unit : UInt16) : UInt8 :=
  if 128 ≤ unit.toNat then 63
  else if unit.toNat < 32 ∨ unit.toNat = 127 then 32
  else UInt8.ofNat unit.toNat

/-- The text of a string in an array of `max` characters. -/
def shownString (max : Nat) (units : List UInt16) : List UInt8 :=
  ((units.takeWhile (· ≠ 0)).take (max - 1)).map shownChar

theorem wireString_length (units : List UInt16) :
    (wireString units).length = 1 + 2 * units.length := by
  rw [wireString, List.length_append, leBytes_length]
  congr 1
  induction units with
  | nil => rfl
  | cons unit units ih =>
      rw [List.flatMap_cons, List.length_append, leBytes_length, ih, List.length_cons]
      ring

/-- The units of a string behind some bytes. -/
theorem unitsAt_flatMap {front rest : List UInt8} {units : List UInt16} {offset count : Nat}
    (hoffset : front.length = offset) (hcount : count ≤ units.length) :
    unitsAt (front ++ ((units.flatMap fun unit => leBytes 2 unit.toNat) ++ rest)) offset count =
      (units.take count).map UInt16.toNat := by
  induction units generalizing front offset count with
  | nil =>
      obtain rfl : count = 0 := Nat.le_zero.mp hcount
      rfl
  | cons unit units ih =>
      cases count with
      | zero => rfl
      | succ count =>
          have hunit : unit.toNat < 256 ^ 2 := unit.toNat_lt
          have hfront : (front ++ leBytes 2 unit.toNat).length = offset + 2 := by simp [hoffset]
          have hbehind := ih hfront (Nat.le_of_succ_le_succ hcount)
          rw [List.append_assoc] at hbehind
          rw [unitsAt_succ, List.flatMap_cons, List.append_assoc,
            field_leBytes_behind hoffset hunit, hbehind]
          rfl

theorem wireString_units {units : List UInt16} {count : Nat} (hcount : count ≤ units.length) :
    unitsAt (wireString units) 1 count = (units.take count).map UInt16.toNat := by
  have hunits : unitsAt (leBytes 1 units.length ++ ((units.flatMap fun unit =>
      leBytes 2 unit.toNat) ++ [])) 1 count = _ := unitsAt_flatMap (leBytes_length _ _) hcount
  rwa [List.append_nil] at hunits

theorem wireString_count {units : List UInt16} (hlength : units.length ≤ 255) :
    field 1 0 (wireString units) = units.length :=
  field_leBytes (by omega) _

section Counted

variable {n max : Nat} {memory : Reader.Memory UInt8 Halt} {d : Int} {units : List UInt16}

/-- What `ptp_read_string` returns and stores for a string in memory. -/
theorem ptpReadString_run (hmax : 2 ≤ max) (hroom : max ≤ n) (string : Vector UInt8 n)
    (hlength : units.length ≤ 255) (hshows : Reader.Shows memory d (wireString units)) :
    (ptpReadString d string max).run memory =
      .ok (((1 + 2 * min units.length (max - 1) : Nat) : Int),
        Slots.put string 0 (storedString ((units.take (max - 1)).map UInt16.toNat))) := by
  have htaken : stringTaken max (wireString units) 0 = min units.length (max - 1) := by
    rw [stringTaken, wireString_count hlength]
  have hunits : unitsAt (wireString units) (0 + 1) (min units.length (max - 1)) =
      (units.take (max - 1)).map UInt16.toNat := by
    rw [Nat.zero_add, wireString_units (Nat.min_le_left _ _), Nat.min_comm, ← List.take_eq_take_min]
  have hat : d = d + ((0 : Nat) : Int) := by simp
  have hview := @ptpReadString_view n d (wireString units) max 0 d hat string hmax hroom
  dsimp only at hview
  rw [htaken, hunits, if_pos (by rw [wireString_length]; omega)] at hview
  exact Reader.run_of_view hshows hview

theorem printableChar_eq_zero {unit : Nat} : printableChar unit = 0 ↔ unit = 0 := by
  unfold printableChar
  split
  · omega
  · split <;> omega

/-- Two characters are stored otherwise than they should be shown. -/
theorem stored_eq_shown_iff {unit : UInt16} (hunit : unit ≠ 0) :
    shownChar unit = UInt8.ofNat (printableChar unit.toNat) ↔ unit ≠ 127 ∧ unit ≠ 128 := by
  have hne : unit.toNat ≠ 0 := fun h => hunit (UInt16.toNat_inj.mp h)
  have h127 : unit = 127 ↔ unit.toNat = 127 := UInt16.toNat_inj.symm
  have h128 : unit = 128 ↔ unit.toNat = 128 := UInt16.toNat_inj.symm
  rw [Ne, Ne, h127, h128, shownChar, printableChar]
  generalize unit.toNat = t at hne ⊢
  rcases (by omega : 128 < t ∨ t = 128 ∨ t = 127 ∨ t < 32 ∨ 32 ≤ t ∧ t < 127) with
    hwide | rfl | rfl | hcontrol | ⟨hlow, hhigh⟩
  · exact iff_of_true (by simp [hwide, hwide.le]) (by omega)
  · decide
  · decide
  · refine iff_of_true ?_ (by omega)
    simp [show ¬128 ≤ t by omega, show ¬128 < t by omega, hcontrol, hne]
  · refine iff_of_true ?_ (by omega)
    simp [show ¬128 ≤ t by omega, show ¬128 < t by omega, show ¬t < 32 by omega,
      show t ≠ 127 by omega]

/-- Behind the first zero nothing of a string matters. -/
theorem storedString_of_zero (front back : List UInt16) :
    ∃ rest, storedString ((front ++ 0 :: back).map UInt16.toNat) =
        storedChars (front.map UInt16.toNat) ++ 0 :: rest ∧ rest.length ≤ back.length + 1 := by
  have hchars : storedChars ((front ++ 0 :: back).map UInt16.toNat) =
      storedChars (front.map UInt16.toNat) ++ 0 :: storedChars (back.map UInt16.toNat) := by
    simp [storedChars, printableChar]
  rw [storedString]
  split
  · exact ⟨storedChars (back.map UInt16.toNat) ++ [0], by rw [hchars, List.append_assoc]; rfl, by simp⟩
  · exact ⟨_, hchars, by simp⟩

/-- A string without a zero is stored without one. -/
theorem storedString_of_not_mem (hne : units ≠ []) (hzero : 0 ∉ units) :
    storedString (units.map UInt16.toNat) = storedChars (units.map UInt16.toNat) := by
  have hlast : ((units.map UInt16.toNat).map printableChar).getLastD 0 ≠ 0 := by
    intro hlast
    rw [List.map_map, List.getLastD_eq_getLast?, List.getLast?_map,
      List.getLast?_eq_getLast_of_ne_nil hne, Option.map_some, Option.getD_some,
      Function.comp_apply, printableChar_eq_zero] at hlast
    have hunit : units.getLast hne = 0 := UInt16.toNat_inj.mp hlast
    exact hzero (hunit ▸ List.getLast_mem hne)
  rw [storedString, if_neg hlast]

theorem takeWhile_append_zero {front : List UInt16} (back : List UInt16) (hfront : 0 ∉ front) :
    (front ++ 0 :: back).takeWhile (· ≠ 0) = front := by
  rw [List.takeWhile_append_of_pos]
  · simp
  · intro unit hunit
    simpa using ne_of_mem_of_not_mem hunit hfront

/-- The characters of a string without zeros are stored as they should be shown exactly if
none of the two others is among them. -/
theorem shown_eq_stored_iff (hzero : 0 ∉ units) :
    units.map shownChar = storedChars (units.map UInt16.toNat) ↔
      ∀ unit ∈ units, unit ≠ 127 ∧ unit ≠ 128 := by
  rw [storedChars, List.map_map, List.map_inj_left]
  refine forall₂_congr fun unit hunit => ?_
  exact stored_eq_shown_iff (ne_of_mem_of_not_mem hunit hzero)

/-- When `ptp_read_string` reads a string to its end and stores the text of it. -/
theorem read_whole_iff (hmax : 2 ≤ max) (hroom : max ≤ n) (string : Vector UInt8 n)
    (hlength : units.length ≤ 255) (hshows : Reader.Shows memory d (wireString units)) :
    (∃ string', (ptpReadString d string max).run memory =
        .ok (1 + 2 * units.length, string') ∧ Slots.Holds string' (shownString max units)) ↔
      units = [] ∨ units.length < max ∧
        (∀ unit ∈ units.takeWhile (· ≠ 0), unit ≠ 127 ∧ unit ≠ 128) ∧
        (0 ∈ units ∨ string[units.length]? = some 0) := by
  rw [ptpReadString_run hmax hroom string hlength hshows]
  have hresult : ∀ text, (∃ string', (Except.ok (((1 + 2 * min units.length (max - 1) : Nat) :
        Int), Slots.put string 0 (storedString ((units.take (max - 1)).map UInt16.toNat))) :
          Except Halt _) =
        .ok (1 + 2 * (units.length : Int), string') ∧ Slots.Holds string' text) ↔
      units.length ≤ max - 1 ∧
        Slots.Holds (Slots.put string 0 (storedString (units.map UInt16.toNat))) text := by
    intro text
    constructor
    · rintro ⟨string', heq, hholds⟩
      obtain ⟨hcount, rfl⟩ := Prod.mk.inj (Except.ok.inj heq)
      have hle : units.length ≤ max - 1 := by omega
      rw [List.take_of_length_le hle] at hholds
      exact ⟨hle, hholds⟩
    · rintro ⟨hle, hholds⟩
      rw [List.take_of_length_le hle, Nat.min_eq_left hle]
      exact ⟨_, by push_cast; rfl, hholds⟩
  rw [hresult]
  by_cases hempty : units = []
  · subst hempty
    simp [shownString, storedString, storedChars, Slots.Holds, Slots.toList_put _ [(0 : UInt8)]
      (show 1 ≤ n by omega)]
  rw [or_iff_right hempty, Nat.lt_iff_le_pred (by omega)]
  refine and_congr_right fun hle => ?_
  have htext : shownString max units = (units.takeWhile (· ≠ 0)).map shownChar := by
    rw [shownString, List.take_of_length_le]
    exact (List.takeWhile_prefix _).length_le.trans hle
  rw [htext]
  by_cases hzero : 0 ∈ units
  · -- The text ends at the first zero, which is stored with it.
    obtain ⟨front, back, rfl, hfront⟩ := List.eq_append_cons_of_mem hzero
    obtain ⟨rest, hstored, hrest⟩ := storedString_of_zero front back
    have hroom' : (storedChars (front.map UInt16.toNat)).length + 1 + rest.length ≤ n := by
      simp only [List.length_append, List.length_cons, storedChars_length, List.length_map] at *
      omega
    rw [hstored, takeWhile_append_zero back hfront,
      Slots.holds_put_zero_iff rest (by simp) hroom', shown_eq_stored_iff hfront]
    simp
  · -- No zero is stored, so one must be behind the text already.
    have hall : units.takeWhile (· ≠ 0) = units := by
      rw [List.takeWhile_eq_self_iff]
      intro unit hunit
      simpa using ne_of_mem_of_not_mem hunit hzero
    rw [storedString_of_not_mem hempty hzero, hall,
      Slots.holds_put_iff (by simp) (by simp; omega), shown_eq_stored_iff hzero]
    simp [hzero]

/-- A string that fits. -/
theorem read_whole_short :
    ∃ string', (ptpReadString 0 (Vector.replicate 4 1) 4).run
        (Reader.only .undefined (wireString [0x48, 0x69, 0])) = .ok (1 + 2 * (3 : Nat), string') ∧
      Slots.Holds string' (shownString 4 [0x48, 0x69, 0]) := by
  refine (read_whole_iff (by decide) (by decide) (Vector.replicate 4 1) (by decide)
    (Reader.only_shows _ _)).mpr (.inr ⟨by decide, fun unit hunit => ?_, .inl (by decide)⟩)
  have hunit' : unit ∈ ([0x48, 0x69] : List UInt16) := hunit
  obtain rfl | rfl := List.mem_pair.mp hunit'
  · exact ⟨by decide, by decide⟩
  · exact ⟨by decide, by decide⟩

/-- With one slot less the reader stops in front of the zero: two bytes of the string are left
for the next field, and there is no zero in the array. -/
theorem read_whole_full :
    ¬∃ string', (ptpReadString 0 (Vector.replicate 3 1) 3).run
        (Reader.only .undefined (wireString [0x48, 0x69, 0])) = .ok (1 + 2 * (3 : Nat), string') ∧
      Slots.Holds string' (shownString 3 [0x48, 0x69, 0]) := by
  rintro ⟨string', hrun, _⟩
  have hread := ptpReadString_run (show 2 ≤ 3 by decide) (le_refl 3) (Vector.replicate 3 1)
    (by decide : ([0x48, 0x69, 0] : List UInt16).length ≤ 255) (Reader.only_shows .undefined _)
  have hcount := (Prod.mk.inj (Except.ok.inj (hread.symm.trans hrun))).1
  exact absurd hcount (by decide)

end Counted

/-! ## Strings up to a zero -/

section Terminated

variable {n max : Nat} {dat : Int} {bytes : List UInt8}

/-- A byte inside the memory is found. -/
theorem readByte_bind_view {β : Type} {position : Nat} {byte : UInt8}
    (hbyte : bytes[position]? = some byte) (f : Nat → Reader UInt8 Halt β) :
    (ptpReadU8 (dat + position) >>= f).view dat bytes = (f byte.toNat).view dat bytes := by
  obtain ⟨hlt, hget⟩ := List.getElem?_eq_some_iff.mp hbyte
  have hfield : field 1 position bytes = byte.toNat := by
    rw [field, List.drop_eq_getElem_cons hlt, hget]
    simp
  rw [readLe_bind_view rfl, if_pos (Nat.succ_le_of_lt hlt), hfield]

/-- The loop of `ptp_read_utf8_string` over some characters and up to a zero or to the limit. -/
theorem readUtf8_view {fuel x : Nat} {chars : List UInt8} (string : Vector UInt8 n)
    (hchars : ∀ index (hindex : index < chars.length), bytes[x + index]? = some chars[index])
    (hzero : 0 ∉ chars) (hfuel : chars.length < fuel) (hroom : max ≤ n) (hx : x < max)
    (hend : bytes[x + chars.length]? = some 0 ∧ x + chars.length < max ∨
      x + chars.length = max) :
    (readUtf8 dat max fuel x string).view dat bytes =
      some (.ok (x + chars.length, Slots.put string x chars)) := by
  induction chars generalizing fuel x string with
  | nil =>
      obtain ⟨fuel, rfl⟩ := Nat.exists_eq_succ_of_ne_zero (Nat.ne_of_gt hfuel)
      rw [List.length_nil, Nat.add_zero] at hend
      have hnul := (hend.resolve_right (Nat.ne_of_lt hx)).1
      rw [readUtf8, readByte_bind_view hnul]
      simp
  | cons char chars ih =>
      obtain ⟨fuel, rfl⟩ := Nat.exists_eq_succ_of_ne_zero (Nat.ne_of_gt (Nat.zero_lt_of_lt hfuel))
      rw [List.mem_cons, not_or] at hzero
      rw [List.length_cons] at hfuel hend ⊢
      have hchar : bytes[x]? = some char := hchars 0 (Nat.succ_pos _)
      have hne : char.toNat ≠ 0 := fun h => hzero.1 (UInt8.toNat_inj.mp h).symm
      rw [readUtf8, readByte_bind_view hchar, if_neg hne, UInt8.ofNat_toNat,
        Slots.put_cons _ (by omega)]
      simp only [storeAt_of_lt (show x < n by omega), Slots.put_cons _ (show x < n by omega),
        Slots.put_nil, Reader.done_bind]
      by_cases hlimit : (max : Int) - 1 < (x + 1 : Nat)
      · have hnil : chars = [] := List.eq_nil_of_length_eq_zero (by omega)
        rw [if_pos hlimit, hnil]
        simp
      · have hrest := @ih fuel (x + 1) (string.set x char)
          (fun index hindex => by
            have hnext := hchars (index + 1) (by simpa using hindex)
            rwa [show x + (index + 1) = x + 1 + index by ring, List.getElem_cons_succ] at hnext)
          hzero.2 (by omega) (by omega)
          (by rwa [show x + (chars.length + 1) = x + 1 + chars.length by ring] at hend)
        rw [if_neg hlimit, hrest]
        congr 3
        ring

/-- The loop of `ptp_read_unicode_string` over the first bytes of some units: at a zero it
returns the count, at the limit it returns an offset. -/
theorem readUnicode_view {fuel j : Nat} {chars : List UInt8} (buffer : Vector UInt8 n)
    (hchars : ∀ index (hindex : index < chars.length),
      bytes[2 * (j + index)]? = some chars[index])
    (hzero : 0 ∉ chars) (hfuel : chars.length < fuel) (hroom : j + chars.length < n)
    (hj : 2 * j < max) {result : Int}
    (hend : bytes[2 * (j + chars.length)]? = some 0 ∧ 2 * (j + chars.length) < max ∧
        result = (j + chars.length : Nat) ∨
      max ≤ 2 * (j + chars.length) ∧ 2 * (j + chars.length) < max + 2 ∧
        result = 2 * ((j + chars.length : Nat) : Int) - 2) :
    (readUnicode dat max fuel (2 * j) buffer).view dat bytes =
      some (.ok (result, Slots.put buffer j (chars ++ [0]))) := by
  induction chars generalizing fuel j buffer with
  | nil =>
      obtain ⟨fuel, rfl⟩ := Nat.exists_eq_succ_of_ne_zero (Nat.ne_of_gt hfuel)
      rw [List.length_nil, Nat.add_zero] at hend hroom
      have hnul := hend.resolve_right (by omega)
      have hhalf : 2 * j / 2 = j := by omega
      rw [readUnicode, readByte_bind_view hnul.1, hhalf, hnul.2.2]
      simp [storeAt_of_lt hroom]
  | cons char chars ih =>
      obtain ⟨fuel, rfl⟩ := Nat.exists_eq_succ_of_ne_zero (Nat.ne_of_gt (Nat.zero_lt_of_lt hfuel))
      rw [List.mem_cons, not_or] at hzero
      rw [List.length_cons] at hfuel hend hroom
      have hchar : bytes[2 * j]? = some char := hchars 0 (Nat.succ_pos _)
      have hne : char.toNat ≠ 0 := fun h => hzero.1 (UInt8.toNat_inj.mp h).symm
      have hhalf : 2 * j / 2 = j := by omega
      rw [readUnicode, readByte_bind_view hchar, if_neg hne, UInt8.ofNat_toNat, hhalf,
        List.cons_append, Slots.put_cons _ (by omega)]
      simp only [storeAt_of_lt (show j < n by omega), Slots.put_cons _ (show j < n by omega),
        Slots.put_nil, Reader.done_bind]
      by_cases hlimit : (max : Int) - 2 ≤ (2 * j : Nat)
      · have hnil : chars = [] := List.eq_nil_of_length_eq_zero (by omega)
        subst hnil
        have hresult : result = (2 * j : Nat) := by
          simp only [List.length_nil] at hend
          omega
        rw [if_pos hlimit, hresult]
        simp [storeAt_of_lt (show j + 1 < n by omega)]
      · rw [if_neg hlimit]
        exact @ih fuel (j + 1) (buffer.set j char)
          (fun index hindex => by
            have hnext := hchars (index + 1) (by simpa using hindex)
            rwa [show j + (index + 1) = j + 1 + index by ring, List.getElem_cons_succ] at hnext)
          hzero.2 (by omega) (by omega) (by omega)
          (by rwa [show j + (chars.length + 1) = j + 1 + chars.length by ring] at hend)

/-- The first bytes of the first units. -/
def lowBytes (bytes : List UInt8) (count : Nat) : List UInt8 :=
  (List.range count).map fun index => bytes.getD (2 * index) 0

@[simp] theorem lowBytes_length (bytes : List UInt8) (count : Nat) :
    (lowBytes bytes count).length = count := by simp [lowBytes]

theorem lowBytes_getElem {count index : Nat} (hcount : 2 * (count - 1) < bytes.length)
    (hindex : index < (lowBytes bytes count).length) :
    bytes[2 * (0 + index)]? = some (lowBytes bytes count)[index] := by
  have hlt : 2 * index < bytes.length := by
    rw [lowBytes_length] at hindex
    omega
  simp [lowBytes, hlt]

theorem zero_not_mem_lowBytes {count : Nat}
    (hnonzero : ∀ index, index < count → bytes[2 * index]? ≠ some 0)
    (hcount : 2 * (count - 1) < bytes.length) : 0 ∉ lowBytes bytes count := by
  intro hzero
  obtain ⟨index, hindex, hget⟩ := List.getElem_of_mem hzero
  have hbyte := lowBytes_getElem hcount hindex
  rw [hget, Nat.zero_add] at hbyte
  exact hnonzero index (by simpa using hindex) hbyte

variable {memory : Reader.Memory UInt8 Halt}

/-- `ptp_read_unicode_string` on what ends at a zero. -/
theorem ptpReadUnicodeString_zero {fuel count : Nat} (buffer : Vector UInt8 n)
    (hshows : Reader.Shows memory dat bytes) (hfuel : count < fuel) (hroom : count < n)
    (hzero : bytes[2 * count]? = some 0) (hlimit : 2 * count < max)
    (hnonzero : ∀ index, index < count → bytes[2 * index]? ≠ some 0) :
    (ptpReadUnicodeString fuel buffer dat max).run memory =
      .ok (count, Slots.put buffer 0 (lowBytes bytes count ++ [0])) := by
  have hlt : 2 * count < bytes.length := (List.getElem?_eq_some_iff.mp hzero).1
  apply Reader.run_of_view hshows
  refine readUnicode_view buffer (fun index hindex => lowBytes_getElem (by omega) hindex)
    (zero_not_mem_lowBytes hnonzero (by omega)) (by simpa using hfuel) (by simpa using hroom)
    (by omega) (.inl ?_)
  simpa using ⟨hzero, hlimit⟩

/-- `ptp_read_unicode_string` on what has no zero in front of the limit. -/
theorem ptpReadUnicodeString_limit {fuel : Nat} (buffer : Vector UInt8 n) (hmax : 2 ≤ max)
    (hshows : Reader.Shows memory dat bytes) (hfuel : max < fuel) (hroom : max ≤ n)
    (hlength : max ≤ bytes.length) (hnonzero : ∀ index, 2 * index < max → bytes[2 * index]? ≠ some 0) :
    (ptpReadUnicodeString fuel buffer dat max).run memory =
      .ok (2 * (((max + 1) / 2 : Nat) : Int) - 2,
        Slots.put buffer 0 (lowBytes bytes ((max + 1) / 2) ++ [0])) := by
  apply Reader.run_of_view hshows
  have hcount : 2 * ((max + 1) / 2 - 1) < bytes.length := by omega
  refine readUnicode_view buffer (fun index hindex => lowBytes_getElem hcount hindex)
    (zero_not_mem_lowBytes (fun index hindex => hnonzero index (by omega)) hcount)
    (by rw [lowBytes_length]; omega) (by rw [lowBytes_length]; omega) (by omega) (.inr ?_)
  rw [lowBytes_length, Nat.zero_add]
  exact ⟨by omega, by omega, rfl⟩

/-- Where `ptp_read_utf8_string` finds a zero in front of the limit. -/
theorem ptpReadUtf8String_zero {fuel : Nat} {chars rest : List UInt8} (string : Vector UInt8 n)
    (hshows : Reader.Shows memory dat bytes) (hsplit : bytes = chars ++ 0 :: rest)
    (hzero : 0 ∉ chars) (hfuel : max < fuel) (hroom : max ≤ n) (hlimit : chars.length < max) :
    (ptpReadUtf8String fuel dat string max).run memory =
      .ok ((chars.length + 1 : Nat), Slots.put string 0 (chars ++ [0])) := by
  have hloop : (readUtf8 dat max fuel 0 string).view dat bytes =
      some (.ok (0 + chars.length, Slots.put string 0 chars)) :=
    readUtf8_view string (fun index hindex => by simp [hsplit, List.getElem?_append_left hindex])
      hzero (by omega) hroom (by omega) (.inl (by simpa [hsplit] using hlimit))
  apply Reader.run_of_view hshows
  rw [ptpReadUtf8String, Reader.view_bind_ok hloop, Slots.put_append _ _ _ (by omega)]
  simp only [Nat.zero_add, storeAt_of_lt (show chars.length < n by omega)]
  rfl

/-- Without one it stores the zero behind the limit. -/
theorem ptpReadUtf8String_limit {fuel : Nat} (string : Vector UInt8 n) (hmax : 0 < max)
    (hshows : Reader.Shows memory dat bytes) (hzero : 0 ∉ bytes.take max) (hfuel : max < fuel)
    (hroom : max ≤ n) (hlength : max ≤ bytes.length) :
    (ptpReadUtf8String fuel dat string max).run memory =
      (storeAt (Slots.put string 0 (bytes.take max)) max 0 >>= fun string =>
        return (((max + 1 : Nat) : Int), string)).run memory := by
  have hlimit : (bytes.take max).length = max := List.length_take_of_le hlength
  have hloop : (readUtf8 dat max fuel 0 string).view dat bytes =
      some (.ok (0 + (bytes.take max).length, Slots.put string 0 (bytes.take max))) :=
    readUtf8_view string
      (fun index hindex => by
        rw [Nat.zero_add, List.getElem_take, List.getElem?_eq_getElem])
      hzero (by omega) hroom hmax (.inr (by omega))
  rw [hlimit, Nat.zero_add] at hloop
  rw [ptpReadUtf8String, Reader.run_bind, Reader.run_of_view hshows hloop]
  rfl

end Terminated

/-! ## Arrays of exactly `max` characters

A store behind such an array is undefined, so a reader that returns has stayed inside.
-/

section Arrays

variable {max : Nat} {memory : Reader.Memory UInt8 Halt} (string : Vector UInt8 max)

theorem zero_mem_storedChars {units : List UInt16} :
    0 ∈ storedChars (units.map UInt16.toNat) ↔ 0 ∈ units := by
  rw [storedChars, List.map_map, List.mem_map]
  constructor
  · rintro ⟨unit, hunit, hchar⟩
    by_cases hzero : unit = 0
    · exact hzero ▸ hunit
    · have hlt : printableChar unit.toNat < 256 := by
        unfold printableChar
        split
        · decide
        · split <;> omega
      have hchar' := congrArg UInt8.toNat hchar
      rw [Function.comp_apply, UInt8.toNat_ofNat_of_lt' hlt] at hchar'
      exact absurd (UInt16.toNat_inj.mp (printableChar_eq_zero.mp hchar')) hzero
  · exact fun hzero => ⟨0, hzero, rfl⟩

theorem storedString_length_le (units : List Nat) :
    (storedString units).length ≤ units.length + 1 := by
  rw [storedString]
  split <;> simp

/-- Where the zero that `ptp_read_string` leaves comes from. -/
theorem zero_mem_put_storedString (hmax : 2 ≤ max) (units : List UInt16) :
    0 ∈ (Slots.put string 0 (storedString ((units.take (max - 1)).map UInt16.toNat))).toList ↔
      units = [] ∨ 0 ∈ units.take (max - 1) ∨
        0 ∈ string.toList.drop (min units.length (max - 1)) := by
  have hle := storedString_length_le ((units.take (max - 1)).map UInt16.toNat)
  rw [List.length_map, List.length_take] at hle
  rw [Slots.toList_put _ _ (by omega), List.mem_append]
  by_cases hempty : units = []
  · simp [hempty, storedString]
  rw [or_iff_right hempty]
  by_cases hzero : 0 ∈ units.take (max - 1)
  · obtain ⟨front, back, hsplit, _⟩ := List.eq_append_cons_of_mem hzero
    obtain ⟨rest, hstored, _⟩ := storedString_of_zero front back
    rw [hsplit, hstored]
    simp
  · have htake : units.take (max - 1) ≠ [] := by
      rw [Ne, List.take_eq_nil_iff, not_or]
      exact ⟨by omega, hempty⟩
    rw [storedString_of_not_mem htake hzero, zero_mem_storedChars]
    simp [hzero, Nat.min_comm]

/-- When the three readers stay inside an array of `max` characters, leave a zero in it and,
for UTF-16 up to a zero, count the characters in front of that. -/
theorem readers_respect_array_iff (hmax : 2 ≤ max) {fuel : Nat} (hfuel : max < fuel)
    {units : List UInt16} (hlength : units.length ≤ 255) {d : Int}
    (hcounted : Reader.Shows memory d (wireString units))
    {narrow : List UInt8} (hnarrow : 0 ∈ narrow ∨ max ≤ narrow.length) {dat : Int}
    (hbytes : Reader.Shows memory dat narrow)
    {wide : List UInt8} (hwide : (∃ index, wide[2 * index]? = some 0) ∨ max ≤ wide.length)
    {dat' : Int} (hunits : Reader.Shows memory dat' wide) :
    ((∃ of string', (ptpReadString d string max).run memory = .ok (of, string') ∧
        0 ∈ string'.toList) ↔
      units = [] ∨ 0 ∈ units.take (max - 1) ∨
        0 ∈ string.toList.drop (min units.length (max - 1))) ∧
    ((∃ size string', (ptpReadUtf8String fuel dat string max).run memory = .ok (size, string') ∧
        0 ∈ string'.toList) ↔ 0 ∈ narrow.take max) ∧
    ((∃ (chars : List UInt8) (string' : Vector UInt8 max),
        (ptpReadUnicodeString fuel string dat' max).run memory = .ok ((chars.length : Int), string') ∧
        Slots.Holds string' chars ∧ 0 ∉ chars) ↔
      (∃ index, 2 * index < max ∧ wide[2 * index]? = some 0) ∨ max = 3 ∨ max = 4) := by
  refine ⟨?_, ?_, ?_⟩
  · rw [ptpReadString_run hmax le_rfl string hlength hcounted,
      ← zero_mem_put_storedString string hmax]
    constructor
    · rintro ⟨of, string', heq, hzero⟩
      obtain ⟨_, rfl⟩ := Prod.mk.inj (Except.ok.inj heq)
      exact hzero
    · exact fun hzero => ⟨_, _, rfl, hzero⟩
  · by_cases hzero : 0 ∈ narrow.take max
    · refine iff_of_true ?_ hzero
      obtain ⟨chars, rest, hsplit, hchars⟩ := List.eq_append_cons_of_mem hzero
      have hle : chars.length < max := by
        have hlength := congrArg List.length hsplit
        rw [List.length_take, List.length_append, List.length_cons] at hlength
        omega
      have hwhole : narrow = chars ++ 0 :: (rest ++ narrow.drop max) := by
        conv_lhs => rw [← List.take_append_drop max narrow, hsplit, List.append_assoc]
        rfl
      refine ⟨_, _, ptpReadUtf8String_zero string hbytes hwhole hchars hfuel le_rfl hle, ?_⟩
      rw [Slots.toList_put _ _ (by simp; omega)]
      simp
    · refine iff_of_false ?_ hzero
      have hlength' : max ≤ narrow.length := by
        rcases hnarrow with hmem | hle
        · by_contra hshort
          rw [List.take_of_length_le (by omega)] at hzero
          exact hzero hmem
        · exact hle
      rw [ptpReadUtf8String_limit string (by omega) hbytes hzero hfuel le_rfl hlength', storeAt,
        dif_neg (Nat.lt_irrefl max)]
      rintro ⟨size, string', hrun, _⟩
      cases hrun
  · by_cases hzero : ∃ index, 2 * index < max ∧ wide[2 * index]? = some 0
    · refine iff_of_true ?_ (.inl hzero)
      obtain ⟨hlt, hbyte⟩ := Nat.find_spec hzero
      have hnonzero : ∀ index, index < Nat.find hzero → wide[2 * index]? ≠ some 0 :=
        fun index hindex hbyte => Nat.find_min hzero hindex ⟨by omega, hbyte⟩
      have hlength' := (List.getElem?_eq_some_iff.mp hbyte).1
      have hcount : Nat.find hzero < fuel := by omega
      have hrun := ptpReadUnicodeString_zero string hunits hcount (by omega) hbyte hlt hnonzero
      refine ⟨lowBytes wide (Nat.find hzero), _, by rw [lowBytes_length]; exact hrun, ?_,
        zero_not_mem_lowBytes hnonzero (by omega)⟩
      have hroom : (lowBytes wide (Nat.find hzero)).length + 1 + ([] : List UInt8).length ≤ max := by
        rw [lowBytes_length, List.length_nil]
        omega
      exact (Slots.holds_put_zero_iff [] rfl hroom).mpr rfl
    · rw [or_iff_right hzero]
      have hnonzero : ∀ index, 2 * index < max → wide[2 * index]? ≠ some 0 :=
        fun index hindex hbyte => hzero ⟨index, hindex, hbyte⟩
      have hlength' : max ≤ wide.length := by
        rcases hwide with ⟨index, hbyte⟩ | hle
        · by_contra hshort
          have hlt := (List.getElem?_eq_some_iff.mp hbyte).1
          exact hnonzero index (by omega) hbyte
        · exact hle
      have hcount : 2 * ((max + 1) / 2 - 1) < wide.length := by omega
      have hholds : Slots.Holds
          (Slots.put string 0 (lowBytes wide ((max + 1) / 2) ++ [0]))
          (lowBytes wide ((max + 1) / 2)) :=
        (Slots.holds_put_zero_iff [] rfl (by simp; omega)).mpr rfl
      have hchars := zero_not_mem_lowBytes (fun index hindex => hnonzero index (by omega)) hcount
      rw [ptpReadUnicodeString_limit string hmax hunits hfuel le_rfl hlength' hnonzero]
      constructor
      · rintro ⟨chars, string', heq, hholds', hchars'⟩
        obtain ⟨hresult, rfl⟩ := Prod.mk.inj (Except.ok.inj heq)
        rw [hholds'.unique hholds hchars' hchars, lowBytes_length] at hresult
        omega
      · intro hfour
        refine ⟨_, _, ?_, hholds, hchars⟩
        rw [lowBytes_length]
        have hresult : 2 * (((max + 1) / 2 : Nat) : Int) - 2 = ((max + 1) / 2 : Nat) := by omega
        rw [hresult]

/-- Four characters of room for a string of one. -/
theorem readers_respect_array_short :
    (∃ of string', (ptpReadString 0 (Vector.replicate 4 1) 4).run
        (Reader.only .undefined (wireString [0x41, 0])) = .ok (of, string') ∧
      0 ∈ string'.toList) ∧
    (∃ size string', (ptpReadUtf8String 5 0 (Vector.replicate 4 1) 4).run
        (Reader.only .undefined (wireString [0x41, 0])) = .ok (size, string') ∧
      0 ∈ string'.toList) ∧
    ∃ (chars : List UInt8) (string' : Vector UInt8 4),
      (ptpReadUnicodeString 5 (Vector.replicate 4 1) 0 4).run
        (Reader.only .undefined (wireString [0x41, 0])) = .ok ((chars.length : Int), string') ∧
      Slots.Holds string' chars ∧ 0 ∉ chars := by
  have hshows := Reader.only_shows Halt.undefined (wireString [0x41, 0])
  obtain ⟨hcounted, hnarrow, hwide⟩ := readers_respect_array_iff (Vector.replicate 4 1) (by decide)
    (by decide : 4 < 5) (by decide : ([0x41, 0] : List UInt16).length ≤ 255) hshows
    (.inl (by decide)) hshows (.inl ⟨1, by decide⟩) hshows
  exact ⟨hcounted.mpr (by decide), hnarrow.mpr (by decide), hwide.mpr (.inl ⟨1, by decide⟩)⟩

/-- Three bytes and an array of two: the zero is stored behind the array. -/
theorem readers_respect_array_full :
    ¬∃ size string', (ptpReadUtf8String 3 0 (Vector.replicate 2 0) 2).run
        (Reader.only .undefined [0x41, 0x42, 0x43]) = .ok (size, string') ∧
      0 ∈ string'.toList := by
  have hrun : (ptpReadUtf8String 3 0 (Vector.replicate 2 0) 2).run
      (Reader.only .undefined [0x41, 0x42, 0x43]) = .error .undefined := by decide +kernel
  rintro ⟨size, string', heq, _⟩
  rw [hrun] at heq
  cases heq

end Arrays

end Libpict
