import Libpict.DatasetBounds
import Libpict.StringRoundTrip

/-! # Datasets as they are encoded

A well-formed dataset is a list of items, one for each field of its layout. The parsers'
cursor meets each item at its beginning, and what they store there is the item's value.
-/

namespace Libpict

open Bytes CInt

/-- The value of a field of a dataset. -/
inductive Item
  | number (size value : Nat)
  | text (chars : List UInt8)
  | codes (entries : List UInt16)

namespace Item

/-- The encoding of the standard. -/
def bytes : Item → List UInt8
  | number size value => leBytes size value
  | text chars => wireString (stringUnits chars)
  | codes entries => leBytes 4 entries.length ++ entries.flatMap fun entry => leBytes 2 entry.toNat

/-- The item is one for the field: a string is empty or leaves one slot of its array over, and
has no control characters. -/
def Fits : Item → Field → Prop
  | number size value, .number size' => size = size' ∧ value < 256 ^ size
  | text chars, .text max => (∀ char ∈ chars, 32 ≤ char ∧ char ≤ 126) ∧
      (chars = [] ∨ chars.length + 2 ≤ max) ∧ 2 ≤ max ∧ max ≤ 256
  | codes entries, .codes max => entries.length ≤ max ∧ max ≤ 512
  | _, _ => False

end Item

/-- The most bytes that an item for the field has. -/
def Field.maxSize : Field → Nat
  | number size => size
  | text max => 2 * max
  | codes max => 4 + 2 * max

section Items

variable {payload rest : List UInt8} {p : Nat}

theorem field_of_drop {size value : Nat} (hdrop : payload.drop p = leBytes size value ++ rest)
    (hlt : value < 256 ^ size) : field size p payload = value := by
  rw [field, hdrop, List.take_left' (leBytes_length _ _), leValue_leBytes_of_lt hlt]

theorem unitsAt_of_drop {units : List UInt16}
    (hdrop : payload.drop p = (units.flatMap fun unit => leBytes 2 unit.toNat) ++ rest)
    (hp : p ≤ payload.length) : unitsAt payload p units.length = units.map UInt16.toNat := by
  have hsplit : payload = payload.take p ++ ((units.flatMap fun unit => leBytes 2 unit.toNat) ++
      rest) := by rw [← hdrop, List.take_append_drop]
  have hunits : unitsAt (payload.take p ++ ((units.flatMap fun unit => leBytes 2 unit.toNat) ++
      rest)) p units.length = (units.take units.length).map UInt16.toNat :=
    unitsAt_flatMap (List.length_take_of_le hp) le_rfl
  rwa [← hsplit, List.take_length] at hunits

theorem flatMap_units_length (units : List UInt16) :
    (units.flatMap fun unit => leBytes 2 unit.toNat).length = 2 * units.length := by
  simp [List.length_flatMap, Nat.mul_comm]

theorem stringUnits_fits {chars : List UInt8} {max : Nat}
    (hfits : chars = [] ∨ chars.length + 2 ≤ max) (hmax : 2 ≤ max) :
    (stringUnits chars).length ≤ max - 1 := by
  rcases hfits with rfl | hfits
  · simp [stringUnits]
  · by_cases hempty : chars = []
    · simp [hempty, stringUnits]
    · rw [stringUnits_length hempty]
      omega

section Text

variable {chars : List UInt8} {n : Nat} (hdrop : payload.drop p = (Item.text chars).bytes ++ rest)
  (hfits : (Item.text chars).Fits (.text n))

include hdrop hfits

theorem stringTaken_of_drop : stringTaken n payload p = (stringUnits chars).length := by
  obtain ⟨_, hroom, htwo, hmax⟩ := hfits
  have hlength := stringUnits_fits hroom htwo
  rw [Item.bytes, wireString, List.append_assoc] at hdrop
  rw [stringTaken, field_of_drop hdrop (by omega)]
  omega

/-- The string is in its array. -/
theorem textAt_holds (string : Vector UInt8 n) : Slots.Holds (textAt string payload p) chars := by
  have htaken := stringTaken_of_drop hdrop hfits
  obtain ⟨hascii, hroom, htwo, hmax⟩ := hfits
  have hlength := stringUnits_fits hroom htwo
  have hp : p + 1 ≤ payload.length := by
    have hlength := congrArg List.length hdrop
    rw [List.length_drop, List.length_append, Item.bytes, wireString_length] at hlength
    omega
  have hbehind : payload.drop (p + 1) =
      ((stringUnits chars).flatMap fun unit => leBytes 2 unit.toNat) ++ rest := by
    rw [← List.drop_drop, hdrop, Item.bytes, wireString, List.append_assoc]
    exact List.drop_left' (leBytes_length _ _)
  rw [textAt, htaken, unitsAt_of_drop hbehind hp]
  by_cases hempty : chars = []
  · subst hempty
    have hstored : storedString ((stringUnits []).map UInt16.toNat) = [] ++ 0 :: [] := by
      simp [stringUnits, storedString, storedChars]
    rw [hstored]
    exact (Slots.holds_put_zero_iff [] rfl (by simp; omega)).mpr rfl
  · have hunits : stringUnits chars = chars.map UInt8.toUInt16 ++ 0 :: [] := if_neg hempty
    obtain ⟨rest', hstored, hrest'⟩ := storedString_of_zero (chars.map UInt8.toUInt16) []
    rw [stringUnits_length hempty] at hlength
    rw [hunits, hstored, storedChars_toUInt16 hascii]
    simp only [List.length_nil] at hrest'
    exact (Slots.holds_put_zero_iff rest' rfl (by omega)).mpr rfl

end Text

section Codes

variable {entries : List UInt16} {n : Nat}
  (hdrop : payload.drop p = (Item.codes entries).bytes ++ rest)
  (hfits : (Item.codes entries).Fits (.codes n))

include hdrop hfits

theorem count_of_drop : toInt32 (field 4 p payload) = entries.length := by
  obtain ⟨hroom, hmax⟩ := hfits
  rw [Item.bytes, List.append_assoc] at hdrop
  rw [field_of_drop hdrop (by omega)]
  exact toInt32_of_fits ⟨by omega, by omega⟩

/-- The entries are at the beginning of their array. -/
theorem codesAt_toList (buf : Vector UInt16 n) :
    (codesAt buf payload p).toList = entries ++ buf.toList.drop entries.length := by
  have hcount := count_of_drop hdrop hfits
  have hp : p + 4 ≤ payload.length := by
    have hlength := congrArg List.length hdrop
    rw [List.length_drop, List.length_append, Item.bytes, List.length_append,
      leBytes_length] at hlength
    omega
  have hbehind : payload.drop (p + 4) =
      (entries.flatMap fun entry => leBytes 2 entry.toNat) ++ rest := by
    rw [← List.drop_drop, hdrop, Item.bytes, List.append_assoc]
    exact List.drop_left' (leBytes_length _ _)
  have hentries : entriesAt payload (p + 4) entries.length = entries := by
    rw [entriesAt, unitsAt_of_drop hbehind hp, List.map_map]
    conv_rhs => rw [← List.map_id entries]
    apply List.map_congr_left
    intro entry _
    simp
  rw [codesAt, hcount, Int.toNat_natCast, hentries, Slots.toList_put _ _ hfits.1]

end Codes

/-- The cursor goes from an item to the next one. -/
theorem cursorEnd_of_drop {item : Item} {field : Field} (hfits : item.Fits field)
    (hdrop : payload.drop p = item.bytes ++ rest) (hp : p ≤ payload.length) :
    payload.drop (field.cursorEnd payload p) = rest ∧
      field.cursorEnd payload p ≤ payload.length := by
  have hend : field.cursorEnd payload p = p + item.bytes.length := by
    cases item with
    | number size value =>
        cases field with
        | number size' =>
            rw [Field.cursorEnd, Item.bytes, leBytes_length, hfits.1]
        | text max => exact hfits.elim
        | codes max => exact hfits.elim
    | text chars =>
        cases field with
        | number size' => exact hfits.elim
        | text max =>
            rw [Field.cursorEnd, stringTaken_of_drop hdrop hfits, Item.bytes, wireString_length]
        | codes max => exact hfits.elim
    | codes entries =>
        cases field with
        | number size' => exact hfits.elim
        | text max => exact hfits.elim
        | codes max =>
            rw [Field.cursorEnd, count_of_drop hdrop hfits, Item.bytes, List.length_append,
              leBytes_length, flatMap_units_length, Int.toNat_natCast]
  have hlength := congrArg List.length hdrop
  rw [List.length_drop, List.length_append] at hlength
  rw [hend]
  constructor
  · rw [← List.drop_drop, hdrop, List.drop_left]
  · omega

/-- A layout of items is met item by item. -/
theorem drop_cursor {items : List Item} {fields : List Field}
    (hfits : List.Forall₂ Item.Fits items fields)
    (hdrop : payload.drop p = items.flatMap Item.bytes ++ rest) (hp : p ≤ payload.length)
    (index : Nat) :
    payload.drop ((fields.take index).foldl (fun offset field => field.cursorEnd payload offset) p) =
      (items.drop index).flatMap Item.bytes ++ rest := by
  induction hfits generalizing p index with
  | nil => simpa using hdrop
  | cons hitem hrest ih =>
      cases index with
      | zero => simpa using hdrop
      | succ index =>
          rw [List.flatMap_cons, List.append_assoc] at hdrop
          obtain ⟨hnext, hle⟩ := cursorEnd_of_drop hitem hdrop hp
          exact ih hnext hle index

/-- A layout of items is admitted, if the buffer goes on a little behind the payload. -/
theorem cursorInside_of_items {room : Int} {items : List Item} {fields : List Field}
    (hfits : List.Forall₂ Item.Fits items fields) (hdrop : payload.drop p = items.flatMap Item.bytes)
    (hp : p ≤ payload.length) (hroom : payload.length + 2052 ≤ room) :
    CursorInside room payload fields p := by
  induction hfits generalizing p with
  | nil => exact hp
  | @cons item field items fields hitem hrest ih =>
      obtain ⟨hnext, hle⟩ := cursorEnd_of_drop hitem hdrop hp
      refine ⟨?_, ih hnext hle⟩
      cases field with
      | number size => trivial
      | text max => trivial
      | codes max =>
          cases item with
          | number size value => exact hitem.elim
          | text chars => exact hitem.elim
          | codes entries =>
              have hcount := hitem.1
              have hmax := hitem.2
              rw [Field.Admitted, count_of_drop hdrop hitem]
              exact ⟨by omega, by omega, by omega⟩

theorem bytes_length_le {item : Item} {field : Field} (hfits : item.Fits field) :
    item.bytes.length ≤ field.maxSize := by
  cases item with
  | number size value =>
      cases field with
      | number size' => exact (leBytes_length _ _).trans_le hfits.1.le
      | text max => exact hfits.elim
      | codes max => exact hfits.elim
  | text chars =>
      cases field with
      | number size' => exact hfits.elim
      | text max =>
          have hlength := stringUnits_fits hfits.2.1 hfits.2.2.1
          have htwo := hfits.2.2.1
          rw [Item.bytes, wireString_length, Field.maxSize]
          omega
      | codes max => exact hfits.elim
  | codes entries =>
      cases field with
      | number size' => exact hfits.elim
      | text max => exact hfits.elim
      | codes max =>
          have hcount := hfits.1
          rw [Item.bytes, List.length_append, leBytes_length, flatMap_units_length, Field.maxSize]
          omega

theorem items_length_le {items : List Item} {fields : List Field}
    (hfits : List.Forall₂ Item.Fits items fields) :
    (items.flatMap Item.bytes).length ≤ (fields.map Field.maxSize).sum := by
  induction hfits with
  | nil => exact le_rfl
  | cons hitem _ ih =>
      rw [List.flatMap_cons, List.length_append, List.map_cons, List.sum_cons]
      exact Nat.add_le_add (bytes_length_le hitem) ih

/-- An item of a layout, where the cursor meets it. -/
theorem item_at {items : List Item} {fields : List Field}
    (hfits : List.Forall₂ Item.Fits items fields)
    (hpayload : payload = items.flatMap Item.bytes ++ rest) (index : Nat) {item : Item}
    {field : Field} (hitem : items[index]? = some item) (hfield : fields[index]? = some field) :
    item.Fits field ∧
      ∃ rest, payload.drop (cursorAt payload fields index) = item.bytes ++ rest := by
  obtain ⟨hlt, rfl⟩ := List.getElem?_eq_some_iff.mp hitem
  obtain ⟨hlt', rfl⟩ := List.getElem?_eq_some_iff.mp hfield
  constructor
  · exact (List.forall₂_iff_get.mp hfits).2 index hlt hlt'
  · have hdrop : payload.drop 0 = items.flatMap Item.bytes ++ rest := hpayload
    have hcursor := drop_cursor hfits hdrop (Nat.zero_le _) index
    rw [List.drop_eq_getElem_cons hlt, List.flatMap_cons, List.append_assoc] at hcursor
    exact ⟨_, hcursor⟩

end Items

end Libpict
