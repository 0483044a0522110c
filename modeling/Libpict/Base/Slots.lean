import Mathlib.Data.UInt
import Mathlib.Data.Vector.Basic
import Mathlib.Tactic.Common

/-! # Arrays of slots

Arrays of a fixed size into which consecutive items are stored, and the strings that end
in such an array with a zero.
-/

namespace Slots

variable {α : Type} {n : Nat}

/-- Store the items from an index on; what lies behind the array is left out. -/
def put (array : Vector α n) (index : Nat) (items : List α) : Vector α n :=
  Vector.ofFn fun slot : Fin n =>
    if index ≤ slot then items.getD (slot - index) array[slot] else array[slot]

theorem getElem_put (array : Vector α n) (index : Nat) (items : List α) {slot : Nat}
    (hslot : slot < n) : (put array index items)[slot] =
      if index ≤ slot then items.getD (slot - index) array[slot] else array[slot] := by
  simp [put]

@[simp] theorem put_nil (array : Vector α n) (index : Nat) : put array index [] = array := by
  ext slot hslot
  simp [getElem_put]

/-- Storing some items is storing the first and then the others. -/
theorem put_cons (array : Vector α n) {index : Nat} (hindex : index < n) (a : α)
    (items : List α) : put array index (a :: items) = put (array.set index a) (index + 1) items := by
  ext slot hslot
  rw [getElem_put, getElem_put, Vector.getElem_set]
  rcases Nat.lt_trichotomy slot index with hlt | rfl | hgt
  · have hne : index ≠ slot := by omega
    simp [show ¬index ≤ slot by omega, show ¬index + 1 ≤ slot by omega, hne]
  · simp
  · have hsub : slot - index = slot - (index + 1) + 1 := by omega
    have hne : index ≠ slot := by omega
    simp [hsub, show index ≤ slot by omega, show index + 1 ≤ slot by omega, hne]

theorem put_append (array : Vector α n) {index : Nat} (items rest : List α)
    (hle : index + items.length ≤ n) :
    put array index (items ++ rest) = put (put array index items) (index + items.length) rest := by
  induction items generalizing array index with
  | nil => simp
  | cons a items ih =>
      simp only [List.length_cons] at hle
      rw [List.cons_append, put_cons _ (by omega), put_cons _ (by omega), ih _ (by omega),
        List.length_cons]
      congr 1
      omega

/-- What the array holds after a store to its beginning. -/
theorem toList_put (array : Vector α n) (items : List α) (hle : items.length ≤ n) :
    (put array 0 items).toList = items ++ array.toList.drop items.length := by
  apply List.ext_getElem
  · simp
    omega
  · intro slot hleft hright
    have hslot : slot < n := by simpa using hleft
    rw [Vector.getElem_toList, getElem_put, List.getElem_append]
    by_cases hitem : slot < items.length
    · simp [hitem]
    · have hback : items.length + (slot - items.length) = slot := by omega
      simp [hitem, hback]

/-- The array holds the string, and a zero behind it. -/
def Holds [Zero α] (array : Vector α n) (string : List α) : Prop :=
  string ++ [0] <+: array.toList

instance [Zero α] [DecidableEq α] (array : Vector α n) (string : List α) :
    Decidable (Holds array string) := inferInstanceAs (Decidable (_ <+: _))

section Strings

variable [Zero α]

/-- A string that is stored with its zero is the one of its length that is held. -/
theorem holds_put_zero_iff {array : Vector α n} {string other : List α} (rest : List α)
    (hlength : other.length = string.length) (hle : string.length + 1 + rest.length ≤ n) :
    Holds (put array 0 (string ++ 0 :: rest)) other ↔ other = string := by
  rw [Holds, toList_put _ _ (by simp; omega), List.append_assoc, List.cons_append]
  constructor
  · rintro ⟨tail, htail⟩
    rw [List.append_assoc] at htail
    exact (List.append_inj htail hlength).1
  · rintro rfl
    exact ⟨_, by rw [List.append_assoc]; rfl⟩

/-- A string that is stored without a zero is the one of its length that is held, if there is
a zero behind it. -/
theorem holds_put_iff {array : Vector α n} {string other : List α}
    (hlength : other.length = string.length) (hle : string.length ≤ n) :
    Holds (put array 0 string) other ↔ other = string ∧ array[string.length]? = some 0 := by
  rw [Holds, toList_put _ _ hle, ← Vector.getElem?_toList, ← List.head?_drop]
  generalize array.toList.drop string.length = behind
  constructor
  · rintro ⟨tail, htail⟩
    rw [List.append_assoc] at htail
    obtain ⟨rfl, hbehind⟩ := List.append_inj htail hlength
    exact ⟨rfl, by rw [← hbehind]; rfl⟩
  · rintro ⟨rfl, hbehind⟩
    obtain ⟨tail, rfl⟩ := List.head?_eq_some_iff.mp hbehind
    exact ⟨tail, by rw [List.append_assoc]; rfl⟩

/-- An array holds one string without zeros. -/
theorem Holds.unique {array : Vector α n} {string other : List α} (hstring : Holds array string)
    (hother : Holds array other) (hzero : 0 ∉ string) (hzero' : 0 ∉ other) : string = other := by
  obtain ⟨rest, hrest⟩ := hstring
  obtain ⟨rest', hrest'⟩ := hother
  rw [← hrest', List.append_assoc, List.append_assoc] at hrest
  clear hrest'
  induction string generalizing other with
  | nil =>
      cases other with
      | nil => rfl
      | cons b other =>
          injection hrest with hhead _
          exact absurd (hhead ▸ List.mem_cons_self) hzero'
  | cons a string ih =>
      cases other with
      | nil =>
          injection hrest with hhead _
          exact absurd (hhead ▸ List.mem_cons_self) hzero
      | cons b other =>
          injection hrest with hhead htail
          subst hhead
          rw [ih (fun h => hzero (List.mem_cons_of_mem _ h)) (fun h => hzero' (List.mem_cons_of_mem _ h))
            htail]

end Strings

end Slots
