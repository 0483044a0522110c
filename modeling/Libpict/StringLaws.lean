import Libpict.Strings

/-! # What the string readers leave behind

`ptp_read_string` takes as many units as the array has room for, less one. What it returns
and stores is a function of the units it takes.
-/

namespace Libpict

open Bytes CInt

/-- The 16-bit units of a byte string from an offset on. -/
def unitsAt (payload : List UInt8) (offset count : Nat) : List Nat :=
  (List.range count).map fun index => field 2 (offset + 2 * index) payload

@[simp] theorem unitsAt_zero (payload : List UInt8) (offset : Nat) : unitsAt payload offset 0 = [] :=
  rfl

theorem unitsAt_succ (payload : List UInt8) (offset count : Nat) :
    unitsAt payload offset (count + 1) =
      field 2 offset payload :: unitsAt payload (offset + 2) count := by
  simp only [unitsAt, List.range_succ_eq_map, List.map_cons, List.map_map, Nat.mul_zero,
    Nat.add_zero]
  congr 2
  funext index
  simp only [Function.comp_apply, Nat.succ_eq_add_one]
  congr 1
  ring

@[simp] theorem unitsAt_length (payload : List UInt8) (offset count : Nat) :
    (unitsAt payload offset count).length = count := by simp [unitsAt]

/-- The characters that `ptp_read_string` stores for some units. -/
def storedChars (units : List Nat) : List UInt8 :=
  units.map fun unit => UInt8.ofNat (printableChar unit)

@[simp] theorem storedChars_length (units : List Nat) : (storedChars units).length = units.length :=
  List.length_map _

@[simp] theorem storedChars_cons (unit : Nat) (units : List Nat) :
    storedChars (unit :: units) = UInt8.ofNat (printableChar unit) :: storedChars units := rfl

/-- What it stores in all: the last character decides whether there is a zero behind it. -/
def storedString (units : List Nat) : List UInt8 :=
  if (units.map printableChar).getLastD 0 = 0 then storedChars units ++ [0] else storedChars units

/-- How many units it takes of the string at an offset. -/
def stringTaken (max : Nat) (payload : List UInt8) (offset : Nat) : Nat :=
  min (field 1 offset payload) (max - 1)

section Views

variable {n : Nat} {start : Int} {payload : List UInt8}

theorem storeAt_of_lt {α : Type} {array : Vector α n} {index : Nat} {a : α} (hindex : index < n) :
    storeAt array index a = .done (Slots.put array index [a]) := by
  rw [storeAt, dif_pos hindex, Slots.put_cons _ hindex, Slots.put_nil]

theorem readChars_view {d of : Int} {max i p : Nat} (left wchr : Nat) (string : Vector UInt8 n)
    (hat : d + of = start + p) (hroom : max ≤ n) (hi : i + 1 < max) (hp : p ≤ payload.length) :
    (readChars d max left i wchr of string).view start payload =
      let k := min left (max - 1 - i)
      if p + 2 * k ≤ payload.length then
        some (.ok (of + 2 * k, i + k, ((unitsAt payload p k).map printableChar).getLastD wchr,
          Slots.put string i (storedChars (unitsAt payload p k))))
      else none := by
  induction left generalizing of i wchr p string with
  | zero => simp [readChars, storedChars, hp]
  | succ left ih =>
      dsimp only
      rw [readChars, readLe_bind_view hat]
      by_cases hinside : p + 2 ≤ payload.length
      · rw [if_pos hinside]
        simp only [storeAt_of_lt (show i < n by omega), Reader.done_bind]
        by_cases hfull : (max : Int) - 1 ≤ (i + 1 : Nat)
        · -- the array is full behind this character
          have hk : min (left + 1) (max - 1 - i) = 1 := by omega
          rw [if_pos hfull, hk, if_pos (by omega)]
          simp [unitsAt_succ, storedChars]
        · have hk : min (left + 1) (max - 1 - i) = min left (max - 1 - (i + 1)) + 1 := by omega
          rw [if_neg hfull, ih _ _ (by push_cast; rw [← add_assoc, hat]; ring) (by omega) hinside, hk]
          dsimp only
          generalize min left (max - 1 - (i + 1)) = k
          rw [unitsAt_succ, storedChars_cons]
          by_cases hle : p + 2 + 2 * k ≤ payload.length
          · have hput : ∀ a chars, Slots.put (Slots.put string i [a]) (i + 1) chars =
                Slots.put string i (a :: chars) :=
              fun a chars => by
                rw [Slots.put_cons _ (by omega), Slots.put_nil, Slots.put_cons _ (by omega)]
            have hof : of + 2 + 2 * (k : Int) = of + 2 * ((k + 1 : Nat) : Int) := by push_cast; ring
            have hcount : i + 1 + k = i + (k + 1) := by ring
            rw [if_pos hle, if_pos (by omega), hput, hof, hcount, List.map_cons, List.getLastD_cons]
          · rw [if_neg hle, if_neg (by omega)]
      · have hk : 1 ≤ min (left + 1) (max - 1 - i) := by omega
        rw [if_neg hinside, if_neg (by omega)]

/-- `ptp_read_string` takes what the array has room for and stays inside if that does. -/
theorem ptpReadString_view {max p : Nat} {position : Int} (hat : position = start + p)
    (string : Vector UInt8 n) (hmax : 2 ≤ max) (hroom : max ≤ n) :
    (ptpReadString position string max).view start payload =
      let k := stringTaken max payload p
      if p + 1 + 2 * k ≤ payload.length then
        some (.ok (((1 + 2 * k : Nat) : Int),
          Slots.put string 0 (storedString (unitsAt payload (p + 1) k))))
      else none := by
  rw [ptpReadString, readLe_bind_view hat]
  by_cases hinside : p + 1 ≤ payload.length
  · rw [if_pos hinside]
    dsimp only
    by_cases hempty : field 1 p payload = 0
    · have hk : stringTaken max payload p = 0 := by simp [stringTaken, hempty]
      rw [if_pos hempty, hk, if_pos (by omega)]
      simp [storeAt_of_lt (show 0 < n by omega), storedString, storedChars]
    · have hof : position + 1 = start + (p + 1 : Nat) := by
        rw [hat]
        push_cast
        ring
      have hchars := readChars_view (i := 0) (field 1 p payload) 0 string hof hroom (by omega)
        hinside
      dsimp only at hchars
      rw [if_neg hempty, Reader.view_bind, hchars, Nat.sub_zero, ← stringTaken]
      by_cases hle : p + 1 + 2 * stringTaken max payload p ≤ payload.length
      · rw [if_pos hle, if_pos hle]
        dsimp only
        rw [Nat.zero_add, storedString]
        have hof : (1 : Int) + 2 * (stringTaken max payload p : Int) =
            ((1 + 2 * stringTaken max payload p : Nat) : Int) := by push_cast; ring
        have htaken : stringTaken max payload p < n := by
          unfold stringTaken
          omega
        by_cases hlast : ((unitsAt payload (p + 1) (stringTaken max payload p)).map
            printableChar).getLastD 0 = 0
        · rw [if_neg (not_not_intro hlast), if_pos hlast, Slots.put_append _ _ _ (by simp; omega),
            storedChars_length, unitsAt_length, Nat.zero_add, hof, storeAt_of_lt htaken]
          rfl
        · rw [if_pos hlast, if_neg hlast, hof]
          rfl
      · rw [if_neg hle, if_neg hle]
  · rw [if_neg hinside]
    dsimp only
    rw [if_neg (by omega)]

end Views

end Libpict
