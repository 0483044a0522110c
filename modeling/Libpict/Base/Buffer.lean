import Mathlib.Data.List.Basic
import Mathlib.Data.List.Range
import Libpict.Base.Bytes

/-! # Sized byte buffers

A buffer is an allocation size and the bytes at every index. Bytes at indices
beyond the size stand for memory that is not allocated yet: growing the buffer
exposes them as indeterminate contents. Slices read consecutive bytes and stores
overwrite them; neither looks at the size, which callers check.
-/

structure Buffer where
  size : Nat
  byte : Nat → UInt8

namespace Buffer

/-- The `count` bytes starting at `offset`. -/
def slice (buffer : Buffer) (offset count : Nat) : List UInt8 :=
  (List.range count).map fun index => buffer.byte (offset + index)

/-- Overwrite the bytes starting at `offset`. -/
def store (buffer : Buffer) (offset : Nat) (bytes : List UInt8) : Buffer :=
  { buffer with
    byte := fun index =>
      if offset ≤ index ∧ index < offset + bytes.length then bytes.getD (index - offset) 0
      else buffer.byte index }

/-- Change the allocation size, keeping every byte in place. -/
def resize (buffer : Buffer) (size : Nat) : Buffer := { buffer with size := size }

@[simp] theorem store_size (buffer : Buffer) (offset : Nat) (bytes : List UInt8) :
    (buffer.store offset bytes).size = buffer.size := rfl

@[simp] theorem resize_size (buffer : Buffer) (size : Nat) : (buffer.resize size).size = size := rfl

@[simp] theorem resize_slice (buffer : Buffer) (size offset count : Nat) :
    (buffer.resize size).slice offset count = buffer.slice offset count := rfl

@[simp] theorem slice_length (buffer : Buffer) (offset count : Nat) :
    (buffer.slice offset count).length = count := by simp [slice]

@[simp] theorem slice_zero (buffer : Buffer) (offset : Nat) : buffer.slice offset 0 = [] := rfl

theorem slice_getElem (buffer : Buffer) (offset count index : Nat)
    (hindex : index < (buffer.slice offset count).length) :
    (buffer.slice offset count)[index] = buffer.byte (offset + index) := by simp [slice]

theorem slice_add (buffer : Buffer) (offset first second : Nat) :
    buffer.slice offset (first + second) =
      buffer.slice offset first ++ buffer.slice (offset + first) second := by
  simp [slice, List.range_add, Function.comp_def, Nat.add_assoc]

/-- A slice of a slice is the slice at the combined offset. -/
theorem slice_drop_take (buffer : Buffer) (offset total skip count : Nat)
    (hle : skip + count ≤ total) :
    ((buffer.slice offset total).drop skip).take count = buffer.slice (offset + skip) count := by
  obtain ⟨rest, rfl⟩ := Nat.exists_eq_add_of_le hle
  rw [slice_add, slice_add, List.append_assoc, List.drop_left' (slice_length _ _ _),
    List.take_left' (slice_length _ _ _)]

/-- Slices only depend on the bytes in their range. -/
theorem slice_congr {first second : Buffer} {offset count : Nat}
    (hbytes : ∀ index, offset ≤ index → index < offset + count →
      first.byte index = second.byte index) :
    first.slice offset count = second.slice offset count := by
  apply List.map_congr_left
  intro index hindex
  have hlt := List.mem_range.mp hindex
  exact hbytes _ (by omega) (by omega)

/-- Storing nothing changes nothing. -/
theorem store_nil (buffer : Buffer) (offset : Nat) : buffer.store offset [] = buffer := by
  have hempty : ∀ index, ¬(offset ≤ index ∧ index < offset + 0) := by
    intro index
    omega
  simp only [store, List.length_nil, if_neg (hempty _)]

/-- Reading back a store returns the stored bytes. -/
@[simp] theorem store_slice_self (buffer : Buffer) (offset : Nat) (bytes : List UInt8) :
    (buffer.store offset bytes).slice offset bytes.length = bytes := by
  apply List.ext_getElem
  · simp
  · intro index hleft hright
    rw [slice_getElem]
    simp [store, hright]

/-- Reading back the beginning of a store. -/
theorem store_slice_take (buffer : Buffer) (offset : Nat) (bytes : List UInt8) (count : Nat)
    (hle : count ≤ bytes.length) : (buffer.store offset bytes).slice offset count = bytes.take count := by
  have hslice := (buffer.store offset bytes).slice_drop_take offset bytes.length 0 count (by omega)
  rw [store_slice_self, List.drop_zero, Nat.add_zero] at hslice
  exact hslice.symm

/-- A store leaves every disjoint slice as it was. -/
theorem store_slice_disjoint (buffer : Buffer) (offset : Nat) (bytes : List UInt8)
    (start count : Nat) (hdisjoint : start + count ≤ offset ∨ offset + bytes.length ≤ start) :
    (buffer.store offset bytes).slice start count = buffer.slice start count := by
  apply slice_congr
  intro index hlow hhigh
  have houtside : ¬(offset ≤ index ∧ index < offset + bytes.length) := by omega
  simp only [store, if_neg houtside]

/-- Storing right behind a known prefix extends the prefix. -/
theorem store_slice_extend (buffer : Buffer) (offset count : Nat) (bytes : List UInt8) :
    (buffer.store (offset + count) bytes).slice offset (count + bytes.length) =
      buffer.slice offset count ++ bytes := by
  rw [slice_add, store_slice_disjoint _ _ _ _ _ (Or.inl le_rfl), store_slice_self]

/-! ## What a buffer begins with -/

/-- The buffer has room for the bytes and begins with them. -/
def Begins (buffer : Buffer) (bytes : List UInt8) : Prop :=
  bytes.length ≤ buffer.size ∧ buffer.slice 0 bytes.length = bytes

theorem begins_nil (buffer : Buffer) : buffer.Begins [] := ⟨Nat.zero_le _, rfl⟩

/-- A store right behind the bytes extends them. -/
theorem Begins.store_append {buffer : Buffer} {bytes : List UInt8}
    (hbegins : buffer.Begins bytes) (more : List UInt8)
    (hle : bytes.length + more.length ≤ buffer.size) :
    (buffer.store bytes.length more).Begins (bytes ++ more) := by
  have hextend := buffer.store_slice_extend 0 bytes.length more
  rw [Nat.zero_add, hbegins.2] at hextend
  rw [Begins, List.length_append]
  exact ⟨hle, hextend⟩

/-- Bytes in the middle are found where they are. -/
theorem Begins.slice_middle {buffer : Buffer} {front middle back : List UInt8}
    (hbegins : buffer.Begins (front ++ middle ++ back)) :
    buffer.slice front.length middle.length = middle := by
  have hmiddle := buffer.slice_drop_take 0 (front ++ middle ++ back).length front.length
    middle.length (by simp)
  rw [hbegins.2, List.append_assoc, List.drop_left, List.take_left, Nat.zero_add] at hmiddle
  exact hmiddle.symm

/-- A store over bytes in the middle exchanges them. -/
theorem Begins.store_middle {buffer : Buffer} {front middle back other : List UInt8}
    (hbegins : buffer.Begins (front ++ middle ++ back)) (hlength : other.length = middle.length) :
    (buffer.store front.length other).Begins (front ++ other ++ back) := by
  have hslice := hbegins.2
  have hfront := buffer.slice_drop_take 0 (front ++ middle ++ back).length 0 front.length (by simp)
  have hback := buffer.slice_drop_take 0 (front ++ middle ++ back).length
    (front.length + middle.length) back.length (by rw [List.length_append, List.length_append])
  rw [hslice, List.drop_zero, List.append_assoc, List.take_left] at hfront
  rw [hslice, ← List.length_append, List.drop_left, List.take_length] at hback
  constructor
  · have hle := hbegins.1
    rw [List.length_append, List.length_append] at hle ⊢
    rw [hlength]
    exact hle
  · rw [List.length_append, List.length_append, slice_add, slice_add, Nat.zero_add,
      store_slice_disjoint _ _ _ _ _ (.inl (by omega)), store_slice_self,
      store_slice_disjoint _ _ _ _ _ (.inr (by omega)), ← hfront, hlength, ← List.length_append]
    rw [Nat.zero_add] at hback ⊢
    rw [← hback]

end Buffer
