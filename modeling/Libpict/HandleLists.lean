import Libpict.Objects
import Libpict.DatasetSafety

/-! # Lists of handles and storages

`dup_uint_array` copies a counted list of words out of a payload whose length it is not
given. It goes by the count alone: a list that ends before its count is read on behind the
payload, or written on behind the block when the size of the block has wrapped around.
-/

namespace Libpict

open Bytes CInt Exec

/-- The `count` words at an offset. -/
def wordsAt (payload : List UInt8) (offset count : Nat) : List UInt32 :=
  (List.range count).map fun index => UInt32.ofNat (field 4 (offset + 4 * index) payload)

@[simp] theorem wordsAt_length (payload : List UInt8) (offset count : Nat) :
    (wordsAt payload offset count).length = count := by simp [wordsAt]

theorem wordsAt_succ (payload : List UInt8) (offset count : Nat) :
    wordsAt payload offset (count + 1) =
      UInt32.ofNat (field 4 offset payload) :: wordsAt payload (offset + 4) count := by
  simp only [wordsAt, List.range_succ_eq_map, List.map_cons, List.map_map, Nat.mul_zero,
    Nat.add_zero]
  congr 1
  apply List.map_congr_left
  intro index _
  rw [Function.comp_apply, show offset + 4 * index.succ = offset + 4 + 4 * index by omega]

/-- The block that `dup_uint_array` asks for: the size is a product of 32-bit numbers. -/
def handleBlock (payload : List UInt8) : Nat := toUInt32 (4 + field 4 0 payload * 4)

/-- The payload is a count and as many words. -/
def CountedWords (payload : List UInt8) : Prop := payload.length = 4 + 4 * field 4 0 payload

/-- The count of the payload exceeds the words that follow it. -/
def CutShort (payload : List UInt8) : Prop :=
  4 ≤ payload.length ∧ payload.length < 4 + 4 * field 4 0 payload

section Copies

variable {start : Int} {payload : List UInt8}

/-- The loop finds the words, or asks for bytes behind the payload. -/
theorem dupEntries_view {left p : Nat} (hp : p ≤ payload.length) :
    (dupEntries start left p).view start payload =
      if p + 4 * left ≤ payload.length then some (.ok (wordsAt payload p left)) else none := by
  induction left generalizing p with
  | zero =>
      rw [if_pos (by omega)]
      rfl
  | succ left ih =>
      have hnext : ((p : Int) + 4) = (p + 4 : Nat) := by push_cast; rfl
      rw [dupEntries, readLe_bind_view rfl, hnext]
      by_cases hword : p + 4 ≤ payload.length
      · rw [if_pos hword, Reader.view_bind, ih hword]
        by_cases hrest : p + 4 + 4 * left ≤ payload.length
        · rw [if_pos hrest, if_pos (by omega), wordsAt_succ]
          rfl
        · rw [if_neg hrest, if_neg (by omega)]
      · rw [if_neg hword, if_neg (by omega)]

/-- What `dup_uint_array` does on a payload that has a count. -/
theorem dupUintArray_view (start : Int) (memory : Allocator) (allocations : Nat)
    (hcount : 4 ≤ payload.length) :
    (dupUintArray memory allocations start).view start payload =
      if (memory allocations (handleBlock payload)).isSome then
        if 4 + field 4 0 payload * 4 ≤ handleBlock payload then
          if 4 + 4 * field 4 0 payload ≤ payload.length then
            some (.ok (wordsAt payload 4 (field 4 0 payload)))
          else none
        else some (.error .undefined)
      else some (.error (.panic "oom")) := by
  have hloop : (dupEntries start (field 4 0 payload) (4 : Nat)).view start payload = _ :=
    dupEntries_view hcount
  rw [dupUintArray, readLe_bind_view (Int.add_zero start).symm, if_pos (by omega)]
  rw [Allocator.malloc, show toUInt32 (4 + field 4 0 payload * 4) = handleBlock payload from rfl]
  cases memory allocations (handleBlock payload) with
  | none => rfl
  | some contents =>
      change (if 4 + field 4 0 payload * 4 ≤ handleBlock payload then
        dupEntries start (field 4 0 payload) (4 : Nat)
        else .stop .undefined : Reader UInt8 Halt (List UInt32)).view start payload = _
      split
      next =>
        rw [hloop]
        rfl
      next => rfl

end Copies

/-! ## Exact and safe copies -/

section Lists

variable (memory : Allocator) (allocations : Nat) (r : PtpRuntime) (start : Int)
  (payload : List UInt8)

/-- The copy has the words of the payload in order, as many as its count says, in a block with
room for them and for the count. -/
def CopiesWords : Prop :=
  ∃ block, memory.malloc allocations (handleBlock payload) = some block ∧
    4 + 4 * field 4 0 payload ≤ block.size ∧
    (dupUintArray memory allocations start).run r.load =
      .ok (wordsAt payload 4 (field 4 0 payload)) ∧
    ∀ request ∈ (dupUintArray memory allocations start).reads r.load,
      Reader.Inside start payload.length request

/-- Nothing is read outside the payload and nothing written outside the block. -/
def CopiesInside : Prop :=
  (∀ request ∈ (dupUintArray memory allocations start).reads r.load,
    Reader.Inside start payload.length request) ∧
  (dupUintArray memory allocations start).run r.load ≠ .error .undefined

/-- Whole lists are copied as they are, and lists that are cut short do no harm. -/
def CopiesLists : Prop :=
  (CountedWords payload → CopiesWords memory allocations r start payload) ∧
  (CutShort payload → CopiesInside memory allocations r start payload)

variable {memory allocations r start payload} {length : Int}
  (hpayload : r.HasPayload start length payload)

include hpayload

/-- The size of the block does not wrap around for a list that is there. -/
theorem handleBlock_of_counted (hcounted : CountedWords payload) :
    handleBlock payload = 4 + 4 * field 4 0 payload := by
  have hlength := hpayload.length_le
  unfold CountedWords at hcounted
  unfold intMax at hlength
  unfold handleBlock toUInt32
  omega

theorem copiesWords_iff (hcounted : CountedWords payload) :
    CopiesWords memory allocations r start payload ↔
      (memory allocations (handleBlock payload)).isSome := by
  have hblock := handleBlock_of_counted hpayload hcounted
  have hview := dupUintArray_view start memory allocations
    (show 4 ≤ payload.length by rw [hcounted]; omega)
  constructor
  · rintro ⟨block, hmalloc, -⟩
    obtain ⟨contents, hcontents, -⟩ := Option.map_eq_some_iff.mp hmalloc
    rw [hcontents]
    rfl
  · intro hgranted
    obtain ⟨contents, hcontents⟩ := Option.isSome_iff_exists.mp hgranted
    rw [if_pos hgranted, if_pos (by omega), if_pos hcounted.ge] at hview
    obtain ⟨hrun, hinside⟩ := (Reader.view_eq_some_iff hpayload.shows).mp hview
    exact ⟨_, congrArg (Option.map _) hcontents, hblock.ge, hrun, hinside⟩

/-- Behind the payload there is always something to read or write, unless the block is refused. -/
theorem copiesInside_iff (hcut : CutShort payload) :
    CopiesInside memory allocations r start payload ↔
      ¬(memory allocations (handleBlock payload)).isSome := by
  have hview := dupUintArray_view start memory allocations hcut.1
  rw [if_neg (Nat.not_le.mpr hcut.2)] at hview
  constructor
  · rintro ⟨hinside, hrun⟩ hgranted
    rw [if_pos hgranted] at hview
    split at hview
    next => exact (Reader.inside_iff_view hpayload.shows).mp hinside hview
    next => exact hrun (Reader.run_of_view hpayload.shows hview)
  · intro hrefused
    rw [if_neg hrefused] at hview
    obtain ⟨hrun, hinside⟩ := (Reader.view_eq_some_iff hpayload.shows).mp hview
    exact ⟨hinside, fun h => nomatch hrun.symm.trans h⟩

end Lists

/-- Lists are copied exactly and harmlessly just where the allocator has a block for those that
are there, and none for those that are cut short. -/
theorem dupUintArray_iff (memory : Allocator) (allocations : Nat) (r : PtpRuntime)
    (start length : Int) (payload : List UInt8) (hpayload : r.HasPayload start length payload) :
    CopiesLists memory allocations r start payload ↔
      (CountedWords payload → (memory allocations (handleBlock payload)).isSome) ∧
      (CutShort payload → ¬(memory allocations (handleBlock payload)).isSome) :=
  and_congr (forall_congr' (copiesWords_iff hpayload)) (forall_congr' (copiesInside_iff hpayload))

theorem dupUintArray_iff_two : CopiesLists zeroedMemory 0
    (received (Container.bytes ptpPacketTypeData ⟨0, 0, [2, 0, 0, 0, 1, 0, 0, 0, 7, 0, 0, 0]⟩)) 12
    [2, 0, 0, 0, 1, 0, 0, 0, 7, 0, 0, 0] :=
  (dupUintArray_iff _ _ _ _ _ _ (received_hasPayload _ (by decide))).mpr
    ⟨fun _ => rfl, fun hcut => absurd hcut.2 (by decide)⟩

/-- A count of 2^30 in front of one word: the block has no room for the word. -/
theorem copiesLists_wrapped : ¬CopiesLists zeroedMemory 0
    (received (Container.bytes ptpPacketTypeData ⟨0, 0, [0, 0, 0, 0x40, 1, 0, 0, 0]⟩)) 12
    [0, 0, 0, 0x40, 1, 0, 0, 0] := by
  have hpayload := received_hasPayload [0, 0, 0, 0x40, 1, 0, 0, 0] (by decide)
  rintro ⟨-, hcut⟩
  have hinside := hcut ⟨by decide, by decide⟩
  exact (copiesInside_iff hpayload ⟨by decide, by decide⟩).mp hinside rfl

end Libpict
