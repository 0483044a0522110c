import Libpict.Base.Keyed
import Libpict.Base.Reader
import Libpict.RuntimeLaws

/-! # Allowed property values

The runtime keeps a linked list of properties with an array of the values each may
take. It is changed by `ptp_set_prop_avail_info`, which copies the array from the
payload of a device's event, and consulted before a property is set.
-/

namespace Libpict

open Bytes CInt

/-- `struct PtpPropAvail`, without its links. -/
structure PtpPropAvail where
  code : Int
  membSize : Int
  membCnt : Int
  data : Option Buffer

/-- `r->avail` and the nodes before it, along `prev`; and how many blocks have been
asked of the allocator so far. -/
structure AvailList where
  nodes : List PtpPropAvail
  allocations : Nat

/-- The allocator: what a block of the size holds when it is handed out as the
`allocations`-th one; `none` is NULL. -/
abbrev Allocator := (allocations size : Nat) → Option (Nat → UInt8)

/-- An allocator that never runs out. -/
def zeroedMemory : Allocator := fun _ _ => some fun _ => 0

/-- `sizeof(struct PtpPropAvail)`. -/
def propAvailSize : Nat := 40

/-- The zeroed node that `ptp_init` puts into the list. -/
def AvailList.initial : AvailList := ⟨[⟨0, 0, 0, none⟩], 0⟩

/-- `malloc`. -/
def Allocator.malloc (memory : Allocator) (allocations size : Nat) : Option Buffer :=
  (memory allocations size).map fun contents => ⟨size, contents⟩

/-- `realloc`: what the new block has in common with the old one is kept. -/
def Allocator.realloc (memory : Allocator) (allocations : Nat) (block : Option Buffer)
    (size : Nat) : Option Buffer :=
  (memory allocations size).map fun contents =>
    match block with
    | none => ⟨size, contents⟩
    | some old => ⟨size, fun index => if index < old.size then old.byte index else contents index⟩

/-- The allocator has a block for each of the sizes, asked for one after the other. -/
def Allocator.GrantsAll (memory : Allocator) : (allocations : Nat) → List Nat → Prop
  | _, [] => True
  | allocations, size :: sizes =>
      (memory allocations size).isSome ∧ memory.GrantsAll (allocations + 1) sizes

theorem Allocator.grantsAll_append (memory : Allocator) (allocations : Nat)
    (first second : List Nat) : memory.GrantsAll allocations (first ++ second) ↔
      memory.GrantsAll allocations first ∧
        memory.GrantsAll (allocations + first.length) second := by
  induction first generalizing allocations with
  | nil => exact (and_iff_right trivial).symm
  | cons size first ih =>
      rw [List.cons_append, Allocator.GrantsAll, ih, Allocator.GrantsAll, and_assoc,
        List.length_cons, Nat.add_assoc, Nat.add_comm 1]

/-- `memcpy` of `size` bytes at `data` to the start of the block. -/
def copyTo (block : Option Buffer) (data : Int) (size : Nat) : Reader UInt8 Halt Buffer := do
  let bytes ← Reader.read data size
  match block with
  | none => .stop .undefined
  | some block => if size ≤ block.size then .done (block.store 0 bytes) else .stop .undefined

/-- `memb_size * cnt` where a size is expected. -/
def productSize (membSize cnt : Int) : Reader UInt8 Halt Nat :=
  if Fits (membSize * cnt) then .done (toSize (membSize * cnt)) else .stop .undefined

/-- `ptp_set_prop_avail_info`. -/
def ptpSetPropAvailInfo (memory : Allocator) (avail : AvailList) (code membSize cnt data : Int) :
    Reader UInt8 Halt AvailList :=
  match avail.nodes with
  | [] => .stop (.panic "abort")
  | head :: rest =>
      match Keyed.find PtpPropAvail.code code (head :: rest) with
      | some n => do
          -- Only realloc if needed; neither the size nor the count of the node changes.
          let size ← productSize membSize cnt
          let (block, allocations) :=
            if n.membCnt < cnt then
              (memory.realloc avail.allocations n.data size, avail.allocations + 1)
            else (n.data, avail.allocations)
          let block ← copyTo block data size
          return ⟨Keyed.replace PtpPropAvail.code { n with data := some block } (head :: rest),
            allocations⟩
      | none => do
          -- Handle first element of linked list.
          let (prev, allocations) ←
            if head.code = 0 then pure (rest, avail.allocations)
            else match memory.malloc avail.allocations propAvailSize with
              | none => .stop .undefined
              | some _ => pure (head :: rest, avail.allocations + 1)
          let size ← productSize membSize cnt
          let block ← copyTo (memory.malloc allocations size) data size
          return ⟨⟨code, membSize, cnt, some block⟩ :: prev, allocations + 1⟩

/-- The `i`-th member of a node's block. -/
def PtpPropAvail.member (n : PtpPropAvail) (i : Nat) : Except Halt Nat :=
  if n.membSize = 4 ∨ n.membSize = 2 ∨ n.membSize = 1 then
    let width := n.membSize.toNat
    match n.data with
    | none => .error .undefined
    | some block =>
        if width * i + width ≤ block.size then .ok (leValue (block.slice (width * i) width))
        else .error .undefined
  else .error (.panic "Unsupported PTP prop length %X\n")

/-- The loop of `ptp_validate_property_value`, with `left` members to go from the `i`-th on. -/
def searchMembers (n : PtpPropAvail) (value : UInt32) : (left i : Nat) → Except Halt Int
  | 0, _ => .ok 2
  | left + 1, i => do
      let curVal ← n.member i
      if value.toNat = curVal then return 0
      searchMembers n value left (i + 1)

/-- `ptp_validate_property_value`. -/
def ptpValidatePropertyValue (avail : AvailList) (propCode : Int) (value : UInt32) :
    Except Halt Int :=
  match Keyed.find PtpPropAvail.code propCode avail.nodes with
  | none => .ok 1
  | some n => searchMembers n value n.membCnt.toNat 0

end Libpict
