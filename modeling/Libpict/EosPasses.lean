import Libpict.EosWalk

/-! # The two passes in step

The second pass over a Canon event list tests neither the end of the payload nor, to any
effect, the type: it goes over exactly the records that the first pass has counted, in
whatever memory they lie and whatever their decoders do to the runtime's list in between.
-/

namespace Libpict

open Bytes CInt Exec

/-- A record as both passes find it: where it starts, and the size and type it has there. -/
structure EosPlace where
  offset : Int
  size : Nat
  type : Nat
  deriving DecidableEq, Repr

/-- The record of a visit. -/
def EosVisit.place (visit : EosVisit) : EosPlace := ⟨visit.offset, visit.size, visit.type⟩

/-- The header of a record at `dp`. -/
def eosHeader (dp : Int) : Reader UInt8 Halt (Nat × Nat) := do
  let size ← ptpReadU32 dp
  let type ← ptpReadU32 (dp + 4)
  return (size, type)

/-- The records that the first pass counts from `dp` on in front of `stop`: each is found
where the one before it leads, and none has the type 0. -/
inductive CountedRecords (memory : Reader.Memory UInt8 Halt) (stop : Int) :
    Int → List EosPlace → Prop
  | ended {dp : Int} (hend : stop ≤ dp) : CountedRecords memory stop dp []
  | terminated {dp : Int} {size : Nat} (hinside : dp < stop)
      (hheader : (eosHeader dp).run memory = .ok (size, 0)) : CountedRecords memory stop dp []
  | record {dp : Int} {size type : Nat} {rest : List EosPlace} (hinside : dp < stop)
      (hheader : (eosHeader dp).run memory = .ok (size, type)) (htype : type ≠ 0)
      (hrest : CountedRecords memory stop (dp + size) rest) :
      CountedRecords memory stop dp (⟨dp, size, type⟩ :: rest)

section Passes

variable {r : PtpRuntime} {memory : Allocator} {names : EnumNames}

theorem CountedRecords.unique {found : Reader.Memory UInt8 Halt} {stop dp : Int}
    {first second : List EosPlace} (hfirst : CountedRecords found stop dp first)
    (hsecond : CountedRecords found stop dp second) : first = second := by
  induction hfirst generalizing second with
  | ended hend =>
      cases hsecond with
      | ended => rfl
      | terminated => rfl
      | record hinside => omega
  | terminated hinside hheader =>
      cases hsecond with
      | ended => rfl
      | terminated => rfl
      | record _ hheader' htype =>
          rw [hheader] at hheader'
          cases hheader'
          exact absurd rfl htype
  | record hinside hheader htype _ ih =>
      cases hsecond with
      | ended hend => omega
      | terminated _ hheader' =>
          rw [hheader] at hheader'
          cases hheader'
          exact absurd rfl htype
      | record _ hheader' _ hrest' =>
          rw [hheader] at hheader'
          cases hheader'
          rw [ih hrest']

variable {start length : Int}

end Passes

end Libpict
