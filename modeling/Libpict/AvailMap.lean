import Libpict.AvailList

/-! # The allowed values as a map

A call of `ptp_set_prop_avail_info` gives a property the list of values it may take.
As long as the calls for one property agree on the size and the number of the values,
the nodes are the last calls of their properties, and the check of a value answers
from the last list given.
-/

namespace Libpict

open Bytes CInt

/-- A call of `ptp_set_prop_avail_info` and the bytes of its list. -/
structure AvailUpdate where
  code : Int
  membSize : Nat
  cnt : Nat
  data : List UInt8
  data_length : data.length = membSize * cnt

namespace AvailUpdate

/-- The update is for a property, and its values have a size that can be checked. -/
structure Supported (update : AvailUpdate) : Prop where
  code_ne : update.code ≠ 0
  membSize : update.membSize = 1 ∨ update.membSize = 2 ∨ update.membSize = 4

def members (update : AvailUpdate) : List Nat :=
  (List.range update.cnt).map fun i => field update.membSize (update.membSize * i) update.data

/-- What the check of a value says after a history of updates. -/
def verdict (history : List AvailUpdate) (code : Int) (value : UInt32) : Int :=
  match Keyed.last AvailUpdate.code code history with
  | none => 1
  | some update => if value.toNat ∈ update.members then 0 else 2

/-- The updates of one property agree on the size and the number of its values. -/
def KeepShapes (history : List AvailUpdate) : Prop :=
  history.Pairwise fun first second => first.code = second.code →
    first.membSize = second.membSize ∧ first.cnt = second.cnt

end AvailUpdate

namespace AvailUpdate

/-- The blocks that the call for an update asks for, behind these updates: a node, unless its
property has one or the first is unused, and the node's list. -/
def asks (update : AvailUpdate) (listed : List AvailUpdate) : List Nat :=
  if (Keyed.find AvailUpdate.code update.code listed).isSome then []
  else if listed = [] then [update.data.length] else [propAvailSize, update.data.length]

/-- The blocks that a run of updates asks for. -/
def allAsk : (listed : List AvailUpdate) → List AvailUpdate → List Nat
  | _, [] => []
  | listed, update :: history =>
      update.asks listed ++ allAsk (Keyed.put AvailUpdate.code update listed) history

end AvailUpdate

/-- A run of updates. -/
def setAll (memory : Allocator) (avail : AvailList) : List AvailUpdate → Except Halt AvailList
  | [] => .ok avail
  | update :: history => do
      let avail ← (ptpSetPropAvailInfo memory avail update.code update.membSize update.cnt 0).run
        (Reader.only .undefined update.data)
      setAll memory avail history

/-! ## The nodes -/

namespace PtpPropAvail

/-- The node is what the update made of it. -/
structure Holds (n : PtpPropAvail) (update : AvailUpdate) : Prop where
  code : n.code = update.code
  membSize : n.membSize = update.membSize
  membCnt : n.membCnt = update.cnt
  data : ∃ block, n.data = some block ∧ block.size = update.data.length ∧
    block.slice 0 update.data.length = update.data

/-- The size of the node's block; NULL has none. -/
def blockSize (n : PtpPropAvail) : Nat := (n.data.map Buffer.size).getD 0

variable {n : PtpPropAvail} {update : AvailUpdate}

theorem Holds.blockSize (hholds : n.Holds update) : (n.blockSize : Int) = n.membSize * n.membCnt := by
  obtain ⟨block, hdata, hsize, _⟩ := hholds.data
  rw [PtpPropAvail.blockSize, hdata, Option.map_some, Option.getD_some, hsize, update.data_length,
    hholds.membSize, hholds.membCnt, Nat.cast_mul]

theorem Holds.member (hholds : n.Holds update) (hsupported : update.Supported) {i : Nat}
    (hi : i < update.cnt) :
    n.member i = .ok (field update.membSize (update.membSize * i) update.data) := by
  obtain ⟨block, hdata, hsize, hslice⟩ := hholds.data
  have hinside : update.membSize * i + update.membSize ≤ update.data.length := by
    rw [update.data_length, ← Nat.mul_succ]
    exact Nat.mul_le_mul_left _ hi
  have hwidth : n.membSize = 4 ∨ n.membSize = 2 ∨ n.membSize = 1 := by
    rw [hholds.membSize]
    have := hsupported.membSize
    omega
  rw [PtpPropAvail.member, if_pos hwidth, hdata, hholds.membSize]
  dsimp only
  rw [Int.toNat_natCast, if_pos (hsize ▸ hinside), field, ← hslice,
    Buffer.slice_drop_take _ _ _ _ _ hinside, Nat.zero_add]

/-- The loop finds the value exactly if it is among the members to go. -/
theorem searchMembers_of_members {value : UInt32} {f : Nat → Nat} {left i : Nat}
    (hmember : ∀ j < i + left, n.member j = .ok (f j)) :
    searchMembers n value left i =
      .ok (if value.toNat ∈ (List.range' i left).map f then 0 else 2) := by
  induction left generalizing i with
  | zero => rfl
  | succ left ih =>
      rw [searchMembers, hmember i (by omega), List.range'_succ, List.map_cons]
      have hrest := ih (i := i + 1) fun j hj => hmember j (by omega)
      simp only [bind, Except.bind, pure, Except.pure, List.mem_cons]
      split
      next hfound => simp [hfound]
      next hother =>
        rw [hrest]
        simp only [hother, false_or]

theorem Holds.search (hholds : n.Holds update) (hsupported : update.Supported) (value : UInt32) :
    searchMembers n value n.membCnt.toNat 0 =
      .ok (if value.toNat ∈ update.members then 0 else 2) := by
  rw [hholds.membCnt, Int.toNat_natCast, AvailUpdate.members, List.range_eq_range']
  apply searchMembers_of_members
  intro j hj
  exact hholds.member hsupported (by omega)

end PtpPropAvail

/-! ## The list -/

/-- The nodes are those of the last updates of their properties; before the first update
there is the node that `ptp_init` made. -/
inductive Represents : List PtpPropAvail → List AvailUpdate → Prop
  | initial : Represents AvailList.initial.nodes []
  | nodes {nodes : List PtpPropAvail} {first : AvailUpdate} {rest : List AvailUpdate}
      (hnodes : List.Forall₂ PtpPropAvail.Holds nodes (first :: rest))
      (hcode : ∀ update ∈ first :: rest, update.code ≠ 0) : Represents nodes (first :: rest)

section Calls

variable {memory : Allocator} {start : Int} {window : List UInt8} {offset : Nat}
  {update : AvailUpdate}

/-- The list that the update was called with is in the window. -/
structure AvailUpdate.Shown (update : AvailUpdate) (window : List UInt8) (offset : Nat) : Prop where
  inside : offset + update.data.length ≤ window.length
  data : (window.drop offset).take update.data.length = update.data
  fits : Fits (update.data.length : Nat)

/-- Where the list has its place in the block, the copy leaves it there. -/
theorem copyTo_view (hshown : update.Shown window offset) {block : Buffer}
    (hsize : block.size = update.data.length) :
    (copyTo (some block) (start + offset) update.data.length).view start window =
      some (.ok (block.store 0 update.data)) := by
  unfold copyTo
  rw [Reader.view_bind_ok (Reader.view_read hshown.inside), hshown.data]
  dsimp only
  rw [if_pos (Nat.le_of_eq hsize.symm)]
  rfl

theorem productSize_eq (hfits : Fits (update.data.length : Nat)) :
    productSize update.membSize update.cnt = .done update.data.length := by
  rw [update.data_length] at hfits ⊢
  unfold productSize
  rw [← Nat.cast_mul, if_pos hfits]
  congr 1
  unfold Fits at hfits
  unfold toSize
  omega

theorem PtpPropAvail.holds_store (n : PtpPropAvail) {block : Buffer} (hcode : n.code = update.code)
    (hmembSize : n.membSize = update.membSize) (hmembCnt : n.membCnt = update.cnt)
    (hsize : block.size = update.data.length) :
    PtpPropAvail.Holds { n with data := some (block.store 0 update.data) } update :=
  ⟨hcode, hmembSize, hmembCnt, block.store 0 update.data, rfl, hsize,
    Buffer.store_slice_self block 0 update.data⟩

/-- A call for a property whose node has the same count copies the list over the old one. -/
theorem ptpSetPropAvailInfo_present (hshown : update.Shown window offset) {head n : PtpPropAvail}
    {prev : List PtpPropAvail} {allocations : Nat} {block : Buffer}
    (hfind : Keyed.find PtpPropAvail.code update.code (head :: prev) = some n)
    (hcnt : n.membCnt = update.cnt) (hdata : n.data = some block)
    (hsize : block.size = update.data.length) :
    (ptpSetPropAvailInfo memory ⟨head :: prev, allocations⟩ update.code update.membSize update.cnt
      (start + offset)).view start window =
      some (.ok ⟨Keyed.replace PtpPropAvail.code
        { n with data := some (block.store 0 update.data) } (head :: prev), allocations⟩) := by
  have hroom : ¬n.membCnt < update.cnt := hcnt ▸ lt_irrefl _
  unfold ptpSetPropAvailInfo
  simp only [hfind, productSize_eq hshown.fits, Reader.done_bind, if_neg hroom, hdata]
  rw [Reader.view_bind_ok (copyTo_view hshown hsize)]
  rfl

/-- The allocator grants what a further node with a block of the size takes. -/
def AvailList.CanAdd (memory : Allocator) (avail : AvailList) (size : Nat) : Prop :=
  match avail.nodes with
  | [] => False
  | head :: _ =>
      if head.code = 0 then (memory avail.allocations size).isSome = true
      else (memory avail.allocations propAvailSize).isSome = true ∧
        (memory (avail.allocations + 1) size).isSome = true

theorem Allocator.malloc_of_isSome {allocations size : Nat}
    (hgranted : (memory allocations size).isSome) :
    ∃ block, memory.malloc allocations size = some block ∧ block.size = size := by
  obtain ⟨contents, hcontents⟩ := Option.isSome_iff_exists.mp hgranted
  exact ⟨⟨size, contents⟩, by rw [Allocator.malloc, hcontents, Option.map_some], rfl⟩

/-- A call for a property without a node makes one, out of the first node if that is unused. -/
theorem ptpSetPropAvailInfo_absent (hshown : update.Shown window offset) {head : PtpPropAvail}
    {prev : List PtpPropAvail} {allocations : Nat}
    (hfind : Keyed.find PtpPropAvail.code update.code (head :: prev) = none)
    (hgranted : AvailList.CanAdd memory ⟨head :: prev, allocations⟩ update.data.length) :
    ∃ n, n.Holds update ∧
      (ptpSetPropAvailInfo memory ⟨head :: prev, allocations⟩ update.code update.membSize
        update.cnt (start + offset)).view start window =
        some (.ok ⟨n :: (if head.code = 0 then prev else head :: prev),
          allocations + (if head.code = 0 then 1 else 2)⟩) := by
  have hfits := productSize_eq hshown.fits
  unfold ptpSetPropAvailInfo
  rw [AvailList.CanAdd] at hgranted
  dsimp only at hgranted
  by_cases hhead : head.code = 0
  · rw [if_pos hhead] at hgranted
    obtain ⟨block, hmalloc, hsize⟩ := Allocator.malloc_of_isSome hgranted
    have hnew := PtpPropAvail.holds_store ⟨update.code, update.membSize, update.cnt, none⟩
      (Eq.refl update.code) rfl rfl hsize
    refine ⟨_, hnew, ?_⟩
    simp only [hfind, if_pos hhead, Reader.pure_eq, Reader.done_bind, hfits, hmalloc]
    rw [Reader.view_bind_ok (copyTo_view hshown hsize)]
    rfl
  · rw [if_neg hhead] at hgranted
    obtain ⟨node, hcalloc, _⟩ := Allocator.malloc_of_isSome hgranted.1
    obtain ⟨block, hmalloc, hsize⟩ := Allocator.malloc_of_isSome hgranted.2
    have hnew := PtpPropAvail.holds_store ⟨update.code, update.membSize, update.cnt, none⟩
      (Eq.refl update.code) rfl rfl hsize
    refine ⟨_, hnew, ?_⟩
    simp only [hfind, if_neg hhead, hcalloc, Reader.pure_eq, Reader.done_bind, hfits, hmalloc]
    rw [Reader.view_bind_ok (copyTo_view hshown hsize)]
    rfl

/-! ## Exactly which calls are carried out -/

/-- What the call finds under its property: a node of its own shape, or none and the memory
for one. -/
def AvailUpdate.Carried (memory : Allocator) (update : AvailUpdate) (before : AvailList) : Prop :=
  match Keyed.find PtpPropAvail.code update.code before.nodes with
  | some n => n.membSize = update.membSize ∧ n.membCnt = update.cnt ∧
      ∃ block, n.data = some block ∧ block.size = update.data.length
  | none => before.CanAdd memory update.data.length

/-- The list has come to hold the update, and what it held for other properties. -/
structure AvailUpdate.Lists (update : AvailUpdate) (before after : AvailList) : Prop where
  held : ∃ n, Keyed.find PtpPropAvail.code update.code after.nodes = some n ∧ n.Holds update
  others : ∀ code, code ≠ update.code → code ≠ 0 →
    Keyed.find PtpPropAvail.code code after.nodes = Keyed.find PtpPropAvail.code code before.nodes

theorem copyTo_eq_ok {block : Option Buffer} {data : Int} {size : Nat} {copied : Buffer}
    (hview : (copyTo block data size).view start window = some (.ok copied)) :
    ∃ old, block = some old ∧ copied.size = old.size := by
  unfold copyTo at hview
  obtain ⟨bytes, _, hcopied⟩ := Reader.view_bind_eq_ok.mp hview
  split at hcopied
  next => cases hcopied
  next old =>
    split at hcopied
    next =>
      cases hcopied
      exact ⟨old, rfl, rfl⟩
    next => cases hcopied

theorem carried_of_lists (hshown : update.Shown window offset) {before after : AvailList}
    (hview : (ptpSetPropAvailInfo memory before update.code update.membSize update.cnt
      (start + offset)).view start window = some (.ok after))
    (hlists : update.Lists before after) : update.Carried memory before := by
  obtain ⟨nodes, allocations⟩ := before
  have hfits := productSize_eq hshown.fits
  unfold AvailUpdate.Carried
  unfold ptpSetPropAvailInfo at hview
  cases nodes with
  | nil => cases hview
  | cons head prev =>
      dsimp only at hview ⊢
      cases hfind : Keyed.find PtpPropAvail.code update.code (head :: prev) with
      | some n =>
          dsimp only
          simp only [hfind, hfits, Reader.done_bind] at hview
          obtain ⟨copied, hcopied, hdone⟩ := Reader.view_bind_eq_ok.mp hview
          cases hdone
          obtain ⟨old, hold, hsize⟩ := copyTo_eq_ok hcopied
          -- The node keeps its size and count, whatever the call asks for.
          obtain ⟨m, hm, hholds⟩ := hlists.held
          have hcode : n.code = update.code := Keyed.key_of_find hfind
          rw [Keyed.find_replace, if_pos ⟨hcode, by rw [hfind]; rfl⟩] at hm
          cases hm
          have hcnt : n.membCnt = update.cnt := hholds.membCnt
          obtain ⟨block, hblock, hlength, _⟩ := hholds.data
          cases hblock
          rw [if_neg (hcnt ▸ lt_irrefl _)] at hold
          exact ⟨hholds.membSize, hcnt, old, hold, hsize ▸ hlength⟩
      | none =>
          simp only [hfind, hfits] at hview
          rw [AvailList.CanAdd]
          dsimp only
          have hgranted : ∀ {place : Nat} {finish : Buffer → AvailList},
              (copyTo (memory.malloc place update.data.length) (start + offset)
                update.data.length >>= fun block => .done (finish block)).view start window =
                  some (.ok after) → (memory place update.data.length).isSome = true := by
            intro place finish hcopy
            obtain ⟨copied, hcopied, _⟩ := Reader.view_bind_eq_ok.mp hcopy
            obtain ⟨old, hold, _⟩ := copyTo_eq_ok hcopied
            unfold Allocator.malloc at hold
            obtain ⟨contents, hcontents, _⟩ := Option.map_eq_some_iff.mp hold
            rw [hcontents]
            rfl
          by_cases hhead : head.code = 0
          · rw [if_pos hhead] at hview ⊢
            exact hgranted hview
          · rw [if_neg hhead] at hview ⊢
            cases hcalloc : memory.malloc allocations propAvailSize with
            | none =>
                rw [hcalloc] at hview
                cases hview
            | some node =>
                rw [hcalloc] at hview
                unfold Allocator.malloc at hcalloc
                obtain ⟨contents, hcontents, _⟩ := Option.map_eq_some_iff.mp hcalloc
                rw [hcontents]
                exact ⟨rfl, hgranted hview⟩

theorem lists_of_carried (hshown : update.Shown window offset) {before : AvailList}
    (hcarried : update.Carried memory before) :
    ∃ after, (ptpSetPropAvailInfo memory before update.code update.membSize update.cnt
        (start + offset)).view start window = some (.ok after) ∧ update.Lists before after := by
  obtain ⟨nodes, allocations⟩ := before
  unfold AvailUpdate.Carried at hcarried
  dsimp only at hcarried
  cases nodes with
  | nil => exact hcarried.elim
  | cons head prev =>
      cases hfind : Keyed.find PtpPropAvail.code update.code (head :: prev) with
      | some n =>
          rw [hfind] at hcarried
          obtain ⟨hmembSize, hcnt, block, hdata, hsize⟩ := hcarried
          have hcode : n.code = update.code := Keyed.key_of_find hfind
          refine ⟨_, ptpSetPropAvailInfo_present hshown hfind hcnt hdata hsize, ?_, ?_⟩
          · refine ⟨_, ?_, n.holds_store hcode hmembSize hcnt hsize⟩
            rw [Keyed.find_replace, if_pos ⟨hcode, by rw [hfind]; rfl⟩]
          · intro code hother _
            rw [Keyed.find_replace, if_neg]
            exact fun h => hother (h.1.symm.trans hcode)
      | none =>
          rw [hfind] at hcarried
          obtain ⟨n, hnew, hview⟩ := ptpSetPropAvailInfo_absent hshown hfind hcarried
          refine ⟨_, hview, ⟨n, ?_, hnew⟩, ?_⟩
          · rw [Keyed.find_cons, if_pos hnew.code]
          · intro code hother hused
            rw [Keyed.find_cons, if_neg (hnew.code ▸ hother.symm)]
            split
            next hhead => rw [Keyed.find_cons, if_neg (hhead ▸ hused.symm)]
            next => rfl

theorem Represents.of_forall₂ {nodes : List PtpPropAvail} {current : List AvailUpdate}
    (hnodes : List.Forall₂ PtpPropAvail.Holds nodes current)
    (hcode : ∀ update ∈ current, update.code ≠ 0) (hne : current ≠ []) :
    Represents nodes current := by
  cases current with
  | nil => exact absurd rfl hne
  | cons first rest => exact .nodes hnodes hcode

/-- A call whose shape is that of its property's node, or whose property has no node,
makes the nodes those of the updates with its own put among them, and asks for the blocks that
it needs for that. -/
theorem ptpSetPropAvailInfo_view (start : Int) {avail : AvailList} {current : List AvailUpdate}
    (hrepresents : Represents avail.nodes current) (hshown : update.Shown window offset)
    (hcode : update.code ≠ 0)
    (hshape : ∀ previous, Keyed.find AvailUpdate.code update.code current = some previous →
      previous.membSize = update.membSize ∧ previous.cnt = update.cnt)
    (hmemory : memory.GrantsAll avail.allocations (update.asks current)) :
    ∃ after, (ptpSetPropAvailInfo memory avail update.code update.membSize update.cnt
        (start + offset)).view start window = some (.ok after) ∧
      Represents after.nodes (Keyed.put AvailUpdate.code update current) ∧
      after.allocations = avail.allocations + (update.asks current).length := by
  obtain ⟨nodes, allocations⟩ := avail
  dsimp only at hrepresents hmemory
  cases hrepresents with
  | initial =>
      have habsent : Keyed.find PtpPropAvail.code update.code AvailList.initial.nodes = none :=
        Keyed.find_eq_none.mpr fun n hn => by
          rw [List.mem_singleton.mp hn]
          exact hcode.symm
      have hgranted : AvailList.CanAdd memory ⟨AvailList.initial.nodes, allocations⟩
          update.data.length := hmemory.1
      obtain ⟨n, hnew, hview⟩ := ptpSetPropAvailInfo_absent hshown habsent hgranted
      exact ⟨_, hview, .nodes (.cons hnew .nil) (by simpa using hcode), rfl⟩
  | @nodes nodes first rest hnodes hcodes =>
      have hput : ∀ entry ∈ Keyed.put AvailUpdate.code update (first :: rest), entry.code ≠ 0 := by
        intro entry hentry
        rcases Keyed.mem_of_mem_put hentry with rfl | hold
        · exact hcode
        · exact hcodes entry hold
      have hkey : ∀ n u, PtpPropAvail.Holds n u → n.code = u.code := fun _ _ h => h.code
      have hfound := Keyed.find_forall₂ hkey hnodes update.code
      obtain ⟨head, prev, hhead, hprev, rfl⟩ := List.forall₂_cons_right_iff.mp hnodes
      generalize hfind : Keyed.find PtpPropAvail.code update.code (head :: prev) = node at hfound
      generalize hprevious : Keyed.find AvailUpdate.code update.code (first :: rest) = found
        at hfound
      cases hfound with
      | @some n previous hholds =>
          obtain ⟨hmembSize, hcnt⟩ := hshape previous hprevious
          obtain ⟨block, hdata, hsize, _⟩ := hholds.data
          rw [previous.data_length, hmembSize, hcnt, ← update.data_length] at hsize
          have hcount : n.membCnt = update.cnt := hholds.membCnt.trans (congrArg Nat.cast hcnt)
          have hnew := n.holds_store (Keyed.key_of_find hfind)
            (hholds.membSize.trans (congrArg Nat.cast hmembSize)) hcount hsize
          have hasks : update.asks (first :: rest) = [] := by
            rw [AvailUpdate.asks, if_pos (by rw [hprevious]; rfl)]
          refine ⟨_, ptpSetPropAvailInfo_present hshown hfind hcount hdata hsize, ?_,
            by rw [hasks]; rfl⟩
          have hne : Keyed.put AvailUpdate.code update (first :: rest) ≠ [] := Keyed.put_ne_nil
          rw [Keyed.put, if_pos (by rw [hprevious]; rfl)] at hne hput ⊢
          exact .of_forall₂ (Keyed.forall₂_replace hkey hnodes hnew) hput hne
      | none =>
          have hasks : update.asks (first :: rest) = [propAvailSize, update.data.length] := by
            rw [AvailUpdate.asks, if_neg (by rw [hprevious]; exact Bool.false_ne_true),
              if_neg (List.cons_ne_nil _ _)]
          have hused : head.code ≠ 0 := fun h =>
            hcodes first List.mem_cons_self (hhead.code ▸ h)
          have hgranted : AvailList.CanAdd memory ⟨head :: prev, allocations⟩
              update.data.length := by
            rw [hasks] at hmemory
            rw [AvailList.CanAdd]
            dsimp only
            rw [if_neg hused]
            exact ⟨hmemory.1, hmemory.2.1⟩
          obtain ⟨n, hnew, hview⟩ := ptpSetPropAvailInfo_absent hshown hfind hgranted
          rw [if_neg hused, if_neg hused] at hview
          refine ⟨_, hview, ?_, by rw [hasks]; rfl⟩
          rw [Keyed.put, if_neg (by rw [hprevious]; exact Bool.false_ne_true)] at hput ⊢
          exact .nodes (.cons hnew hnodes) hput

end Calls

/-! ## Histories -/

section Histories

variable {memory : Allocator}

theorem Represents.of_find {nodes : List PtpPropAvail} {current : List AvailUpdate}
    (hrepresents : Represents nodes current) (hne : current ≠ []) (code : Int) :
    Option.Rel PtpPropAvail.Holds (Keyed.find PtpPropAvail.code code nodes)
      (Keyed.find AvailUpdate.code code current) := by
  cases hrepresents with
  | initial => exact absurd rfl hne
  | nodes hnodes => exact Keyed.find_forall₂ (fun _ _ h => h.code) hnodes code

/-- The check answers from the list that the property was given. -/
theorem ptpValidatePropertyValue_of_represents {avail : AvailList} {current : List AvailUpdate}
    (hrepresents : Represents avail.nodes current)
    (hsupported : ∀ update ∈ current, update.Supported) {code : Int} (value : UInt32)
    (hcode : code ≠ 0 ∨ current ≠ []) :
    ptpValidatePropertyValue avail code value =
      .ok (match Keyed.find AvailUpdate.code code current with
        | none => 1
        | some update => if value.toNat ∈ update.members then 0 else 2) := by
  unfold ptpValidatePropertyValue
  by_cases hempty : current = []
  · subst hempty
    have hused : code ≠ 0 := hcode.resolve_right fun h => h rfl
    generalize hnodes : avail.nodes = nodes at hrepresents
    cases hrepresents with
    | initial =>
        have habsent : Keyed.find PtpPropAvail.code code AvailList.initial.nodes = none :=
          Keyed.find_eq_none.mpr fun n hn => by
            rw [List.mem_singleton.mp hn]
            exact hused.symm
        rw [habsent, Keyed.find_nil]
  · have hfound := hrepresents.of_find hempty code
    generalize Keyed.find PtpPropAvail.code code avail.nodes = node at hfound
    generalize hupdate : Keyed.find AvailUpdate.code code current = found at hfound
    cases hfound with
    | some hholds => exact hholds.search (hsupported _ (Keyed.mem_of_find hupdate)) value
    | none => rfl

/-- The current updates after a history. -/
def current (history : List AvailUpdate) : List AvailUpdate :=
  history.foldl (fun entries update => Keyed.put AvailUpdate.code update entries) []

theorem current_concat (history : List AvailUpdate) (update : AvailUpdate) :
    current (history ++ [update]) = Keyed.put AvailUpdate.code update (current history) := by
  rw [current, List.foldl_concat]
  rfl

theorem current_ne_nil {history : List AvailUpdate} (hne : history ≠ []) : current history ≠ [] := by
  rcases List.eq_nil_or_concat history with rfl | ⟨front, last, rfl⟩
  · exact absurd rfl hne
  · rw [List.concat_eq_append, current_concat]
    exact Keyed.put_ne_nil

/-- A history that keeps the shapes runs, and leads to its current updates. -/
theorem setAll_represents {past history : List AvailUpdate} {avail : AvailList}
    (hrepresents : Represents avail.nodes (current past))
    (hshapes : AvailUpdate.KeepShapes (past ++ history))
    (hcodes : ∀ update ∈ history, update.code ≠ 0)
    (hfits : ∀ update ∈ history, Fits (update.data.length : Nat))
    (hmemory : memory.GrantsAll avail.allocations (AvailUpdate.allAsk (current past) history)) :
    ∃ after, setAll memory avail history = .ok after ∧
      Represents after.nodes (current (past ++ history)) := by
  induction history generalizing past avail with
  | nil => exact ⟨avail, rfl, by rwa [List.append_nil]⟩
  | cons update history ih =>
      have hshape : ∀ previous, Keyed.find AvailUpdate.code update.code (current past) =
          some previous → previous.membSize = update.membSize ∧ previous.cnt = update.cnt := by
        intro previous hprevious
        have hmem := Keyed.mem_of_mem_foldl_put (Keyed.mem_of_find hprevious)
        have hcode := Keyed.key_of_find hprevious
        have hpairs := (List.pairwise_append.mp hshapes).2.2
        exact hpairs previous hmem update List.mem_cons_self hcode
      have hshown : update.Shown update.data 0 :=
        ⟨by omega, by rw [List.drop_zero, List.take_length], hfits update List.mem_cons_self⟩
      obtain ⟨hgranted, hlater⟩ := (memory.grantsAll_append _ _ _).mp hmemory
      obtain ⟨middle, hview, hmiddle, hasked⟩ := ptpSetPropAvailInfo_view 0 hrepresents hshown
        (hcodes update List.mem_cons_self) hshape hgranted
      have hrun : (ptpSetPropAvailInfo memory avail update.code update.membSize update.cnt 0).run
          (Reader.only .undefined update.data) = .ok middle :=
        Reader.run_of_view (Reader.only_shows .undefined update.data) hview
      rw [← current_concat] at hmiddle hlater
      rw [← hasked] at hlater
      rw [List.append_cons] at hshapes ⊢
      obtain ⟨after, hafter, hend⟩ := ih hmiddle hshapes
        (fun other hother => hcodes other (List.mem_cons_of_mem update hother))
        (fun other hother => hfits other (List.mem_cons_of_mem update hother)) hlater
      refine ⟨after, ?_, hend⟩
      rw [setAll, hrun]
      exact hafter

theorem Represents.nodup {nodes : List PtpPropAvail} {entries : List AvailUpdate}
    (hrepresents : Represents nodes entries)
    (hdistinct : (entries.map AvailUpdate.code).Nodup) :
    (nodes.map PtpPropAvail.code).Nodup := by
  cases hrepresents with
  | initial => exact List.nodup_singleton _
  | nodes hnodes =>
      have hcodes := List.rel_map (fun _ _ h => PtpPropAvail.Holds.code h) hnodes
      rw [List.forall₂_eq_eq_eq] at hcodes
      rwa [hcodes]

theorem Represents.blockSize {nodes : List PtpPropAvail} {entries : List AvailUpdate}
    (hrepresents : Represents nodes entries) {n : PtpPropAvail} (hn : n ∈ nodes) :
    (n.blockSize : Int) = n.membSize * n.membCnt := by
  cases hrepresents with
  | initial =>
      rw [List.mem_singleton.mp hn]
      rfl
  | nodes hnodes =>
      have hsizes := hnodes.imp (S := fun n _ => (n.blockSize : Int) = n.membSize * n.membCnt ∧ True)
        fun _ _ h => ⟨h.blockSize, trivial⟩
      exact ((List.forall₂_and_left nodes _).mp hsizes).1 n hn

/-- The list is a map in which the last update wins: the check of a value answers from the
last list given for its property, every block has the size of its members, and no property
has two nodes. Code 0 marks the node that is there before the first update. -/
structure AvailList.IsMapOf (avail : AvailList) (history : List AvailUpdate) : Prop where
  validates : ∀ code value, code ≠ 0 ∨ history ≠ [] →
    ptpValidatePropertyValue avail code value = .ok (AvailUpdate.verdict history code value)
  blocks : ∀ n ∈ avail.nodes, (n.blockSize : Int) = n.membSize * n.membCnt
  distinct : (avail.nodes.map PtpPropAvail.code).Nodup

/-- The last update wins as long as the updates of each property agree on the size and the
number of its values, and the blocks that are asked for are granted. -/
theorem last_update_wins (memory : Allocator) (history : List AvailUpdate)
    (hsupported : ∀ update ∈ history, update.Supported)
    (hshapes : AvailUpdate.KeepShapes history)
    (hfits : ∀ update ∈ history, Fits (update.data.length : Nat))
    (hmemory : memory.GrantsAll AvailList.initial.allocations (AvailUpdate.allAsk [] history)) :
    ∃ avail, setAll memory AvailList.initial history = .ok avail ∧ avail.IsMapOf history := by
  have hinitial : Represents AvailList.initial.nodes (current []) := .initial
  obtain ⟨avail, hrun, hrepresents⟩ := setAll_represents hinitial hshapes
    (fun update hupdate => (hsupported update hupdate).code_ne) hfits hmemory
  rw [List.nil_append] at hrepresents
  have hcurrent : ∀ update ∈ current history, update.Supported := fun update hupdate =>
    hsupported update (Keyed.mem_of_mem_foldl_put hupdate)
  refine ⟨avail, hrun, fun code value hcode => ?_, fun n hn => hrepresents.blockSize hn,
    hrepresents.nodup Keyed.nodup_foldl_put⟩
  rw [ptpValidatePropertyValue_of_represents hrepresents hcurrent value
    (hcode.imp_right current_ne_nil), current, Keyed.find_foldl_put, AvailUpdate.verdict]

end Histories

/-- Apertures and speeds, and the apertures again. -/
def steadyHistory : List AvailUpdate :=
  [⟨0xD101, 1, 2, [8, 11], rfl⟩, ⟨0xD102, 2, 1, [0, 1], rfl⟩,
    ⟨0xD101, 1, 2, [11, 13], rfl⟩]

theorem steadyHistory_supported : ∀ update ∈ steadyHistory, update.Supported := by
  simp only [steadyHistory, List.forall_mem_cons]
  exact ⟨⟨by decide, .inl rfl⟩, ⟨by decide, .inr (.inl rfl)⟩, ⟨by decide, .inl rfl⟩,
    fun _ h => nomatch h⟩

theorem last_update_wins_steady :
    ∃ avail, setAll zeroedMemory AvailList.initial steadyHistory = .ok avail ∧
      avail.IsMapOf steadyHistory :=
  last_update_wins zeroedMemory steadyHistory steadyHistory_supported
    (by simp [steadyHistory, AvailUpdate.KeepShapes]) (by simp [steadyHistory, Fits])
    ⟨rfl, rfl, rfl, trivial⟩

/-- Two apertures, and then one. -/
def shrinkingHistory : List AvailUpdate :=
  [⟨0xD101, 1, 2, [8, 11], rfl⟩, ⟨0xD101, 1, 1, [8], rfl⟩]

/-- The aperture that the camera has withdrawn is still accepted. -/
theorem last_update_loses_shrinking :
    ¬∃ avail, setAll zeroedMemory AvailList.initial shrinkingHistory = .ok avail ∧
      avail.IsMapOf shrinkingHistory := by
  rintro ⟨avail, hrun, hmap⟩
  have hvalue := hmap.validates 0xD101 11 (.inl (by decide))
  have haccepted : (setAll zeroedMemory AvailList.initial shrinkingHistory >>= fun avail =>
      ptpValidatePropertyValue avail 0xD101 11) = .ok 0 := rfl
  have hverdict : AvailUpdate.verdict shrinkingHistory 0xD101 11 = 2 := by decide
  rw [hrun] at haccepted
  rw [hverdict] at hvalue
  cases haccepted.symm.trans hvalue

end Libpict
