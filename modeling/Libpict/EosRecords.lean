import Libpict.AvailMap
import Libpict.EosWalk

/-! # Decoding lists of records

A payload made of well-formed records one after the other. The walk over it meets every
record, and the event and the list that come of a record only depend on the record and on
the list before.
-/

namespace Libpict

open Bytes CInt Exec

/-- How many bytes the data of a record has at least: what its decoder asks for, and for a
list a byte for each member. -/
def eosNeeded (type : Nat) (body : List UInt8) : Nat :=
  if type = ptpEcEosPropValueChanged then if field 4 0 body = ptpDpcEosImageFormat then 24 else 8
  else if type = ptpEcEosRequestObjectTransfer then 8
  else if type = ptpEcEosObjectAddedEx then 4
  else if type = ptpEcEosAvailListChanged then 12 + field 4 8 body
  else 0

/-- A well-formed record. -/
structure EosRecord where
  type : Nat
  body : List UInt8
  type_ne : type ≠ 0
  type_lt : type < 4294967296
  size_lt : 8 + body.length < 4294967296
  complete : eosNeeded type body ≤ body.length

namespace EosRecord

variable (record : EosRecord)

def bytes : List UInt8 :=
  leBytes 4 (8 + record.body.length) ++ (leBytes 4 record.type ++ record.body)

/-- The `i`-th word of the data. -/
def word (i : Nat) : Nat := field 4 (4 * i) record.body

/-- The event says what the record says: the property and its value, both words of a request
for a transfer, the handle of a new object; and nothing for any other record. -/
def Reports (event : PtpGenericEvent) : Prop :=
  if record.type = ptpEcEosPropValueChanged then
    event.code.toNat = record.word 0 ∧ toUInt32 event.value = toUInt32 (eosPropWord record.word)
  else if record.type = ptpEcEosRequestObjectTransfer then
    event.code.toNat = record.word 0 ∧ toUInt32 event.value = record.word 1
  else if record.type = ptpEcEosObjectAddedEx then toUInt32 event.value = record.word 0
  else event.code = 0 ∧ event.value = 0

/-- The list of a list record: its members share what is behind the count. -/
def update : AvailUpdate where
  code := toInt32 (record.word 0)
  membSize := (record.body.length - 12) / record.word 2
  cnt := record.word 2
  data := (record.body.drop 12).take ((record.body.length - 12) / record.word 2 * record.word 2)
  data_length := by
    rw [List.length_take, List.length_drop]
    exact Nat.min_eq_left (Nat.div_mul_le_self _ _)

/-- The list has come to hold what the record lists, and what it held for other properties; a
record of another type leaves it alone. -/
def Lists (before after : AvailList) : Prop :=
  if record.type = ptpEcEosAvailListChanged then
    if record.word 2 = 0 then
      (∃ n, Keyed.find PtpPropAvail.code record.update.code after.nodes = some n ∧ n.membCnt = 0) ∧
        after.nodes = before.nodes
    else record.update.Lists before after
  else after.nodes = before.nodes

/-- No more of the first word than the event has room for. -/
def Narrow : Prop :=
  record.type = ptpEcEosPropValueChanged ∨ record.type = ptpEcEosRequestObjectTransfer →
    record.word 0 < 65536

/-- What a list record finds in the list: where it has no members, a node without any. -/
def Carried (memory : Allocator) (before : AvailList) : Prop :=
  record.type = ptpEcEosAvailListChanged →
    if record.word 2 = 0 then
      ∃ n, Keyed.find PtpPropAvail.code record.update.code before.nodes = some n ∧ n.membCnt = 0
    else record.update.Carried memory before

/-- The shape of the list that the record passes on, if it does. -/
def call : Option (Int × Int) :=
  if record.type = ptpEcEosAvailListChanged then
    eosListShape (8 + record.body.length) (record.word 2)
  else none

/-- The list takes what the record passes on, if it does. -/
def Updates (memory : Allocator) (before after : AvailList) : Prop :=
  match record.call with
  | none => after = before
  | some (membSize, cnt) =>
      (ptpSetPropAvailInfo memory before (toInt32 (record.word 0)) membSize cnt 0).run
        (Reader.only .undefined (record.body.drop 12)) = .ok after

theorem Updates.unique {record : EosRecord} {memory : Allocator} {before first second : AvailList}
    (hfirst : record.Updates memory before first) (hsecond : record.Updates memory before second) :
    first = second := by
  unfold Updates at hfirst hsecond
  split at hfirst
  next h =>
    rw [h] at hsecond
    exact hfirst.trans hsecond.symm
  next h =>
    rw [h] at hsecond
    exact Except.ok.inj (hfirst.symm.trans hsecond)

/-! ## The record in a payload -/

section InPayload

variable (front rest : List UInt8)

theorem bytes_length : record.bytes.length = 8 + record.body.length := by
  simp only [bytes, List.length_append, leBytes_length]
  omega

theorem eosSize_eq : eosSize (front ++ (record.bytes ++ rest)) front.length =
    8 + record.body.length := by
  have hbehind := field_behind 4 0 front (record.bytes ++ rest)
  rw [Nat.add_zero] at hbehind
  rw [eosSize, hbehind, bytes, List.append_assoc]
  exact field_leBytes record.size_lt _

theorem eosType_eq : eosType (front ++ (record.bytes ++ rest)) front.length = record.type := by
  rw [eosType, field_behind, bytes, List.append_assoc, List.append_assoc]
  exact field_leBytes_behind (leBytes_length _ _) record.type_lt _

/-- A field of the data. -/
theorem field_data {size i : Nat} (hle : i + size ≤ record.body.length) :
    field size (front.length + 8 + i) (front ++ (record.bytes ++ rest)) =
      field size i record.body := by
  have hheader : (leBytes 4 (8 + record.body.length) ++ leBytes 4 record.type).length = 8 := by
    simp
  have hbytes : record.bytes ++ rest = (leBytes 4 (8 + record.body.length) ++
      leBytes 4 record.type) ++ (record.body ++ rest) := by
    simp only [bytes, List.append_assoc]
  have hbehind := field_behind size i (leBytes 4 (8 + record.body.length) ++
    leBytes 4 record.type) (record.body ++ rest)
  rw [hheader] at hbehind
  rw [Nat.add_assoc, field_behind, hbytes, hbehind, field_append _ _ _ _ hle]

/-- What follows the 20-byte header of a list record. -/
theorem drop_header (hle : 12 ≤ record.body.length) :
    (front ++ (record.bytes ++ rest)).drop (front.length + 20) = record.body.drop 12 ++ rest := by
  have hheader : (leBytes 4 (8 + record.body.length) ++ leBytes 4 record.type).length = 8 := by
    simp
  have hbytes : record.bytes ++ rest = (leBytes 4 (8 + record.body.length) ++
      leBytes 4 record.type) ++ (record.body ++ rest) := by
    simp only [bytes, List.append_assoc]
  rw [List.drop_append, List.drop_eq_nil_of_le (by omega), List.nil_append,
    Nat.add_sub_cancel_left, hbytes, List.drop_append, List.drop_eq_nil_of_le (by omega),
    List.nil_append, hheader, List.drop_append_of_le_length hle]

theorem word_eq {i : Nat} (hle : 4 * i + 4 ≤ record.body.length) :
    field 4 (front.length + 8 + 4 * i) (front ++ (record.bytes ++ rest)) = record.word i :=
  record.field_data front rest hle

theorem eosBodySize_le :
    eosBodySize (front ++ (record.bytes ++ rest)) front.length ≤ record.body.length := by
  have hcomplete := record.complete
  unfold eosNeeded at hcomplete
  rw [eosBodySize, record.eosType_eq]
  by_cases hprop : record.type = ptpEcEosPropValueChanged
  · rw [if_pos hprop] at hcomplete ⊢
    have hlength : 0 + 4 ≤ record.body.length := by split at hcomplete <;> omega
    have hcode := record.field_data front rest hlength
    rw [Nat.add_zero] at hcode
    rwa [hcode]
  · rw [if_neg hprop] at hcomplete ⊢
    split_ifs at hcomplete ⊢ <;> omega

theorem uint16_toNat_iff (n : Nat) : (UInt16.ofNat n).toNat = n ↔ n < 65536 := by
  rw [UInt16.toNat_ofNat']
  omega

/-- The event of a record only depends on the record. -/
theorem eosEvent_eq (names : EnumNames) :
    eosEvent names (front ++ (record.bytes ++ rest)) front.length =
      eosEventOf names record.type record.word := by
  have hcomplete := record.complete
  have hword := fun i => record.word_eq front rest (i := i)
  unfold eosNeeded at hcomplete
  rw [eosEvent, record.eosType_eq]
  unfold eosEventOf
  by_cases hprop : record.type = ptpEcEosPropValueChanged
  · rw [if_pos hprop] at hcomplete ⊢
    rw [if_pos hprop]
    have hwords : 8 ≤ record.body.length := by split at hcomplete <;> omega
    have hresult : eosPropWord (fun i => field 4 (front.length + 8 + 4 * i)
        (front ++ (record.bytes ++ rest))) = eosPropWord record.word := by
      unfold eosPropWord
      simp only [hword 0 (by omega), hword 1 (by omega)]
      by_cases hformat : record.word 0 = ptpDpcEosImageFormat
      · rw [word, Nat.mul_zero] at hformat
        rw [if_pos hformat] at hcomplete
        simp only [hword 2 (by omega), hword 3 (by omega), hword 4 (by omega), hword 5 (by omega)]
      · rw [if_neg hformat, if_neg hformat]
    rw [hresult]
    simp only [hword 0 (by omega), hword 1 (by omega)]
  · rw [if_neg hprop] at hcomplete ⊢
    rw [if_neg hprop]
    by_cases hnamed : record.type = ptpEcEosInfoCheckComplete ∨ record.type = ptpDpcEosFocusInfoEx
    · rw [if_pos hnamed, if_pos hnamed]
    rw [if_neg hnamed, if_neg hnamed]
    split_ifs at hcomplete ⊢
    · simp only [hword 0 (by omega), hword 1 (by omega)]
    · simp only [hword 0 (by omega)]
    · rfl
    · rfl

theorem eosCall_eq :
    eosCall (front ++ (record.bytes ++ rest)) front.length = record.call := by
  unfold eosCall call
  rw [record.eosType_eq, record.eosSize_eq]
  split
  next hlist =>
    have hcomplete := record.complete
    rw [eosNeeded, hlist] at hcomplete
    have hcount := record.word_eq front rest (i := 2) (by simp at hcomplete; omega)
    rw [← hcount]
  next => rfl

end InPayload

/-! ## The list of a record -/

section Lists

variable {record} {memory : Allocator} (hlist : record.type = ptpEcEosAvailListChanged)
  (hint : (8 + record.body.length : Int) ≤ intMax)

include hlist

theorem count_le : 12 + record.word 2 ≤ record.body.length := by
  have hcomplete := record.complete
  rw [eosNeeded, hlist] at hcomplete
  exact hcomplete

include hint

theorem call_eq (hcount : record.word 2 ≠ 0) :
    record.call = some ((record.update.membSize : Int), (record.update.cnt : Int)) := by
  have hcount_le := count_le hlist
  have hle : (record.body.length - 12) / record.word 2 ≤ record.body.length - 12 :=
    Nat.div_le_self _ _
  unfold intMax at hint
  have hsize : toInt32 (((8 + record.body.length : Nat) : Int) - 20) =
      (record.body.length - 12 : Nat) := by
    unfold toInt32
    omega
  have hshape : eosListShape (8 + record.body.length) (record.word 2) =
      some (toInt32 ((record.body.length - 12) / record.word 2 : Nat),
        toInt32 (record.word 2)) := by
    unfold eosListShape
    rw [hsize]
    dsimp only
    rw [toUInt32_natCast, Nat.mod_eq_of_lt (by omega)]
    exact if_pos ⟨by omega, hcount⟩
  have hfits : ∀ n ≤ record.body.length - 12, toInt32 (n : Int) = n := fun n hn =>
    toInt32_of_fits (by unfold Fits; omega)
  rw [call, if_pos hlist, hshape, hfits _ hle, hfits _ (by omega)]
  rfl

omit hlist in
theorem update_shown : record.update.Shown (record.body.drop 12) 0 := by
  have hle : (record.body.length - 12) / record.word 2 * record.word 2 ≤ record.body.length - 12 :=
    Nat.div_mul_le_self _ _
  have hlength : record.update.data.length =
      (record.body.length - 12) / record.word 2 * record.word 2 := record.update.data_length
  refine ⟨?_, ?_, ?_⟩
  · rw [hlength, List.length_drop]
    omega
  · rw [hlength]
    rfl
  · rw [hlength]
    unfold intMax at hint
    unfold Fits
    omega

/-- The list that a record passes on is part of its data. -/
theorem list_size_le :
    12 + toSize ((record.update.membSize : Int) * record.update.cnt) ≤ record.body.length := by
  have hcount_le := count_le hlist
  have hshown : record.update.Shown (record.body.drop 12) 0 := update_shown hint
  have hinside := hshown.inside
  have hfits := hshown.fits
  rw [record.update.data_length] at hinside hfits
  rw [List.length_drop] at hinside
  unfold Fits at hfits
  rw [← Nat.cast_mul]
  unfold toSize
  omega

/-- A list record with members makes the call of its update. -/
theorem updates_iff_view (hcount : record.word 2 ≠ 0) {before after : AvailList} :
    record.Updates memory before after ↔
      (ptpSetPropAvailInfo memory before record.update.code record.update.membSize
        record.update.cnt (0 + (0 : Nat))).view 0 (record.body.drop 12) = some (.ok after) := by
  rw [Updates, call_eq hlist hint hcount]
  exact Reader.run_only_eq_ok

/-- What a record finds in the list decides whether the list comes to hold what it lists. -/
theorem carried_iff_of_list {before : AvailList} :
    record.Carried memory before ↔
      ∃ after, record.Updates memory before after ∧ record.Lists before after := by
  unfold Carried Lists
  simp only [hlist, if_true, true_imp_iff]
  by_cases hcount : record.word 2 = 0
  · have hcall : record.call = none := by
      rw [call, if_pos hlist, hcount]
      exact if_neg fun h => h.2 rfl
    simp only [if_pos hcount, Updates, hcall, exists_eq_left, and_true]
  · simp only [if_neg hcount, updates_iff_view hlist hint hcount]
    constructor
    · exact lists_of_carried (update_shown hint)
    · rintro ⟨after, hview, hlists⟩
      exact carried_of_lists (update_shown hint) hview hlists

end Lists

/-- What follows the list of a record is not looked at. -/
theorem set_run_append {memory : Allocator} {before : AvailList} {code membSize cnt : Int}
    {data : List UInt8} (rest : List UInt8) (hle : toSize (membSize * cnt) ≤ data.length) :
    (ptpSetPropAvailInfo memory before code membSize cnt 0).run
        (Reader.only .undefined (data ++ rest)) =
      (ptpSetPropAvailInfo memory before code membSize cnt 0).run
        (Reader.only .undefined data) := by
  rcases ptpSetPropAvailInfo_copies memory before code membSize cnt with
    ⟨reason, hstop⟩ | ⟨_, block, finish, hcopies⟩
  · rw [hstop]
    rfl
  · rw [hcopies, copyTo, Reader.bind_assoc, Reader.run_bind, Reader.run_bind, Reader.run_read,
      Reader.run_read, Reader.only_append rest hle]
    congr 1
    funext bytes
    cases block with
    | none => rfl
    | some block =>
        dsimp only
        split
        next => rfl
        next => rfl

/-- In a payload, the list takes what the record passes on. -/
theorem eosUpdates_iff (record : EosRecord) (front rest : List UInt8) {memory : Allocator}
    (hint : (8 + record.body.length : Int) ≤ intMax) {before after : AvailList} :
    EosUpdates memory (front ++ (record.bytes ++ rest)) front.length before after ↔
      record.Updates memory before after := by
  unfold EosUpdates Updates
  rw [record.eosCall_eq]
  cases hcall : record.call with
  | none => exact Iff.rfl
  | some shape =>
      obtain ⟨membSize, cnt⟩ := shape
      dsimp only
      obtain ⟨hlist, hshape⟩ := Option.ite_none_right_eq_some.mp hcall
      have hcount_le := count_le hlist
      have hcount : record.word 2 ≠ 0 := (Option.ite_none_right_eq_some.mp hshape).1.2
      rw [call_eq hlist hint hcount] at hcall
      obtain ⟨rfl, rfl⟩ := Prod.mk.inj (Option.some.inj hcall)
      have hcode := record.word_eq front rest (i := 0) (by omega)
      rw [Nat.mul_zero, Nat.add_zero] at hcode
      have hsize := list_size_le hlist hint
      have hroom : toSize ((record.update.membSize : Int) * record.update.cnt) ≤
          (record.body.drop 12).length := by
        rw [List.length_drop]
        omega
      rw [hcode, record.drop_header front rest (by omega), set_run_append rest hroom]

theorem carried_iff {record : EosRecord} {memory : Allocator}
    (hint : (8 + record.body.length : Int) ≤ intMax) {before : AvailList} :
    record.Carried memory before ↔
      ∃ after, record.Updates memory before after ∧ record.Lists before after := by
  by_cases hlist : record.type = ptpEcEosAvailListChanged
  · exact carried_iff_of_list hlist hint
  · have hcall : record.call = none := if_neg hlist
    refine iff_of_true (fun h => absurd h hlist) ⟨before, ?_, ?_⟩
    · rw [Updates, hcall]
    · rw [Lists, if_neg hlist]

/-- The event of a record reports it as far as its code has room. -/
theorem reports_iff (names : EnumNames) :
    record.Reports (eosEventOf names record.type record.word) ↔ record.Narrow := by
  have hword : ∀ i, toUInt32 (toInt32 (record.word i)) = record.word i := fun i =>
    toUInt32_toInt32 (field_lt 4 (4 * i) record.body)
  have hresult : toUInt32 (toInt32 (toUInt32 (eosPropWord record.word))) =
      toUInt32 (eosPropWord record.word) := toUInt32_toInt32 (by unfold toUInt32; omega)
  unfold Reports Narrow eosEventOf
  by_cases hprop : record.type = ptpEcEosPropValueChanged
  · rw [if_pos hprop, if_pos hprop, uint16_toNat_iff]
    exact ⟨fun h _ => h.1, fun h => ⟨h (.inl hprop), hresult⟩⟩
  rw [if_neg hprop, if_neg hprop]
  by_cases htransfer : record.type = ptpEcEosRequestObjectTransfer
  · have hnamed : ¬(record.type = ptpEcEosInfoCheckComplete ∨
        record.type = ptpDpcEosFocusInfoEx) := by
      rw [htransfer]
      decide
    rw [if_pos htransfer, if_neg hnamed, if_pos htransfer, uint16_toNat_iff]
    exact ⟨fun h _ => h.1, fun h => ⟨h (.inr htransfer), hword 1⟩⟩
  have hnarrow : record.type = ptpEcEosPropValueChanged ∨
      record.type = ptpEcEosRequestObjectTransfer → record.word 0 < 65536 :=
    fun h => (h.elim hprop htransfer).elim
  refine iff_of_true ?_ hnarrow
  split_ifs with hadded hnamed hnamed
  · rw [hadded] at hnamed
    exact absurd hnamed (by decide)
  · exact hword 0
  · exact ⟨rfl, rfl⟩
  · exact ⟨rfl, rfl⟩

end EosRecord

/-- What comes behind the records: nothing, or a record of type 0. -/
def EosEnd (tail : List UInt8) : Prop := tail = [] ∨ 8 ≤ tail.length ∧ field 4 4 tail = 0

/-- The lists that the pass leaves after its records, each as its record says. -/
def EosFollows : AvailList → List EosRecord → List EosVisit → Prop
  | _, [], [] => True
  | before, record :: records, visit :: visits =>
      record.Lists before visit.avail ∧ EosFollows visit.avail records visits
  | _, _, _ => False

/-- No record has more in its first word than its event has room for, and every list record
finds a list that can come to hold what it lists. -/
def EosCarried (memory : Allocator) : AvailList → List EosRecord → Prop
  | _, [] => True
  | before, record :: records => record.Narrow ∧ record.Carried memory before ∧
      ∀ after, record.Updates memory before after → EosCarried memory after records

section Records

variable {memory : Allocator} {names : EnumNames} {payload tail : List UInt8} {start : Int}

/-- Behind the records the walk ends. -/
theorem walk_end {front : List UInt8} {avail : AvailList} (htail : EosEnd tail)
    (hsplit : payload = front ++ tail) : EosWalk memory payload front.length avail [] := by
  subst hsplit
  rcases htail with rfl | ⟨hlength, htype⟩
  · exact .ended (by rw [List.append_nil])
  · refine .terminated (by rw [List.length_append]; omega) ?_
    rw [eosType, field_behind, htype]

/-- A walk starts with the first record, and goes on behind it with the list it leaves. -/
theorem walk_record {record : EosRecord} {front rest : List UInt8} {avail : AvailList}
    {walk : List (Nat × AvailList)} (hint : (8 + record.body.length : Int) ≤ intMax)
    (hsplit : payload = front ++ (record.bytes ++ rest)) :
    EosWalk memory payload front.length avail walk ↔
      ∃ after remaining, record.Updates memory avail after ∧
        EosWalk memory payload (front ++ record.bytes).length after remaining ∧
        walk = (front.length, after) :: remaining := by
  have hsize : eosSize payload front.length = 8 + record.body.length :=
    hsplit ▸ record.eosSize_eq front rest
  have htype : eosType payload front.length = record.type :=
    hsplit ▸ record.eosType_eq front rest
  have hbody : eosBodySize payload front.length ≤ record.body.length :=
    hsplit ▸ record.eosBodySize_le front rest
  have hupdates : ∀ after, EosUpdates memory payload front.length avail after ↔
      record.Updates memory avail after := fun after =>
    hsplit ▸ EosRecord.eosUpdates_iff record front rest hint
  have hnext : (front ++ record.bytes).length = front.length + eosSize payload front.length := by
    rw [hsize, List.length_append, record.bytes_length]
  have hlength : front.length + 8 + record.body.length ≤ payload.length := by
    rw [hsplit, List.length_append, List.length_append, record.bytes_length]
    omega
  rw [hnext]
  constructor
  · intro hwalk
    cases hwalk with
    | ended hend => omega
    | terminated _ hterminated => exact absurd (htype.symm.trans hterminated) record.type_ne
    | record _ _ _ _ hafter hrest => exact ⟨_, _, (hupdates _).mp hafter, hrest, rfl⟩
  · rintro ⟨after, remaining, hafter, hrest, rfl⟩
    exact .record (by omega) (htype ▸ record.type_ne) (by omega) (by omega)
      ((hupdates after).mpr hafter) hrest

/-- The walk over the records tells exactly what they say if they can be carried. -/
theorem walk_records_iff {records : List EosRecord} (htail : EosEnd tail)
    (hint : (payload.length : Int) ≤ intMax) {front : List UInt8} {avail : AvailList}
    (hsplit : payload = front ++ (records.flatMap EosRecord.bytes ++ tail)) :
    (∃ walk, EosWalk memory payload front.length avail walk ∧ walk.length = records.length ∧
        List.Forall₂ EosRecord.Reports records
          (walk.map fun entry => eosEvent names payload entry.1) ∧
        EosFollows avail records (walk.map (eosVisit payload start))) ↔
      EosCarried memory avail records := by
  induction records generalizing front avail with
  | nil =>
      rw [List.flatMap_nil, List.nil_append] at hsplit
      exact iff_of_true ⟨[], walk_end htail hsplit, rfl, .nil, trivial⟩ trivial
  | cons record records ih =>
      rw [List.flatMap_cons, List.append_assoc] at hsplit
      have hrecord : (8 + record.body.length : Int) ≤ intMax := by
        rw [hsplit, List.length_append, List.length_append, record.bytes_length] at hint
        omega
      have hevent : eosEvent names payload front.length =
          eosEventOf names record.type record.word := hsplit ▸ record.eosEvent_eq front _ names
      have hrest : payload = (front ++ record.bytes) ++
          (records.flatMap EosRecord.bytes ++ tail) := by rw [hsplit, List.append_assoc]
      constructor
      · rintro ⟨walk, hwalk, hlength, hreports, hfollows⟩
        obtain ⟨after, remaining, hupdates, hremaining, rfl⟩ := (walk_record hrecord hsplit).mp hwalk
        rw [List.map_cons, List.forall₂_cons, hevent] at hreports
        obtain ⟨hlists, hfollows⟩ := hfollows
        refine ⟨(record.reports_iff names).mp hreports.1,
          (EosRecord.carried_iff hrecord).mpr ⟨after, hupdates, hlists⟩, fun other hother => ?_⟩
        obtain rfl := hother.unique hupdates
        exact (ih hrest).mp ⟨remaining, hremaining, Nat.succ.inj hlength, hreports.2, hfollows⟩
      · rintro ⟨hnarrow, hcarried, hmore⟩
        obtain ⟨after, hupdates, hlists⟩ := (EosRecord.carried_iff hrecord).mp hcarried
        obtain ⟨remaining, hremaining, hlength, hreports, hfollows⟩ :=
          (ih hrest).mpr (hmore after hupdates)
        refine ⟨_, (walk_record hrecord hsplit).mpr ⟨after, remaining, hupdates, hremaining, rfl⟩,
          congrArg Nat.succ hlength, ?_, hlists, hfollows⟩
        rw [List.map_cons, List.forall₂_cons, hevent]
        exact ⟨(record.reports_iff names).mpr hnarrow, hreports⟩

theorem counted_records {records : List EosRecord} (htail : EosEnd tail) {front : List UInt8}
    (hsplit : payload = front ++ (records.flatMap EosRecord.bytes ++ tail)) :
    Counted payload front.length records.length := by
  induction records generalizing front with
  | nil =>
      rw [List.flatMap_nil, List.nil_append] at hsplit
      have hwalk : EosWalk zeroedMemory payload front.length AvailList.initial [] :=
        walk_end htail hsplit
      exact hwalk.counted
  | cons record records ih =>
      rw [List.flatMap_cons, List.append_assoc] at hsplit
      have hrest : payload = (front ++ record.bytes) ++
          (records.flatMap EosRecord.bytes ++ tail) := by rw [hsplit, List.append_assoc]
      have hnext := ih hrest
      rw [List.length_append, record.bytes_length] at hnext
      refine .record ?_ ?_ ?_
      · rw [hsplit, List.length_append, List.length_append, record.bytes_length]
        omega
      · rw [hsplit, record.eosType_eq]
        exact record.type_ne
      · rwa [hsplit, record.eosSize_eq, ← hsplit]

/-- Decoding well-formed records does not leave their payload. -/
theorem decodeEosRecords_stays {records : List EosRecord} (hint : (payload.length : Int) ≤ intMax)
    {front : List UInt8} (hsplit : payload = front ++ (records.flatMap EosRecord.bytes ++ tail))
    (decoded : EosDecoded) :
    (decodeEosRecords memory names records.length (start + front.length) decoded).view start
      payload ≠ none := by
  induction records generalizing front decoded with
  | nil => rintro ⟨⟩
  | cons record records ih =>
      rw [List.flatMap_cons, List.append_assoc] at hsplit
      have hsize : eosSize payload front.length = 8 + record.body.length :=
        hsplit ▸ record.eosSize_eq front _
      have htype : eosType payload front.length = record.type :=
        hsplit ▸ record.eosType_eq front _
      have hbody : eosBodySize payload front.length ≤ record.body.length :=
        hsplit ▸ record.eosBodySize_le front _
      have hcall : eosCall payload front.length = record.call :=
        hsplit ▸ record.eosCall_eq front _
      have hlength : front.length + 8 + record.body.length ≤ payload.length := by
        rw [hsplit, List.length_append, List.length_append, record.bytes_length]
        omega
      have hlist : ∀ membSize cnt, eosCall payload front.length = some (membSize, cnt) →
          front.length + 20 + toSize (membSize * cnt) ≤ payload.length := by
        intro membSize cnt hsome
        have hsome' := hcall.symm.trans hsome
        obtain ⟨hlist, hshape⟩ := Option.ite_none_right_eq_some.mp hsome'
        have hcount : record.word 2 ≠ 0 := (Option.ite_none_right_eq_some.mp hshape).1.2
        have hrecord : (8 + record.body.length : Int) ≤ intMax := by omega
        rw [EosRecord.call_eq hlist hrecord hcount] at hsome'
        obtain ⟨rfl, rfl⟩ := Prod.mk.inj (Option.some.inj hsome')
        have hle := EosRecord.list_size_le hlist hrecord
        omega
      have hnext : start + (front.length : Int) + eosSize payload front.length =
          start + (front ++ record.bytes).length := by
        rw [hsize, List.length_append, record.bytes_length]
        push_cast
        ring
      have hstays : (decodeEosRecord memory names decoded.avail (start + front.length + 8)
          (eosSize payload front.length) (eosType payload front.length)).view start payload ≠ none :=
        decodeEosRecord_stays (by omega) (by omega) hlist
      rw [List.length_cons, decodeEosRecords, readHeader_view, if_pos (by omega),
        if_neg (htype ▸ record.type_ne), Reader.view_bind]
      split
      next result hresult =>
        obtain ⟨event, call, after⟩ := result
        dsimp only
        rw [hnext]
        exact ih (by rw [hsplit, List.append_assoc]) _
      next => rintro ⟨⟩
      next hnone => exact absurd hnone hstays

/-- `ptp_eos_events` does not leave a payload of well-formed records, whatever the fuel. -/
theorem ptpEosEvents_stays {r : PtpRuntime} {avail : AvailList} {length : Int}
    {records : List EosRecord} (htail : EosEnd tail)
    (hsplit : payload = records.flatMap EosRecord.bytes ++ tail)
    (hpayload : r.HasPayload start length payload) (fuel : Nat) :
    (ptpEosEvents memory names r avail fuel).view start payload ≠ none := by
  have hfront : payload = [] ++ (records.flatMap EosRecord.bytes ++ tail) := hsplit
  have hcounted : Counted payload 0 records.length := counted_records htail hfront
  by_cases hlength : ∃ n, (ptpEosEventsLength r fuel).view start payload = some (.ok n)
  · obtain ⟨n, hlength⟩ := hlength
    obtain ⟨n, hn, rfl⟩ := counted_of_length_view hpayload hlength
    obtain rfl := hn.unique hcounted
    rw [ptpEosEvents_view hpayload hcounted hlength]
    have hdecode : (decodeEosRecords memory names records.length (start + ([] : List UInt8).length)
        ⟨[], [], avail.allocated⟩).view start payload ≠ none :=
      decodeEosRecords_stays hpayload.length_le hfront _
    split
    next => exact fun h => nomatch h
    next =>
      split
      next =>
        rw [Reader.view_bind]
        split
        next => exact fun h => nomatch h
        next => exact fun h => nomatch h
        next hnone => exact absurd hnone hdecode
      next => exact fun h => nomatch h
  · have hcount := countEosRecords_stays hpayload hcounted fuel 0
    rw [Nat.cast_zero, Int.add_zero] at hcount
    have hstays : (ptpEosEventsLength r fuel).view start payload ≠ none := by
      rw [ptpEosEventsLength, hpayload.start_eq]
      exact hcount
    rw [ptpEosEvents, Reader.view_bind]
    split
    next n hn => exact absurd ⟨n, hn⟩ hlength
    next => exact fun h => nomatch h
    next hnone => exact absurd hnone hstays

/-- `ptp_eos_events` returns the number of the records, its entries report them one by one, and
the list follows them. -/
def EosFaithful (memory : Allocator) (names : EnumNames) (r : PtpRuntime) (avail : AvailList)
    (records : List EosRecord) : Prop :=
  ∃ fuel count decoded, (ptpEosEvents memory names r avail fuel).run r.load = .ok (count, decoded) ∧
    count = records.length ∧ List.Forall₂ EosRecord.Reports records decoded.events ∧
    EosFollows avail.allocated records decoded.visits

theorem carried_of_faithful {r : PtpRuntime} {avail : AvailList} {length : Int}
    {records : List EosRecord} (htail : EosEnd tail)
    (hpayload : r.HasPayload start length (records.flatMap EosRecord.bytes ++ tail))
    (hfaithful : EosFaithful memory names r avail records) :
    (records = [] ∨ (memory avail.allocations (genericEventSize * records.length)).isSome) ∧
      EosCarried memory avail.allocated records := by
  obtain ⟨fuel, count, decoded, hrun, rfl, hreports, hfollows⟩ := hfaithful
  obtain ⟨result, hview⟩ := Option.ne_none_iff_exists'.mp
    (ptpEosEvents_stays htail rfl hpayload fuel)
  rw [← Reader.run_of_view hpayload.shows hview, hrun] at hview
  obtain ⟨walk, hwalk, hgranted, hcount, rfl⟩ := (ptpEosEvents_iff hpayload).mp ⟨fuel, hview⟩
  have hlength : walk.length = records.length := (Int.ofNat.inj hcount).symm
  have hsplit : records.flatMap EosRecord.bytes ++ tail =
      [] ++ (records.flatMap EosRecord.bytes ++ tail) := rfl
  rw [eosDecoded_events] at hreports
  rw [eosDecoded_visits] at hfollows
  refine ⟨?_, (walk_records_iff htail hpayload.length_le hsplit).mp
    ⟨walk, hwalk, hlength, hreports, hfollows⟩⟩
  rw [← hlength]
  exact hgranted.imp_left fun h => List.length_eq_zero_iff.mp (by rw [← hlength, h]; rfl)

theorem faithful_of_carried {r : PtpRuntime} {avail : AvailList} {length : Int}
    {records : List EosRecord} (htail : EosEnd tail)
    (hpayload : r.HasPayload start length (records.flatMap EosRecord.bytes ++ tail))
    (hgranted : records = [] ∨
      (memory avail.allocations (genericEventSize * records.length)).isSome)
    (hcarried : EosCarried memory avail.allocated records) :
    EosFaithful memory names r avail records := by
  have hsplit : records.flatMap EosRecord.bytes ++ tail =
      [] ++ (records.flatMap EosRecord.bytes ++ tail) := rfl
  obtain ⟨walk, hwalk, hlength, hreports, hfollows⟩ :=
    (walk_records_iff htail hpayload.length_le hsplit).mpr hcarried
  have hmemory : walk = [] ∨
      (memory avail.allocations (genericEventSize * walk.length)).isSome := by
    rw [hlength]
    exact hgranted.imp_left fun h => List.length_eq_zero_iff.mp (by rw [hlength, h]; rfl)
  obtain ⟨fuel, hview⟩ := (ptpEosEvents_iff hpayload).mpr ⟨walk, hwalk, hmemory, rfl, rfl⟩
  refine ⟨fuel, _, _, Reader.run_of_view hpayload.shows hview, congrArg Nat.cast hlength, ?_, ?_⟩
  · rw [eosDecoded_events]
    exact hreports
  · rw [eosDecoded_visits]
    exact hfollows

/-- A list of well-formed records is decoded faithfully exactly if it can be carried. -/
theorem eosFaithful_iff (memory : Allocator) (names : EnumNames) (r : PtpRuntime)
    (avail : AvailList) (start length : Int) (records : List EosRecord) (tail : List UInt8)
    (htail : EosEnd tail)
    (hpayload : r.HasPayload start length (records.flatMap EosRecord.bytes ++ tail)) :
    EosFaithful memory names r avail records ↔
      (records = [] ∨ (memory avail.allocations (genericEventSize * records.length)).isSome) ∧
        EosCarried memory avail.allocated records :=
  ⟨carried_of_faithful htail hpayload, fun h => faithful_of_carried htail hpayload h.1 h.2⟩

end Records

/-- A request to transfer the object 7, and the two apertures that are possible. -/
def fewRecords : List EosRecord :=
  [⟨0xC186, [7, 0, 0, 0, 1, 0, 0, 0], by decide, by decide, by decide, by decide⟩,
    ⟨0xC18A, [1, 0xD1, 0, 0, 3, 0, 0, 0, 2, 0, 0, 0, 8, 11], by decide, by decide, by decide,
      by decide⟩]

theorem eosFaithful_fewRecords : EosFaithful zeroedMemory noNames
    (received (Container.bytes ptpPacketTypeData ⟨0, 0, fewRecords.flatMap EosRecord.bytes ++ []⟩))
    AvailList.initial fewRecords := by
  have hpayload := received_hasPayload (fewRecords.flatMap EosRecord.bytes ++ []) (by decide)
  refine (eosFaithful_iff _ _ _ _ _ _ _ [] (.inl rfl) hpayload).mpr ⟨.inr rfl, ?_, ?_, ?_⟩
  · exact fun _ => by decide
  · exact fun h => absurd h (by decide)
  · intro after hafter
    obtain rfl : after = AvailList.initial.allocated := hafter
    refine ⟨fun h => absurd h (by decide), fun _ => ?_, fun _ _ => trivial⟩
    rw [if_neg (by decide)]
    exact (rfl : true = true)

/-- A request to transfer an object with a handle of more than 16 bits. -/
def largeHandle : EosRecord :=
  ⟨0xC186, [0x78, 0x56, 0x34, 0x12, 0, 0, 0, 0], by decide, by decide, by decide, by decide⟩

/-- Its handle does not fit the event's code. -/
theorem eosFaithful_largeHandle : ¬EosFaithful zeroedMemory noNames
    (received (Container.bytes ptpPacketTypeData ⟨0, 0, [largeHandle].flatMap EosRecord.bytes ++ []⟩))
    AvailList.initial [largeHandle] := by
  intro hfaithful
  have hpayload := received_hasPayload ([largeHandle].flatMap EosRecord.bytes ++ []) (by decide)
  obtain ⟨_, hnarrow, _⟩ := carried_of_faithful (.inl rfl) hpayload hfaithful
  exact absurd (hnarrow (.inr rfl)) (by decide)

end Libpict
