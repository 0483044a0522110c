import Libpict.EosEvents

/-! # Walking over a list of records

Where the passes over a Canon event list come to an end without leaving the payload: at every
record up to the end or a type of 0, the header and the data that the record's decoder asks
for lie in the payload, the size leads on, and the runtime's list takes the values that a list
record passes to it.
-/

namespace Libpict

open Bytes CInt Exec

/-! ## The records of a payload -/

/-- The size field of the record at `p`. -/
def eosSize (payload : List UInt8) (p : Nat) : Nat := field 4 p payload

/-- The type field of the record at `p`. -/
def eosType (payload : List UInt8) (p : Nat) : Nat := field 4 (p + 4) payload

/-- How many bytes behind the header the decoder of the record at `p` asks for by itself. -/
def eosBodySize (payload : List UInt8) (p : Nat) : Nat :=
  let type := eosType payload p
  if type = ptpEcEosPropValueChanged then
    if field 4 (p + 8) payload = ptpDpcEosImageFormat then 24 else 8
  else if type = ptpEcEosInfoCheckComplete ∨ type = ptpDpcEosFocusInfoEx then 0
  else if type = ptpEcEosRequestObjectTransfer then 8
  else if type = ptpEcEosObjectAddedEx then 4
  else if type = ptpEcEosAvailListChanged then 12
  else 0

/-- The shape of the list that the record at `p` passes on, if it does. -/
def eosCall (payload : List UInt8) (p : Nat) : Option (Int × Int) :=
  if eosType payload p = ptpEcEosAvailListChanged then
    eosListShape (eosSize payload p) (field 4 (p + 16) payload)
  else none

/-- The runtime's list takes what the record at `p` passes on, if it does, out of the bytes
from its 20-byte header on. -/
def EosUpdates (memory : Allocator) (payload : List UInt8) (p : Nat) (before after : AvailList) :
    Prop :=
  match eosCall payload p with
  | none => after = before
  | some (membSize, cnt) =>
      (ptpSetPropAvailInfo memory before (toInt32 (field 4 (p + 8) payload)) membSize cnt 0).run
        (Reader.only .undefined (payload.drop (p + 20))) = .ok after

/-- A walk from the record at `p` on that comes to its end inside the payload: the records it
meets, each with the list that it leaves. -/
inductive EosWalk (memory : Allocator) (payload : List UInt8) :
    Nat → AvailList → List (Nat × AvailList) → Prop
  | ended {p : Nat} {avail : AvailList} (hend : payload.length ≤ p) :
      EosWalk memory payload p avail []
  | terminated {p : Nat} {avail : AvailList} (hheader : p + 8 ≤ payload.length)
      (htype : eosType payload p = 0) : EosWalk memory payload p avail []
  | record {p : Nat} {avail after : AvailList} {rest : List (Nat × AvailList)}
      (hheader : p + 8 ≤ payload.length) (htype : eosType payload p ≠ 0)
      (hsize : 0 < eosSize payload p) (hbody : p + 8 + eosBodySize payload p ≤ payload.length)
      (hupdates : EosUpdates memory payload p avail after)
      (hrest : EosWalk memory payload (p + eosSize payload p) after rest) :
      EosWalk memory payload p avail ((p, after) :: rest)

/-- The records from `p` on, up to the end of the payload or a type of 0, are `n`. -/
inductive Counted (payload : List UInt8) : Nat → Nat → Prop
  | ended {p : Nat} (hend : payload.length ≤ p) : Counted payload p 0
  | terminated {p : Nat} (hheader : p + 8 ≤ payload.length) (htype : eosType payload p = 0) :
      Counted payload p 0
  | record {p n : Nat} (hheader : p + 8 ≤ payload.length) (htype : eosType payload p ≠ 0)
      (hrest : Counted payload (p + eosSize payload p) n) : Counted payload p (n + 1)

/-! ## The counting pass -/

section Counting

variable {r : PtpRuntime} {start length : Int} {payload : List UInt8}

/-- A record of size 0 is followed by itself. -/
theorem Counted.size_pos {p n : Nat} (hcounted : Counted payload p n)
    (hheader : p + 8 ≤ payload.length) (htype : eosType payload p ≠ 0) : 0 < eosSize payload p := by
  apply Nat.pos_of_ne_zero
  intro hzero
  induction n with
  | zero =>
      cases hcounted with
      | ended hend => omega
      | terminated _ hterminated => exact htype hterminated
  | succ n ih =>
      cases hcounted with
      | record _ _ hrest => exact ih (by rwa [hzero] at hrest)

theorem Counted.unique {p n m : Nat} (hn : Counted payload p n) (hm : Counted payload p m) :
    n = m := by
  induction hn generalizing m with
  | ended hend =>
      cases hm with
      | ended => rfl
      | terminated => rfl
      | record hheader => omega
  | terminated hheader htype =>
      cases hm with
      | ended => rfl
      | terminated => rfl
      | record _ hrecord => exact absurd htype hrecord
  | record hheader htype _ ih =>
      cases hm with
      | ended hend => omega
      | terminated _ hterminated => exact absurd hterminated htype
      | record _ _ hrest => rw [ih hrest]

theorem Counted.le {p n : Nat} (hcounted : Counted payload p n) : n ≤ payload.length - p := by
  induction hcounted with
  | ended => exact Nat.zero_le _
  | terminated => exact Nat.zero_le _
  | record hheader htype hrest ih =>
      have hsize := (Counted.record hheader htype hrest).size_pos hheader htype
      omega

theorem readHeader_view {β : Type} (p : Nat) (f : Nat → Nat → Reader UInt8 Halt β) :
    (do let size ← ptpReadU32 (start + p)
        let type ← ptpReadU32 (start + p + 4)
        f size type : Reader UInt8 Halt β).view start payload =
      if p + 8 ≤ payload.length then
        (f (eosSize payload p) (eosType payload p)).view start payload
      else none := by
  have hat : start + (p : Int) + 4 = start + (p + 4 : Nat) := by push_cast; ring
  rw [readLe_bind_view rfl, readLe_bind_view hat]
  by_cases hheader : p + 8 ≤ payload.length
  · rw [if_pos (by omega), if_pos (by omega), if_pos hheader]
    rfl
  · by_cases hsize : p + 4 ≤ payload.length
    · rw [if_pos hsize, if_neg (by omega), if_neg hheader]
    · rw [if_neg hsize, if_neg hheader]

theorem countEosRecords_view (hpayload : r.HasPayload start length payload) (fuel p : Nat)
    (count : Int) :
    (countEosRecords r (fuel + 1) (start + p) count).view start payload =
      if payload.length ≤ p then some (.ok count)
      else if p + 8 ≤ payload.length then
        if eosType payload p = 0 then some (.ok count)
        else if Fits (count + 1) then
          (countEosRecords r fuel (start + (p + eosSize payload p : Nat)) (count + 1)).view start
            payload
        else some (.error .undefined)
      else none := by
  have hend : start + length ≤ start + p ↔ payload.length ≤ p := by
    rw [hpayload.size]
    omega
  rw [countEosRecords, hpayload.start_eq, hpayload.length_eq]
  simp only [Reader.ofExcept, Reader.done_bind, hend]
  split
  next => rfl
  next =>
    rw [readHeader_view]
    split
    next =>
      split
      next => rfl
      next =>
        push_cast
        by_cases hfits : Fits (count + 1)
        · rw [if_neg (not_not.mpr hfits), if_pos hfits, Int.add_assoc]
        · rw [if_pos hfits, if_neg hfits]
          rfl
    next => rfl

/-- A counting pass that ends inside the payload has counted the records. -/
theorem counted_of_view (hpayload : r.HasPayload start length payload) {fuel p : Nat}
    {count result : Int}
    (hview : (countEosRecords r fuel (start + p) count).view start payload = some (.ok result)) :
    ∃ n : Nat, Counted payload p n ∧ result = count + n := by
  induction fuel generalizing p count with
  | zero => cases hview
  | succ fuel ih =>
      rw [countEosRecords_view hpayload] at hview
      split at hview
      next hend =>
        cases hview
        exact ⟨0, .ended hend, (Int.add_zero _).symm⟩
      next =>
        split at hview
        next hheader =>
          split at hview
          next htype =>
            cases hview
            exact ⟨0, .terminated hheader htype, (Int.add_zero _).symm⟩
          next htype =>
            split at hview
            next =>
              obtain ⟨n, hrest, hresult⟩ := ih hview
              refine ⟨n + 1, .record hheader htype hrest, ?_⟩
              rw [hresult]
              push_cast
              ring
            next => cases hview
        next => cases hview

/-- Records that can be counted are. -/
theorem view_of_counted (hpayload : r.HasPayload start length payload) {p n : Nat}
    (hcounted : Counted payload p n) {count : Int} (hcount : 0 ≤ count)
    (hroom : count + n ≤ intMax) :
    (countEosRecords r (n + 1) (start + p) count).view start payload =
      some (.ok (count + n)) := by
  induction hcounted generalizing count with
  | ended hend => rw [countEosRecords_view hpayload, if_pos hend, Nat.cast_zero, Int.add_zero]
  | terminated hheader htype =>
      rw [countEosRecords_view hpayload, if_neg (by omega), if_pos hheader, if_pos htype,
        Nat.cast_zero, Int.add_zero]
  | @record p n hheader htype hrest ih =>
      have hfits : Fits (count + 1) := by
        unfold Fits
        unfold intMax at hroom
        omega
      rw [countEosRecords_view hpayload, if_neg (by omega), if_pos hheader, if_neg htype,
        if_pos hfits, ih (by omega) (by push_cast at hroom; omega)]
      push_cast
      rw [Int.add_assoc, Int.add_comm 1]

/-- Counting does not leave the payload where its records can be counted, whatever the fuel. -/
theorem countEosRecords_stays (hpayload : r.HasPayload start length payload) {p n : Nat}
    (hcounted : Counted payload p n) (fuel : Nat) (count : Int) :
    (countEosRecords r fuel (start + p) count).view start payload ≠ none := by
  induction hcounted generalizing fuel count with
  | ended hend =>
      cases fuel with
      | zero => exact fun h => nomatch h
      | succ fuel =>
          rw [countEosRecords_view hpayload, if_pos hend]
          exact fun h => nomatch h
  | terminated hheader htype =>
      cases fuel with
      | zero => exact fun h => nomatch h
      | succ fuel =>
          rw [countEosRecords_view hpayload, if_neg (by omega), if_pos hheader, if_pos htype]
          exact fun h => nomatch h
  | record hheader htype _ ih =>
      cases fuel with
      | zero => exact fun h => nomatch h
      | succ fuel =>
          rw [countEosRecords_view hpayload, if_neg (by omega), if_pos hheader, if_neg htype]
          split
          next => exact ih fuel (count + 1)
          next => exact fun h => nomatch h

theorem ptpEosEventsLength_view (hpayload : r.HasPayload start length payload) {n : Nat}
    (hcounted : Counted payload 0 n) {fuel : Nat} (hfuel : fuel = n + 1) :
    (ptpEosEventsLength r fuel).view start payload = some (.ok (n : Int)) := by
  have hroom : (0 : Int) + n ≤ intMax := by
    have hle := hcounted.le
    have hlength := hpayload.length_le
    omega
  have hview := view_of_counted hpayload hcounted le_rfl hroom
  rw [Int.zero_add, Nat.cast_zero, Int.add_zero] at hview
  rw [ptpEosEventsLength, hpayload.start_eq, hfuel]
  exact hview

theorem counted_of_length_view (hpayload : r.HasPayload start length payload) {fuel : Nat}
    {result : Int} (hview : (ptpEosEventsLength r fuel).view start payload = some (.ok result)) :
    ∃ n : Nat, Counted payload 0 n ∧ result = n := by
  rw [ptpEosEventsLength, hpayload.start_eq] at hview
  have hcount : (countEosRecords r fuel (start + (0 : Nat)) 0).view start payload =
      some (.ok result) := by
    rw [Nat.cast_zero, Int.add_zero]
    exact hview
  obtain ⟨n, hcounted, hresult⟩ := counted_of_view hpayload hcount
  exact ⟨n, hcounted, by rw [hresult, Int.zero_add]⟩

end Counting

/-! ## The list of allowed values -/

section Lists

variable {memory : Allocator} {start : Int} {payload : List UInt8}

/-- A call stops at once, or its one access to the data is the copy of its list. -/
theorem ptpSetPropAvailInfo_copies (memory : Allocator) (avail : AvailList)
    (code membSize cnt : Int) :
    (∃ reason, ∀ data, ptpSetPropAvailInfo memory avail code membSize cnt data = .stop reason) ∨
    Fits (membSize * cnt) ∧ ∃ (block : Option Buffer) (finish : Buffer → AvailList),
      ∀ data, ptpSetPropAvailInfo memory avail code membSize cnt data =
        copyTo block data (toSize (membSize * cnt)) >>= fun block => .done (finish block) := by
  unfold ptpSetPropAvailInfo productSize
  split
  next => exact .inl ⟨_, fun _ => rfl⟩
  next head rest hnodes =>
    by_cases hfits : Fits (membSize * cnt)
    · simp only [if_pos hfits, Reader.done_bind]
      split
      next n hfind => exact .inr ⟨hfits, _, _, fun _ => rfl⟩
      next hfind =>
        split
        next => exact .inr ⟨hfits, _, _, fun _ => rfl⟩
        next =>
          split
          next => exact .inl ⟨_, fun _ => rfl⟩
          next => exact .inr ⟨hfits, _, _, fun _ => rfl⟩
    · simp only [if_neg hfits, Reader.stop_bind]
      split
      next n hfind => exact .inl ⟨_, fun _ => rfl⟩
      next hfind =>
        split
        next => exact .inl ⟨_, fun _ => rfl⟩
        next =>
          split
          next => exact .inl ⟨_, fun _ => rfl⟩
          next => exact .inl ⟨_, fun _ => rfl⟩

/-- A call that returns has found its list in the data. -/
theorem ptpSetPropAvailInfo_inside {avail after : AvailList} {code membSize cnt : Int}
    {data : List UInt8}
    (hset : (ptpSetPropAvailInfo memory avail code membSize cnt 0).run
      (Reader.only .undefined data) = .ok after) :
    Fits (membSize * cnt) ∧ toSize (membSize * cnt) ≤ data.length := by
  rcases ptpSetPropAvailInfo_copies memory avail code membSize cnt with
    ⟨reason, hstop⟩ | ⟨hfits, block, finish, hcopies⟩
  · rw [hstop] at hset
    cases hset
  · refine ⟨hfits, ?_⟩
    rw [hcopies, Reader.run_bind, except_bind_eq_ok] at hset
    obtain ⟨copied, hcopied, _⟩ := hset
    rw [copyTo, Reader.run_bind, Reader.run_read, except_bind_eq_ok] at hcopied
    obtain ⟨bytes, hbytes, _⟩ := hcopied
    rw [Reader.only] at hbytes
    split at hbytes
    next hinside =>
      have hhigh := hinside.2.2
      dsimp only at hhigh
      omega
    next => cases hbytes

/-- A copy out of the payload is one out of the bytes from there on. -/
theorem copyTo_shift {q : Nat} (hle : q ≤ payload.length) (block : Option Buffer) (size : Nat)
    (copied : Buffer) :
    (copyTo block (start + q) size).view start payload = some (.ok copied) ↔
      (copyTo block 0 size).run (Reader.only .undefined (payload.drop q)) = .ok copied := by
  have hlength : (payload.drop q).length = payload.length - q := List.length_drop
  unfold copyTo
  rw [Reader.run_bind, Reader.run_read, Reader.only]
  by_cases hinside : q + size ≤ payload.length
  · have hhere : Reader.Inside 0 (payload.drop q).length (0, (size : Int)) :=
      ⟨le_rfl, by dsimp only; omega, by dsimp only; omega⟩
    rw [Reader.view_bind_ok (Reader.view_read hinside), if_pos hhere, Int.toNat_zero,
      Int.toNat_natCast, List.drop_zero]
    cases block with
    | none => simp [Reader.run, bind, Except.bind]
    | some block =>
        simp only [bind, Except.bind]
        split
        next => simp [Reader.run]
        next => simp [Reader.run]
  · have hhere : ¬Reader.Inside 0 (payload.drop q).length (0, (size : Int)) := by
      rintro ⟨_, _, hhigh⟩
      dsimp only at hhigh
      omega
    have hthere : ¬Reader.Inside start payload.length (start + q, (size : Int)) := by
      rintro ⟨_, _, hhigh⟩
      dsimp only at hhigh
      omega
    rw [Reader.view_bind, Reader.view_read_outside hthere, if_neg hhere]
    constructor
    · rintro ⟨⟩
    · rintro ⟨⟩

theorem ptpSetPropAvailInfo_shift {q : Nat} (hle : q ≤ payload.length) {avail after : AvailList}
    {code membSize cnt : Int} :
    (ptpSetPropAvailInfo memory avail code membSize cnt (start + q)).view start payload =
        some (.ok after) ↔
      (ptpSetPropAvailInfo memory avail code membSize cnt 0).run
        (Reader.only .undefined (payload.drop q)) = .ok after := by
  rcases ptpSetPropAvailInfo_copies memory avail code membSize cnt with
    ⟨reason, hstop⟩ | ⟨_, block, finish, hcopies⟩
  · rw [hstop, hstop]
    exact iff_of_false (fun h => nomatch h) fun h => nomatch h
  · rw [hcopies, hcopies, Reader.view_bind_eq_ok, Reader.run_bind, except_bind_eq_ok]
    constructor
    · rintro ⟨copied, hcopied, hfinish⟩
      exact ⟨copied, (copyTo_shift hle block _ copied).mp hcopied,
        congrArg Except.ok (Except.ok.inj (Option.some.inj hfinish))⟩
    · rintro ⟨copied, hcopied, hfinish⟩
      exact ⟨copied, (copyTo_shift hle block _ copied).mpr hcopied,
        congrArg some (congrArg Except.ok (Except.ok.inj hfinish))⟩

end Lists

/-! ## The decoding pass -/

/-- The value of a changed property, out of the words of its record. -/
def eosPropWord (word : Nat → Nat) : Int :=
  if word 0 = ptpDpcEosImageFormat then
    if word 1 = 1 then ptpEosGetImgformatValue [word 1, word 2, word 3, word 4, word 5]
    else imgFormatRawJpeg
  else eosPropValue (word 0) (word 1)

/-- The event of a record with a type and words. -/
def eosEventOf (names : EnumNames) (type : Nat) (word : Nat → Nat) : PtpGenericEvent :=
  if type = ptpEcEosPropValueChanged then
    ⟨UInt16.ofNat (word 0), eosPropName names (word 0), toInt32 (toUInt32 (eosPropWord word)),
      eosPropText (word 0) (word 1)⟩
  else if type = ptpEcEosInfoCheckComplete ∨ type = ptpDpcEosFocusInfoEx then
    { PtpGenericEvent.zero with name := ptpGetEnumAll names type }
  else if type = ptpEcEosRequestObjectTransfer then
    ⟨UInt16.ofNat (word 0), some "request object transfer", toInt32 (word 1), none⟩
  else if type = ptpEcEosObjectAddedEx then
    ⟨0, some "new object", toInt32 (word 0), none⟩
  else .zero

/-- The event of the record at `p`. -/
def eosEvent (names : EnumNames) (payload : List UInt8) (p : Nat) : PtpGenericEvent :=
  eosEventOf names (eosType payload p) fun i => field 4 (p + 8 + 4 * i) payload

section Decoding

variable {memory : Allocator} {names : EnumNames} {start : Int} {payload : List UInt8}

theorem ptpEosPropNext_view {p : Nat} (htype : eosType payload p = ptpEcEosPropValueChanged) :
    (ptpEosPropNext names (start + p + 8)).view start payload =
      if p + 8 + eosBodySize payload p ≤ payload.length then
        some (.ok (eosEvent names payload p))
      else none := by
  rw [eosBodySize, if_pos htype, eosEvent, eosEventOf, if_pos htype, eosPropWord, ptpEosPropNext]
  simp only [Int.add_assoc]
  by_cases hformat : field 4 (p + 8) payload = ptpDpcEosImageFormat
  · rw [if_pos hformat]
    apply readLe_bind_within (by push_cast; ring) (by omega : p + 8 + 4 ≤ _)
    apply readLe_bind_within (by push_cast; ring) (by omega : p + 12 + 4 ≤ _)
    rw [eosPropResult, if_pos hformat]
    simp only [Reader.bind_assoc]
    apply readLe_bind_within (by push_cast; ring) (by omega : p + 16 + 4 ≤ _)
    apply readLe_bind_within (by push_cast; ring) (by omega : p + 20 + 4 ≤ _)
    apply readLe_bind_within (by push_cast; ring) (by omega : p + 24 + 4 ≤ _)
    rw [readLe_bind_view (by push_cast; ring : _ = start + ((p + 28 : Nat) : Int))]
    simp only [Nat.mul_zero, Nat.add_zero, if_pos hformat]
    rfl
  · rw [if_neg hformat]
    apply readLe_bind_within (by push_cast; ring) (by omega : p + 8 + 4 ≤ _)
    rw [readLe_bind_view (by push_cast; ring : _ = start + ((p + 12 : Nat) : Int)),
      eosPropResult, if_neg hformat]
    simp only [Nat.mul_zero, Nat.add_zero, if_neg hformat]
    rfl

/-- What a decoder does once the data that it asks for by itself are there. -/
def decodedView (memory : Allocator) (names : EnumNames) (payload : List UInt8) (start : Int)
    (p : Nat) (before : AvailList) :
    Option (Except Halt (PtpGenericEvent × Option (Int × Int) × AvailList)) :=
  match eosCall payload p with
  | none => some (.ok (eosEvent names payload p, none, before))
  | some (membSize, cnt) =>
      (ptpSetPropAvailInfo memory before (toInt32 (field 4 (p + 8) payload)) membSize cnt
        (start + (p + 20 : Nat)) >>= fun after =>
          .done (eosEvent names payload p, some (membSize, cnt), after)).view start payload

theorem decodedView_silent {p : Nat} {before : AvailList}
    (hsilent : eosType payload p ≠ ptpEcEosAvailListChanged) :
    decodedView memory names payload start p before =
      some (.ok (eosEvent names payload p, none, before)) := by
  rw [decodedView, eosCall, if_neg hsilent]

/-- The decoder of a list record. -/
theorem decodeEosList_view {p : Nat} {before : AvailList}
    (hlist : eosType payload p = ptpEcEosAvailListChanged) :
    (do let code ← ptpReadU32 (start + p + 8)
        let _datType ← ptpReadU32 (start + p + 8 + 4)
        let count ← ptpReadU32 (start + p + 8 + 8)
        match eosListShape (eosSize payload p) count with
        | some (membSize, cnt) => do
            let avail ← ptpSetPropAvailInfo memory before (toInt32 code) membSize cnt
              (start + p + 8 + 12)
            return (.zero, some (membSize, cnt), avail)
        | none => return (.zero, none, before) : Reader UInt8 Halt
          (PtpGenericEvent × Option (Int × Int) × AvailList)).view start payload =
      if p + 8 + eosBodySize payload p ≤ payload.length then
        decodedView memory names payload start p before
      else none := by
  have hbody : eosBodySize payload p = 12 := by
    rw [eosBodySize, hlist]
    rfl
  have hevent : eosEvent names payload p = .zero := by
    rw [eosEvent, eosEventOf, hlist]
    rfl
  rw [hbody, decodedView, eosCall, if_pos hlist, hevent]
  simp only [Int.add_assoc]
  apply readLe_bind_within (by push_cast; ring) (by omega : p + 8 + 4 ≤ _)
  apply readLe_bind_within (by push_cast; ring) (by omega : p + 12 + 4 ≤ _)
  rw [readLe_bind_view (by push_cast; ring : _ = start + ((p + 16 : Nat) : Int))]
  cases eosListShape (eosSize payload p) (field 4 (p + 16) payload) with
  | none => rfl
  | some shape =>
      dsimp only
      rw [show start + ((p : Int) + (8 + 12)) = start + (p + 20 : Nat) by push_cast; ring]
      rfl

/-- The decoder of a record leaves the payload unless the data it asks for are there. -/
theorem decodeEosRecord_view {p : Nat} {before : AvailList} (hheader : p + 8 ≤ payload.length) :
    (decodeEosRecord memory names before (start + p + 8) (eosSize payload p)
        (eosType payload p)).view start payload =
      if p + 8 + eosBodySize payload p ≤ payload.length then
        decodedView memory names payload start p before
      else none := by
  unfold decodeEosRecord
  by_cases hprop : eosType payload p = ptpEcEosPropValueChanged
  · rw [if_pos hprop, decodedView_silent (by rw [hprop]; decide), Reader.view_bind,
      ptpEosPropNext_view hprop]
    by_cases hbody : p + 8 + eosBodySize payload p ≤ payload.length
    · rw [if_pos hbody, if_pos hbody]
      rfl
    · rw [if_neg hbody, if_neg hbody]
  rw [if_neg hprop]
  by_cases hnamed : eosType payload p = ptpEcEosInfoCheckComplete ∨
      eosType payload p = ptpDpcEosFocusInfoEx
  · have hsilent : eosType payload p ≠ ptpEcEosAvailListChanged := by
      rcases hnamed with h | h <;> rw [h] <;> decide
    rw [if_pos hnamed, decodedView_silent hsilent, eosBodySize, if_neg hprop, if_pos hnamed,
      eosEvent, eosEventOf, if_neg hprop, if_pos hnamed, if_pos hheader]
    rfl
  rw [if_neg hnamed]
  by_cases htransfer : eosType payload p = ptpEcEosRequestObjectTransfer
  · rw [if_pos htransfer, decodedView_silent (by rw [htransfer]; decide), eosBodySize,
      if_neg hprop, if_neg hnamed, if_pos htransfer, eosEvent, eosEventOf, if_neg hprop,
      if_neg hnamed, if_pos htransfer]
    simp only [Int.add_assoc]
    apply readLe_bind_within (by push_cast; ring) (by omega : p + 8 + 4 ≤ _)
    rw [readLe_bind_view (by push_cast; ring : _ = start + ((p + 12 : Nat) : Int))]
    rfl
  rw [if_neg htransfer]
  by_cases hadded : eosType payload p = ptpEcEosObjectAddedEx
  · rw [if_pos hadded, decodedView_silent (by rw [hadded]; decide), eosBodySize, if_neg hprop,
      if_neg hnamed, if_neg htransfer, if_pos hadded, eosEvent, eosEventOf, if_neg hprop,
      if_neg hnamed, if_neg htransfer, if_pos hadded,
      readLe_bind_view (by push_cast; ring : _ = start + ((p + 8 : Nat) : Int))]
    rfl
  rw [if_neg hadded]
  by_cases hlist : eosType payload p = ptpEcEosAvailListChanged
  · rw [if_pos hlist]
    exact decodeEosList_view hlist
  · rw [if_neg hlist, decodedView_silent hlist, eosBodySize, if_neg hprop, if_neg hnamed,
      if_neg htransfer, if_neg hadded, if_neg hlist, eosEvent, eosEventOf, if_neg hprop,
      if_neg hnamed, if_neg htransfer, if_neg hadded, if_pos hheader]
    rfl

/-- A call with its list inside the payload does not leave it. -/
theorem ptpSetPropAvailInfo_stays {avail : AvailList} {code membSize cnt : Int} {q : Nat}
    (hle : q + toSize (membSize * cnt) ≤ payload.length) :
    (ptpSetPropAvailInfo memory avail code membSize cnt (start + q)).view start payload ≠ none := by
  rcases ptpSetPropAvailInfo_copies memory avail code membSize cnt with
    ⟨reason, hstop⟩ | ⟨_, block, finish, hcopies⟩
  · rw [hstop]
    exact fun h => nomatch h
  · rw [hcopies, copyTo, Reader.bind_assoc, Reader.view_bind_ok (Reader.view_read hle)]
    cases block with
    | none => exact fun h => nomatch h
    | some block =>
        dsimp only
        split
        next => exact fun h => nomatch h
        next => exact fun h => nomatch h

/-- The decoder of a record whose data and list are inside the payload does not leave it. -/
theorem decodeEosRecord_stays {p : Nat} {before : AvailList} (hheader : p + 8 ≤ payload.length)
    (hbody : p + 8 + eosBodySize payload p ≤ payload.length)
    (hlist : ∀ membSize cnt, eosCall payload p = some (membSize, cnt) →
      p + 20 + toSize (membSize * cnt) ≤ payload.length) :
    (decodeEosRecord memory names before (start + p + 8) (eosSize payload p)
        (eosType payload p)).view start payload ≠ none := by
  rw [decodeEosRecord_view hheader, if_pos hbody, decodedView]
  split
  next => exact fun h => nomatch h
  next membSize cnt hcall =>
    rw [Reader.view_bind]
    have hstays : (ptpSetPropAvailInfo memory before (toInt32 (field 4 (p + 8) payload)) membSize
        cnt (start + (p + 20 : Nat))).view start payload ≠ none :=
      ptpSetPropAvailInfo_stays (hlist membSize cnt hcall)
    split
    next => exact fun h => nomatch h
    next => exact fun h => nomatch h
    next hnone => exact absurd hnone hstays

/-- The decoder of a record comes to an end exactly if the data it asks for are in the payload
and the list takes what the record passes on. -/
theorem decodeEosRecord_iff {p : Nat} {before after : AvailList} {event : PtpGenericEvent}
    {call : Option (Int × Int)} (hheader : p + 8 ≤ payload.length) :
    (decodeEosRecord memory names before (start + p + 8) (eosSize payload p)
        (eosType payload p)).view start payload = some (.ok (event, call, after)) ↔
      p + 8 + eosBodySize payload p ≤ payload.length ∧ event = eosEvent names payload p ∧
        call = eosCall payload p ∧ EosUpdates memory payload p before after := by
  rw [decodeEosRecord_view hheader, Option.ite_none_right_eq_some, decodedView, EosUpdates]
  apply and_congr_right
  intro hbody
  cases hcall : eosCall payload p with
  | none =>
      constructor
      · intro h
        cases h
        exact ⟨rfl, rfl, rfl⟩
      · rintro ⟨rfl, rfl, hafter⟩
        dsimp only at hafter
        rw [hafter]
  | some shape =>
      obtain ⟨membSize, cnt⟩ := shape
      have hheader : p + 20 ≤ payload.length := by
        have hlist := (Option.ite_none_right_eq_some.mp hcall).1
        rw [eosBodySize, hlist] at hbody
        exact hbody
      dsimp only
      rw [Reader.view_bind_eq_ok]
      constructor
      · rintro ⟨avail, hset, h⟩
        cases h
        exact ⟨rfl, rfl, (ptpSetPropAvailInfo_shift hheader).mp hset⟩
      · rintro ⟨rfl, rfl, hset⟩
        exact ⟨after, (ptpSetPropAvailInfo_shift hheader).mpr hset, rfl⟩

/-- The entry of a walk as a pass meets it. -/
def eosVisit (payload : List UInt8) (start : Int) (entry : Nat × AvailList) : EosVisit :=
  ⟨start + entry.1, eosSize payload entry.1, eosType payload entry.1, eosCall payload entry.1,
    entry.2⟩

/-- The list at the end of a walk. -/
def walkEnd (avail : AvailList) (walk : List (Nat × AvailList)) : AvailList :=
  (walk.getLast?.map Prod.snd).getD avail

theorem walkEnd_cons (avail after : AvailList) (p : Nat) (rest : List (Nat × AvailList)) :
    walkEnd avail ((p, after) :: rest) = walkEnd after rest := by
  cases rest with
  | nil => rfl
  | cons second rest => rw [walkEnd, List.getLast?_cons_cons, walkEnd, List.getLast?_cons]; rfl

/-- What the second pass adds on a walk. -/
def EosDecoded.follow (names : EnumNames) (payload : List UInt8) (start : Int)
    (decoded : EosDecoded) (walk : List (Nat × AvailList)) : EosDecoded :=
  ⟨decoded.events ++ walk.map fun entry => eosEvent names payload entry.1,
    decoded.visits ++ walk.map (eosVisit payload start), walkEnd decoded.avail walk⟩

theorem Counted.walk_nil {p : Nat} {avail : AvailList} (hcounted : Counted payload p 0) :
    EosWalk memory payload p avail [] := by
  cases hcounted with
  | ended hend => exact .ended hend
  | terminated hheader htype => exact .terminated hheader htype

theorem EosWalk.counted {p : Nat} {avail : AvailList} {walk : List (Nat × AvailList)}
    (hwalk : EosWalk memory payload p avail walk) : Counted payload p walk.length := by
  induction hwalk with
  | ended hend => exact .ended hend
  | terminated hheader htype => exact .terminated hheader htype
  | record hheader htype _ _ _ _ ih => exact .record hheader htype ih

theorem follow_cons {decoded : EosDecoded} {p : Nat} {after : AvailList}
    {rest : List (Nat × AvailList)} :
    decoded.follow names payload start ((p, after) :: rest) =
      EosDecoded.follow names payload start ⟨decoded.events ++ [eosEvent names payload p],
        decoded.visits ++ [⟨start + p, eosSize payload p, eosType payload p, eosCall payload p,
          after⟩], after⟩ rest := by
  simp only [EosDecoded.follow, walkEnd_cons, List.map_cons, List.append_assoc,
    List.singleton_append, eosVisit]

/-- Without records there is nothing to decode. -/
theorem follow_nil {p : Nat} {decoded result : EosDecoded}
    (hend : EosWalk memory payload p decoded.avail [])
    (hempty : ∀ walk, EosWalk memory payload p decoded.avail walk → walk = []) :
    (decodeEosRecords memory names 0 (start + p) decoded).view start payload =
        some (.ok result) ↔
      ∃ walk, EosWalk memory payload p decoded.avail walk ∧
        result = decoded.follow names payload start walk := by
  have hfollow : decoded.follow names payload start [] = decoded := by
    simp only [EosDecoded.follow, List.map_nil, List.append_nil]
    rfl
  constructor
  · intro h
    cases h
    exact ⟨[], hend, hfollow.symm⟩
  · rintro ⟨walk, hwalk, rfl⟩
    rw [hempty walk hwalk, hfollow]
    rfl

/-- The second pass over counted records follows a walk. -/
theorem decodeEosRecords_iff {p n : Nat} (hcounted : Counted payload p n)
    {decoded result : EosDecoded} :
    (decodeEosRecords memory names n (start + p) decoded).view start payload =
        some (.ok result) ↔
      ∃ walk, EosWalk memory payload p decoded.avail walk ∧
        result = decoded.follow names payload start walk := by
  induction hcounted generalizing decoded with
  | ended hend => exact follow_nil (.ended hend) fun _ hwalk => by cases hwalk <;> [rfl; omega; omega]
  | terminated hheader htype =>
      exact follow_nil (.terminated hheader htype) fun _ hwalk => by
        cases hwalk <;> [rfl; rfl; contradiction]
  | @record p n hheader htype hrest ih =>
      have hat : start + (p : Int) + eosSize payload p = start + (p + eosSize payload p : Nat) := by
        push_cast
        ring
      rw [decodeEosRecords, readHeader_view, if_pos hheader, if_neg htype, Reader.view_bind_eq_ok]
      constructor
      · rintro ⟨⟨event, call, after⟩, hrecord, hmore⟩
        obtain ⟨hbody, rfl, rfl, hupdates⟩ := (decodeEosRecord_iff hheader).mp hrecord
        dsimp only at hmore
        rw [hat, ih] at hmore
        obtain ⟨rest, hwalk, rfl⟩ := hmore
        have hsize := (Counted.record hheader htype hrest).size_pos hheader htype
        exact ⟨_, .record hheader htype hsize hbody hupdates hwalk, follow_cons.symm⟩
      · rintro ⟨walk, hwalk, rfl⟩
        cases hwalk with
        | ended hend => omega
        | terminated _ hterminated => exact absurd hterminated htype
        | @record _ _ after rest _ _ _ hbody hupdates hwalk =>
            refine ⟨_, (decodeEosRecord_iff hheader).mpr ⟨hbody, rfl, rfl, hupdates⟩, ?_⟩
            dsimp only
            rw [hat, ih]
            exact ⟨rest, hwalk, follow_cons⟩

end Decoding

/-- The lists passed on are no longer than what the record has behind its 20-byte header. -/
theorem eosListShape_le {size count : Nat} (hsize : size < 4294967296) (hcount : count < 4294967296)
    {membSize cnt : Int} (hshape : eosListShape size count = some (membSize, cnt))
    (hfits : Fits (membSize * cnt)) (hroom : toSize (membSize * cnt) + 20 ≤ 2147483647) :
    membSize * cnt ≤ (size - 20 : Nat) := by
  unfold eosListShape at hshape
  obtain ⟨hne, hshape⟩ := Option.ite_none_right_eq_some.mp hshape
  obtain ⟨rfl, rfl⟩ := Prod.mk.inj (Option.some.inj hshape)
  have htotal : 20 ≤ size ∧ toUInt32 (toInt32 ((size : Int) - 20)) = size - 20 ∨
      size < 20 ∧ toUInt32 (toInt32 ((size : Int) - 20)) = 4294967276 + size := by
    unfold toUInt32 toInt32
    omega
  generalize toUInt32 (toInt32 ((size : Int) - 20)) = total at *
  have hle : total / count * count ≤ total := Nat.div_mul_le_self total count
  have hlt : total < total / count * count + count := Nat.lt_div_mul_add (by omega)
  generalize total / count = quotient at *
  by_cases hpositive : count < 2147483648
  · have hcnt : toInt32 (count : Int) = count := toInt32_of_fits (by unfold Fits; omega)
    by_cases hquotient : quotient < 2147483648
    · have hmemb : toInt32 (quotient : Int) = quotient := toInt32_of_fits (by unfold Fits; omega)
      rw [hcnt, hmemb, ← Nat.cast_mul] at hfits hroom ⊢
      rcases htotal with ⟨_, rfl⟩ | ⟨hshort, rfl⟩
      · omega
      · -- A quotient above 0 would have a product behind the end of every payload.
        rcases Nat.eq_zero_or_pos quotient with rfl | hpos
        · simp
        · have hcount_le : count ≤ quotient * count := Nat.le_mul_of_pos_left count hpos
          unfold Fits toSize at *
          omega
    · have hmemb : toInt32 (quotient : Int) ≤ 0 := by
        have hbound : quotient ≤ quotient * count := Nat.le_mul_of_pos_right quotient (by omega)
        unfold toInt32
        omega
      have hproduct : toInt32 (quotient : Int) * toInt32 count ≤ 0 :=
        mul_nonpos_of_nonpos_of_nonneg hmemb (by omega)
      omega
  · have hcnt : toInt32 (count : Int) ≤ 0 := by
      unfold toInt32
      omega
    have hmemb : 0 ≤ toInt32 (quotient : Int) := by
      have hbound : quotient * 2147483648 ≤ quotient * count :=
        Nat.mul_le_mul_left quotient (by omega)
      unfold toInt32
      omega
    have hproduct : toInt32 (quotient : Int) * toInt32 count ≤ 0 :=
      mul_nonpos_of_nonneg_of_nonpos hmemb hcnt
    omega

/-! ## Both passes -/

section Passes

variable {r : PtpRuntime} {start length : Int} {payload : List UInt8} {memory : Allocator}
  {names : EnumNames} {avail : AvailList}

/-- The list as the second pass finds it, after the array of events has been allocated. -/
def AvailList.allocated (avail : AvailList) : AvailList :=
  { avail with allocations := avail.allocations + 1 }

/-- What `ptp_eos_events` leaves behind on a walk. -/
def eosDecoded (names : EnumNames) (payload : List UInt8) (start : Int) (avail : AvailList)
    (walk : List (Nat × AvailList)) : EosDecoded :=
  if walk = [] then ⟨[], [], avail⟩
  else EosDecoded.follow names payload start ⟨[], [], avail.allocated⟩ walk

/-- The second pass over `n` counted records. -/
theorem ptpEosEvents_view (hpayload : r.HasPayload start length payload) {fuel n : Nat}
    (hcounted : Counted payload 0 n)
    (hlength : (ptpEosEventsLength r fuel).view start payload = some (.ok (n : Int))) :
    (ptpEosEvents memory names r avail fuel).view start payload =
      if n = 0 then some (.ok (0, ⟨[], [], avail⟩))
      else if (memory avail.allocations (genericEventSize * n)).isSome then
        (decodeEosRecords memory names n (start + (0 : Nat)) ⟨[], [], avail.allocated⟩ >>=
          fun decoded => .done ((n : Int), decoded)).view start payload
      else some (.error .undefined) := by
  rw [ptpEosEvents, Reader.view_bind_ok hlength]
  by_cases hzero : n = 0
  · subst hzero
    rfl
  · have hsize : toSize ((genericEventSize : Int) * n) = genericEventSize * n := by
      have hle := hcounted.le
      have hint := hpayload.length_le
      unfold intMax at hint
      unfold toSize genericEventSize
      omega
    rw [if_neg (by omega), if_neg (by omega), if_neg hzero, hsize, Allocator.malloc]
    cases memory avail.allocations (genericEventSize * n) with
    | none => rfl
    | some contents =>
        simp only [Option.map_some, hpayload.start_eq, Reader.ofExcept, Reader.done_bind,
          Int.toNat_natCast, Nat.cast_zero, Int.add_zero]
        rfl

theorem eosDecoded_visits (walk : List (Nat × AvailList)) :
    (eosDecoded names payload start avail walk).visits = walk.map (eosVisit payload start) := by
  unfold eosDecoded
  split
  next hempty => rw [hempty, List.map_nil]
  next => rfl

theorem eosDecoded_events (walk : List (Nat × AvailList)) :
    (eosDecoded names payload start avail walk).events =
      walk.map fun entry => eosEvent names payload entry.1 := by
  unfold eosDecoded
  split
  next hempty => rw [hempty, List.map_nil]
  next => rfl

/-- `ptp_eos_events` ends inside the payload exactly on a walk. -/
theorem ptpEosEvents_iff (hpayload : r.HasPayload start length payload) {count : Int}
    {decoded : EosDecoded} :
    (∃ fuel, (ptpEosEvents memory names r avail fuel).view start payload =
        some (.ok (count, decoded))) ↔
      ∃ walk, EosWalk memory payload 0 avail.allocated walk ∧
        (walk = [] ∨ (memory avail.allocations (genericEventSize * walk.length)).isSome) ∧
        count = walk.length ∧ decoded = eosDecoded names payload start avail walk := by
  constructor
  · rintro ⟨fuel, hview⟩
    obtain ⟨result, hlength, _⟩ := Reader.view_bind_eq_ok.mp hview
    obtain ⟨n, hcounted, rfl⟩ := counted_of_length_view hpayload hlength
    rw [ptpEosEvents_view hpayload hcounted hlength] at hview
    split at hview
    next hzero =>
      subst hzero
      cases hview
      exact ⟨[], hcounted.walk_nil, .inl rfl, rfl, rfl⟩
    next hpositive =>
      split at hview
      next hgranted =>
        obtain ⟨decoded', hdecode, hdone⟩ := Reader.view_bind_eq_ok.mp hview
        cases hdone
        obtain ⟨walk, hwalk, rfl⟩ := (decodeEosRecords_iff hcounted).mp hdecode
        have hn : n = walk.length := hcounted.unique hwalk.counted
        have hne : walk ≠ [] := fun h => hpositive (by rw [hn, h]; rfl)
        exact ⟨walk, hwalk, .inr (hn ▸ hgranted), congrArg Nat.cast hn, (if_neg hne).symm⟩
      next => cases hview
  · rintro ⟨walk, hwalk, hgranted, rfl, rfl⟩
    have hlength := ptpEosEventsLength_view hpayload hwalk.counted rfl
    refine ⟨walk.length + 1, ?_⟩
    rw [ptpEosEvents_view hpayload hwalk.counted hlength, eosDecoded]
    by_cases hempty : walk = []
    · subst hempty
      rfl
    · have hpositive : walk.length ≠ 0 := fun h => hempty (List.length_eq_zero_iff.mp h)
      rw [if_neg hpositive, if_pos (hgranted.resolve_left hempty), if_neg hempty,
        Reader.view_bind_ok ((decodeEosRecords_iff hwalk.counted).mpr ⟨walk, hwalk, rfl⟩)]
      rfl

/-- Every list that a walk passes on is no longer than what its record has for it. -/
theorem EosWalk.calls_bounded {p : Nat} {walk : List (Nat × AvailList)}
    (hlength : (payload.length : Int) ≤ intMax) (hwalk : EosWalk memory payload p avail walk) :
    ∀ entry ∈ walk, ∀ shape ∈ eosCall payload entry.1,
      shape.1 * shape.2 ≤ (eosSize payload entry.1 - 20 : Nat) := by
  induction hwalk with
  | ended => exact fun _ h => nomatch h
  | terminated => exact fun _ h => nomatch h
  | @record p avail after rest hheader htype _ hbody hupdates _ ih =>
      rw [List.forall_mem_cons]
      refine ⟨?_, ih⟩
      rintro ⟨membSize, cnt⟩ hcall
      rw [Option.mem_def] at hcall
      rw [EosUpdates, hcall] at hupdates
      obtain ⟨hfits, hroom⟩ := ptpSetPropAvailInfo_inside hupdates
      rw [List.length_drop] at hroom
      obtain ⟨hlist, hshape⟩ := Option.ite_none_right_eq_some.mp hcall
      have hbodySize : eosBodySize payload p = 12 := by
        rw [eosBodySize, hlist]
        rfl
      apply eosListShape_le (field_lt 4 p payload) (field_lt 4 (p + 16) payload) hshape hfits
      unfold intMax at hlength
      omega

/-- Both passes come to an end, read only bytes of the payload, and pass on no list that is
longer than what its record has behind the 20-byte header. -/
def EosSafe (memory : Allocator) (names : EnumNames) (r : PtpRuntime) (avail : AvailList)
    (start : Int) (payload : List UInt8) : Prop :=
  ∃ fuel count result decoded,
    (ptpEosEventsLength r fuel).run r.load = .ok count ∧
    (∀ request ∈ (ptpEosEventsLength r fuel).reads r.load,
      Reader.Inside start payload.length request) ∧
    (ptpEosEvents memory names r avail fuel).run r.load = .ok (result, decoded) ∧
    (∀ request ∈ (ptpEosEvents memory names r avail fuel).reads r.load,
      Reader.Inside start payload.length request) ∧
    ∀ visit ∈ decoded.visits, ∀ shape ∈ visit.call, shape.1 * shape.2 ≤ (visit.size - 20 : Nat)

/-- The passes are safe exactly on the payloads that can be walked over. -/
theorem eosSafe_iff (memory : Allocator) (names : EnumNames) (r : PtpRuntime) (avail : AvailList)
    (start length : Int) (payload : List UInt8) (hpayload : r.HasPayload start length payload) :
    EosSafe memory names r avail start payload ↔
      ∃ walk, EosWalk memory payload 0 avail.allocated walk ∧
        (walk = [] ∨ (memory avail.allocations (genericEventSize * walk.length)).isSome) := by
  constructor
  · rintro ⟨fuel, count, result, decoded, hcount, hcountInside, hrun, hinside, hbounded⟩
    have hview := (Reader.view_eq_some_iff hpayload.shows).mpr ⟨hrun, hinside⟩
    obtain ⟨walk, hwalk, hgranted, _⟩ := (ptpEosEvents_iff hpayload).mp ⟨fuel, hview⟩
    exact ⟨walk, hwalk, hgranted⟩
  · rintro ⟨walk, hwalk, hgranted⟩
    obtain ⟨fuel, hview⟩ : ∃ fuel, (ptpEosEvents memory names r avail fuel).view start payload =
        some (.ok ((walk.length : Int), eosDecoded names payload start avail walk)) :=
      (ptpEosEvents_iff hpayload).mpr ⟨walk, hwalk, hgranted, rfl, rfl⟩
    obtain ⟨count, hlength, _⟩ := Reader.view_bind_eq_ok.mp hview
    obtain ⟨hcount, hcountInside⟩ := (Reader.view_eq_some_iff hpayload.shows).mp hlength
    obtain ⟨hrun, hinside⟩ := (Reader.view_eq_some_iff hpayload.shows).mp hview
    refine ⟨fuel, count, walk.length, _, hcount, hcountInside, hrun, hinside, ?_⟩
    rw [eosDecoded_visits, List.forall_mem_map]
    exact hwalk.calls_bounded hpayload.length_le

end Passes

/-- A request to transfer the object 7. -/
def transferRecord : List UInt8 := [16, 0, 0, 0, 0x86, 0xC1, 0, 0, 7, 0, 0, 0, 1, 0, 0, 0]

/-- The apertures 8 and 11. -/
def apertureRecord : List UInt8 :=
  [28, 0, 0, 0, 0x8A, 0xC1, 0, 0, 1, 0xD1, 0, 0, 3, 0, 0, 0, 2, 0, 0, 0, 8, 0, 0, 0, 11, 0, 0, 0]

def noNames : EnumNames := fun _ => none

theorem eosSafe_transferRecord : EosSafe zeroedMemory noNames
    (received (Container.bytes ptpPacketTypeData ⟨0, 0, apertureRecord ++ transferRecord⟩))
    AvailList.initial 12 (apertureRecord ++ transferRecord) := by
  have hpayload := received_hasPayload (apertureRecord ++ transferRecord) (by decide)
  let before := AvailList.initial.allocated
  obtain ⟨after, hlisted⟩ : ∃ after, (ptpSetPropAvailInfo zeroedMemory before 0xD101 4 2 0).run
      (Reader.only .undefined ((apertureRecord ++ transferRecord).drop 20)) = .ok after := ⟨_, rfl⟩
  have hcall : eosCall (apertureRecord ++ transferRecord) 0 = some (4, 2) := by decide
  have hcode : toInt32 (field 4 (0 + 8) (apertureRecord ++ transferRecord)) = 0xD101 := by decide
  have hupdates : EosUpdates zeroedMemory (apertureRecord ++ transferRecord) 0 before after := by
    rw [EosUpdates, hcall]
    dsimp only
    rw [hcode]
    exact hlisted
  refine (eosSafe_iff _ _ _ _ _ _ _ hpayload).mpr ⟨[(0, after), (28, after)], ?_, .inr rfl⟩
  exact .record (by decide) (by decide) (by decide) (by decide) hupdates
    (.record (by decide) (by decide) (by decide) (by decide) rfl (.ended (by decide)))

/-- A record that leads to itself. -/
def stuckRecord : List UInt8 := [0, 0, 0, 0, 0xA4, 0xC1, 0, 0]

/-- The counting pass never gets past a record of size 0. -/
theorem eosSafe_stuckRecord : ¬EosSafe zeroedMemory noNames
    (received (Container.bytes ptpPacketTypeData ⟨0, 0, stuckRecord⟩)) AvailList.initial 12
    stuckRecord := by
  rintro ⟨fuel, count, _, _, hcount, hinside, _⟩
  have hpayload := received_hasPayload stuckRecord (by decide)
  have hview := (Reader.view_eq_some_iff hpayload.shows).mpr ⟨hcount, hinside⟩
  obtain ⟨n, hcounted, _⟩ := counted_of_length_view hpayload hview
  have hsize := hcounted.size_pos (by decide) (by decide)
  exact absurd hsize (by decide)

end Libpict
