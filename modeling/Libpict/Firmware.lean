import Libpict.Objects
import Libpict.BulkReassembly
import Libpict.Outcome

/-! # Upload of a firmware

`ptp_eos_update_firmware` sends a file in blocks that begin with its name. The last blocks are
cut to a size that is not the one of what is left of the file, so that only few files arrive as
they are.
-/

namespace Libpict

open Bytes CInt Exec

variable {σ : Type}

/-- `EOS_NAME_LEN`. -/
def eosNameLen : Nat := 32

/-- `EOS_FIRM_MAX`. -/
def eosFirmMax : Nat := 0x200000

/-- The bytes of the file in a whole block. -/
def firmwarePart : Nat := eosFirmMax - eosNameLen

/-- What `ptp_send_data` gets. -/
structure DataBlock where
  cmd : PtpCommand
  data : List UInt8

/-! ## The loop -/

/-- The command of a block, behind `sent` bytes of a file. -/
def updateFirmwareCmd (length : Nat) (sent : Int) : PtpCommand :=
  commandOf 0x911F [UInt32.ofNat (toUInt32 length), UInt32.ofNat (toUInt32 sent)] (by simp)

/-- The name is cleared and copied with its terminator, and the next part of the file read
behind it. A short part is stored as far as it goes, and leaves the rest of the memory. -/
def firmwarePayload (name : List UInt8) (payload : Buffer) (left : List UInt8) : Buffer :=
  ((payload.store 0 (List.replicate eosNameLen 0)).store 0 (name ++ [0])).store eosNameLen
    (left.take firmwarePart)

/-- The `size` of a block: `size -= s.st_size - sent` at the end of the file. -/
def firmwareSize (length : Nat) (sent : Int) : Int :=
  if sent + eosFirmMax > length then toInt32 (eosFirmMax - (length - sent)) else eosFirmMax

/-- The block behind `sent` bytes, from a payload that has been filled. -/
def firmwareBlock (length : Nat) (sent : Int) (filled : Buffer) : DataBlock :=
  ⟨updateFirmwareCmd length sent, filled.slice 0 (firmwareSize length sent).toNat⟩

section Update

variable (B : Backend σ) (fuel : Nat) (name : List UInt8) (length : Nat)

/-- The loop of `ptp_eos_update_firmware`, at most `rounds` times, with `left` to be read of the
file: the result, and the blocks that have been sent. -/
def updateRounds : (rounds : Nat) → (payload : Buffer) → (left : List UInt8) → (sent : Int) →
    M σ (Int × List DataBlock)
  | 0, _, _, _ => halt .spent
  | rounds + 1, payload, left, sent => do
      let filled := firmwarePayload name payload left
      let _ ← intAdd sent eosFirmMax
      let block := firmwareBlock length sent filled
      let rc ← ptpSendData B fuel block.cmd block.data
      if rc ≠ 0 then pure (rc, [])
      else do
        let sent ← intAdd sent (firmwareSize length sent - eosNameLen)
        if sent ≥ length then pure (0, [block])
        else do
          let (rc, blocks) ← updateRounds rounds filled (left.drop firmwarePart) sent
          pure (rc, block :: blocks)

/-- `ptp_eos_update_firmware`; `memory` is what the allocated payload begins as. -/
def ptpEosUpdateFirmware (memory : Nat → UInt8) (rounds : Nat) (file : List UInt8) :
    M σ (Int × List DataBlock) :=
  if name.length > eosNameLen then pure (-1, [])
  else updateRounds B fuel name file.length rounds ⟨eosFirmMax, memory⟩ file 0

end Update

/-! ## What an upload should send -/

/-- The name, filled up with zeros. -/
def paddedName (name : List UInt8) : List UInt8 :=
  name ++ List.replicate (eosNameLen - name.length) 0

/-- A block with some bytes of a file, behind the first `before` bytes. -/
structure DataBlock.Carries (block : DataBlock) (name : List UInt8) (before : Nat)
    (bytes : List UInt8) : Prop where
  code : block.cmd.code = 0x911F
  offset : block.cmd.params[1] = UInt32.ofNat before
  data : block.data = paddedName name ++ bytes
  size : block.data.length ≤ eosFirmMax

/-- Blocks that send what is left of a file behind its first `before` bytes: one part behind the
other, and nothing else. -/
def Transfers (name : List UInt8) : (before : Nat) → (left : List UInt8) → List DataBlock → Prop
  | _, left, [] => left = []
  | before, left, block :: blocks => ∃ bytes rest, left = bytes ++ rest ∧
      block.Carries name before bytes ∧ Transfers name (before + bytes.length) rest blocks

/-! ## Payloads -/

section Payload

variable {name : List UInt8} (hname : name.length ≤ eosNameLen)

include hname

theorem paddedName_length : (paddedName name).length = eosNameLen := by
  rw [paddedName, List.length_append, List.length_replicate]
  omega

theorem firmwarePayload_name (payload : Buffer) (left : List UInt8) :
    (firmwarePayload name payload left).slice 0 eosNameLen = paddedName name := by
  apply List.ext_getElem
  · rw [Buffer.slice_length, paddedName_length hname]
  · intro index hslice hpadded
    rw [Buffer.slice_length] at hslice
    rw [Buffer.slice_getElem, firmwarePayload, Nat.zero_add]
    have hfront : ¬(eosNameLen ≤ index ∧ index < eosNameLen + (left.take firmwarePart).length) := by
      omega
    simp only [Buffer.store, if_neg hfront, paddedName, Nat.zero_le, true_and, Nat.zero_add,
      List.length_append, List.length_singleton, List.length_replicate, Nat.sub_zero, if_pos hslice]
    rcases Nat.lt_trichotomy index name.length with hlt | rfl | hgt
    · rw [if_pos (by omega), List.getElem_append_left hlt]
      simp [List.getElem?_append_left hlt, List.getElem?_eq_getElem hlt]
    · simp
    · rw [if_neg (by omega), List.getElem_append_right (by omega)]
      simp [hslice]

omit hname in
theorem firmwarePayload_part (payload : Buffer) {left : List UInt8} {count : Nat}
    (hleft : count ≤ left.length) (hpart : count ≤ firmwarePart) :
    (firmwarePayload name payload left).slice eosNameLen count = left.take count := by
  rw [firmwarePayload, Buffer.store_slice_take _ _ _ _ (by rw [List.length_take]; omega),
    List.take_take, Nat.min_eq_left hpart]

/-- At the end of the file only the terminator of a name of 32 bytes is stored behind the
name. -/
theorem firmwarePayload_byte (payload : Buffer) {index : Nat} (hindex : eosNameLen ≤ index) :
    (firmwarePayload name payload []).byte index =
      if index = name.length then 0 else payload.byte index := by
  have hpart : ¬(eosNameLen ≤ index ∧ index < eosNameLen + ([] : List UInt8).length) := by
    rw [List.length_nil]
    omega
  have hcleared : ¬(0 ≤ index ∧ index < 0 + (List.replicate eosNameLen (0 : UInt8)).length) := by
    rw [List.length_replicate]
    omega
  simp only [firmwarePayload, List.take_nil, Buffer.store, if_neg hpart, if_neg hcleared]
  by_cases hend : index = name.length
  · subst hend
    simp
  · have hbehind : ¬(0 ≤ index ∧ index < 0 + (name ++ [(0 : UInt8)]).length) := by
      rw [List.length_append, List.length_singleton]
      omega
    rw [if_neg hbehind, if_neg hend]

/-- What is resent of the end of a file. -/
def resent (name tail : List UInt8) : List UInt8 :=
  if name.length = eosNameLen then tail.set 0 0 else tail

theorem firmwarePayload_resent (payload : Buffer) {left : List UInt8} {count : Nat}
    (hleft : count ≤ left.length) (hpart : count ≤ firmwarePart) :
    (firmwarePayload name (firmwarePayload name payload left) []).slice eosNameLen count =
      (resent name left).take count := by
  have hkept := @firmwarePayload_part name payload left count hleft hpart
  apply List.ext_getElem
  · rw [Buffer.slice_length, List.length_take, resent]
    split
    · rw [List.length_set]
      omega
    · omega
  · intro index hslice htake
    rw [Buffer.slice_length] at hslice
    have hbyte : (firmwarePayload name payload left).byte (eosNameLen + index) =
        left[index] := by
      have hget := Buffer.slice_getElem (firmwarePayload name payload left) eosNameLen count index
        (by rw [Buffer.slice_length]; exact hslice)
      rw [← hget]
      simp only [hkept, List.getElem_take]
    rw [Buffer.slice_getElem, firmwarePayload_byte hname _ (Nat.le_add_right _ _), hbyte,
      List.getElem_take]
    unfold resent
    split
    next hend =>
      have hfull : name.length = eosNameLen := by omega
      have hzero : index = 0 := by omega
      subst hzero
      simp [hfull]
    next hinside =>
      split
      next hfull => rw [List.getElem_set_ne (by omega)]
      next => rfl

/-- A payload is filled only once. -/
theorem firmwarePayload_again (payload : Buffer) (count : Nat) :
    (firmwarePayload name (firmwarePayload name payload []) []).slice eosNameLen count =
      (firmwarePayload name payload []).slice eosNameLen count := by
  apply Buffer.slice_congr
  intro index hlow _
  rw [firmwarePayload_byte hname _ hlow, firmwarePayload_byte hname _ hlow]
  split <;> rfl

end Payload

/-! ## One round -/

section Round

variable (B : Backend σ) (fuel : Nat) (name : List UInt8) (length : Nat)

/-- The rounds of an upload whose blocks have been sent, each with its payload, what is left to
be read, the bytes that count as sent and the world it begins in. -/
inductive UpdateReaches (memory : Nat → UInt8) (file : List UInt8) (w : World σ) :
    Buffer → List UInt8 → Int → World σ → Prop
  | first : UpdateReaches memory file w ⟨eosFirmMax, memory⟩ file 0 w
  | next {payload : Buffer} {left : List UInt8} {sent : Int} {v v' : World σ} :
      UpdateReaches memory file w payload left sent v →
      ptpSendData B fuel (updateFirmwareCmd length sent)
        (firmwareBlock length sent (firmwarePayload name payload left)).data v = .ok 0 v' →
      sent + (firmwareSize length sent - eosNameLen) < length →
      UpdateReaches memory file w (firmwarePayload name payload left) (left.drop firmwarePart)
        (sent + (firmwareSize length sent - eosNameLen)) v'

/-- Every block of an upload is sent without an error. -/
def UpdateSucceeds (memory : Nat → UInt8) (file : List UInt8) (w : World σ) : Prop :=
  ∀ payload left sent v, UpdateReaches B fuel name length memory file w payload left sent v →
    Fits (sent + eosFirmMax) →
    ∃ v', ptpSendData B fuel (updateFirmwareCmd length sent)
      (firmwareBlock length sent (firmwarePayload name payload left)).data v = .ok 0 v'

/-- From a round on, the upload ends with 0 and has sent what is left of the file. -/
def UploadsIn (rounds : Nat) (payload : Buffer) (left : List UInt8) (sent : Nat) (v : World σ)
    (tail : List UInt8) : Prop :=
  ∃ blocks v', updateRounds B fuel name length rounds payload left sent v =
    .ok (0, blocks) v' ∧ Transfers name sent tail blocks

def Uploads (payload : Buffer) (left : List UInt8) (sent : Nat) (v : World σ)
    (tail : List UInt8) : Prop :=
  ∃ rounds, UploadsIn B fuel name length rounds payload left sent v tail

end Round

/-- The size of a block in front of the end of the file. -/
def blockSize (length sent : Nat) : Nat :=
  if length < sent + eosFirmMax then eosFirmMax - (length - sent) else eosFirmMax

theorem blockSize_le (length sent : Nat) : blockSize length sent ≤ eosFirmMax := by
  unfold blockSize
  split <;> omega

section Step

variable {B : Backend σ} {fuel : Nat} {name : List UInt8} {length : Nat} {payload : Buffer}
  {left : List UInt8} {sent : Nat} {v v' : World σ}

theorem firmwareSize_natCast (hsent : sent < length) :
    firmwareSize length sent = blockSize length sent := by
  unfold firmwareSize blockSize
  have hmax : eosFirmMax = 2097152 := rfl
  by_cases hend : length < sent + eosFirmMax
  · rw [if_pos hend, if_pos (by omega), toInt32_of_fits (by unfold Fits; omega)]
    omega
  · rw [if_neg hend, if_neg (by omega)]

theorem updateRounds_overflow (hover : ¬Fits ((sent : Int) + eosFirmMax)) (rounds : Nat) :
    updateRounds B fuel name length (rounds + 1) payload left sent v = .error .undefined v := by
  rw [updateRounds]
  exact bind_error (intAdd_overflow hover v)

theorem updateRounds_sent (hsent : sent < length) (hfits : Fits ((sent : Int) + eosFirmMax))
    (hsend : ptpSendData B fuel (updateFirmwareCmd length sent)
      (firmwareBlock length sent (firmwarePayload name payload left)).data v = .ok 0 v')
    (rounds : Nat) :
    updateRounds B fuel name length (rounds + 1) payload left sent v =
      if (length : Int) ≤ sent + ((blockSize length sent : Int) - eosNameLen) then
        .ok (0, [firmwareBlock length sent (firmwarePayload name payload left)]) v'
      else (updateRounds B fuel name length rounds (firmwarePayload name payload left)
          (left.drop firmwarePart) (sent + ((blockSize length sent : Int) - eosNameLen)) >>=
        fun result => pure (result.1,
          firmwareBlock length sent (firmwarePayload name payload left) :: result.2)) v' := by
  have hsize := blockSize_le length sent
  have hname : eosNameLen = 32 := rfl
  have hnext : Fits ((sent : Int) + (firmwareSize length sent - eosNameLen)) := by
    rw [firmwareSize_natCast hsent]
    unfold Fits at hfits ⊢
    omega
  rw [updateRounds, bind_ok (intAdd_ok hfits v)]
  dsimp only
  rw [show (firmwareBlock length sent (firmwarePayload name payload left)).cmd =
    updateFirmwareCmd length sent from rfl, bind_ok hsend, if_neg (not_not.mpr rfl),
    bind_ok (intAdd_ok hnext v'), firmwareSize_natCast hsent]
  split <;> rfl

/-- What the block of a round carries. -/
theorem firmwareBlock_carries_iff (hname : name.length ≤ eosNameLen) (hsent : sent < length)
    (hfits : Fits ((sent : Int) + eosFirmMax)) {bytes : List UInt8} :
    (firmwareBlock length sent (firmwarePayload name payload left)).Carries name sent bytes ↔
      eosNameLen ≤ blockSize length sent ∧
        bytes = (firmwarePayload name payload left).slice eosNameLen
          (blockSize length sent - eosNameLen) := by
  have hdata : (firmwareBlock length sent (firmwarePayload name payload left)).data =
      (firmwarePayload name payload left).slice 0 (blockSize length sent) := by
    rw [firmwareBlock, firmwareSize_natCast hsent, Int.toNat_natCast]
  constructor
  · rintro ⟨-, -, hcarried, -⟩
    have hsize := congrArg List.length hcarried
    rw [hdata, Buffer.slice_length, List.length_append, paddedName_length hname] at hsize
    have hle : eosNameLen ≤ blockSize length sent := by omega
    refine ⟨hle, ?_⟩
    rw [hdata, ← Nat.add_sub_cancel' hle, Buffer.slice_add, firmwarePayload_name hname,
      Nat.zero_add, List.append_cancel_left_eq] at hcarried
    exact hcarried.symm
  · rintro ⟨hle, rfl⟩
    refine ⟨rfl, ?_, ?_, ?_⟩
    · have hcount : toUInt32 (sent : Int) = sent := by
        unfold Fits at hfits
        have hnonneg := toUInt32_of_nonneg (Int.natCast_nonneg sent) (by omega)
        omega
      have hoffset : (firmwareBlock length sent (firmwarePayload name payload left)).cmd.params[1] =
          UInt32.ofNat (toUInt32 sent) := rfl
      rw [hoffset, hcount]
    · rw [hdata, ← firmwarePayload_name hname payload left]
      have hsplit := (firmwarePayload name payload left).slice_add 0 eosNameLen
        (blockSize length sent - eosNameLen)
      rw [Nat.add_sub_cancel' hle, Nat.zero_add] at hsplit
      exact hsplit
    · rw [hdata, Buffer.slice_length]
      exact blockSize_le length sent

theorem not_uploadsIn_zero {tail : List UInt8} :
    ¬UploadsIn B fuel name length 0 payload left sent v tail := by
  rintro ⟨blocks, last, hrun, -⟩
  cases hrun

section Sent

variable (hname : name.length ≤ eosNameLen) (hsent : sent < length)
  (hsend : Fits ((sent : Int) + eosFirmMax) → ptpSendData B fuel (updateFirmwareCmd length sent)
    (firmwareBlock length sent (firmwarePayload name payload left)).data v = .ok 0 v')

include hname hsent hsend

/-- An upload completes if its next block carries what comes next in the file, and the rest of
it completes. -/
theorem uploadsIn_succ_iff (rounds : Nat) {tail : List UInt8} :
    UploadsIn B fuel name length (rounds + 1) payload left sent v tail ↔
      Fits ((sent : Int) + eosFirmMax) ∧ ∃ count rest, blockSize length sent = eosNameLen + count ∧
        tail = (firmwarePayload name payload left).slice eosNameLen count ++ rest ∧
        if length ≤ sent + count then rest = []
        else UploadsIn B fuel name length rounds (firmwarePayload name payload left)
          (left.drop firmwarePart) (sent + count) v' rest := by
  by_cases hfits : Fits ((sent : Int) + eosFirmMax)
  swap
  · refine iff_of_false ?_ (fun h => hfits h.1)
    rintro ⟨blocks, last, hrun, -⟩
    cases (updateRounds_overflow hfits rounds).symm.trans hrun
  have hround := @updateRounds_sent σ B fuel name length payload left sent v v' hsent hfits
    (hsend hfits)
  have hcarries := @firmwareBlock_carries_iff name length payload left sent hname hsent hfits
  constructor
  · rintro ⟨blocks, last, hrun, htransfers⟩
    refine ⟨hfits, ?_⟩
    rw [hround] at hrun
    split at hrun
    next hlast =>
      cases hrun
      obtain ⟨bytes, rest, rfl, hblock, hrest⟩ := htransfers
      obtain ⟨hle, rfl⟩ := hcarries.mp hblock
      refine ⟨_, rest, (Nat.add_sub_cancel' hle).symm, rfl, ?_⟩
      rw [if_pos (by omega)]
      exact hrest
    next hmore =>
      obtain ⟨⟨rc, blocks'⟩, u, hrest, hresult⟩ := bind_eq_ok.mp hrun
      cases hresult
      obtain ⟨bytes, rest, rfl, hblock, htransfers⟩ := htransfers
      obtain ⟨hle, rfl⟩ := hcarries.mp hblock
      refine ⟨_, rest, (Nat.add_sub_cancel' hle).symm, rfl, ?_⟩
      rw [if_neg (by omega)]
      rw [Buffer.slice_length] at htransfers
      refine ⟨blocks', last, ?_, htransfers⟩
      rw [Nat.cast_add, Nat.cast_sub hle]
      exact hrest
  · rintro ⟨-, count, rest, hsize, rfl, hrest⟩
    have hblock := hcarries.mpr ⟨by omega, rfl⟩
    rw [hsize, Nat.add_sub_cancel_left] at hblock
    split at hrest
    next hlast =>
      subst hrest
      refine ⟨_, v', (hround rounds).trans (if_pos (by rw [hsize]; omega)), _, [], rfl, hblock, rfl⟩
    next hmore =>
      obtain ⟨blocks, last, hrun, htransfers⟩ := hrest
      refine ⟨_ :: blocks, last, ?_, _, rest, rfl, hblock, ?_⟩
      · rw [hround, if_neg (by rw [hsize]; omega)]
        refine bind_eq_ok.mpr ⟨(0, blocks), last, ?_, rfl⟩
        rw [← hrun, hsize]
        push_cast
        rw [add_sub_cancel_left]
      · rw [Buffer.slice_length]
        exact htransfers

theorem uploads_iff_step {tail : List UInt8} :
    Uploads B fuel name length payload left sent v tail ↔
      Fits ((sent : Int) + eosFirmMax) ∧ ∃ count rest, blockSize length sent = eosNameLen + count ∧
        tail = (firmwarePayload name payload left).slice eosNameLen count ++ rest ∧
        if length ≤ sent + count then rest = []
        else Uploads B fuel name length (firmwarePayload name payload left)
          (left.drop firmwarePart) (sent + count) v' rest := by
  constructor
  · rintro ⟨rounds, huploads⟩
    cases rounds with
    | zero => exact absurd huploads not_uploadsIn_zero
    | succ rounds =>
        obtain ⟨hfits, count, rest, hsize, htail, hrest⟩ :=
          (uploadsIn_succ_iff hname hsent hsend rounds).mp huploads
        refine ⟨hfits, count, rest, hsize, htail, ?_⟩
        split at hrest
        next hlast => rwa [if_pos hlast]
        next hmore =>
          rw [if_neg hmore]
          exact ⟨rounds, hrest⟩
  · rintro ⟨hfits, count, rest, hsize, htail, hrest⟩
    by_cases hlast : length ≤ sent + count
    · rw [if_pos hlast] at hrest
      refine ⟨1, (uploadsIn_succ_iff hname hsent hsend 0).mpr
        ⟨hfits, count, rest, hsize, htail, ?_⟩⟩
      rwa [if_pos hlast]
    · rw [if_neg hlast] at hrest
      obtain ⟨rounds, hrest⟩ := hrest
      refine ⟨rounds + 1, (uploadsIn_succ_iff hname hsent hsend rounds).mpr
        ⟨hfits, count, rest, hsize, htail, ?_⟩⟩
      rwa [if_neg hlast]

end Sent

end Step

/-! ## The end of a file -/

/-- Behind `2 ^ i - 1` units, a file has the same `2 ^ i` units as what is sent in their place. -/
def Repeats (stale tail : List UInt8) (unit i : Nat) : Prop :=
  stale.take (2 ^ i * unit) = (tail.drop ((2 ^ i - 1) * unit)).take (2 ^ i * unit)

theorem repeats_zero_iff {stale tail : List UInt8} {unit : Nat} :
    Repeats stale tail unit 0 ↔ stale.take unit = tail.take unit := by
  simp [Repeats]

theorem repeats_succ_iff {stale tail : List UInt8} {unit i : Nat} :
    Repeats stale tail unit (i + 1) ↔ Repeats stale (tail.drop unit) (2 * unit) i := by
  obtain ⟨power, hpower⟩ := Nat.exists_eq_add_of_lt (Nat.two_pow_pos i)
  have hsize : 2 ^ (i + 1) * unit = 2 ^ i * (2 * unit) := by ring
  have hoffset : (2 ^ (i + 1) - 1) * unit = unit + (2 ^ i - 1) * (2 * unit) := by
    have hleft : (0 + power + 1) * 2 - 1 = 2 * power + 1 := by omega
    have hright : 0 + power + 1 - 1 = power := by omega
    rw [pow_succ, hpower, hleft, hright]
    ring
  rw [Repeats, Repeats, hsize, hoffset, List.drop_drop]

/-- Up to the last doubling, the first piece and the others. -/
theorem forall_repeats_iff {stale tail : List UInt8} {unit doublings : Nat} :
    (∀ i ≤ doublings + 1, Repeats stale tail unit i) ↔ stale.take unit = tail.take unit ∧
      ∀ i ≤ doublings, Repeats stale (tail.drop unit) (2 * unit) i := by
  constructor
  · intro hrepeats
    refine ⟨repeats_zero_iff.mp (hrepeats 0 (Nat.zero_le _)), fun i hi => ?_⟩
    exact repeats_succ_iff.mp (hrepeats (i + 1) (Nat.succ_le_succ hi))
  · rintro ⟨hfirst, hrest⟩ i hi
    cases i with
    | zero => exact repeats_zero_iff.mpr hfirst
    | succ i => exact repeats_succ_iff.mpr (hrest i (Nat.le_of_succ_le_succ hi))

section End

variable {B : Backend σ} {fuel : Nat} {name : List UInt8} {length : Nat} {memory : Nat → UInt8}
  {file : List UInt8} {w : World σ} {payload : Buffer}
  (hname : name.length ≤ eosNameLen)
  (hsucceeds : UpdateSucceeds B fuel name length memory file w)

include hname hsucceeds

/-- A round that is reached, and the next one. -/
theorem UpdateReaches.step {left : List UInt8} {sent : Nat} {v : World σ}
    (hreaches : UpdateReaches B fuel name length memory file w payload left sent v)
    (hsent : sent < length) (tail : List UInt8) : ∃ v',
    (∀ count, blockSize length sent = eosNameLen + count → sent + count < length →
      Fits ((sent : Int) + eosFirmMax) →
      UpdateReaches B fuel name length memory file w (firmwarePayload name payload left)
        (left.drop firmwarePart) (sent + count : Nat) v') ∧
    (Uploads B fuel name length payload left sent v tail ↔
      Fits ((sent : Int) + eosFirmMax) ∧ ∃ count rest, blockSize length sent = eosNameLen + count ∧
        tail = (firmwarePayload name payload left).slice eosNameLen count ++ rest ∧
        if length ≤ sent + count then rest = []
        else Uploads B fuel name length (firmwarePayload name payload left)
          (left.drop firmwarePart) (sent + count) v' rest) := by
  by_cases hfits : Fits ((sent : Int) + eosFirmMax)
  · obtain ⟨v', hsend⟩ := hsucceeds payload left sent v hreaches hfits
    refine ⟨v', fun count hsize hmore _ => ?_, uploads_iff_step hname hsent fun _ => hsend⟩
    have hnext := hreaches.next hsend
    rw [firmwareSize_natCast hsent, hsize] at hnext
    have hcast : (sent : Int) + ((eosNameLen + count : Nat) - eosNameLen) =
        (sent + count : Nat) := by
      push_cast
      rw [add_sub_cancel_left]
    rw [hcast] at hnext
    exact hnext (Int.ofNat_lt.mpr hmore)
  · exact ⟨w, fun _ _ _ hfits' => absurd hfits' hfits,
      uploads_iff_step hname hsent fun hfits' => absurd hfits' hfits⟩

/-- If all of a whole block has been read and nothing of it sent, the upload goes on forever. -/
theorem not_uploads_stuck {sent : Nat} {v : World σ}
    (hreaches : UpdateReaches B fuel name length memory file w payload [] sent v)
    (hwhole : length = sent + firmwarePart) (tail : List UInt8) :
    ¬Uploads B fuel name length payload [] sent v tail := by
  have hpart : firmwarePart = 2097120 := rfl
  have hmax : eosFirmMax = 2097152 := rfl
  have hnameLen : eosNameLen = 32 := rfl
  have hsize : blockSize length sent = eosNameLen + 0 := by
    unfold blockSize
    rw [if_pos (by omega)]
    omega
  rintro ⟨rounds, huploads⟩
  induction rounds generalizing payload v tail with
  | zero => exact not_uploadsIn_zero huploads
  | succ rounds ih =>
      have hsend : ∃ v', Fits ((sent : Int) + eosFirmMax) →
          ptpSendData B fuel (updateFirmwareCmd length sent)
            (firmwareBlock length sent (firmwarePayload name payload [])).data v = .ok 0 v' := by
        by_cases hfits : Fits ((sent : Int) + eosFirmMax)
        · obtain ⟨v', hsend⟩ := hsucceeds payload [] sent v hreaches hfits
          exact ⟨v', fun _ => hsend⟩
        · exact ⟨v, fun hfits' => absurd hfits' hfits⟩
      obtain ⟨v', hsend⟩ := hsend
      obtain ⟨hfits, count, rest, hsize', -, hrest⟩ :=
        (uploadsIn_succ_iff hname (by omega) hsend rounds).mp huploads
      obtain rfl : count = 0 := by omega
      have hnext := hreaches.next (hsend hfits)
      rw [firmwareSize_natCast (by omega), hsize, Nat.add_zero, sub_self, add_zero] at hnext
      rw [if_neg (by omega)] at hrest
      exact ih (hnext (by omega)) rest hrest

/-- A round that gets behind the end of the file. -/
theorem UpdateReaches.step_end {left : List UInt8} {sent : Nat} {v : World σ}
    (hreaches : UpdateReaches B fuel name length memory file w payload left sent v)
    (hleft : left.drop firmwarePart = []) {tail : List UInt8} {unit : Nat}
    (hlength : length = sent + tail.length) (htail : 0 < tail.length)
    (hunit : unit + tail.length = firmwarePart) : ∃ v',
    (unit < tail.length → Fits ((sent : Int) + eosFirmMax) →
      UpdateReaches B fuel name length memory file w (firmwarePayload name payload left) []
        (sent + unit : Nat) v') ∧
    (Uploads B fuel name length payload left sent v tail ↔
      Fits ((sent : Int) + eosFirmMax) ∧ unit ≤ tail.length ∧
        (firmwarePayload name payload left).slice eosNameLen unit = tail.take unit ∧
        (unit < tail.length → Uploads B fuel name length (firmwarePayload name payload left) []
          (sent + unit) v' (tail.drop unit))) := by
  have hpart : firmwarePart = 2097120 := rfl
  have hmax : eosFirmMax = 2097152 := rfl
  have hnameLen : eosNameLen = 32 := rfl
  have hsize : blockSize length sent = eosNameLen + unit := by
    unfold blockSize
    rw [if_pos (by omega)]
    omega
  obtain ⟨v', hnext, hround⟩ := hreaches.step hname hsucceeds (by omega) tail
  rw [hleft] at hnext hround
  refine ⟨v', fun hmore => hnext unit hsize (by omega), hround.trans ?_⟩
  refine and_congr_right fun _ => ?_
  constructor
  · rintro ⟨count, rest, hcount, rfl, hrest⟩
    obtain rfl : count = unit := by omega
    have hslice := Buffer.slice_length (firmwarePayload name payload left) eosNameLen count
    refine ⟨?_, (List.take_left' hslice).symm, fun hmore => ?_⟩
    · rw [List.length_append, hslice]
      omega
    · rw [if_neg (by omega)] at hrest
      rwa [List.drop_left' hslice]
  · rintro ⟨hle, hslice, hrest⟩
    refine ⟨unit, tail.drop unit, hsize, ?_, ?_⟩
    · rw [hslice, List.take_append_drop]
    · split
      next hlast => exact List.drop_eq_nil_of_le (by omega)
      next hmore => exact hrest (by omega)

omit hname hsucceeds in
theorem exists_doubling_iff {unit rest total : Nat} (hsum : unit + rest = total) (hrest : 0 < rest)
    {p : Nat → Prop} : (∃ doublings, 2 ^ (doublings + 1) * unit = total ∧ p doublings) ↔
      unit = rest ∧ p 0 ∨ unit < rest ∧
        ∃ doublings, 2 ^ (doublings + 1) * (2 * unit) = total ∧ p (doublings + 1) := by
  have hdouble : ∀ n, 2 ^ (n + 1) * (2 * unit) = 2 ^ (n + 1 + 1) * unit := by
    intro n
    ring
  constructor
  · rintro ⟨doublings, htotal, hp⟩
    cases doublings with
    | zero => exact .inl ⟨by omega, hp⟩
    | succ doublings =>
        refine .inr ⟨?_, doublings, (hdouble doublings).trans htotal, hp⟩
        have hquarter := Nat.le_mul_of_pos_left unit (Nat.two_pow_pos doublings)
        have hfour : 2 ^ (doublings + 1 + 1) * unit = 4 * (2 ^ doublings * unit) := by ring
        omega
  · rintro (⟨rfl, hp⟩ | ⟨-, doublings, htotal, hp⟩)
    · exact ⟨0, by omega, hp⟩
    · exact ⟨doublings + 1, (hdouble doublings).symm.trans htotal, hp⟩

omit hname hsucceeds in
theorem no_doubling {doublings : Nat} : ¬2 ^ (doublings + 1) * 0 = firmwarePart := by
  rw [Nat.mul_zero]
  decide

/-- Behind the end of the file the pieces double, and the last one must end with it. -/
theorem uploads_resent_iff {sent : Nat} {v : World σ}
    (hreaches : UpdateReaches B fuel name length memory file w payload [] sent v)
    {tail : List UInt8} {unit : Nat} (hlength : length = sent + tail.length)
    (htail : 0 < tail.length) (hunit : unit + tail.length = firmwarePart) :
    Uploads B fuel name length payload [] sent v tail ↔
      Fits ((length + eosFirmMax - firmwarePart / 2 : Nat) : Int) ∧
        ∃ doublings, 2 ^ (doublings + 1) * unit = firmwarePart ∧ ∀ i ≤ doublings,
          Repeats ((firmwarePayload name payload []).slice eosNameLen firmwarePart) tail unit
            i := by
  have hpart : firmwarePart = 2097120 := rfl
  have hmax : eosFirmMax = 2097152 := rfl
  induction hcount : tail.length using Nat.strongRecOn generalizing payload sent v tail unit with
  | ind count ih =>
      obtain rfl | hpos := Nat.eq_zero_or_pos unit
      · refine iff_of_false (not_uploads_stuck hname hsucceeds hreaches (by omega) tail) ?_
        rintro ⟨-, doublings, htotal, -⟩
        exact no_doubling htotal
      obtain ⟨v', hnext, hround⟩ :=
        hreaches.step_end hname hsucceeds List.drop_nil hlength htail hunit
      have hpiece : ((firmwarePayload name payload []).slice eosNameLen firmwarePart).take unit =
          (firmwarePayload name payload []).slice eosNameLen unit := by
        have hslice := (firmwarePayload name payload []).slice_drop_take eosNameLen firmwarePart 0
          unit (by omega)
        rwa [List.drop_zero, Nat.add_zero] at hslice
      rw [hround, exists_doubling_iff hunit htail]
      simp only [Nat.le_zero, forall_eq, repeats_zero_iff, forall_repeats_iff, hpiece]
      rcases Nat.lt_trichotomy unit tail.length with hmore | hlast | hover
      · have hrest : (tail.drop unit).length = tail.length - unit := List.length_drop
        have hfits : Fits ((length + eosFirmMax - firmwarePart / 2 : Nat) : Int) →
            Fits ((sent : Int) + eosFirmMax) := by
          unfold Fits
          omega
        have hagain : Fits ((sent : Int) + eosFirmMax) →
            (Uploads B fuel name length (firmwarePayload name payload []) [] (sent + unit) v'
                (tail.drop unit) ↔
              Fits ((length + eosFirmMax - firmwarePart / 2 : Nat) : Int) ∧
                ∃ doublings, 2 ^ (doublings + 1) * (2 * unit) = firmwarePart ∧ ∀ i ≤ doublings,
                  Repeats ((firmwarePayload name payload []).slice eosNameLen firmwarePart)
                    (tail.drop unit) (2 * unit) i) := by
          intro hfits'
          rw [← firmwarePayload_again hname payload firmwarePart]
          exact ih (tail.length - unit) (by omega) (hnext hmore hfits') (by omega) (by omega)
            (by omega) hrest
        constructor
        · rintro ⟨hfits', -, hsame, huploads⟩
          obtain ⟨hfits'', doublings, htotal, hrepeats⟩ := (hagain hfits').mp (huploads hmore)
          exact ⟨hfits'', .inr ⟨hmore, doublings, htotal, hsame, hrepeats⟩⟩
        · rintro ⟨hfits', ⟨hsame, -⟩ | ⟨-, doublings, htotal, hsame, hrepeats⟩⟩
          · omega
          · exact ⟨hfits hfits', hmore.le, hsame,
              fun _ => (hagain (hfits hfits')).mpr ⟨hfits', doublings, htotal, hrepeats⟩⟩
      · have hfits : ((length + eosFirmMax - firmwarePart / 2 : Nat) : Int) =
            (sent : Int) + eosFirmMax := by omega
        rw [hfits]
        constructor
        · rintro ⟨hfits', -, hsame, -⟩
          exact ⟨hfits', .inl ⟨hlast, hsame⟩⟩
        · rintro ⟨hfits', ⟨-, hsame⟩ | ⟨hmore, -⟩⟩
          · exact ⟨hfits', hlast.le, hsame, fun hmore => absurd hmore (by omega)⟩
          · omega
      · refine iff_of_false (fun h => absurd h.2.1 (by omega)) ?_
        rintro ⟨-, ⟨hsame, -⟩ | ⟨hmore, -⟩⟩ <;> omega

/-- The first round that gets behind the end of the file sends a piece of it. -/
theorem uploads_end_iff {sent : Nat} {v : World σ} {tail : List UInt8}
    (hreaches : UpdateReaches B fuel name length memory file w payload tail sent v)
    {unit : Nat} (hlength : length = sent + tail.length)
    (htail : 0 < tail.length) (hunit : unit + tail.length = firmwarePart) :
    Uploads B fuel name length payload tail sent v tail ↔
      Fits ((length + eosFirmMax - firmwarePart / 2 : Nat) : Int) ∧
        ∃ doublings, 2 ^ (doublings + 1) * unit = firmwarePart ∧
          ∀ i, 1 ≤ i → i ≤ doublings → Repeats (resent name tail) tail unit i := by
  have hpart : firmwarePart = 2097120 := rfl
  have hmax : eosFirmMax = 2097152 := rfl
  have hleft : tail.drop firmwarePart = [] := List.drop_eq_nil_of_le (by omega)
  obtain ⟨v', hnext, hround⟩ := hreaches.step_end hname hsucceeds hleft hlength htail hunit
  rw [hround, exists_doubling_iff hunit htail]
  rcases Nat.lt_trichotomy unit tail.length with hmore | hlast | hover
  · have hrest : (tail.drop unit).length = tail.length - unit := List.length_drop
    have hfits : Fits ((length + eosFirmMax - firmwarePart / 2 : Nat) : Int) →
        Fits ((sent : Int) + eosFirmMax) := by
      unfold Fits
      omega
    have hagain := fun hfits' => uploads_resent_iff hname hsucceeds (hnext hmore hfits')
      (by omega : length = sent + unit + (tail.drop unit).length) (by omega)
      (by omega : 2 * unit + (tail.drop unit).length = firmwarePart)
    have hstale : ∀ doublings, 2 ^ (doublings + 1) * (2 * unit) = firmwarePart → ∀ i ≤ doublings,
        (Repeats ((firmwarePayload name (firmwarePayload name payload tail) []).slice eosNameLen
          firmwarePart) (tail.drop unit) (2 * unit) i ↔
            Repeats (resent name tail) tail unit (i + 1)) := by
      intro doublings htotal i hi
      have hpower : 2 ^ i * (2 * unit) ≤ 2 ^ doublings * (2 * unit) :=
        Nat.mul_le_mul_right _ (Nat.pow_le_pow_right (by omega) hi)
      have hhalf : 2 ^ (doublings + 1) * (2 * unit) = 2 * (2 ^ doublings * (2 * unit)) := by ring
      have hslice := (firmwarePayload name (firmwarePayload name payload tail) []).slice_drop_take
        eosNameLen firmwarePart 0 (2 ^ i * (2 * unit)) (by omega)
      rw [List.drop_zero, Nat.add_zero] at hslice
      rw [repeats_succ_iff, Repeats, Repeats, hslice,
        firmwarePayload_resent hname payload (by omega) (by omega)]
    constructor
    · rintro ⟨hfits', -, -, huploads⟩
      obtain ⟨hfits'', doublings, htotal, hrepeats⟩ := (hagain hfits').mp (huploads hmore)
      refine ⟨hfits'', .inr ⟨hmore, doublings, htotal, fun i hi hle => ?_⟩⟩
      obtain ⟨i, rfl⟩ := Nat.exists_eq_add_of_le' hi
      exact (hstale doublings htotal i (by omega)).mp (hrepeats i (by omega))
    · rintro ⟨hfits', ⟨hsame, -⟩ | ⟨-, doublings, htotal, hrepeats⟩⟩
      · omega
      · refine ⟨hfits hfits', hmore.le, firmwarePayload_part payload hmore.le (by omega),
          fun _ => (hagain (hfits hfits')).mpr ⟨hfits', doublings, htotal, fun i hi => ?_⟩⟩
        exact (hstale doublings htotal i hi).mpr (hrepeats (i + 1) (by omega) (by omega))
  · have hfits : ((length + eosFirmMax - firmwarePart / 2 : Nat) : Int) =
        (sent : Int) + eosFirmMax := by omega
    rw [hfits]
    constructor
    · rintro ⟨hfits', -⟩
      exact ⟨hfits', .inl ⟨hlast, fun i hi hle => absurd hi (by omega)⟩⟩
    · rintro ⟨hfits', -⟩
      exact ⟨hfits', hlast.le, firmwarePayload_part payload hlast.le (by omega),
        fun hmore => absurd hmore (by omega)⟩
  · refine iff_of_false (fun h => absurd h.2.1 (by omega)) ?_
    rintro ⟨-, ⟨hsame, -⟩ | ⟨hmore, -⟩⟩ <;> omega

omit hname hsucceeds in
/-- The end of a file that arrives as it is: behind whole parts, a piece that doubling it makes
up a part is missing from a last one. What is sent again must be what comes next. -/
def LastPart (name tail : List UInt8) : Prop :=
  ∃ parts unit doublings, 2 ^ (doublings + 1) * unit = firmwarePart ∧
    tail.length = parts * firmwarePart + (firmwarePart - unit) ∧
    ∀ i, 1 ≤ i → i ≤ doublings →
      Repeats (resent name (tail.drop (parts * firmwarePart))) (tail.drop (parts * firmwarePart))
        unit i

omit hname hsucceeds in
theorem lastPart_drop_iff {tail : List UInt8} (hmore : eosFirmMax ≤ tail.length) :
    LastPart name (tail.drop firmwarePart) ↔ LastPart name tail := by
  have hpart : firmwarePart = 2097120 := rfl
  have hmax : eosFirmMax = 2097152 := rfl
  have hdrop : ∀ parts, (tail.drop firmwarePart).drop (parts * firmwarePart) =
      tail.drop ((parts + 1) * firmwarePart) := by
    intro parts
    rw [List.drop_drop, Nat.succ_mul, Nat.add_comm]
  constructor
  · rintro ⟨parts, unit, doublings, htotal, hlength, hrepeats⟩
    rw [hdrop] at hrepeats
    refine ⟨parts + 1, unit, doublings, htotal, ?_, hrepeats⟩
    rw [List.length_drop] at hlength
    rw [Nat.succ_mul]
    omega
  · rintro ⟨parts, unit, doublings, htotal, hlength, hrepeats⟩
    cases parts with
    | zero => omega
    | succ parts =>
        rw [← hdrop] at hrepeats
        refine ⟨parts, unit, doublings, htotal, ?_, hrepeats⟩
        rw [List.length_drop]
        rw [Nat.succ_mul] at hlength
        omega

omit hname hsucceeds in
theorem lastPart_iff {tail : List UInt8} (hlast : tail.length < eosFirmMax) :
    LastPart name tail ↔ ∃ unit, unit + tail.length = firmwarePart ∧
      ∃ doublings, 2 ^ (doublings + 1) * unit = firmwarePart ∧
        ∀ i, 1 ≤ i → i ≤ doublings → Repeats (resent name tail) tail unit i := by
  have hpart : firmwarePart = 2097120 := rfl
  have hmax : eosFirmMax = 2097152 := rfl
  have hhalf : ∀ {unit doublings}, 2 ^ (doublings + 1) * unit = firmwarePart →
      2 * unit ≤ firmwarePart := by
    intro unit doublings htotal
    have hpower := Nat.le_mul_of_pos_left unit (Nat.two_pow_pos doublings)
    have htwice : 2 ^ (doublings + 1) * unit = 2 * (2 ^ doublings * unit) := by ring
    omega
  constructor
  · rintro ⟨parts, unit, doublings, htotal, hlength, hrepeats⟩
    have hunit := hhalf htotal
    cases parts with
    | zero =>
        rw [Nat.zero_mul, List.drop_zero] at hrepeats
        exact ⟨unit, by omega, doublings, htotal, hrepeats⟩
    | succ parts =>
        rw [Nat.succ_mul] at hlength
        omega
  · rintro ⟨unit, hunit, doublings, htotal, hrepeats⟩
    refine ⟨0, unit, doublings, htotal, by omega, ?_⟩
    rw [Nat.zero_mul, List.drop_zero]
    exact hrepeats

theorem uploads_iff {sent : Nat} {v : World σ} {tail : List UInt8}
    (hreaches : UpdateReaches B fuel name length memory file w payload tail sent v)
    (hlength : length = sent + tail.length) (htail : 0 < tail.length) :
    Uploads B fuel name length payload tail sent v tail ↔
      Fits ((length + eosFirmMax - firmwarePart / 2 : Nat) : Int) ∧ LastPart name tail := by
  have hpart : firmwarePart = 2097120 := rfl
  have hmax : eosFirmMax = 2097152 := rfl
  have hnameLen : eosNameLen = 32 := rfl
  induction hcount : tail.length using Nat.strongRecOn generalizing payload sent v tail with
  | ind count ih =>
      obtain ⟨v', hnext, hround⟩ := hreaches.step hname hsucceeds (by omega) tail
      rcases Nat.lt_or_ge tail.length eosFirmMax with hlast | hmore
      · by_cases hwhole : tail.length ≤ firmwarePart
        · rw [lastPart_iff hlast, uploads_end_iff hname hsucceeds hreaches hlength htail
            (by omega : firmwarePart - tail.length + tail.length = firmwarePart)]
          refine and_congr_right fun _ => ⟨fun hend => ⟨_, by omega, hend⟩, ?_⟩
          rintro ⟨unit, hunit, hend⟩
          rwa [show firmwarePart - tail.length = unit by omega]
        · have hsize : blockSize length sent < eosNameLen := by
            unfold blockSize
            rw [if_pos (by omega)]
            omega
          rw [lastPart_iff hlast, hround]
          refine iff_of_false ?_ ?_
          · rintro ⟨-, more, rest, hmore, -⟩
            omega
          · rintro ⟨-, unit, hunit, -⟩
            omega
      · have hsize : blockSize length sent = eosNameLen + firmwarePart := by
          unfold blockSize
          rw [if_neg (by omega)]
          omega
        have hslice := @firmwarePayload_part name payload tail firmwarePart
          (by omega) le_rfl
        have hrest : (tail.drop firmwarePart).length = tail.length - firmwarePart :=
          List.length_drop
        have hagain := fun hfits => ih (tail.length - firmwarePart) (by omega)
          (hnext firmwarePart hsize (by omega) hfits) (by omega) (by omega) hrest
        have hfits : Fits ((length + eosFirmMax - firmwarePart / 2 : Nat) : Int) →
            Fits ((sent : Int) + eosFirmMax) := by
          unfold Fits
          omega
        rw [hround, ← lastPart_drop_iff hmore]
        constructor
        · rintro ⟨hfits', part, rest, hpart', htail', huploads⟩
          obtain rfl : part = firmwarePart := by omega
          rw [hslice] at htail'
          obtain rfl : rest = tail.drop firmwarePart := by
            have hboth := (List.take_append_drop firmwarePart tail).trans htail'
            exact (List.append_cancel_left hboth).symm
          rw [if_neg (by omega)] at huploads
          exact (hagain hfits').mp huploads
        · intro hend
          refine ⟨hfits hend.1, firmwarePart, tail.drop firmwarePart, hsize, ?_, ?_⟩
          · rw [hslice, List.take_append_drop]
          · rw [if_neg (by omega)]
            exact (hagain (hfits hend.1)).mpr hend

end End

/-- The files that `ptp_eos_update_firmware` sends as they are. -/
def Arrives (name file : List UInt8) : Prop :=
  Fits ((file.length + eosFirmMax - firmwarePart / 2 : Nat) : Int) ∧ LastPart name file

/-- An upload whose blocks are all sent without an error ends with 0 and has sent exactly the
file, one part behind the other, if and only if the end of the file is one that arrives. -/
theorem ptpEosUpdateFirmware_iff {B : Backend σ} {fuel : Nat} {name : List UInt8}
    {memory : Nat → UInt8} {file : List UInt8} {w : World σ} (hname : name.length ≤ eosNameLen)
    (hfile : 0 < file.length)
    (hsucceeds : UpdateSucceeds B fuel name file.length memory file w) :
    (∃ rounds blocks w', ptpEosUpdateFirmware B fuel name memory rounds file w =
        .ok (0, blocks) w' ∧ Transfers name 0 file blocks) ↔ Arrives name file := by
  have hstart : ∀ rounds, ptpEosUpdateFirmware B fuel name memory rounds file w =
      updateRounds B fuel name file.length rounds ⟨eosFirmMax, memory⟩ file 0 w := by
    intro rounds
    rw [ptpEosUpdateFirmware, if_neg (by omega)]
  simp only [hstart]
  exact @uploads_iff σ B fuel name file.length memory file w _ hname hsucceeds 0 w file .first
    (Nat.zero_add _).symm hfile

/-! ## A device that agrees -/

/-- A device that takes everything, and answers every read with a success. -/
def agreeing : Backend Unit where
  cmdWrite _ bytes _ := (some bytes.length, ())
  cmdRead _ size _ := (some ⟨okResponse.take size, List.length_take_le _ _⟩, ())
  realloc _ _ := true

theorem agreeing_accepts : agreeing.Accepts := by
  intro endpoint bytes device hbytes
  exact ⟨bytes.length, rfl, List.length_pos_iff.mpr hbytes, le_rfl⟩

/-- A fresh runtime on that device. -/
def agreeingWorld : World Unit := ⟨(scriptedWorld 512 []).r, (), 0, []⟩

/-- The reply is taken for a success. -/
theorem receiveReply_agreeing {w : World Unit} (c : BulkCall agreeing) (hstart : c.start = w)
    (hpacket : 512 ≤ w.r.maxPacketSize ∧ w.r.maxPacketSize ≤ 65535) :
    ∃ v, v.r.connectionType ≠ .ip ∧ v.r.Holds (UsbReply.mk none ⟨0x2001, 0, []⟩).bytes ∧
      (∃ buffer, v.r.data = some buffer ∧ v.r.dataLength = toInt32 buffer.size ∧
        buffer.size ≤ max c.buffer.size 65635) ∧
      ∀ fuel > 0, receiveReply agreeing fuel w = .ok 0 v := by
  have hpacket' : 512 ≤ c.packet 0 ∧ c.packet 0 ≤ 65535 := by
    have hsame := c.packet_zero
    rw [hstart] at hsame
    omega
  have hresults : ∀ k (hk : k < [okResponse].length), c.results k = some [okResponse][k] := by
    intro k hk
    have hwhole : okResponse.take (c.packet 0) = okResponse :=
      List.take_of_length_le (le_trans (by decide) hpacket'.1)
    obtain rfl : k = 0 := by simpa using hk
    exact congrArg some hwhole
  have hfits : ((UsbReply.mk none ⟨0x2001, 0, []⟩).bytes.length : Int) ≤ intMax := by decide
  have hchunks : [okResponse].flatten = (UsbReply.mk none ⟨0x2001, 0, []⟩).bytes := by decide
  have hne : ∀ chunk ∈ [okResponse], chunk ≠ [] := by
    rintro chunk hchunk rfl
    exact absurd (List.mem_singleton.mp hchunk) (by decide)
  have houtcome : c.outcome 0 = some 0 :=
    (BulkCall.outcome_of_chunks hfits hchunks hne hresults Nat.zero_lt_one).trans (if_pos rfl)
  have hroom : c.FitsAt 0 := by
    refine ⟨?_, c.size_le⟩
    rw [c.received_zero, intMax, List.length_nil]
    omega
  obtain ⟨v, hat, hrun⟩ := c.run_stops
    ⟨fun k hk => absurd hk (Nat.not_lt_zero k), hroom, fun _ => rfl, houtcome⟩
  have hall : c.received (0 + 1) = (UsbReply.mk none ⟨0x2001, 0, []⟩).bytes :=
    (ReadStream.received_all_chunks hresults).trans hchunks
  have hholds := c.at_holds hat
  rw [hall] at hholds
  have hconn : v.r.connectionType ≠ .ip := by
    rw [hat.connectionType]
    exact c.connectionType_ne_ip
  obtain ⟨buffer, hsize, -, hr⟩ := hat.runtime
  have hcapacity : buffer.size ≤ max c.buffer.size 65635 := by
    rw [hsize]
    change (if c.buffer.size < (c.received 0).length + c.packet 0 then
      (c.received 0).length + c.packet 0 + 100 else c.buffer.size) ≤ _
    rw [c.received_zero, List.length_nil]
    split <;> omega
  refine ⟨v, hconn, hholds, ⟨buffer, by rw [hr], by rw [hr], hcapacity⟩, fun fuel hfuel => ?_⟩
  have hreceive : ptpReceiveAllPackets agreeing fuel w = .ok 0 v := by
    rw [← hstart, ptpReceiveAllPackets_bulk c.endpoint_eq]
    exact hrun fuel hfuel
  rw [receiveReply, bind_ok hreceive]
  rfl

/-- The runtime after some transactions with that device, with a buffer for a block. -/
structure Agreed (count : Nat) (w : World Unit) : Prop where
  ready : ∃ buffer, w.r.Ready buffer ∧ buffer.size ≤ eosFirmMax + 200
  operationKillSwitch : w.r.operationKillSwitch = false
  connectionType : w.r.connectionType = .usb
  packet : 512 ≤ w.r.maxPacketSize ∧ w.r.maxPacketSize ≤ 65535
  transaction : w.r.transaction = count

theorem agreeingWorld_agreed : Agreed 0 agreeingWorld :=
  ⟨⟨_, scriptedWorld_ready 512 [], by decide⟩, rfl, rfl, by decide, rfl⟩

/-- A send that fits is a success, behind a reply in a buffer that is large enough for it. -/
theorem ptpSendData_finished {count fuel : Nat} {w : World Unit} (hagreed : Agreed count w)
    (hcount : (count + 1 : Int) ≤ intMax) (cmd : PtpCommand) {data : List UInt8}
    (hdata : data.length ≤ eosFirmMax) (hfuel : fuel > 32 + data.length) :
    ∃ v, ptpSendData agreeing fuel cmd data w = .ok 0 (finished v) ∧
      ∃ held, v.r.data = some held ∧ v.r.dataLength = toInt32 held.size ∧
        held.size ≤ eosFirmMax + 200 := by
  obtain ⟨⟨start, hready, hsmall⟩, hkill, hconnection, ⟨hleast, hmost⟩, htransaction⟩ := hagreed
  have hmax : eosFirmMax = 2097152 := rfl
  have hdefault : ptpDefaultSize = 1000000 := rfl
  have hendpoint : bulkEndpoint w.r.connectionType = some .usb := by rw [hconnection]; rfl
  have hfits : DataFits agreeing w data.length := by
    refine ⟨?_, .inr ⟨?_, rfl⟩⟩ <;>
    · unfold intMax
      omega
  obtain ⟨sent, hrequests⟩ := ptpSendData_requests agreeing_accepts hready hkill hendpoint
    (by omega) cmd data hfits hfuel
  obtain ⟨transmission, w₀, -, hsent, hrun⟩ := hrequests.run
  obtain ⟨buffer, hbuffer, hlength, -, hlimit⟩ := hrequests.buffer
  have hpacket : 512 ≤ sent.r.maxPacketSize ∧ sent.r.maxPacketSize ≤ 65535 := by
    rcases hrequests.resized hendpoint with hsame | hsocket
    · omega
    · omega
  obtain ⟨c, hstart⟩ : ∃ c : BulkCall agreeing, c.start = sent := by
    have husb : bulkEndpoint sent.r.connectionType = some .usb := by
      rw [hrequests.connectionType]
      exact hendpoint
    have hsize : (buffer.size : Int) ≤ intMax := by
      unfold intMax
      omega
    refine (bulkCall_or_overflown husb hbuffer hlength (by omega)).resolve_right ?_
    omega
  obtain ⟨v, hconn, hholds, ⟨held, hheld, hheldLength, hheldSize⟩, hreceive⟩ :=
    receiveReply_agreeing c hstart hpacket
  have hcode : ptpGetReturnCode { v.r with transaction := v.r.transaction + 1 } = .ok 0x2001 :=
    (UsbReply.presented_of_holds (r := { v.r with transaction := v.r.transaction + 1 }) hconn
      hholds (by decide)).code
  have hattempt : attemptOf agreeing fuel transmission w₀ = .ok 0 v := by
    rw [attemptOf, bind_ok hsent, if_pos rfl, hreceive fuel (by omega)]
  have hone : Fits (v.r.transaction + 1) := by
    have hreads := (receiveReply_onlyReads agreeing fuel).of_ok (hreceive fuel (by omega))
    have hnumber : v.r.transaction = count := by
      rw [hreads.2.runtime]
      exact hrequests.transaction.trans htransaction
    rw [hnumber]
    exact ⟨by omega, hcount⟩
  refine ⟨v, ?_, held, hheld, hheldLength, ?_⟩
  · rw [hrun, attemptTwice, bind_ok hattempt, afterAttempt, if_neg (by decide),
      if_neg (by decide), finishTransaction_ok hone hcode]
    rfl
  · have hsame : c.buffer = buffer := by
      have hdata := c.data
      rw [hstart] at hdata
      exact Option.some.inj (hdata.symm.trans hbuffer)
    rw [hsame] at hheldSize
    omega

/-- It leaves the runtime ready for the next block. -/
theorem ptpSendData_agreeing {count fuel : Nat} {w : World Unit} (hagreed : Agreed count w)
    (hcount : (count + 1 : Int) ≤ intMax) (cmd : PtpCommand) {data : List UInt8}
    (hdata : data.length ≤ eosFirmMax) (hfuel : fuel > 32 + data.length) :
    ∃ v, ptpSendData agreeing fuel cmd data w = .ok 0 v ∧ Agreed (count + 1) v := by
  obtain ⟨v, hexec, held, hheld, hlength, hsize⟩ :=
    ptpSendData_finished hagreed hcount cmd hdata hfuel
  obtain ⟨⟨start, hready, -⟩, hkill, hconnection, ⟨hleast, hmost⟩, htransaction⟩ := hagreed
  obtain ⟨calls, -, ⟨size, hleastSize, -, -, hsizes⟩, hends⟩ :=
    (Operation.sendData cmd data).settled hready.allocated (by unfold intMax; omega) hkill hexec
  have hsetup : SameSetup { w with r := { w.r with transaction := w.r.transaction + 1 } }
      (finished v) := by
    rcases hends with hcompletes | hfails
    · exact hcompletes.setup
    · cases hfails.result
  have hmax : (held.size : Int) ≤ intMax := by
    have hfirm : eosFirmMax = 2097152 := rfl
    unfold intMax
    omega
  refine ⟨finished v, hexec, ⟨held, ⟨hheld, ?_, hmax, ?_⟩, hsize⟩, ?_, ?_, ?_, ?_⟩
  · exact hlength.trans (toInt32_of_fits ⟨by omega, hmax⟩)
  · exact hleastSize.trans (hsizes held hheld).ge
  · rw [hsetup.runtime]
    exact hkill
  · rw [hsetup.runtime]
    exact hconnection
  · rcases hsetup.packet with hsame | hsocket
    · dsimp only at hsame
      omega
    · omega
  · rw [hsetup.runtime]
    dsimp only
    rw [htransaction, Nat.cast_succ]

theorem firmwareBlock_length {length sent : Nat} (hsent : sent < length) (payload : Buffer) :
    (firmwareBlock length sent payload).data.length = blockSize length sent := by
  rw [firmwareBlock, Buffer.slice_length, firmwareSize_natCast hsent, Int.toNat_natCast]

section Agreeing

variable {name : List UInt8} {memory : Nat → UInt8} {file : List UInt8} {parts last : Nat}
  (hlength : file.length = parts * firmwarePart + last) (hlast : 0 < last)
  (hhalf : last ≤ firmwarePart / 2) (hlong : parts = 0 ∨ eosNameLen ≤ last)
  (hparts : (parts + 1 : Int) ≤ intMax)

include hlength hlast hhalf hlong hparts

/-- A file of whole parts and at most half a part is sent part by part. -/
theorem updateReaches_parts {payload : Buffer} {left : List UInt8} {sent : Int} {v : World Unit}
    (hreaches : UpdateReaches agreeing 0x400000 name file.length memory file agreeingWorld
      payload left sent v) : ∃ i ≤ parts, sent = (i * firmwarePart : Nat) ∧ Agreed i v := by
  have hpart : firmwarePart = 2097120 := rfl
  have hmax : eosFirmMax = 2097152 := rfl
  have hnameLen : eosNameLen = 32 := rfl
  induction hreaches with
  | first => exact ⟨0, Nat.zero_le _, by rw [Nat.zero_mul]; rfl, agreeingWorld_agreed⟩
  | @next payload left sent v v' hreaches hsend hmore ih =>
      obtain ⟨i, hi, rfl, hagreed⟩ := ih
      have hwhole := Nat.mul_le_mul_right firmwarePart hi
      have hsent : i * firmwarePart < file.length := by omega
      rw [firmwareSize_natCast hsent] at hmore ⊢
      rcases Nat.lt_or_eq_of_le hi with hfront | rfl
      · have hnext := Nat.mul_le_mul_right firmwarePart (Nat.succ_le_of_lt hfront)
        have hfull : blockSize file.length (i * firmwarePart) = eosFirmMax := by
          rw [Nat.succ_mul] at hnext
          unfold blockSize
          rw [if_neg (by omega)]
        have hdata := firmwareBlock_length hsent (firmwarePayload name payload left)
        obtain ⟨u, hrun, hnow⟩ := @ptpSendData_agreeing i 0x400000 v hagreed (by omega)
          (updateFirmwareCmd file.length (i * firmwarePart : Nat)) _ (hdata.trans hfull).le
          (by omega)
        cases hsend.symm.trans hrun
        refine ⟨i + 1, hfront, ?_, hnow⟩
        rw [hfull, Nat.succ_mul]
        omega
      · -- behind the last block nothing is left to send
        unfold blockSize at hmore
        rw [if_pos (by omega)] at hmore
        omega

theorem updateSucceeds_parts : UpdateSucceeds agreeing 0x400000 name file.length memory file
    agreeingWorld := by
  intro payload left sent v hreaches _
  obtain ⟨i, hi, rfl, hagreed⟩ := updateReaches_parts hlength hlast hhalf hlong hparts hreaches
  have hmax : eosFirmMax = 2097152 := rfl
  have hwhole := Nat.mul_le_mul_right firmwarePart hi
  have hsent : i * firmwarePart < file.length := by omega
  have hdata := firmwareBlock_length hsent (firmwarePayload name payload left)
  have hsize := blockSize_le file.length (i * firmwarePart)
  obtain ⟨v', hrun, -⟩ := @ptpSendData_agreeing i 0x400000 v hagreed (by omega)
    (updateFirmwareCmd file.length (i * firmwarePart : Nat)) _ (hdata.trans_le hsize) (by omega)
  exact ⟨v', hrun⟩

end Agreeing

/-- A file of two whole blocks and half a one arrives. -/
theorem ptpEosUpdateFirmware_half : ∃ rounds blocks w',
    ptpEosUpdateFirmware agreeing 0x400000 [0x66] (fun _ => 0) rounds
      (List.replicate 5242800 7) agreeingWorld = .ok (0, blocks) w' ∧
    Transfers [0x66] 0 (List.replicate 5242800 7) blocks := by
  have hlength : (List.replicate 5242800 (7 : UInt8)).length = 5242800 := List.length_replicate
  have hpart : firmwarePart = 2097120 := rfl
  have hmax : eosFirmMax = 2097152 := rfl
  have hsucceeds := @updateSucceeds_parts [0x66] (fun _ => 0) (List.replicate 5242800 7) 2 1048560
    (by omega) (by decide) (by decide) (.inr (by decide)) (by decide)
  refine (ptpEosUpdateFirmware_iff (by decide) (by omega) hsucceeds).mpr
    ⟨?_, 2, 1048560, 0, rfl, by omega, ?_⟩
  · rw [hlength]
    decide
  · intro i hi hle
    omega

/-- A file of one byte does not: most of what is sent is not in it. -/
theorem ptpEosUpdateFirmware_byte :
    UpdateSucceeds agreeing 0x400000 [0x66] 1 (fun _ => 0) [7] agreeingWorld ∧
      ¬∃ rounds blocks w', ptpEosUpdateFirmware agreeing 0x400000 [0x66] (fun _ => 0) rounds [7]
        agreeingWorld = .ok (0, blocks) w' ∧ Transfers [0x66] 0 [7] blocks := by
  have hsucceeds : UpdateSucceeds agreeing 0x400000 [0x66] 1 (fun _ => 0) [7] agreeingWorld :=
    @updateSucceeds_parts [0x66] (fun _ => 0) [7] 0 1 rfl (by decide) (by decide) (.inl rfl)
      (by decide)
  refine ⟨hsucceeds, ?_⟩
  rintro ⟨rounds, blocks, w', hrun, htransfers⟩
  have hpart : firmwarePart = 2097120 := rfl
  have huploads : Uploads agreeing 0x400000 [0x66] 1 ⟨eosFirmMax, fun _ => 0⟩ [7] 0 agreeingWorld
      [7] := ⟨rounds, blocks, w', hrun, htransfers⟩
  obtain ⟨-, hlast⟩ := (uploads_iff (by decide) hsucceeds .first rfl Nat.one_pos).mp huploads
  obtain ⟨unit, hunit, doublings, htotal, -⟩ := (lastPart_iff (by decide)).mp hlast
  have hpower := Nat.le_mul_of_pos_left unit (Nat.two_pow_pos doublings)
  have htwice : 2 ^ (doublings + 1) * unit = 2 * (2 ^ doublings * unit) := by ring
  rw [List.length_singleton] at hunit
  omega

end Libpict
