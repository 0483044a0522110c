import Libpict.Objects
import Libpict.Outcome
import Libpict.Scripted

/-! # Download of an object

What `ptp_download_object` writes when the device answers its requests with the parts of one
object: a request that comes out one part short of the others ends the download, and so does a
request behind the end of the object.
-/

namespace Libpict

open CInt Exec

variable {σ : Type}

/-- The world behind a critical section. -/
def unlocked (w : World σ) : World σ := { w with r := { w.r with mutex := w.r.mutex.map (· - 1) } }

theorem ptpMutexLock_run (w : World σ) : ptpMutexLock w = .ok () (locked w) := rfl

theorem ptpMutexUnlock_run (w : World σ) : ptpMutexUnlock w = .ok () (unlocked w) := rfl

/-- The part of an object that a request gets; the count goes over the wire in 32 bits. -/
def partOf (content : List UInt8) (max offset : Nat) : List UInt8 :=
  (content.drop offset).take (max % 2 ^ 32)

section Requests

variable (B : Backend σ) (fuel : Nat) (handle : UInt32) (max : Nat) (w : World σ)

/-- The requests of a download, each with its offset and the world it is made in. Only a full
part is followed by a request. -/
inductive Requested : Nat → World σ → Prop
  | first : Requested 0 w
  | next {n : Nat} {v v' : World σ} : Requested n v →
      ptpGetPartialObject B fuel handle n max (locked v) = .ok 0 v' →
      ptpGetPayloadLength v'.r = .ok max → Requested (n + max) (unlocked v')

/-- The device answers the requests of a download with the parts of an object, or with an
error. -/
def Serves (content : List UInt8) : Prop := ∀ n v, Requested B fuel handle max w n v →
  ∃ x v', ptpGetPartialObject B fuel handle n max (locked v) = .ok x v' ∧
    (x = 0 → ∃ start, v'.r.HasPayload start (partOf content max n).length (partOf content max n))

/-- No request of a download fails. -/
def Succeeds : Prop := ∀ n v x v', Requested B fuel handle max w n v →
  ptpGetPartialObject B fuel handle n max (locked v) = .ok x v' → x = 0

end Requests

/-! ## One round -/

section Round

variable {B : Backend σ} {fuel : Nat} {handle : UInt32} {max n : Nat} {v v' : World σ} {x : Int}
  (hanswer : ptpGetPartialObject B fuel handle n max (locked v) = .ok x v')
  (rounds : Nat) (file : Stream)

include hanswer

theorem round_failed (hx : x ≠ 0) :
    downloadRounds B fuel handle max (rounds + 1) n file v = .ok (x, file) (unlocked v') := by
  rw [downloadRounds, bind_ok (ptpMutexLock_run v), bind_ok hanswer,
    if_pos hx]
  rfl

variable {start : Int} {bytes : List UInt8} (hx : x = 0)
  (hpayload : v'.r.HasPayload start bytes.length bytes)

include hx hpayload

theorem round_answered : downloadRounds B fuel handle max (rounds + 1) n file v =
    if bytes.length = 0 then .ok (0, file.close) (unlocked v')
    else if bytes.length ≠ max then .ok (0, file.write bytes) (unlocked v')
    else downloadRounds B fuel handle max rounds (toInt32 (n + bytes.length)) (file.write bytes)
      (unlocked v') := by
  have hlength : (inspect fun r => (ptpGetPayloadLength r).map toSize : M σ Nat) v' =
      .ok bytes.length v' := by
    apply inspect_ok
    have hle := hpayload.length_le
    have hsize := toSize_of_nonneg (Int.natCast_nonneg bytes.length) (by unfold intMax at hle; omega)
    rw [hpayload.length_eq]
    exact congrArg Except.ok (Int.ofNat_inj.mp hsize)
  have hread : (Reader.read start (bytes.length : Int) : Reader UInt8 Halt _).run v'.r.load =
      .ok bytes := by
    have hshown := hpayload.shows 0 bytes.length (by omega)
    rw [Int.natCast_zero, Int.add_zero, List.drop_zero, List.take_length] at hshown
    rw [Reader.run_read, hshown]
  have hbytes : (decodePayload fun payload => Reader.read payload bytes.length : M σ _) v' =
      .ok bytes v' := by
    apply inspect_ok
    rw [hpayload.start_eq]
    exact hread
  rw [downloadRounds, bind_ok (ptpMutexLock_run v), bind_ok hanswer,
    if_neg (not_not.mpr hx), bind_ok hlength]
  split
  · rfl
  · rw [bind_ok hbytes, bind_ok (ptpMutexUnlock_run v')]
    split
    · rfl
    · rfl

end Round

/-! ## The whole download -/

@[simp] theorem Stream.write_nil (file : Stream) : file.write [] = file := by
  rw [Stream.write, List.append_nil]

@[simp] theorem Stream.write_write (file : Stream) (front back : List UInt8) :
    (file.write front).write back = file.write (front ++ back) := by
  rw [Stream.write, Stream.write, Stream.write, List.append_assoc]

theorem Stream.write_inj {file : Stream} {first second : List UInt8} :
    file.write first = file.write second ↔ first = second := by
  simp [Stream.write]

theorem partOf_length (content : List UInt8) (max n : Nat) :
    (partOf content max n).length = min (max % 2 ^ 32) (content.length - n) := by
  rw [partOf, List.length_take, List.length_drop]

/-- A part continues what has been written. -/
theorem take_append_partOf (content : List UInt8) (max n : Nat) :
    content.take n ++ partOf content max n = content.take (n + max % 2 ^ 32) :=
  (List.take_add ..).symm

/-- A full part lies in the object, and the count has not been cut. -/
theorem full_part {content : List UInt8} {max n : Nat} (hmax : 0 < max)
    (hfull : (partOf content max n).length = max) :
    n + max ≤ content.length ∧ max % 2 ^ 32 = max := by
  rw [partOf_length] at hfull
  have hmod := Nat.mod_le max (2 ^ 32)
  omega

/-! ### Sizes

The last part of an object is shorter than the others, unless the chunk size divides the size
of the object. -/

section Sizes

variable {size max k : Nat} (hmax : 0 < max) (hle : max * k ≤ size) (hsize : size < 2 ^ 31)

include hmax hle

/-- What is left of the object is not empty. -/
theorem empty_part (hempty : min (max % 2 ^ 32) (size - max * k) = 0) :
    ¬(size % max ≠ 0 ∧ (max < 2 ^ 32 ∨ size ≤ max % 2 ^ 32)) := by
  rintro ⟨hrest, hcount⟩
  rcases Nat.eq_zero_or_pos (max % 2 ^ 32) with hcut | hcut
  · have hnone : size = 0 := by omega
    rw [hnone, Nat.zero_mod] at hrest
    exact hrest rfl
  · obtain rfl : size = max * k := by omega
    exact hrest (Nat.mul_mod_right max k)

include hsize

/-- A part that is not full is the last one. -/
theorem short_part (hsome : min (max % 2 ^ 32) (size - max * k) ≠ 0)
    (hshort : min (max % 2 ^ 32) (size - max * k) ≠ max) :
    size ≤ max * k + max % 2 ^ 32 ↔
      size % max ≠ 0 ∧ (max < 2 ^ 32 ∨ size ≤ max % 2 ^ 32) := by
  rcases Nat.lt_or_ge max (2 ^ 32) with hsmall | hlarge
  · have hcut : max % 2 ^ 32 = max := Nat.mod_eq_of_lt hsmall
    rw [hcut] at hsome hshort ⊢
    have hrest : size % max = size - max * k := by
      obtain ⟨rest, rfl⟩ := Nat.exists_eq_add_of_le hle
      rw [Nat.mul_add_mod, Nat.add_sub_cancel_left, Nat.mod_eq_of_lt (by omega)]
    constructor
    · intro hend
      exact ⟨by omega, Or.inl hsmall⟩
    · intro _
      omega
  · have hfirst : max * k = 0 := by
      rcases Nat.eq_zero_or_pos k with rfl | hk
      · exact Nat.mul_zero max
      · have := Nat.le_mul_of_pos_right max hk
        omega
    rw [hfirst, Nat.zero_add, Nat.mod_eq_of_lt (by omega : size < max)]
    constructor
    · intro hend
      exact ⟨by omega, Or.inr hend⟩
    · rintro ⟨-, hbelow | hend⟩
      · omega
      · exact hend

end Sizes

section Download

variable {B : Backend σ} {fuel : Nat} {handle : UInt32} {max : Nat} {w : World σ}
  {content : List UInt8} (hserves : Serves B fuel handle max w content)

include hserves

/-- A request that succeeds gets its part. -/
theorem Requested.payload {n : Nat} {v v' : World σ}
    (hrequested : Requested B fuel handle max w n v)
    (hanswer : ptpGetPartialObject B fuel handle n max (locked v) = .ok 0 v') :
    ∃ start, v'.r.HasPayload start (partOf content max n).length (partOf content max n) := by
  obtain ⟨x, v'', hanswer', hpart⟩ := hserves n v hrequested
  rw [hanswer] at hanswer'
  cases hanswer'
  exact hpart rfl

theorem full_iff {n : Nat} {v v' : World σ} (hrequested : Requested B fuel handle max w n v)
    (hanswer : ptpGetPartialObject B fuel handle n max (locked v) = .ok 0 v') :
    ptpGetPayloadLength v'.r = .ok max ↔ (partOf content max n).length = max := by
  obtain ⟨start, hpayload⟩ := hrequested.payload hserves hanswer
  rw [hpayload.length_eq]
  simp

variable (hmax : 0 < max)

include hmax

/-- Requests are made at the multiples of the chunk size. -/
theorem Requested.offset {n : Nat} {v : World σ} (hrequested : Requested B fuel handle max w n v) :
    n ≤ content.length ∧ max ∣ n := by
  induction hrequested with
  | first => exact ⟨Nat.zero_le _, Nat.dvd_zero max⟩
  | next hrequested hanswer hfull ih =>
      have hpart := full_part hmax ((full_iff hserves hrequested hanswer).mp hfull)
      exact ⟨hpart.1, Nat.dvd_add ih.2 (Nat.dvd_refl max)⟩

variable (hlength : content.length < 2 ^ 31) (file : Stream)

include hlength

/-- A round behind which another one follows. -/
theorem round_full {n : Nat} {v v' : World σ} (hrequested : Requested B fuel handle max w n v)
    (hanswer : ptpGetPartialObject B fuel handle n max (locked v) = .ok 0 v')
    (hfull : (partOf content max n).length = max) (rounds : Nat) :
    downloadRounds B fuel handle max (rounds + 1) n (file.write (content.take n)) v =
      downloadRounds B fuel handle max rounds ((n + max : Nat) : Int)
        (file.write (content.take (n + max))) (unlocked v') := by
  obtain ⟨start, hpayload⟩ := hrequested.payload hserves hanswer
  obtain ⟨hle, hcut⟩ := full_part hmax hfull
  have hfits : Fits ((n + max : Nat) : Int) := by
    unfold Fits
    omega
  have hread : toInt32 ((n : Int) + (partOf content max n).length) = ((n + max : Nat) : Int) := by
    rw [hfull, ← Int.natCast_add, toInt32_of_fits hfits]
  rw [round_answered hanswer rounds _ rfl hpayload, if_neg (by omega), if_neg (by omega), hread,
    Stream.write_write, take_append_partOf, hcut]

/-- The download gets to each of its requests, with what is in front of it written. -/
theorem Requested.run {n : Nat} {v : World σ} (hrequested : Requested B fuel handle max w n v) :
    ∃ done, ∀ rounds, ptpDownloadObject B fuel handle max (done + rounds) file w =
      downloadRounds B fuel handle max rounds n (file.write (content.take n)) v := by
  induction hrequested with
  | first =>
      refine ⟨0, fun rounds => ?_⟩
      rw [Nat.zero_add, List.take_zero, Stream.write_nil]
      rfl
  | next hrequested hanswer hfull ih =>
      obtain ⟨done, hrest⟩ := ih
      refine ⟨done + 1, fun rounds => ?_⟩
      have hpart := (full_iff hserves hrequested hanswer).mp hfull
      rw [Nat.add_assoc, Nat.add_comm 1, hrest,
        round_full hserves hmax hlength file hrequested hanswer hpart]

/-- From each request on, a download whose requests succeed comes to its end. -/
theorem Requested.finishes (hsucceeds : Succeeds B fuel handle max w) (hopen : file.isOpen = true)
    {n : Nat} {v : World σ} (hrequested : Requested B fuel handle max w n v) :
    ∃ rounds last w', downloadRounds B fuel handle max rounds n (file.write (content.take n)) v =
      .ok (0, last) w' ∧ (last = file.write content ↔ content.length % max ≠ 0 ∧
        (max < 2 ^ 32 ∨ content.length ≤ max % 2 ^ 32)) := by
  induction hleft : content.length - n using Nat.strongRecOn generalizing n v with
  | ind left ih =>
      obtain ⟨x, v', hanswer, -⟩ := hserves n v hrequested
      obtain rfl := hsucceeds n v x v' hrequested hanswer
      obtain ⟨start, hpayload⟩ := hrequested.payload hserves hanswer
      obtain ⟨hle, k, rfl⟩ := hrequested.offset hserves hmax
      have hround := fun rounds => round_answered hanswer rounds
        (file.write (content.take (max * k))) rfl hpayload
      have hpart := partOf_length content max (max * k)
      by_cases hempty : (partOf content max (max * k)).length = 0
      · refine ⟨1, _, _, (hround 0).trans (if_pos hempty), iff_of_false ?_ ?_⟩
        · intro hlast
          have hclosed : false = true := (congrArg Stream.isOpen hlast).trans hopen
          cases hclosed
        · exact empty_part hmax hle (hpart ▸ hempty)
      · by_cases hfull : (partOf content max (max * k)).length = max
        · have hleft' : content.length - (max * k + max) < left := by
            have := full_part hmax hfull
            omega
          have hnext := hrequested.next hanswer ((full_iff hserves hrequested hanswer).mpr hfull)
          obtain ⟨rounds, last, w', hrun, hlast⟩ := ih _ hleft' hnext rfl
          refine ⟨rounds + 1, last, w', ?_, hlast⟩
          rw [round_full hserves hmax hlength file hrequested hanswer hfull, hrun]
        · refine ⟨1, _, _, ((hround 0).trans (if_neg hempty)).trans (if_pos hfull), ?_⟩
          rw [Stream.write_write, take_append_partOf, Stream.write_inj, List.take_eq_self_iff]
          rw [hpart] at hempty hfull
          exact short_part hmax hle hlength hempty hfull

/-- A download whose requests are answered comes to its end. A request that fails gives it its
error, with what is in front of the request written; otherwise the result is 0, and all of the
object has been written and the stream left open exactly if the last part is a short one, in
the 32 bits of the count. -/
theorem ptpDownloadObject_iff (hopen : file.isOpen = true) :
    (∀ n v x v', Requested B fuel handle max w n v →
      ptpGetPartialObject B fuel handle n max (locked v) = .ok x v' → x ≠ 0 →
      ∃ rounds, ptpDownloadObject B fuel handle max rounds file w =
        .ok (x, file.write (content.take n)) (unlocked v')) ∧
    (Succeeds B fuel handle max w → ∃ rounds last w',
      ptpDownloadObject B fuel handle max rounds file w = .ok (0, last) w' ∧
        (last = file.write content ↔ content.length % max ≠ 0 ∧
          (max < 2 ^ 32 ∨ content.length ≤ max % 2 ^ 32))) := by
  constructor
  · intro n v x v' hrequested hanswer hx
    obtain ⟨done, hrun⟩ := hrequested.run hserves hmax hlength file
    exact ⟨done + 1, (hrun 1).trans (round_failed hanswer 0 _ hx)⟩
  · intro hsucceeds
    obtain ⟨rounds, last, w', hrun, hlast⟩ :=
      Requested.first.finishes hserves hmax hlength file hsucceeds hopen
    rw [List.take_zero, Stream.write_nil] at hrun
    exact ⟨rounds, last, w', hrun, hlast⟩

end Download

/-! ## Two devices -/

/-- The payload is in front of everything else in the buffer. -/
def answersWith (payload : List UInt8) (x : Int) (v : World σ) : Bool :=
  decide (x = 0) && decide (ptpGetPayload v.r = .ok 12) &&
  decide (ptpGetPayloadLength v.r = .ok payload.length) &&
  (List.range (payload.length + 1)).all fun offset =>
    (List.range (payload.length + 1)).all fun size =>
      decide (offset + size ≤ payload.length →
        v.r.load (12 + offset) size = .ok ((payload.drop offset).take size))

theorem hasPayload_of_answersWith {payload : List UInt8} {x : Int} {v : World σ}
    (hanswers : answersWith payload x v = true) :
    x = 0 ∧ v.r.HasPayload 12 payload.length payload := by
  rw [answersWith, Bool.and_eq_true, Bool.and_eq_true, Bool.and_eq_true, decide_eq_true_iff,
    decide_eq_true_iff, decide_eq_true_iff] at hanswers
  obtain ⟨⟨⟨hx, hstart⟩, hlength⟩, hshows⟩ := hanswers
  refine ⟨hx, hstart, hlength, rfl, fun offset size hle => ?_⟩
  have hoffset := List.all_eq_true.mp hshows offset (List.mem_range.mpr (by omega))
  have hsize := List.all_eq_true.mp hoffset size (List.mem_range.mpr (by omega))
  exact of_decide_eq_true hsize hle

/-- What a device says to a request for a part: the part, and that it has succeeded. -/
def partReply (transaction : UInt32) (bytes : List UInt8) : List (Option (List UInt8)) :=
  [some (Container.bytes ptpPacketTypeData ⟨0x101B, transaction, bytes⟩),
    some (Container.bytes ptpPacketTypeResponse ⟨0x2001, transaction, []⟩)]

/-- A device that has sent a full part and then a shorter one has served the object. -/
theorem served_in_two {σ : Type} {B : Backend σ} {fuel max : Nat} {handle : UInt32}
    {w v v' : World σ} {content : List UInt8}
    (hfirst : ptpGetPartialObject B fuel handle (0 : Nat) max (locked w) = .ok 0 v)
    (hpayload : v.r.HasPayload 12 (partOf content max 0).length (partOf content max 0))
    (hsecond : ptpGetPartialObject B fuel handle max max (locked (unlocked v)) = .ok 0 v')
    (hpayload' : v'.r.HasPayload 12 (partOf content max max).length (partOf content max max))
    (hshort : (partOf content max max).length < max) :
    Serves B fuel handle max w content ∧ Succeeds B fuel handle max w := by
  have hrequests : ∀ {n u}, Requested B fuel handle max w n u →
      (n = 0 ∧ u = w) ∨ (n = max ∧ u = unlocked v) := by
    intro n u hrequested
    induction hrequested with
    | first => exact .inl ⟨rfl, rfl⟩
    | next hrequested hanswer hfull ih =>
        rcases ih with ⟨rfl, rfl⟩ | ⟨rfl, rfl⟩
        · cases hanswer.symm.trans hfirst
          exact .inr ⟨Nat.zero_add _, rfl⟩
        · cases hanswer.symm.trans hsecond
          have hlength := Except.ok.inj (hfull.symm.trans hpayload'.length_eq)
          omega
  constructor
  · intro n u hrequested
    rcases hrequests hrequested with ⟨rfl, rfl⟩ | ⟨rfl, rfl⟩
    · exact ⟨0, v, hfirst, fun _ => ⟨12, hpayload⟩⟩
    · exact ⟨0, v', hsecond, fun _ => ⟨12, hpayload'⟩⟩
  · intro n u x u' hrequested hanswer
    rcases hrequests hrequested with ⟨rfl, rfl⟩ | ⟨rfl, rfl⟩
    · cases hanswer.symm.trans hfirst
      rfl
    · cases hanswer.symm.trans hsecond
      rfl

/-- An object of three bytes, asked for in parts of two. -/
def shortWorld : World (List (Option (List UInt8))) :=
  scriptedWorld 512 (partReply 0 [7, 8] ++ partReply 1 [9])

theorem shortWorld_served : Serves scripted 64 1 2 shortWorld [7, 8, 9] ∧
    Succeeds scripted 64 1 2 shortWorld := by
  obtain ⟨x, v, hrun, hhow⟩ := run_of_returnsOn
    (ptpGetPartialObject scripted 64 1 0 2) (locked shortWorld)
    (fun x v => answersWith [7, 8] x v &&
      returnsOn (ptpGetPartialObject scripted 64 1 2 2) (locked (unlocked v)) (answersWith [9]))
    (by decide +kernel)
  obtain ⟨hfirst, hrest⟩ := (Bool.and_eq_true _ _).mp hhow
  obtain ⟨rfl, hpayload⟩ := hasPayload_of_answersWith hfirst
  obtain ⟨x', v', hrun', hhow'⟩ := run_of_returnsOn _ _ _ hrest
  obtain ⟨rfl, hpayload'⟩ := hasPayload_of_answersWith hhow'
  exact served_in_two hrun hpayload hrun' hpayload' (by decide)

theorem ptpDownloadObject_short : ∃ rounds w', ptpDownloadObject scripted 64 1 2 rounds
    ⟨[], true⟩ shortWorld = .ok (0, ⟨[7, 8, 9], true⟩) w' := by
  obtain ⟨hserves, hsucceeds⟩ := shortWorld_served
  obtain ⟨rounds, last, w', hrun, hlast⟩ :=
    (ptpDownloadObject_iff hserves (by decide) (by decide) ⟨[], true⟩ rfl).2 hsucceeds
  obtain rfl := hlast.mpr ⟨by decide, Or.inl (by decide)⟩
  exact ⟨rounds, w', hrun⟩

/-- An object of one byte, asked for byte by byte. -/
def fullWorld : World (List (Option (List UInt8))) :=
  scriptedWorld 512 (partReply 0 [7] ++ partReply 1 [])

/-- The download of an object that its chunk size divides leaves the stream closed. -/
theorem ptpDownloadObject_full : Serves scripted 64 1 1 fullWorld [7] ∧
    Succeeds scripted 64 1 1 fullWorld ∧
    ∃ w', ptpDownloadObject scripted 64 1 1 2 ⟨[], true⟩ fullWorld = .ok (0, ⟨[7], false⟩) w' := by
  obtain ⟨x, v, hrun, hhow⟩ := run_of_returnsOn
    (ptpGetPartialObject scripted 64 1 0 1) (locked fullWorld)
    (fun x v => answersWith [7] x v &&
      returnsOn (ptpGetPartialObject scripted 64 1 1 1) (locked (unlocked v)) (answersWith []))
    (by decide +kernel)
  obtain ⟨hfirst, hrest⟩ := (Bool.and_eq_true _ _).mp hhow
  obtain ⟨rfl, hpayload⟩ := hasPayload_of_answersWith hfirst
  obtain ⟨x', v', hrun', hhow'⟩ := run_of_returnsOn _ _ _ hrest
  obtain ⟨rfl, hpayload'⟩ := hasPayload_of_answersWith hhow'
  have hserved : Serves scripted 64 1 1 fullWorld [7] ∧ Succeeds scripted 64 1 1 fullWorld :=
    served_in_two hrun hpayload hrun' hpayload' (by decide)
  refine ⟨hserved.1, hserved.2, ?_⟩
  obtain ⟨result, w', hdownload, hhow⟩ := run_of_returnsOn
    (ptpDownloadObject scripted 64 1 1 2 ⟨[], true⟩) fullWorld
    (fun result _ => decide (result = (0, ⟨[7], false⟩))) (by decide +kernel)
  obtain rfl := of_decide_eq_true hhow
  exact ⟨w', hdownload⟩

end Libpict
