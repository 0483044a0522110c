import Libpict.Base.ReadStream
import Libpict.Container
import Libpict.Traffic

/-! # Runs of the USB-style receive loop

What the `k`-th round of `ptpusb_read_all_packets` does only depends on the results
of the reads up to the `k`-th. `BulkCall` is a call of the loop on a runtime whose
buffer is known, `At` describes the world after `k` rounds, and `outcome` says which
value the `k`-th round returns, if any. A round has no outcome at all when the room
it asks for does not fit in an `int`.
-/

namespace Libpict

open Bytes CInt PtpRuntime

variable {σ : Type}

/-- The device after `k` reads of the given sizes. -/
def Backend.afterReads (B : Backend σ) (endpoint : Endpoint) (size : Nat → Nat) (device : σ) :
    Nat → σ
  | 0 => device
  | k + 1 => (B.cmdRead endpoint (size k) (B.afterReads endpoint size device k)).2

/-- The results of successive reads of the given sizes. -/
def Backend.reads (B : Backend σ) (endpoint : Endpoint) (size : Nat → Nat) (device : σ) (k : Nat) :
    Option (List UInt8) := B.readResult endpoint (size k) (B.afterReads endpoint size device k)

/-- A call of `ptpusb_read_all_packets`: the world it starts in, with a buffer whose
length the runtime knows. -/
structure BulkCall (B : Backend σ) where
  start : World σ
  buffer : Buffer
  endpoint : Endpoint
  data : start.r.data = some buffer
  dataLength : start.r.dataLength = buffer.size
  size_le : (buffer.size : Int) ≤ intMax
  endpoint_eq : bulkEndpoint start.r.connectionType = some endpoint
  packet_nonneg : 0 ≤ start.r.maxPacketSize

namespace BulkCall

variable {B : Backend σ} (c : BulkCall B)

/-- The size of the reads: the one the runtime starts with, and behind the first read the one
that the backend call has left. -/
def packet : Nat → Nat := c.start.r.packetAt c.endpoint

def results : Nat → Option (List UInt8) := B.reads c.endpoint c.packet c.start.device

/-- The bytes received in the first `k` rounds. -/
def received (k : Nat) : List UInt8 := ReadStream.received c.results k

/-- How many of the first `k` rounds received nothing. -/
def quiet (k : Nat) : Nat := ReadStream.quiet c.results k

def wait : Nat := c.start.r.responseWaitDefault

/-- The buffer size after `k` rounds. -/
def capacity : Nat → Nat
  | 0 => c.buffer.size
  | k + 1 => grown (capacity k) ((c.received k).length + c.packet k)

/-- How often the buffer was grown in the first `k` rounds. -/
def growths : Nat → Nat
  | 0 => 0
  | k + 1 => growths k + if c.capacity k < (c.received k).length + c.packet k then 1 else 0

/-- The room that the `k`-th round asks for fits in an `int`, and so does the size of
the buffer that the rounds before have grown. -/
def FitsAt (k : Nat) : Prop :=
  ((c.received k).length + c.packet k : Int) ≤ intMax ∧ (c.capacity k : Int) ≤ intMax

instance (k : Nat) : Decidable (c.FitsAt k) := inferInstanceAs (Decidable (_ ∧ _))

/-- The allocator has the memory that the `k`-th round asks for. -/
def Allocates (k : Nat) : Prop :=
  c.capacity k < (c.received k).length + c.packet k →
    B.realloc (c.start.reallocs + c.growths k) ((c.received k).length + c.packet k + 100) = true

instance (k : Nat) : Decidable (c.Allocates k) := inferInstanceAs (Decidable (_ → _))

/-- The value that the `k`-th round returns. -/
def outcome (k : Nat) : Option Int :=
  if ReadStream.chunk c.results k = [] ∧ c.quiet k < c.wait then none
  else if c.results k = none then some PtpGeneralError.ioErr
  else if c.wait ≠ 0 ∧ c.wait ≤ c.quiet k then some PtpGeneralError.commandIgnored
  else match verdictOf (c.received (k + 1)) with
    | .more => none
    | .done => some 0
    | .reject => some PtpGeneralError.ioErr

/-- The loop goes on after the `k`-th round. -/
def GoesOn (k : Nat) : Prop := c.FitsAt k ∧ c.Allocates k ∧ c.outcome k = none

instance (k : Nat) : Decidable (c.GoesOn k) := inferInstanceAs (Decidable (_ ∧ _ ∧ _))

/-- The loop state after `k` rounds that went on. -/
def state (k : Nat) : BulkRead := ⟨(c.received k).length, min (c.quiet k) c.wait⟩

/-- The backend call of the `k`-th round. -/
def call (k : Nat) : Call :=
  .read c.endpoint (c.received k).length (c.packet k) (toInt32 (c.capacity (k + 1))) (c.results k)

def calls (k : Nat) : List Call := (List.range k).map c.call

/-- The world after `k` rounds. -/
structure At (k : Nat) (w : World σ) : Prop where
  runtime : ∃ buffer, buffer.size = c.capacity k ∧
    buffer.slice 0 (c.received k).length = c.received k ∧
    w.r = { c.start.r with
      data := some buffer
      dataLength := toInt32 buffer.size
      waitForResponse := c.wait - c.quiet k
      maxPacketSize := c.packet k }
  device : w.device = B.afterReads c.endpoint c.packet c.start.device k
  reallocs : w.reallocs = c.start.reallocs + c.growths k
  log : w.log = c.start.log ++ c.calls k

/-! ## Bounds -/

@[simp] theorem received_zero : c.received 0 = [] := rfl

@[simp] theorem quiet_zero : c.quiet 0 = 0 := rfl

theorem received_succ (k : Nat) :
    c.received (k + 1) = c.received k ++ ReadStream.chunk c.results k := rfl

theorem received_length_succ (k : Nat) : (c.received (k + 1)).length =
    (c.received k).length + (ReadStream.chunk c.results k).length :=
  ReadStream.received_length_succ k

theorem chunk_length_le (k : Nat) : (ReadStream.chunk c.results k).length ≤ c.packet k :=
  B.readResult_length_le c.endpoint (c.packet k) _

theorem received_le_capacity (k : Nat) : (c.received k).length ≤ c.capacity k := by
  cases k with
  | zero => exact Nat.zero_le _
  | succ k =>
      have hchunk := c.chunk_length_le k
      have hneed := need_le_grown (c.capacity k) ((c.received k).length + c.packet k)
      rw [received_length_succ, capacity]
      omega

theorem received_le_of_fitsAt {k : Nat} (hfits : c.FitsAt k) :
    ((c.received (k + 1)).length : Int) ≤ intMax := by
  have hchunk := c.chunk_length_le k
  have hneed := hfits.1
  rw [received_length_succ]
  omega

theorem capacity_mono {j k : Nat} (hle : j ≤ k) : c.capacity j ≤ c.capacity k := by
  induction hle with
  | refl => exact Nat.le_refl _
  | step _ ih => exact ih.trans (le_grown _ _)

/-- Rounds that fit leave a buffer that exceeds an `int` by the extra space at most. -/
theorem capacity_le {k : Nat} (hfits : ∀ j < k, c.FitsAt j) :
    (c.capacity k : Int) ≤ intMax + 100 := by
  cases k with
  | zero =>
      have hsize := c.size_le
      unfold capacity
      omega
  | succ k =>
      obtain ⟨hneed, hcapacity⟩ := hfits k (Nat.lt_succ_self k)
      unfold capacity grown
      split <;> omega

/-- The buffer still holds what has been received. -/
theorem at_holds {k : Nat} {w : World σ} (hat : c.At k w) : w.r.Holds (c.received k) := by
  obtain ⟨buffer, hsize, hslice, hr⟩ := hat.runtime
  refine ⟨buffer, by rw [hr], ?_, hslice⟩
  rw [hsize]
  exact c.received_le_capacity k

/-! ## One round -/

theorem packet_zero : (c.packet 0 : Int) = c.start.r.maxPacketSize :=
  PtpRuntime.packetAt_zero c.packet_nonneg c.endpoint

/-- The world in which the loop starts. -/
theorem at_zero : c.At 0 { c.start with
    r := { c.start.r with waitForResponse := c.start.r.responseWaitDefault } } := by
  refine ⟨⟨c.buffer, rfl, rfl, ?_⟩, rfl, rfl, by simp [calls]⟩
  have hfits : Fits c.buffer.size := ⟨by omega, c.size_le⟩
  rw [toInt32_of_fits hfits, ← c.data, ← c.dataLength, c.packet_zero]
  rfl

theorem maxPacketSize_at {k : Nat} {w : World σ} (hat : c.At k w) :
    w.r.maxPacketSize = c.packet k := by
  obtain ⟨buffer, _, _, hr⟩ := hat.runtime
  rw [hr]

/-- A read leaves the packet size of the next one. -/
theorem packetSize_at {k : Nat} {w : World σ} (hat : c.At k w) :
    w.r.packetSize c.endpoint = c.packet (k + 1) := by
  obtain ⟨buffer, _, _, hr⟩ := hat.runtime
  rw [hr]
  exact PtpRuntime.packetSize_packetAt c.packet_nonneg c.endpoint k

theorem endpoint_at {k : Nat} {w : World σ} (hat : c.At k w) :
    bulkEndpoint w.r.connectionType = some c.endpoint := by
  obtain ⟨buffer, _, _, hr⟩ := hat.runtime
  rw [hr]
  exact c.endpoint_eq

theorem calls_succ (k : Nat) : c.calls (k + 1) = c.calls k ++ [c.call k] := by
  simp [calls, List.range_succ]

theorem readBytes_calls (k : Nat) : readBytes (c.calls k) = c.received k := by
  induction k with
  | zero => rfl
  | succ k ih =>
      rw [calls_succ, readBytes_append, ih, received_succ]
      simp [readBytes, call, ReadStream.chunk]

/-- The world in which the `k`-th round has made room and read once. -/
def afterRead (k : Nat) (w : World σ) (buffer : Buffer) (left : Nat) : World σ :=
  let size := grown buffer.size ((c.received k).length + c.packet k)
  { r := { w.r with
      data := some ((buffer.resize size).store (c.received k).length
        (ReadStream.chunk c.results k))
      dataLength := toInt32 size
      waitForResponse := left
      maxPacketSize := w.r.packetSize c.endpoint }
    device := (B.cmdRead c.endpoint (c.packet k) w.device).2
    reallocs := w.reallocs + if buffer.size < (c.received k).length + c.packet k then 1 else 0
    log := w.log ++ [c.call k] }

/-- After the read, the world is the one after the round, up to the attempts left. -/
theorem at_afterRead {k : Nat} {w : World σ} (hat : c.At k w) {buffer : Buffer}
    (hdata : w.r.data = some buffer) {left : Nat} (hleft : left = c.wait - c.quiet (k + 1)) :
    c.At (k + 1) (c.afterRead k w buffer left) := by
  obtain ⟨buffer', hsize, hslice, hr⟩ := hat.runtime
  have hsame : buffer' = buffer := by
    rw [hr] at hdata
    exact Option.some.inj hdata
  subst hsame
  refine ⟨⟨(buffer'.resize (grown buffer'.size ((c.received k).length + c.packet k))).store
    (c.received k).length (ReadStream.chunk c.results k), ?_, ?_, ?_⟩, ?_, ?_, ?_⟩
  · rw [Buffer.store_size, Buffer.resize_size, hsize, capacity]
  · have hextend := (buffer'.resize (grown buffer'.size ((c.received k).length + c.packet k))
      ).store_slice_extend 0 (c.received k).length (ReadStream.chunk c.results k)
    rw [Nat.zero_add, Buffer.resize_slice, hslice] at hextend
    rw [received_length_succ, received_succ]
    exact hextend
  · unfold afterRead
    rw [c.packetSize_at hat]
    simp only [hr, hleft, Buffer.store_size, Buffer.resize_size]
  · simp only [afterRead, hat.device, Backend.afterReads]
  · simp only [afterRead, hat.reallocs, hsize, growths, Nat.add_assoc]
  · simp only [afterRead, hat.log, calls_succ, List.append_assoc]

theorem dataLength_at {k : Nat} {w : World σ} (hat : c.At k w) :
    w.r.dataLength = toInt32 (c.capacity k) := by
  obtain ⟨buffer, hsize, _, hr⟩ := hat.runtime
  rw [hr, ← hsize]

/-- Up to its read, a round that has room runs the same way whatever is read. -/
theorem readBody_run {k : Nat} {w : World σ} (hat : c.At k w) (hfits : c.FitsAt k)
    (hallocates : c.Allocates k) :
    ∃ buffer, w.r.data = some buffer ∧ ptpusbReadBody B (c.state k) w =
      ptpusbReadResult (c.state k) ((c.results k).map List.length)
        (c.afterRead k w buffer (c.wait - c.quiet k)) := by
  obtain ⟨buffer, hsize, hslice, hr⟩ := hat.runtime
  have hdata : w.r.data = some buffer := by rw [hr]
  have hlength : w.r.dataLength = buffer.size := by
    rw [c.dataLength_at hat, hsize]
    exact toInt32_of_fits ⟨by omega, hfits.2⟩
  have hneed : ((c.state k).read : Int) + w.r.maxPacketSize =
      ((c.received k).length + c.packet k : Nat) := by
    rw [c.maxPacketSize_at hat, state]
    push_cast
    rfl
  have hneed_le : (((c.received k).length + c.packet k : Nat) : Int) ≤ intMax := by
    have hfirst := hfits.1
    push_cast
    exact hfirst
  have hrealloc : buffer.size < (c.received k).length + c.packet k →
      B.realloc w.reallocs ((c.received k).length + c.packet k + 100) = true := by
    rw [hat.reallocs, hsize]
    exact hallocates
  refine ⟨buffer, hdata, ?_⟩
  have hresult : B.readResult c.endpoint (c.packet k) w.device = c.results k := by
    rw [hat.device]
    rfl
  have hleft : w.r.waitForResponse = c.wait - c.quiet k := by rw [hr]
  have hroom := need_le_grown buffer.size ((c.received k).length + c.packet k)
  unfold ptpusbReadBody
  rw [Exec.bind_ok (runtime_run w),
    Exec.bind_ok (hneed ▸ intAdd_ok ⟨by omega, hneed ▸ hneed_le⟩ w),
    Exec.bind_ok (grow_ok hdata hlength hneed_le (hsize ▸ hfits.2) hrealloc),
    if_neg (by decide), c.endpoint_at hat]
  dsimp only
  rw [c.maxPacketSize_at hat, state, Exec.bind_ok (cmdRead_ok rfl c.endpoint _ _ hroom)]
  dsimp only
  rw [hresult]
  simp only [afterRead, call, ReadStream.chunk, ← hleft, hsize, capacity, ← c.maxPacketSize_at hat]
  rfl

/-- A round uses up an attempt exactly if it reads nothing with attempts left. -/
theorem wait_sub_quiet_succ {k : Nat}
    (hused : ¬(ReadStream.chunk c.results k = [] ∧ c.quiet k < c.wait)) :
    c.wait - c.quiet k = c.wait - c.quiet (k + 1) ∧
      min (c.quiet k) c.wait = min (c.quiet (k + 1)) c.wait := by
  by_cases hnil : ReadStream.chunk c.results k = []
  · have hquiet : c.quiet (k + 1) = c.quiet k + 1 := ReadStream.quiet_succ_of_nil hnil
    have hspent : ¬c.quiet k < c.wait := fun hlt => hused ⟨hnil, hlt⟩
    omega
  · have hquiet : c.quiet (k + 1) = c.quiet k := ReadStream.quiet_succ_of_ne_nil hnil
    rw [hquiet]
    exact ⟨rfl, rfl⟩

/-- What one round does when it has room: it reads once more, and returns or goes on
as its outcome says. -/
theorem round {k : Nat} {w : World σ} (hat : c.At k w) (hfits : c.FitsAt k)
    (hallocates : c.Allocates k) :
    ∃ w', c.At (k + 1) w' ∧ ptpusbReadBody B (c.state k) w =
      .ok (match c.outcome k with
        | none => .inl (c.state (k + 1))
        | some rc => .inr rc) w' := by
  obtain ⟨buffer, hdata, hrun⟩ := c.readBody_run hat hfits hallocates
  rw [hrun]
  unfold ptpusbReadResult
  rw [Exec.bind_ok (runtime_run _)]
  have hlen : ((c.results k).map List.length).getD 0 = (ReadStream.chunk c.results k).length := by
    unfold ReadStream.chunk
    cases c.results k <;> rfl
  by_cases hquiet : ReadStream.chunk c.results k = [] ∧ c.quiet k < c.wait
  · obtain ⟨hnil, hlt⟩ := hquiet
    have hsucc : c.quiet (k + 1) = c.quiet k + 1 := ReadStream.quiet_succ_of_nil hnil
    refine ⟨c.afterRead k w buffer (c.wait - c.quiet k - 1),
      c.at_afterRead hat hdata (by omega), ?_⟩
    have houtcome : c.outcome k = none := if_pos ⟨hnil, hlt⟩
    have hstate : c.state (k + 1) =
        { c.state k with readAttempts := (c.state k).readAttempts + 1 } := by
      unfold state
      rw [received_length_succ, hnil, hsucc]
      simp only [List.length_nil, Nat.add_zero, BulkRead.mk.injEq, true_and]
      omega
    rw [houtcome, hstate, hlen, hnil, if_pos ⟨rfl, Nat.sub_ne_zero_of_lt hlt⟩,
      Exec.bind_ok (updateRuntime_run _ _)]
    rfl
  · obtain ⟨hleft, hattempts⟩ := c.wait_sub_quiet_succ hquiet
    have hat' := c.at_afterRead hat hdata hleft
    refine ⟨_, hat', ?_⟩
    have hcond : ¬((ReadStream.chunk c.results k).length = 0 ∧
        (c.afterRead k w buffer (c.wait - c.quiet k)).r.waitForResponse ≠ 0) := by
      rintro ⟨hzero, hne⟩
      exact hquiet ⟨List.length_eq_zero_iff.mp hzero, Nat.lt_of_sub_ne_zero hne⟩
    rw [hlen, if_neg hcond, outcome, if_neg hquiet]
    cases hresult : c.results k with
    | none => rfl
    | some bytes =>
        have hchunk : ReadStream.chunk c.results k = bytes := by
          rw [ReadStream.chunk, hresult, Option.getD_some]
        have hread : (c.state k).read + bytes.length = (c.received (k + 1)).length := by
          rw [received_length_succ, hchunk, state]
        have hverdict := bulkVerdict_holds (c.at_holds hat') (c.received_le_of_fitsAt hfits)
        have hspent : (c.afterRead k w buffer (c.wait - c.quiet k)).r.waitForResponse =
            c.wait - c.quiet k := rfl
        rw [if_neg (by simp)]
        dsimp only [Option.map_some]
        rw [hspent, hread]
        by_cases hignored : c.wait ≠ 0 ∧ c.wait ≤ c.quiet k
        · have hattempt : c.wait - c.quiet k = 0 ∧ (c.state k).readAttempts ≠ 0 := by
            dsimp only [state]
            omega
          rw [if_pos hattempt, if_pos hignored]
          rfl
        · have hattempt : ¬(c.wait - c.quiet k = 0 ∧ (c.state k).readAttempts ≠ 0) := by
            dsimp only [state]
            omega
          have hstate : c.state (k + 1) = ⟨(c.received (k + 1)).length, (c.state k).readAttempts⟩ := by
            rw [state, state, hattempts]
          rw [if_neg hattempt, if_neg hignored, Exec.bind_ok (inspect_ok hverdict), hstate]
          cases verdictOf (c.received (k + 1)) <;> rfl

/-- A round whose room does not fit in an `int` does not return: the sum overflows, or
the buffer length already did and the buffer can no longer be grown. -/
theorem round_stuck {k : Nat} {w : World σ} (hat : c.At k w)
    (hcapacity : (c.capacity k : Int) ≤ intMax + 100) (hfits : ¬c.FitsAt k) :
    ∃ reason, reason ≠ .spent ∧ ptpusbReadBody B (c.state k) w = .error reason w := by
  have hneed : ((c.state k).read : Int) + w.r.maxPacketSize =
      ((c.received k).length + c.packet k : Nat) := by
    rw [c.maxPacketSize_at hat, state]
    push_cast
    rfl
  unfold ptpusbReadBody
  rw [Exec.bind_ok (runtime_run w)]
  by_cases hroom : (((c.received k).length + c.packet k : Nat) : Int) ≤ intMax
  · have hover : intMax < c.capacity k := by
      by_contra hle
      exact hfits ⟨by push_cast at hroom; exact hroom, not_lt.mp hle⟩
    refine ⟨.panic "You cannot downsize the data buffer (%u -> %u)", by simp, ?_⟩
    rw [Exec.bind_ok (hneed ▸ intAdd_ok ⟨by omega, hneed ▸ hroom⟩ w)]
    exact Exec.bind_error (grow_overflown (c.dataLength_at hat) hover hcapacity hroom)
  · refine ⟨.undefined, by simp, Exec.bind_error (intAdd_overflow ?_ w)⟩
    rw [hneed]
    exact fun h => hroom h.2

/-- A round that runs out of memory returns so, without a read. -/
theorem round_outOfMem {k : Nat} {w : World σ} (hat : c.At k w) (hfits : c.FitsAt k)
    (hallocates : ¬c.Allocates k) :
    ∃ w', w'.log = w.log ∧
      ptpusbReadBody B (c.state k) w = .ok (.inr PtpGeneralError.outOfMem) w' := by
  have hneed : ((c.state k).read : Int) + w.r.maxPacketSize =
      ((c.received k).length + c.packet k : Nat) := by
    rw [c.maxPacketSize_at hat, state]
    push_cast
    rfl
  have hneed_le : (((c.received k).length + c.packet k : Nat) : Int) ≤ intMax := by
    have hfirst := hfits.1
    push_cast
    exact hfirst
  have hlength : w.r.dataLength = c.capacity k := by
    rw [c.dataLength_at hat]
    exact toInt32_of_fits ⟨by omega, hfits.2⟩
  obtain ⟨hgrow, hrealloc⟩ := Classical.not_imp.mp hallocates
  rw [← hat.reallocs, Bool.not_eq_true] at hrealloc
  have hgrown := grow_outOfMem hlength hneed_le hgrow hrealloc
  refine ⟨{ w with
    r := { w.r with
      data := none
      dataLength := toInt32 (((c.received k).length + c.packet k : Nat) + 100) }
    reallocs := w.reallocs + 1 }, rfl, ?_⟩
  unfold ptpusbReadBody
  rw [Exec.bind_ok (runtime_run w), Exec.bind_ok (hneed ▸ intAdd_ok ⟨by omega, hneed ▸ hneed_le⟩ w),
    Exec.bind_ok hgrown, if_pos (by decide)]
  rfl

/-! ## Whole runs -/

def run (fuel : Nat) : EStateM.Result Halt (World σ) Int := ptpusbReadAllPackets B fuel c.start

/-- The loop returns `rc` in the `n`-th round. -/
structure Stops (n : Nat) (rc : Int) : Prop where
  goesOn : ∀ k < n, c.GoesOn k
  fits : c.FitsAt n
  allocates : c.Allocates n
  outcome : c.outcome n = some rc

/-- Rounds that go on lead to the world described by `At`. -/
theorem run_reaches {n : Nat} (hgoesOn : ∀ k < n, c.GoesOn k) :
    ∃ w, c.At n w ∧ ∀ fuel, c.run (n + fuel) =
      Exec.iterate .spent (ptpusbReadBody B) fuel (c.state n) w := by
  have hstep : ∀ k i w, i = c.state k ∧ c.At k w → c.GoesOn k →
      ∃ j w', ptpusbReadBody B i w = .ok (.inl j) w' ∧ j = c.state (k + 1) ∧ c.At (k + 1) w' := by
    rintro k i w ⟨rfl, hat⟩ ⟨hfits, hallocates, houtcome⟩
    obtain ⟨w', hat', hrun⟩ := c.round hat hfits hallocates
    rw [houtcome] at hrun
    exact ⟨_, w', hrun, rfl, hat'⟩
  have hinit : c.state 0 = ⟨0, 0⟩ := by simp [state]
  obtain ⟨j, w, ⟨rfl, hat⟩, hrest⟩ := Exec.iterate_reaches Halt.spent
    (fun k i w => i = c.state k ∧ c.At k w) c.GoesOn hstep ⟨hinit.symm, c.at_zero⟩ n hgoesOn
  refine ⟨w, hat, fun fuel => ?_⟩
  rw [run, ptpusbReadAllPackets, Exec.bind_ok (updateRuntime_run _ _)]
  exact hrest fuel

theorem run_stops {n : Nat} {rc : Int} (hstops : c.Stops n rc) :
    ∃ w, c.At (n + 1) w ∧ ∀ fuel > n, c.run fuel = .ok rc w := by
  obtain ⟨w, hat, hrest⟩ := c.run_reaches hstops.goesOn
  obtain ⟨w', hat', hround⟩ := c.round hat hstops.fits hstops.allocates
  rw [hstops.outcome] at hround
  refine ⟨w', hat', fun fuel hfuel => ?_⟩
  obtain ⟨extra, rfl⟩ := Nat.exists_eq_add_of_lt hfuel
  rw [Nat.add_assoc, hrest, Exec.iterate_done hround]

theorem run_stuck {n : Nat} (hgoesOn : ∀ k < n, c.GoesOn k) (hfits : ¬c.FitsAt n) :
    ∃ reason w, reason ≠ .spent ∧ w.log = c.start.log ++ c.calls n ∧
      ∀ fuel > n, c.run fuel = .error reason w := by
  obtain ⟨w, hat, hrest⟩ := c.run_reaches hgoesOn
  obtain ⟨reason, hreason, hround⟩ :=
    c.round_stuck hat (c.capacity_le fun k hk => (hgoesOn k hk).1) hfits
  refine ⟨reason, w, hreason, hat.log, fun fuel hfuel => ?_⟩
  obtain ⟨extra, rfl⟩ := Nat.exists_eq_add_of_lt hfuel
  rw [Nat.add_assoc, hrest, Exec.iterate_stop hround]

theorem run_outOfMem {n : Nat} (hgoesOn : ∀ k < n, c.GoesOn k) (hfits : c.FitsAt n)
    (hallocates : ¬c.Allocates n) :
    ∃ w, w.log = c.start.log ++ c.calls n ∧
      ∀ fuel > n, c.run fuel = .ok PtpGeneralError.outOfMem w := by
  obtain ⟨w, hat, hrest⟩ := c.run_reaches hgoesOn
  obtain ⟨w', hlog, hround⟩ := c.round_outOfMem hat hfits hallocates
  refine ⟨w', hlog.trans hat.log, fun fuel hfuel => ?_⟩
  obtain ⟨extra, rfl⟩ := Nat.exists_eq_add_of_lt hfuel
  rw [Nat.add_assoc, hrest, Exec.iterate_done hround]

theorem run_spent {n : Nat} (hgoesOn : ∀ k < n, c.GoesOn k) :
    ∃ w, c.At n w ∧ c.run n = .error .spent w := by
  obtain ⟨w, hat, hrest⟩ := c.run_reaches hgoesOn
  exact ⟨w, hat, hrest 0⟩

/-- Every run goes on until it stops, gets stuck, or spends its fuel. -/
theorem goesOn_or_first (fuel : Nat) :
    (∀ k < fuel, c.GoesOn k) ∨ ∃ n < fuel, (∀ k < n, c.GoesOn k) ∧ ¬c.GoesOn n := by
  induction fuel with
  | zero => exact .inl fun k hk => absurd hk (Nat.not_lt_zero k)
  | succ fuel ih =>
      rcases ih with hall | ⟨n, hn, hfirst⟩
      · by_cases hgoesOn : c.GoesOn fuel
        · refine .inl fun k hk => ?_
          rcases Nat.lt_succ_iff_lt_or_eq.mp hk with hlt | rfl
          · exact hall k hlt
          · exact hgoesOn
        · exact .inr ⟨fuel, Nat.lt_succ_self fuel, hall, hgoesOn⟩
      · exact .inr ⟨n, hn.trans (Nat.lt_succ_self fuel), hfirst⟩

/-- A run that returns stops in one of its rounds, or runs out of memory in one. -/
theorem ends_of_run {fuel : Nat} {rc : Int} {w : World σ} (hrun : c.run fuel = .ok rc w) :
    (∃ n < fuel, c.Stops n rc ∧ c.At (n + 1) w) ∨
      rc = PtpGeneralError.outOfMem ∧
        ∃ n, (∀ k < n, c.GoesOn k) ∧ w.log = c.start.log ++ c.calls n := by
  rcases c.goesOn_or_first fuel with hall | ⟨n, hn, hgoesOn, hfirst⟩
  · obtain ⟨w', _, hspent⟩ := c.run_spent hall
    rw [hspent] at hrun
    cases hrun
  · by_cases hfits : c.FitsAt n
    · by_cases hallocates : c.Allocates n
      · cases houtcome : c.outcome n with
        | none => exact absurd ⟨hfits, hallocates, houtcome⟩ hfirst
        | some rc' =>
            have hstops : c.Stops n rc' := ⟨hgoesOn, hfits, hallocates, houtcome⟩
            obtain ⟨w', hat, hreturns⟩ := c.run_stops hstops
            rw [hreturns fuel hn] at hrun
            obtain ⟨rfl, rfl⟩ := EStateM.Result.ok.inj hrun
            exact .inl ⟨n, hn, hstops, hat⟩
      · obtain ⟨w', hlog, hreturns⟩ := c.run_outOfMem hgoesOn hfits hallocates
        rw [hreturns fuel hn] at hrun
        obtain ⟨rfl, rfl⟩ := EStateM.Result.ok.inj hrun
        exact .inr ⟨rfl, n, hgoesOn, hlog⟩
    · obtain ⟨reason, w', _, _, hstuck⟩ := c.run_stuck hgoesOn hfits
      rw [hstuck fuel hn] at hrun
      cases hrun

/-- A run that returns anything but `PTP_OUT_OF_MEM` stops in one of its rounds. -/
theorem stops_of_run {fuel : Nat} {rc : Int} {w : World σ} (hrun : c.run fuel = .ok rc w)
    (hrc : rc ≠ PtpGeneralError.outOfMem) : ∃ n < fuel, c.Stops n rc ∧ c.At (n + 1) w :=
  (c.ends_of_run hrun).resolve_right fun h => hrc h.1

/-- The loop stops in one round only. -/
theorem Stops.unique {n m : Nat} {rc rc' : Int} (hn : c.Stops n rc) (hm : c.Stops m rc') :
    n = m ∧ rc = rc' := by
  have hnot : ∀ {a b : Nat} {x y : Int}, c.Stops a x → c.Stops b y → ¬a < b := by
    intro a b x y ha hb hlt
    have hnone := (hb.goesOn a hlt).2.2
    rw [ha.outcome] at hnone
    cases hnone
  have heq : n = m := Nat.le_antisymm (not_lt.mp (hnot hm hn)) (not_lt.mp (hnot hn hm))
  subst heq
  exact ⟨rfl, Option.some.inj (hn.outcome.symm.trans hm.outcome)⟩

end BulkCall

end Libpict
