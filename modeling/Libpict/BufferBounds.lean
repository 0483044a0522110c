import Libpict.Runs

/-! # The bounds of the shared buffer

Over USB-style framing, an operation on a runtime with a buffer of known size never
leaves that buffer, as long as memory is found and a reply stays within an `int`. The
invariant is carried from each operation to the next along a whole run.
-/

namespace Libpict

open Bytes CInt Exec PtpRuntime

variable {σ : Type} {B : Backend σ} {w w' : World σ} {fuel : Nat}

/-- The buffer lengths that the reads of a list have found. -/
def bufferLengths (calls : List Call) : List Int := calls.filterMap fun
  | .read _ _ _ dataLength _ => some dataLength
  | .write .. => none

/-- A read asks for bytes inside the buffer of its time. -/
def Call.Inside : Call → Prop
  | .read _ offset size dataLength _ => 0 ≤ offset ∧ 0 ≤ size ∧ offset + size ≤ dataLength
  | .write .. => True

@[simp] theorem bufferLengths_append (first second : List Call) :
    bufferLengths (first ++ second) = bufferLengths first ++ bufferLengths second :=
  List.filterMap_append ..

/-- The calls of a stretch in which the buffer only grows and every read lies inside it. -/
structure GrowsWith (w v : World σ) (calls : List Call) : Prop where
  log : v.log = w.log ++ calls
  inside : ∀ call ∈ calls, call.Inside
  sorted : (bufferLengths calls).Pairwise (· ≤ ·)
  lengths : ∀ length ∈ bufferLengths calls, w.r.dataLength ≤ length ∧ length ≤ v.r.dataLength
  le : w.r.dataLength ≤ v.r.dataLength

def Grows (w v : World σ) : Prop := ∃ calls, GrowsWith w v calls

instance : IsPreorder (World σ) Grows where
  refl w := ⟨[], (List.append_nil _).symm, by simp, .nil, by simp [bufferLengths], le_rfl⟩
  trans w v u := by
    rintro ⟨first, hfirst⟩ ⟨second, hsecond⟩
    refine ⟨first ++ second, ?_, fun call hcall => ?_, ?_, fun length hlength => ?_,
      hfirst.le.trans hsecond.le⟩
    · rw [hsecond.log, hfirst.log, List.append_assoc]
    · rcases List.mem_append.mp hcall with hcall | hcall
      · exact hfirst.inside call hcall
      · exact hsecond.inside call hcall
    · rw [bufferLengths_append]
      refine List.pairwise_append.mpr ⟨hfirst.sorted, hsecond.sorted, fun a ha b hb => ?_⟩
      exact (hfirst.lengths a ha).2.trans (hsecond.lengths b hb).1
    · rw [bufferLengths_append] at hlength
      rcases List.mem_append.mp hlength with hmem | hmem
      · exact ⟨(hfirst.lengths length hmem).1, (hfirst.lengths length hmem).2.trans hsecond.le⟩
      · exact ⟨hfirst.le.trans (hsecond.lengths length hmem).1, (hsecond.lengths length hmem).2⟩

theorem Logs.bufferLengths_nil {calls : List Call} (hwrites : ∀ call ∈ calls, call.isWrite = true) :
    bufferLengths calls = [] := by
  apply List.filterMap_eq_nil_iff.mpr
  intro call hcall
  have hwrite := hwrites call hcall
  cases call with
  | write => rfl
  | read => cases hwrite

theorem Sends.grows (hsends : Sends w w') : Grows w w' := by
  obtain ⟨⟨calls, hlog, hwrites⟩, hr, _, _⟩ := hsends
  have hnil := Logs.bufferLengths_nil hwrites
  refine ⟨calls, hlog, fun call hcall => ?_, by rw [hnil]; exact .nil, by rw [hnil]; simp,
    by rw [hr]⟩
  have hwrite := hwrites call hcall
  cases call with
  | write => trivial
  | read => cases hwrite

/-- No receive delivers so much that the room for one more read of the packet size does not
fit in an `int`; the reads of a receive follow each other without a write. -/
def Moderate (packet : Nat) (calls : List Call) : Prop := ∀ front reads back,
  calls = front ++ (reads ++ back) → (∀ call ∈ reads, call.isWrite = false) →
    (readBytes reads).length + packet + 100 < 2147483648

theorem Moderate.of_append {packet : Nat} {first second : List Call}
    (hmoderate : Moderate packet (first ++ second)) : Moderate packet first := by
  rintro front reads back rfl honly
  exact hmoderate front reads (back ++ second) (by simp only [List.append_assoc]) honly

/-- A runtime whose buffer has the size that the runtime takes it to have, with an endpoint.
The calls to the endpoint leave the packet size. -/
structure Fit (packet : Nat) (w : World σ) : Prop where
  ready : ∃ buffer, w.r.Ready buffer
  endpoint : ∃ endpoint, bulkEndpoint w.r.connectionType = some endpoint ∧
    w.r.packetSize endpoint = packet
  nonneg : 0 ≤ w.r.maxPacketSize
  bounded : w.r.maxPacketSize ≤ intMax

/-- The runtime stays fit if its buffer keeps its size, its endpoint its packet size, and the
rest of the runtime stays. -/
theorem Fit.sends {packet : Nat} (hfit : Fit packet w) (hsends : Sends w w')
    (hsize : ∀ endpoint, bulkEndpoint w.r.connectionType = some endpoint →
      w'.r.packetSize endpoint = w.r.packetSize endpoint) : Fit packet w' := by
  obtain ⟨⟨buffer, hdata, hlength, hle, hdefault⟩, ⟨endpoint, hendpoint, hpacket⟩, hnonneg,
    hbounded⟩ := hfit
  obtain ⟨_, hr, hsame, hresized⟩ := hsends
  rw [hdata, Option.map_some, Option.map_eq_some_iff] at hsame
  obtain ⟨buffer', hdata', hsize'⟩ := hsame
  refine ⟨⟨buffer', hdata', ?_, by rw [hsize']; exact hle, by rw [hsize']; exact hdefault⟩,
    ⟨endpoint, by rw [hr]; exact hendpoint, (hsize endpoint hendpoint).trans hpacket⟩,
    hresized.nonneg hnonneg, hresized.le hbounded (by decide)⟩
  rw [hr, hsize']
  exact hlength

/-- What the runtime keeps along with its buffer. -/
theorem Fit.keep {packet : Nat} (hfit : Fit packet w) (hdata : w'.r.data = w.r.data)
    (hlength : w'.r.dataLength = w.r.dataLength) (hkill : w'.r.ioKillSwitch = w.r.ioKillSwitch)
    (hconn : w'.r.connectionType = w.r.connectionType)
    (hpacket : w'.r.maxPacketSize = w.r.maxPacketSize) : Fit packet w' := by
  obtain ⟨⟨buffer, hready⟩, ⟨endpoint, hendpoint, hsize⟩, hnonneg, hbounded⟩ := hfit
  refine ⟨⟨buffer, hdata.trans hready.1, hlength.trans hready.2.1, hready.2.2⟩,
    ⟨endpoint, by rw [hconn]; exact hendpoint, ?_⟩, by rw [hpacket]; exact hnonneg,
    by rw [hpacket]; exact hbounded⟩
  rw [← hsize]
  unfold PtpRuntime.packetSize
  rw [hkill, hpacket]

/-- The stops that an overrun would lead to. An overflow of the count of transactions touches no
memory and is none of them. -/
def Halt.Overruns (reason : Halt) : Prop := reason = .undefined ∨
  reason = .panic "You cannot downsize the data buffer (%u -> %u)"

instance (reason : Halt) : Decidable reason.Overruns := inferInstanceAs (Decidable (_ ∨ _))

/-! ## Sending -/

/-- The runtime after some calls to its endpoint. -/
def calledAt (r : PtpRuntime) (endpoint : Endpoint) (k : Nat) : PtpRuntime :=
  { r with maxPacketSize := r.packetAt endpoint k }

/-- The send loop stops, if at all, because the backend claims too much or never ends. -/
theorem ptpSendPacket_stop {buffer : Buffer} (hdata : w.r.data = some buffer) {endpoint : Endpoint}
    (hendpoint : bulkEndpoint w.r.connectionType = some endpoint) (hpacket : 0 ≤ w.r.maxPacketSize)
    {length : Nat} (hlength : length ≤ buffer.size) :
    Ends (ptpSendPacket B fuel length) w (fun _ v => ∃ k, v.r = calledAt w.r endpoint (k + 1))
      (fun reason v => ¬reason.Overruns ∧ ∃ k, v.r = calledAt w.r endpoint k) := by
  refine Ends.mono (Ends.iterate
    (fun k sent v => v.r = calledAt w.r endpoint k ∧ sent ≤ length) (fun _ => True)
    (fun k _ v => v.r = calledAt w.r endpoint (k + 1)) ?_ ⟨?_, Nat.zero_le _⟩ ?_)
    (fun _ _ h => ?_) fun _ _ h => h
  · intro k sent v ⟨hr, hsent⟩
    refine Ends.congr ?_ (bind_ok (runtime_run v))
    have hmax : v.r.maxPacketSize = w.r.packetAt endpoint k := by rw [hr, calledAt]
    have hendpoint' : bulkEndpoint v.r.connectionType = some endpoint := by rw [hr]; exact hendpoint
    rw [hendpoint', hmax]
    dsimp only
    obtain ⟨size, hsize, hle⟩ : ∃ size : Nat, (if (length : Int) - sent > w.r.packetAt endpoint k
        then (w.r.packetAt endpoint k : Int) else length - sent) = size ∧ sent + size ≤ length := by
      split
      · exact ⟨w.r.packetAt endpoint k, rfl, by omega⟩
      · exact ⟨length - sent, by omega, by omega⟩
    rw [hsize]
    have hdata' : v.r.data = some buffer := by rw [hr]; exact hdata
    have hnext : v.r.initComm endpoint = calledAt w.r endpoint (k + 1) := by
      rw [hr, calledAt, PtpRuntime.initComm, PtpRuntime.packetSize_packetAt hpacket]
      rfl
    refine Ends.congr ?_ (bind_ok (cmdWrite_ok hdata' endpoint sent size (by omega)))
    cases (B.cmdWrite endpoint (buffer.slice sent size) v.device).1 with
    | none => exact .ok rfl hnext
    | some count =>
        dsimp only
        split
        next => exact .error rfl ⟨by decide, k + 1, hnext⟩
        next hover =>
          split
          next => exact .ok rfl hnext
          next => exact .ok rfl ⟨trivial, hnext, by omega⟩
  · rw [calledAt, PtpRuntime.packetAt_zero hpacket]
  · exact fun _ _ h => ⟨by decide, fuel, h.1⟩
  · obtain ⟨k, _, _, h⟩ := h
    exact ⟨k, h⟩

theorem transmit_stop {build : M σ Int} {v : World σ} {packet : Nat} (hfit : Fit packet v)
    {length : Nat} (hbuild : build w = .ok length v) (hlength : (length : Int) ≤ v.r.dataLength) :
    Ends (transmit B fuel build) w (fun _ u => Fit packet u ∧ u.r.maxPacketSize = packet)
      (fun reason u => ¬reason.Overruns ∧ Fit packet u) := by
  obtain ⟨⟨buffer, hready⟩, ⟨endpoint, hendpoint, hpacket⟩, hnonneg, hbounded⟩ := hfit
  have hcalled : ∀ {u : World σ} {k : Nat}, u.r = calledAt v.r endpoint k → Fit packet u := by
    intro u k hr
    have hresized : v.r.Resized u.r := by
      rw [hr, calledAt]
      cases k with
      | zero => exact .inl (PtpRuntime.packetAt_zero hnonneg endpoint)
      | succ k =>
          unfold PtpRuntime.Resized
          rw [PtpRuntime.packetAt_succ hnonneg]
          exact v.r.resized_initComm endpoint
    refine ⟨⟨buffer, by rw [hr]; exact hready⟩, ⟨endpoint, by rw [hr]; exact hendpoint, ?_⟩,
      hresized.nonneg hnonneg, hresized.le hbounded (by decide)⟩
    rw [hr, calledAt, PtpRuntime.packetSize_packetAt hnonneg, PtpRuntime.packetAt_succ hnonneg,
      hpacket]
  refine Ends.congr ?_ (bind_ok hbuild)
  apply Ends.bind
  have hlength' : length ≤ buffer.size := by
    have := hready.2.1
    omega
  refine (ptpSendPacket_stop hready.1 hendpoint hnonneg hlength').mono (fun rc u h => ?_)
    fun _ u h => ?_
  · obtain ⟨k, hr⟩ := h
    refine .ok rfl ⟨hcalled hr, ?_⟩
    rw [hr, calledAt, PtpRuntime.packetAt_succ hnonneg, hpacket]
  · obtain ⟨hstop, k, hr⟩ := h
    exact ⟨hstop, hcalled hr⟩

/-- The number of data bytes of an operation. -/
def Operation.size : Operation → Nat
  | send _ => 0
  | sendData _ data => data.length

theorem ptpNewCmdPacket_fit {packet : Nat} (hfit : Fit packet w) (cmd : PtpCommand) :
    ∃ (length : Nat) (v : World σ), ptpNewCmdPacket cmd w = .ok length v ∧
      (length : Int) ≤ v.r.dataLength ∧ Fit packet v := by
  have hfit' := hfit
  obtain ⟨⟨buffer, hdata, hlength, _, hdefault⟩, ⟨endpoint, hendpoint, _⟩, _, _⟩ := hfit
  have hsize : 32 ≤ buffer.size := le_trans (by decide) hdefault
  have hle := cmd.paramLength_le
  have hbuild := ptpNewCmdPacket_ok hdata cmd hendpoint hsize
  refine ⟨_, _, hbuild, ?_,
    hfit'.sends ((ptpNewCmdPacket_sends cmd).of_ok hbuild) fun endpoint _ => rfl⟩
  dsimp only
  omega

theorem Operation.transmission_stop (op : Operation) {packet : Nat} (hfit : Fit packet w)
    (hroom : (12 + op.size : Int) ≤ w.r.dataLength) :
    Ends (op.transmission B fuel) w
      (fun _ v => Sends w v ∧ Fit packet v ∧ v.r.maxPacketSize = packet)
      (fun reason v => Sends w v ∧ ¬reason.Overruns ∧ Fit packet v) := by
  have hcommand : ∀ cmd, Ends (transmitCmd B fuel cmd) w
      (fun _ v => Fit packet v ∧ v.r.maxPacketSize = packet)
      (fun reason v => ¬reason.Overruns ∧ Fit packet v) := by
    intro cmd
    obtain ⟨length, v, hbuild, hlength, hfit'⟩ := ptpNewCmdPacket_fit hfit cmd
    exact transmit_stop hfit' hbuild hlength
  have hstop : Ends (op.transmission B fuel) w
      (fun _ v => Fit packet v ∧ v.r.maxPacketSize = packet)
      (fun reason v => ¬reason.Overruns ∧ Fit packet v) := by
    cases op with
    | send cmd => exact hcommand cmd
    | sendData cmd data =>
        apply Ends.bind
        constructor
        · intro done v hrun
          obtain ⟨hfit', hsettled⟩ := (hcommand cmd).of_ok hrun
          have hsame : v.r.dataLength = w.r.dataLength := by
            rw [((transmitCmd_sends cmd).of_ok hrun).2.runtime]
          cases done with
          | false => exact .ok rfl ⟨hfit', hsettled⟩
          | true =>
              obtain ⟨buffer, hdata, hlength, hsize, _⟩ := hfit'.ready
              have hroom' : (12 + data.length : Int) ≤ w.r.dataLength := hroom
              obtain ⟨buffer', hsize', _, hbuild⟩ := ptpusbNewDataPacket_ok hdata cmd data
                (by omega) (by omega)
              refine transmit_stop (hfit'.sends ((ptpusbNewDataPacket_sends cmd data).of_ok hbuild)
                fun endpoint _ => rfl) hbuild ?_
              dsimp only
              omega
        · exact fun hrun => (hcommand cmd).of_error hrun
  constructor
  · exact fun hrun => ⟨op.transmission_sends.of_ok hrun, hstop.of_ok hrun⟩
  · exact fun hrun => ⟨op.transmission_sends.of_error hrun, hstop.of_error hrun⟩

/-! ## Receiving -/

theorem room_le_intMax {need : Nat} (hneed : need + 100 < 2147483648) : (need : Int) ≤ intMax := by
  unfold intMax
  omega

theorem grown_le_intMax {size need : Nat} (hsize : (size : Int) ≤ intMax)
    (hneed : need + 100 < 2147483648) : (grown size need : Int) ≤ intMax := by
  unfold intMax at hsize ⊢
  unfold grown
  split <;> omega

namespace BulkCall

variable (c : BulkCall B)

/-- A receive that starts with the packet size that its reads leave. -/
theorem packet_settled {packet : Nat} (hstart : c.start.r.maxPacketSize = packet)
    (hsize : c.start.r.packetSize c.endpoint = packet) (k : Nat) : c.packet k = packet := by
  cases k with
  | zero =>
      have hzero := c.packet_zero
      omega
  | succ k =>
      have hsucc : (c.packet (k + 1) : Int) = c.start.r.packetSize c.endpoint :=
        PtpRuntime.packetAt_succ c.packet_nonneg c.endpoint k
      omega

variable {packet : Nat} (hpacket : ∀ k, c.packet k = packet)

include hpacket

/-- As long as the reply stays within an `int`, every round has room. -/
theorem fits_of_moderate {n : Nat} {log : List Call}
    (hmoderate : Moderate packet (log ++ c.calls n)) :
    ∀ k ≤ n, c.FitsAt k := by
  have hreceived : ∀ k ≤ n, (c.received k).length + c.packet k + 100 < 2147483648 := by
    intro k hk
    rw [hpacket, ← c.readBytes_calls]
    obtain ⟨rest, hrest⟩ := Nat.exists_eq_add_of_le hk
    refine hmoderate log (c.calls k) ((List.range rest).map fun j => c.call (k + j)) ?_
      (c.calls_reads k)
    rw [hrest, calls, calls, List.range_add, List.map_append, List.map_map]
    rfl
  intro k hk
  have hcapacity : ∀ j ≤ k, (c.capacity j : Int) ≤ intMax := by
    intro j hj
    induction j with
    | zero => exact c.size_le
    | succ j ih => exact grown_le_intMax (ih (by omega)) (hreceived j (by omega))
  have hroom := room_le_intMax (hreceived k hk)
  exact ⟨by push_cast at hroom; exact hroom, hcapacity k le_rfl⟩

omit hpacket in
theorem bufferLengths_calls (n : Nat) :
    bufferLengths (c.calls n) = (List.range n).map fun k => toInt32 (c.capacity (k + 1)) := by
  induction n with
  | zero => rfl
  | succ n ih =>
      rw [calls_succ, bufferLengths_append, ih, List.range_succ, List.map_append]
      rfl

/-- The rounds of a receive only grow the buffer, and read inside it. -/
theorem grows {n : Nat} (hfits : ∀ k ≤ n, (c.capacity k : Int) ≤ intMax)
    (hdefault : ptpDefaultSize ≤ c.buffer.size) (hat : c.At n w)
    (hbounded : (packet : Int) ≤ intMax) : Fit packet w ∧ Grows c.start w := by
  obtain ⟨buffer, hsize, _, hr⟩ := hat.runtime
  have hint : ∀ k ≤ n, toInt32 (c.capacity k) = c.capacity k := fun k hk =>
    toInt32_of_fits ⟨by omega, hfits k hk⟩
  have hmono : ∀ {j k : Nat}, j ≤ k → c.capacity j ≤ c.capacity k := fun h => c.capacity_mono h
  have hlength : w.r.dataLength = c.capacity n := by rw [c.dataLength_at hat, hint n le_rfl]
  have hstart : c.start.r.dataLength = c.capacity 0 := c.dataLength
  refine ⟨⟨⟨buffer, by rw [hr], by rw [hlength, hsize], by rw [hsize]; exact hfits n le_rfl, ?_⟩,
    ⟨c.endpoint, c.endpoint_at hat, by rw [c.packetSize_at hat, hpacket]⟩,
    by rw [c.maxPacketSize_at hat]; omega, by rw [c.maxPacketSize_at hat, hpacket]; exact hbounded⟩,
    c.calls n, hat.log, ?_, ?_, ?_, ?_⟩
  · rw [hsize]
    exact hdefault.trans (hmono (Nat.zero_le n))
  · intro call hcall
    obtain ⟨k, hk, rfl⟩ := List.mem_map.mp hcall
    have hlt := List.mem_range.mp hk
    have hneed : (c.received k).length + c.packet k ≤ c.capacity (k + 1) := need_le_grown _ _
    refine ⟨by omega, by omega, ?_⟩
    rw [hint (k + 1) hlt]
    omega
  · rw [bufferLengths_calls, List.pairwise_map]
    refine (List.pairwise_lt_range).imp_of_mem fun {j k} hj hk hlt => ?_
    rw [hint (j + 1) (List.mem_range.mp hj), hint (k + 1) (List.mem_range.mp hk)]
    have hle := hmono (show j + 1 ≤ k + 1 by omega)
    omega
  · intro length hmem
    rw [bufferLengths_calls] at hmem
    obtain ⟨k, hk, rfl⟩ := List.mem_map.mp hmem
    have hlt := List.mem_range.mp hk
    have hbelow := hmono (show 0 ≤ k + 1 by omega)
    have habove := hmono (show k + 1 ≤ n from hlt)
    rw [hint (k + 1) hlt, hlength, hstart]
    omega
  · have hle := hmono (Nat.zero_le n)
    rw [hlength, hstart]
    omega

/-- A receive with memory stops in a round, or its fuel is spent. -/
theorem run_within (hrealloc : ∀ count size, B.realloc count size = true)
    (hdefault : ptpDefaultSize ≤ c.buffer.size) (hbounded : (packet : Int) ≤ intMax) :
    Ends (ptpusbReadAllPackets B fuel) c.start
      (fun _ v => Moderate packet v.log → Fit packet v ∧ Grows c.start v)
      (fun reason v => Moderate packet v.log →
        ¬reason.Overruns ∧ Fit packet v ∧ Grows c.start v) := by
  have hwithin : ∀ {n : Nat} {v : World σ}, c.At n v → Moderate packet v.log →
      Fit packet v ∧ Grows c.start v := by
    intro n v hat hmoderate
    rw [hat.log] at hmoderate
    exact c.grows hpacket (fun k hk => (c.fits_of_moderate hpacket hmoderate k hk).2) hdefault hat
      hbounded
  rcases c.goesOn_or_first fuel with hall | ⟨n, hn, hgoesOn, hfirst⟩
  · obtain ⟨v, hat, hspent⟩ := c.run_spent hall
    exact .error hspent fun hmoderate => ⟨by decide, hwithin hat hmoderate⟩
  · by_cases hfits : c.FitsAt n
    · cases houtcome : c.outcome n with
      | none => exact absurd ⟨hfits, fun _ => hrealloc _ _, houtcome⟩ hfirst
      | some rc =>
          obtain ⟨v, hat, hreturns⟩ :=
            c.run_stops ⟨hgoesOn, hfits, fun _ => hrealloc _ _, houtcome⟩
          exact .ok (hreturns fuel hn) (hwithin hat)
    · obtain ⟨reason, v, _, hlog, hstuck⟩ := c.run_stuck hgoesOn hfits
      refine .error (hstuck fuel hn) fun hmoderate => ?_
      rw [hlog] at hmoderate
      exact absurd (c.fits_of_moderate hpacket hmoderate n le_rfl) hfits

end BulkCall

/-! ## Operations -/

theorem Grows.le (hgrows : Grows w w') : w.r.dataLength ≤ w'.r.dataLength := by
  obtain ⟨calls, hcalls⟩ := hgrows
  exact hcalls.le

/-- Unless a reply is too long, the stretch stays inside a buffer that only grows. -/
def Within (packet : Nat) (w v : World σ) : Prop :=
  Moderate packet v.log → Fit packet v ∧ Grows w v

/-- The computation only adds to the log, and stays inside the buffer. -/
def StaysWithin {α : Type} (packet : Nat) (x : M σ α) (w : World σ) : Prop :=
  Ends x w (fun _ v => Extends w v ∧ Within packet w v)
    (fun reason v => Extends w v ∧ (Moderate packet v.log → ¬reason.Overruns) ∧ Within packet w v)

section Rules

variable {α β : Type} {packet : Nat}

/-- Only the run, the log and the buffer length matter. -/
theorem StaysWithin.congr {x y : M σ α} {v : World σ} (hwithin : StaysWithin packet y v)
    (hsame : x w = y v) (hlog : v.log = w.log) (hlength : v.r.dataLength = w.r.dataLength) :
    StaysWithin packet x w := by
  have hgrows : ∀ {u : World σ}, Grows v u → Grows w u := by
    rintro u ⟨calls, hcalls⟩
    exact ⟨calls, hlog ▸ hcalls.log, hcalls.inside, hcalls.sorted, hlength ▸ hcalls.lengths,
      hlength ▸ hcalls.le⟩
  have hextends : ∀ {u : World σ}, Extends v u → Extends w u := by
    intro u h
    rw [Extends, hlog] at h
    exact h
  refine Ends.congr (Ends.mono hwithin (fun _ u h => ?_) fun _ u h => ?_) hsame
  · exact ⟨hextends h.1, fun hmoderate => ⟨(h.2 hmoderate).1, hgrows (h.2 hmoderate).2⟩⟩
  · exact ⟨hextends h.1, h.2.1, fun hmoderate => ⟨(h.2.2 hmoderate).1, hgrows (h.2.2 hmoderate).2⟩⟩

theorem StaysWithin.step {x : M σ α} {a : α} (hrun : x w = .ok a w') (hlog : w'.log = w.log)
    (hfit : Fit packet w') (hle : w.r.dataLength ≤ w'.r.dataLength) : StaysWithin packet x w := by
  refine .ok hrun ⟨?_, fun _ => ⟨hfit, [], ?_, by simp, .nil, by simp [bufferLengths], hle⟩⟩
  · simp [Extends, hlog]
  · rw [hlog, List.append_nil]

/-- What follows need only be looked at where the buffer has been respected so far. -/
theorem StaysWithin.bind {x : M σ α} {f : α → M σ β} (hx : StaysWithin packet x w)
    (hextends : ∀ a, Moves Extends (f a))
    (hf : ∀ a v, x w = .ok a v → Fit packet v → Grows w v → StaysWithin packet (f a) v) :
    StaysWithin packet (x >>= f) w := by
  constructor
  · intro b u hrun
    obtain ⟨a, v, hfirst, hsecond⟩ := bind_eq_ok.mp hrun
    obtain ⟨hbefore, hwithin⟩ := hx.of_ok hfirst
    have hafter : Extends v u := (hextends a).of_ok hsecond
    refine ⟨trans_of Extends hbefore hafter, fun hmoderate => ?_⟩
    obtain ⟨rest, hrest⟩ := hafter
    obtain ⟨hfit, hgrows⟩ := hwithin (Moderate.of_append (hrest ▸ hmoderate))
    obtain ⟨hfit', hgrows'⟩ := ((hf a v hfirst hfit hgrows).of_ok hsecond).2 hmoderate
    exact ⟨hfit', trans_of Grows hgrows hgrows'⟩
  · intro reason u hrun
    cases hfirst : x w with
    | error e v =>
        rw [bind_error hfirst] at hrun
        obtain ⟨rfl, rfl⟩ := EStateM.Result.error.inj hrun
        exact hx.of_error hfirst
    | ok a v =>
        rw [bind_ok hfirst] at hrun
        obtain ⟨hbefore, hwithin⟩ := hx.of_ok hfirst
        have hafter : Extends v u := (hextends a).of_error hrun
        have hsecond : Moderate packet u.log → Fit packet v ∧ Grows w v := by
          intro hmoderate
          obtain ⟨rest, hrest⟩ := hafter
          exact hwithin (Moderate.of_append (hrest ▸ hmoderate))
        refine ⟨trans_of Extends hbefore hafter, fun hmoderate => ?_, fun hmoderate => ?_⟩
        · obtain ⟨hfit, hgrows⟩ := hsecond hmoderate
          exact ((hf a v hfirst hfit hgrows).of_error hrun).2.1 hmoderate
        · obtain ⟨hfit, hgrows⟩ := hsecond hmoderate
          obtain ⟨hfit', hgrows'⟩ := ((hf a v hfirst hfit hgrows).of_error hrun).2.2 hmoderate
          exact ⟨hfit', trans_of Grows hgrows hgrows'⟩

end Rules

/-- The code of a reply is read inside the buffer. -/
theorem finishTransaction_within {packet : Nat} (hfit : Fit packet w) {bytes : List UInt8}
    (hholds : w.r.Holds bytes) (hreply : BulkReply bytes) :
    StaysWithin packet (finishTransaction : M σ Int) w := by
  have hconn : w.r.connectionType ≠ .ip := by
    intro hip
    obtain ⟨endpoint, hendpoint, _⟩ := hfit.endpoint
    rw [hip] at hendpoint
    cases hendpoint
  by_cases hfits : Fits (w.r.transaction + 1)
  · have hcode := ptpGetReturnCode_bulk (r := { w.r with transaction := w.r.transaction + 1 })
      hconn hholds hreply.header
    exact .step (finishTransaction_ok hfits hcode) rfl (hfit.keep rfl rfl rfl rfl rfl) le_rfl
  · refine .error (finishTransaction_overflow hfits) ⟨refl_of Extends w, fun _ => by decide,
      fun _ => ⟨hfit, refl_of Grows w⟩⟩

/-- Data of less than 2 GiB but for 200 bytes fit, with memory. -/
theorem dataFits_of_lt (hrealloc : ∀ count size, B.realloc count size = true) {length : Nat}
    (hlength : length < 2147483648 - 200) : DataFits B w length := by
  unfold DataFits intMax
  refine ⟨by omega, .inr ⟨by omega, hrealloc _ _⟩⟩

theorem le_intMax_of_le_max {size size' length : Nat} (hsize : (size : Int) ≤ intMax)
    (hlength : length < 2147483648 - 200) (hle : size' ≤ max size (length + 200)) :
    (size' : Int) ≤ intMax := by
  unfold intMax at *
  omega

section Operations

variable {packet : Nat} (hrealloc : ∀ count size, B.realloc count size = true)

include hrealloc

theorem receiveReply_within (hfit : Fit packet w) (hsettled : w.r.maxPacketSize = packet) :
    StaysWithin packet (receiveReply B fuel) w := by
  obtain ⟨⟨buffer, hready⟩, ⟨endpoint, hendpoint, hpacket⟩, hnonneg, hbounded⟩ := hfit
  let c : BulkCall B := ⟨w, buffer, endpoint, hready.1, hready.2.1, hready.2.2.1, hendpoint,
    hnonneg⟩
  have hreads : Moves Extends (ptpusbReadAllPackets B fuel) :=
    (ptpusbReadAllPackets_onlyReads B fuel).mono fun _ _ h => h.extends
  have hrun : Ends (ptpusbReadAllPackets B fuel) c.start _ _ :=
    c.run_within (c.packet_settled hsettled hpacket) hrealloc hready.2.2.2 (hsettled ▸ hbounded)
  have hpackets : StaysWithin packet (ptpReceiveAllPackets B fuel) w := by
    refine StaysWithin.congr ?_ (ptpReceiveAllPackets_bulk hendpoint) rfl rfl
    constructor
    · exact fun h => ⟨hreads.of_ok h, hrun.of_ok h⟩
    · intro reason v h
      exact ⟨hreads.of_error h, fun hmoderate => (hrun.of_error h hmoderate).1,
        fun hmoderate => (hrun.of_error h hmoderate).2⟩
  refine hpackets.bind (fun rc => ?_) fun rc v _ hfit _ => ?_
  · split <;> exact Moves.pure _
  · split
    · exact .step rfl rfl hfit le_rfl
    · exact .step rfl rfl hfit le_rfl

theorem Operation.attempt_within (op : Operation) (hfit : Fit packet w)
    (hroom : (12 + op.size : Int) ≤ w.r.dataLength) :
    StaysWithin packet (op.attempt B fuel) w := by
  have hstop : Ends (op.transmission B fuel) w _ _ := op.transmission_stop hfit hroom
  have hsend : StaysWithin packet (op.transmission B fuel) w := by
    refine hstop.mono (fun _ v h => ?_) fun reason v h => ?_
    · exact ⟨h.1.extends, fun _ => ⟨h.2.1, h.1.grows⟩⟩
    · exact ⟨h.1.extends, fun _ => h.2.1, fun _ => ⟨h.2.2, h.1.grows⟩⟩
  refine hsend.bind (fun done => ?_) fun done v hrun hfit _ => ?_
  · split
    · exact (receiveReply_onlyReads B fuel).mono fun _ _ h => h.extends
    · exact Moves.pure _
  · split
    · exact receiveReply_within hrealloc hfit (hstop.of_ok hrun).2.2
    · exact .step rfl rfl hfit le_rfl

theorem Operation.attemptTwice_within (op : Operation) (hfit : Fit packet w)
    (hroom : (12 + op.size : Int) ≤ w.r.dataLength) :
    StaysWithin packet (attemptTwice (op.attempt B fuel)) w := by
  have hextends : Moves Extends (op.attempt B fuel) :=
    attemptOf_extends (op.transmission_sends.mono fun _ _ h => h.extends)
  have hfinish : ∀ {u v : World σ}, Fit packet u → Fit packet v →
      op.attempt B fuel u = .ok 0 v → StaysWithin packet (finishTransaction : M σ Int) v := by
    intro u v hfit hfit' hrun
    obtain ⟨buffer, hready⟩ := hfit.ready
    obtain ⟨_, _, reads, hexchanged⟩ := op.attempt_exchanged hready.allocated
      hfit.bounded hrun
    obtain ⟨hholds, hreply⟩ := hexchanged.holds rfl
    exact finishTransaction_within hfit' hholds hreply
  refine (op.attempt_within hrealloc hfit hroom).bind (afterAttempt_extends hextends)
    fun rc v hfirst hfit' hgrows => ?_
  have hroom' : (12 + op.size : Int) ≤ v.r.dataLength := hroom.trans hgrows.le
  unfold afterAttempt
  split
  next =>
    refine (op.attempt_within hrealloc hfit' hroom').bind (fun rc => ?_)
      fun rc u hsecond hfit'' _ => ?_
    · split
      · exact fun w => .ok rfl (refl_of Extends w)
      · exact finishTransaction_log.mono fun w v h => by simp [Extends, h]
    · split
      next => exact .step rfl rfl (hfit''.keep rfl rfl rfl rfl rfl) le_rfl
      next hrc =>
        obtain rfl := not_not.mp hrc
        exact hfinish hfit' hfit'' hsecond
  next =>
    split
    next => exact .step rfl rfl (hfit'.keep rfl rfl rfl rfl rfl) le_rfl
    next hrc =>
      obtain rfl := not_not.mp hrc
      exact hfinish hfit hfit' hfirst

theorem Operation.prepare_within (op : Operation) (hfit : Fit packet w)
    (hsize : op.size < 2147483648 - 200) : ∃ v, op.prepare B w = .ok () v ∧ v.log = w.log ∧
      Fit packet v ∧ w.r.dataLength ≤ v.r.dataLength ∧ (12 + op.size : Int) ≤ v.r.dataLength := by
  have hfit' := hfit
  obtain ⟨⟨buffer, hready⟩, ⟨endpoint, hendpoint, hpacket⟩, hnonneg, hbounded⟩ := hfit
  have hlength := hready.2.1
  have hdefault : (ptpDefaultSize : Int) ≤ buffer.size := by exact_mod_cast hready.2.2.2
  cases op with
  | send =>
      refine ⟨_, rfl, rfl, hfit'.keep rfl rfl rfl rfl rfl, le_rfl, ?_⟩
      exact le_trans (by decide : (12 : Int) + (0 : Nat) ≤ ptpDefaultSize) (hlength ▸ hdefault)
  | sendData cmd data =>
      have hbytes : data.length < 2147483648 - 200 := hsize
      obtain ⟨buffer', v, hrun, hr, hlog, _, hgrown, hroom, _, hlimit⟩ :=
        prepareData_ok hready data (dataFits_of_lt hrealloc hbytes)
      have hint : (buffer'.size : Int) ≤ intMax := le_intMax_of_le_max hready.2.2.1 hbytes hlimit
      have hlength' : v.r.dataLength = buffer'.size := by
        rw [hr]
        exact toInt32_of_fits ⟨by omega, hint⟩
      refine ⟨v, hrun, hlog, ⟨⟨buffer', by rw [hr], hlength', hint, ?_⟩, ⟨endpoint, ?_⟩, ?_, ?_⟩,
        ?_, ?_⟩
      · exact hready.2.2.2.trans hgrown
      · rw [hr]
        exact ⟨hendpoint, hpacket⟩
      · rw [hr]
        exact hnonneg
      · rw [hr]
        exact hbounded
      · rw [hlength, hlength']
        exact_mod_cast hgrown
      · have hsame : (Operation.sendData cmd data).size = data.length := rfl
        rw [hlength', hsame]
        omega

theorem Operation.exec_within (op : Operation) (hfit : Fit packet w)
    (hsize : op.size < 2147483648 - 200) : StaysWithin packet (op.exec B fuel) w := by
  by_cases hkill : w.r.operationKillSwitch = true
  · exact .step (op.exec_refused hkill) rfl hfit le_rfl
  rw [Bool.not_eq_true] at hkill
  obtain ⟨buffer, hready⟩ := hfit.ready
  obtain ⟨endpoint, hendpoint, _⟩ := hfit.endpoint
  have hconn : w.r.connectionType ≠ .ip := by
    intro hip
    rw [hip] at hendpoint
    cases hendpoint
  have hextends : Moves Extends (op.attempt B fuel) :=
    attemptOf_extends (op.transmission_sends.mono fun _ _ h => h.extends)
  have hfit' : Fit packet (locked w) := hfit.keep rfl rfl rfl rfl rfl
  obtain ⟨v, hprepare, hlog, hfit'', hle, hroom⟩ := op.prepare_within hrealloc hfit' hsize
  refine StaysWithin.congr (v := locked w) ?_ ((op.exec_eq hconn).trans (ptpTransaction_run hkill))
    rfl rfl
  refine (StaysWithin.step hprepare hlog hfit'' hle).bind (fun _ => ?_) fun _ u hrun _ _ => ?_
  · exact hextends.bind (afterAttempt_extends hextends)
  · rw [hprepare] at hrun
    obtain ⟨_, rfl⟩ := EStateM.Result.ok.inj hrun
    exact op.attemptTwice_within hrealloc hfit'' hroom

end Operations

/-! ## Runs -/

/-- Operations one after the other, whatever they return. -/
def Operation.execAll (B : Backend σ) (fuel : Nat) : List Operation → M σ Unit
  | [] => pure ()
  | op :: ops => do
      let _ ← op.exec B fuel
      execAll B fuel ops

theorem Operation.execAll_extends (ops : List Operation) :
    Moves Extends (Operation.execAll B fuel ops) := by
  induction ops with
  | nil => exact Moves.pure ()
  | cons op ops ih => exact op.exec_extends.bind fun _ => ih

theorem Operation.execAll_within {packet : Nat}
    (hrealloc : ∀ count size, B.realloc count size = true)
    {ops : List Operation} (hsize : ∀ op ∈ ops, op.size < 2147483648 - 200) (hfit : Fit packet w) :
    StaysWithin packet (Operation.execAll B fuel ops) w := by
  induction ops generalizing w with
  | nil => exact .step rfl rfl hfit le_rfl
  | cons op ops ih =>
      obtain ⟨hfirst, hrest⟩ := List.forall_mem_cons.mp hsize
      exact (op.exec_within hrealloc hfit hfirst).bind
        (fun _ => Operation.execAll_extends ops) fun _ _ _ hfit' _ => ih hrest hfit'

/-- A runtime as `ptp_init` creates it, after a connection. -/
def opened (contents : Nat → UInt8) (connection : PtpConnType) (packet wait : Nat) : PtpRuntime :=
  { ptpInit (some contents) with
    ioKillSwitch := false
    operationKillSwitch := false
    connectionType := connection
    maxPacketSize := packet
    responseWaitDefault := wait }

/-- The packet size that the receives of such a runtime find: over TCP, the one that the
backend sets at every call. -/
def receiveSize (connection : PtpConnType) (packet : Nat) : Nat :=
  match connection with
  | .ipUsb => 65535
  | _ => packet

/-- Whatever a run of operations does, its buffer length is the allocated size and never
decreases, every read lies inside the buffer, and no packet or header outside it. -/
theorem operations_stay_within (hrealloc : ∀ count size, B.realloc count size = true)
    {connection : PtpConnType} (hconn : connection = .usb ∨ connection = .ipUsb) {packet : Nat}
    (hpacket : (packet : Int) ≤ intMax) (contents : Nat → UInt8) (wait : Nat) (device : σ)
    {ops : List Operation} (hsize : ∀ op ∈ ops, op.size < 2147483648 - 200) (fuel : Nat) :
    let w : World σ := ⟨opened contents connection packet wait, device, 0, []⟩
    Ends (Operation.execAll B fuel ops) w
      (fun _ v => Within (receiveSize connection packet) w v)
      (fun reason v => (Moderate (receiveSize connection packet) v.log → ¬reason.Overruns) ∧
        Within (receiveSize connection packet) w v) := by
  intro w
  have hendpoint : ∃ endpoint, bulkEndpoint connection = some endpoint ∧
      w.r.packetSize endpoint = receiveSize connection packet := by
    rcases hconn with rfl | rfl
    · exact ⟨.usb, rfl, rfl⟩
    · exact ⟨.socket, rfl, rfl⟩
  have hfit : Fit (receiveSize connection packet) w :=
    ⟨⟨_, ptpInit_ready contents⟩, hendpoint, Int.natCast_nonneg packet, hpacket⟩
  exact Ends.mono (Operation.execAll_within hrealloc hsize hfit) (fun _ _ h => h.2)
    fun _ _ h => h.2

theorem Moderate.of_total {packet : Nat} {calls : List Call}
    (htotal : (readBytes calls).length + packet + 100 < 2147483648) : Moderate packet calls := by
  rintro front reads back rfl _
  simp only [readBytes_append, List.length_append] at htotal
  omega

/-- Two operations on a device that answers each. -/
theorem operations_stay_within_answers : ∃ v, Operation.execAll scripted 64
      [.send getHandles, .sendData getHandles [8, 9]]
      ⟨opened (fun _ => 0) .usb 512 1, [some okResponse, some okResponse], 0, []⟩ = .ok () v ∧
    Within 512 ⟨opened (fun _ => 0) .usb 512 1, [some okResponse, some okResponse], 0, []⟩ v ∧
    Moderate 512 v.log := by
  obtain ⟨_, v, hrun, hhow⟩ := run_of_returnsOn (Operation.execAll scripted 64
      [.send getHandles, .sendData getHandles [8, 9]])
    ⟨opened (fun _ => 0) .usb 512 1, [some okResponse, some okResponse], 0, []⟩
    (fun _ v => decide ((readBytes v.log).length = 24)) (by decide +kernel)
  have hwithin := operations_stay_within (B := scripted) (fun _ _ => rfl) (.inl rfl)
    (by decide : ((512 : Nat) : Int) ≤ intMax) (fun _ => 0) 1 [some okResponse, some okResponse]
    (by decide : ∀ op ∈ [Operation.send getHandles, .sendData getHandles [8, 9]],
      op.size < 2147483648 - 200) 64
  refine ⟨v, hrun, hwithin.of_ok hrun, Moderate.of_total ?_⟩
  rw [of_decide_eq_true hhow]
  decide

end Libpict
