import Libpict.PacketBounds
import Libpict.Scripted

/-! # When the transport loops end

The send loop and the loop for the rest of a PTP/IP packet count bytes, and nothing
else: a backend that answers 0 for ever keeps them going for ever. The USB-style
receive loop also counts its attempts, and always ends.
-/

namespace Libpict

open Bytes CInt Exec PtpRuntime

variable {σ : Type} {B : Backend σ}

/-! ## Sending -/

/-- How many bytes of a packet the first `k` writes of the send loop have transferred, and
the device after them. -/
def Backend.drain (B : Backend σ) (endpoint : Endpoint) (buffer : Buffer) (length : Nat)
    (packet : Nat → Nat) (device : σ) : Nat → Nat × σ
  | 0 => (0, device)
  | k + 1 =>
      let (sent, device) := B.drain endpoint buffer length packet device k
      let (rc, device) := B.cmdWrite endpoint (buffer.slice sent (min (packet k) (length - sent)))
        device
      (sent + rc.getD 0, device)

/-- A call of `ptp_send_packet`, with the packet in the buffer. -/
structure SendCall (B : Backend σ) where
  start : World σ
  buffer : Buffer
  endpoint : Endpoint
  length : Nat
  data : start.r.data = some buffer
  endpoint_eq : bulkEndpoint start.r.connectionType = some endpoint
  packet_nonneg : 0 ≤ start.r.maxPacketSize
  length_le : length ≤ buffer.size

namespace SendCall

variable (c : SendCall B)

/-- The size that the `k`-th write may have. -/
def packet : Nat → Nat := c.start.r.packetAt c.endpoint

/-- What the first `k` writes have transferred. -/
def sent (k : Nat) : Nat := (B.drain c.endpoint c.buffer c.length c.packet c.start.device k).1

def device (k : Nat) : σ := (B.drain c.endpoint c.buffer c.length c.packet c.start.device k).2

/-- The result of the `k`-th write. -/
def result (k : Nat) : Option Nat :=
  (B.cmdWrite c.endpoint (c.buffer.slice (c.sent k) (min (c.packet k) (c.length - c.sent k)))
    (c.device k)).1

/-- Some write fails, or the writes add up to the packet. -/
def Progresses : Prop := ∃ k, c.result k = none ∨ c.length ≤ c.sent (k + 1)

theorem sent_succ (k : Nat) : c.sent (k + 1) = c.sent k + (c.result k).getD 0 := rfl

/-- The runtime after `k` writes. -/
def runtimeAt (k : Nat) : PtpRuntime := { c.start.r with maxPacketSize := c.packet k }

theorem runtimeAt_zero : c.runtimeAt 0 = c.start.r := by
  unfold runtimeAt packet
  rw [PtpRuntime.packetAt_zero c.packet_nonneg]

theorem initComm_runtimeAt (k : Nat) :
    (c.runtimeAt k).initComm c.endpoint = c.runtimeAt (k + 1) := by
  have hpacket := PtpRuntime.packetSize_packetAt c.packet_nonneg c.endpoint k
  unfold PtpRuntime.initComm
  rw [show (c.runtimeAt k).packetSize c.endpoint = c.packet (k + 1) from hpacket]
  rfl

/-- One round of the loop. -/
theorem round {k : Nat} {w : World σ} (hr : w.r = c.runtimeAt k) (hdevice : w.device = c.device k)
    (hsent : c.sent k ≤ c.length) :
    ∃ w' : World σ, w'.r = c.runtimeAt (k + 1) ∧ w'.device = c.device (k + 1) ∧
      ptpSendPacketBody B c.length (c.sent k) w =
        if c.result k = none then .ok (.inr PtpGeneralError.ioErr) w'
        else if c.sent (k + 1) < c.length then .ok (.inl (c.sent (k + 1))) w'
        else if c.sent (k + 1) = c.length then .ok (.inr c.length) w'
        else .error (.panic "BUG: Sent too many bytes (?)") w' := by
  have hdata : w.r.data = some c.buffer := by rw [hr]; exact c.data
  have hle := c.length_le
  have hmax : (if (c.length : Int) - c.sent k > w.r.maxPacketSize then w.r.maxPacketSize
      else (c.length : Int) - c.sent k) = (min (c.packet k) (c.length - c.sent k) : Nat) := by
    have hpacket : w.r.maxPacketSize = c.packet k := by rw [hr]; rfl
    rw [hpacket]
    split <;> omega
  obtain ⟨w', hwrite, hr', hdevice'⟩ : ∃ w' : World σ,
      cmdWrite B c.endpoint (c.sent k) (min (c.packet k) (c.length - c.sent k) : Nat) w =
        .ok (c.result k) w' ∧ w'.r = w.r.initComm c.endpoint ∧ w'.device = c.device (k + 1) := by
    have hwrite := cmdWrite_ok (B := B) hdata c.endpoint (c.sent k)
      (min (c.packet k) (c.length - c.sent k)) (by omega)
    rw [hdevice] at hwrite
    exact ⟨_, hwrite, rfl, rfl⟩
  refine ⟨w', by rw [hr', hr, initComm_runtimeAt], hdevice', ?_⟩
  unfold ptpSendPacketBody
  rw [bind_ok (runtime_run w)]
  dsimp only
  rw [hmax, show w.r.connectionType = c.start.r.connectionType by rw [hr]; rfl, c.endpoint_eq]
  dsimp only
  rw [bind_ok hwrite, sent_succ]
  cases c.result k with
  | none => rfl
  | some count =>
      dsimp only
      rw [if_neg (Option.some_ne_none count), Option.getD_some]
      split
      next hover =>
        rw [if_neg (by omega), if_neg (by omega)]
        rfl
      next hover =>
        split
        next hdone =>
          rw [if_neg (by omega), if_pos (by exact_mod_cast hdone), pure_run, hdone]
        next hmissing =>
          rw [if_pos (by omega)]
          rfl

/-- The send loop ends exactly if a write fails or the writes add up to the packet. -/
theorem finishes_iff :
    Finishes .spent (fun fuel => ptpSendPacket B fuel c.length) c.start ↔ c.Progresses := by
  have hreaches : ∀ n, (∀ k < n, c.result k ≠ none ∧ c.sent (k + 1) < c.length) →
      ∃ w : World σ, (w.r = c.runtimeAt n ∧ w.device = c.device n) ∧
        ∀ fuel, ptpSendPacket B (n + fuel) c.length c.start =
          iterate .spent (ptpSendPacketBody B c.length) fuel (c.sent n) w := by
    intro n hgoesOn
    have hstep : ∀ k i w, (i = c.sent k ∧ w.r = c.runtimeAt k ∧ w.device = c.device k ∧
        c.sent k ≤ c.length) → (c.result k ≠ none ∧ c.sent (k + 1) < c.length) →
        ∃ j w', ptpSendPacketBody B c.length i w = .ok (.inl j) w' ∧ j = c.sent (k + 1) ∧
          w'.r = c.runtimeAt (k + 1) ∧ w'.device = c.device (k + 1) ∧ c.sent (k + 1) ≤ c.length := by
      rintro k _ w ⟨rfl, hr, hdevice, hsent⟩ ⟨hresult, hmissing⟩
      obtain ⟨w', hr', hdevice', hrun⟩ := c.round hr hdevice hsent
      rw [if_neg hresult, if_pos hmissing] at hrun
      exact ⟨_, w', hrun, rfl, hr', hdevice', hmissing.le⟩
    obtain ⟨j, w, ⟨rfl, hr, hdevice, _⟩, hrest⟩ := iterate_reaches Halt.spent
      (fun k i w => i = c.sent k ∧ w.r = c.runtimeAt k ∧ w.device = c.device k ∧
        c.sent k ≤ c.length)
      (fun k => c.result k ≠ none ∧ c.sent (k + 1) < c.length) hstep (i := 0) (s := c.start)
      ⟨rfl, c.runtimeAt_zero.symm, rfl, Nat.zero_le _⟩ n hgoesOn
    exact ⟨w, ⟨hr, hdevice⟩, hrest⟩
  constructor
  · intro hfinishes
    by_contra hnever
    refine not_finishes (fun fuel => ?_) hfinishes
    obtain ⟨w, _, hrun⟩ := hreaches fuel fun k _ => by
      rw [Progresses, not_exists] at hnever
      obtain ⟨hresult, hmissing⟩ := not_or.mp (hnever k)
      exact ⟨hresult, not_le.mp hmissing⟩
    exact ⟨w, hrun 0⟩
  · intro hprogresses
    -- the first round that does not go on ends the loop
    obtain ⟨n, hn, hleast⟩ := Nat.findX hprogresses
    have hgoesOn : ∀ k < n, c.result k ≠ none ∧ c.sent (k + 1) < c.length := fun k hk => by
      obtain ⟨hresult, hmissing⟩ := not_or.mp (hleast k hk)
      exact ⟨hresult, not_le.mp hmissing⟩
    obtain ⟨w, ⟨hr, hdevice⟩, hrun⟩ := hreaches n hgoesOn
    have hsent : c.sent n ≤ c.length := by
      cases n with
      | zero => exact Nat.zero_le _
      | succ n => exact (hgoesOn n (Nat.lt_succ_self n)).2.le
    obtain ⟨w', _, _, hround⟩ := c.round hr hdevice hsent
    refine finishes_iterate (n := n + 1) fun t => ?_
    change ptpSendPacket B (n + 1) c.length c.start ≠ _
    rw [hrun 1]
    by_cases hresult : c.result n = none
    · rw [if_pos hresult] at hround
      rw [iterate_done hround]
      exact fun h => by cases h
    · have hdone := hn.resolve_left hresult
      rw [if_neg hresult, if_neg (not_lt.mpr hdone)] at hround
      split at hround
      next =>
        rw [iterate_done hround]
        exact fun h => by cases h
      next =>
        rw [iterate_stop hround]
        exact fun h => by cases h

end SendCall

/-! ## Receiving over USB-style framing -/

/-- Reads that go on leave attempts and room for bytes. -/
theorem BulkCall.goesOn_bound (c : BulkCall B) (hwait : 1 ≤ c.start.r.responseWaitDefault) {k : Nat}
    (hgoesOn : c.GoesOn k) : k < c.wait + 2147483648 := by
  obtain ⟨⟨hroom, _⟩, _, houtcome⟩ := hgoesOn
  have hcount : k ≤ c.quiet k + (c.received k).length := ReadStream.le_quiet_add_received k
  have hquiet : c.quiet k < c.wait := by
    by_contra hspent
    have hpos : c.wait ≠ 0 := Nat.one_le_iff_ne_zero.mp hwait
    unfold BulkCall.outcome at houtcome
    rw [if_neg fun h => hspent h.2] at houtcome
    split at houtcome
    next => cases houtcome
    next =>
      rw [if_pos ⟨hpos, not_lt.mp hspent⟩] at houtcome
      cases houtcome
  unfold intMax at hroom
  omega

/-- The USB-style receive loop always ends. -/
theorem BulkCall.finishes (c : BulkCall B) (hwait : 1 ≤ c.start.r.responseWaitDefault) :
    Finishes .spent (ptpusbReadAllPackets B) c.start := by
  rcases c.goesOn_or_first (c.wait + 2147483649) with hall | ⟨n, _, hgoesOn, hfirst⟩
  · have hbound := c.goesOn_bound hwait (hall (c.wait + 2147483648) (by omega))
    omega
  by_cases hfits : c.FitsAt n
  · by_cases hallocates : c.Allocates n
    · cases houtcome : c.outcome n with
      | none => exact absurd ⟨hfits, hallocates, houtcome⟩ hfirst
      | some rc =>
          obtain ⟨w, _, hrun⟩ := c.run_stops ⟨hgoesOn, hfits, hallocates, houtcome⟩
          exact .of_ok ⟨n + 1, hrun⟩
    · obtain ⟨w, _, hrun⟩ := c.run_outOfMem hgoesOn hfits hallocates
      exact .of_ok ⟨n + 1, hrun⟩
  · obtain ⟨reason, w, hreason, _, hrun⟩ := c.run_stuck hgoesOn hfits
    exact .of_error ⟨n + 1, hrun⟩ hreason

/-! ## Receiving PTP/IP packets -/

namespace PacketCall

variable (c : PacketCall B)

/-- The length field has arrived, and lets the loop for the rest of the packet read into
the buffer. -/
structure Usable : Prop where
  announced : c.Announced
  longer : 4 < c.length
  length_le : (c.length : Int) ≤ intMax + 4
  offset_le : (c.offset + 4 : Int) ≤ intMax
  room : if c.need % 4294967296 < c.buffer.size then c.offset + c.length ≤ c.buffer.size
    else (c.buffer.size : Int) ≤ intMax ∧
      B.realloc c.start.reallocs (c.need % 4294967296 + 100) = true

/-- Some read of the loop fails, completes the packet, or brings the count of its bytes
beyond an `int`. -/
def Progresses : Prop := c.Usable → ∃ k, c.results k = none ∨
  (c.received (k + 1)).length = c.rest ∨ intMax < 4 + (c.received (k + 1)).length

/-- The world before the `k`-th round of the loop, as far as the loop depends on it. -/
structure Going (k : Nat) (w : World σ) : Prop where
  device : w.device = (B.fill c.rest c.device k).2
  data : ∃ buffer, w.r.data = some buffer ∧ c.offset + c.length ≤ buffer.size ∧
    leValue (buffer.slice c.offset 4) = c.length

/-- One round of the loop, for any length that leaves it going. -/
theorem going_round (hlonger : 4 < c.length) (hlength : (c.length : Int) ≤ intMax + 4) {k : Nat}
    {w : World σ} (hgoing : c.Going k w) (hcount : (4 + (c.received k).length : Int) ≤ intMax) :
    ∃ w', c.Going (k + 1) w' ∧ ptpipReadRestBody B c.offset (c.state k) w =
      if c.results k = none then .ok (.inr PtpGeneralError.ioErr) w'
      else if intMax < 4 + (c.received (k + 1)).length then .error .undefined w'
      else if (c.received (k + 1)).length = c.rest then .ok (.inr c.length) w'
      else .ok (.inl (c.state (k + 1))) w' := by
  obtain ⟨hdevice, buffer, hdata, hroom, hfield⟩ := hgoing
  have hreceived := c.received_le k
  have hreceived' := c.received_le (k + 1)
  have hsucc := c.received_length_succ k
  have hrest : c.rest + 4 = c.length := by
    unfold rest
    omega
  unfold intMax at hlength hcount
  have hload : w.r.loadU32 c.offset = .ok c.length := by
    have hvalue := loadLe_some hdata 4 c.offset (by omega)
    rwa [hfield] at hvalue
  have hask : toInt32 (toUInt32 (c.length - c.state k)) =
      (c.rest - (c.received k).length : Nat) := by
    unfold state toInt32 toUInt32
    omega
  have hoffset : (c.offset : Int) + c.state k = (c.offset + (4 + (c.received k).length) : Nat) := by
    unfold state
    push_cast
    rfl
  have hresult : B.readResult .socket (c.rest - (c.received k).length) w.device = c.results k := by
    rw [hdevice]
    rfl
  obtain ⟨w', hread, hgoing'⟩ : ∃ w', cmdRead B .socket (c.offset + (4 + (c.received k).length) : Nat)
      (c.rest - (c.received k).length : Nat) w = .ok ((c.results k).map List.length) w' ∧
      c.Going (k + 1) w' := by
    have hread := cmdRead_ok (B := B) hdata .socket (c.offset + (4 + (c.received k).length))
      (c.rest - (c.received k).length) (by omega)
    rw [hresult] at hread
    refine ⟨_, hread, ?_, _, rfl, hroom, ?_⟩
    · rw [hdevice]
      rfl
    · rw [Buffer.store_slice_disjoint _ _ _ _ _ (.inl (by omega)), hfield]
  refine ⟨w', hgoing', ?_⟩
  have hload' : w'.r.loadU32 c.offset = .ok c.length := by
    obtain ⟨_, buffer', hdata', hroom', hfield'⟩ := hgoing'
    have hvalue := loadLe_some hdata' 4 c.offset (by omega)
    rwa [hfield'] at hvalue
  unfold ptpipReadRestBody
  rw [bind_ok (inspect_ok hload), hask, hoffset, bind_ok hread]
  cases hgot : c.results k with
  | none => rfl
  | some got =>
      rw [hgot, Option.getD_some] at hsucc
      have hstate : c.state k + (got.length : Int) = c.state (k + 1) := by
        unfold state
        omega
      rw [if_neg (Option.some_ne_none got)]
      dsimp only [Option.map_some]
      unfold intMax
      by_cases hover : 2147483647 < 4 + ((c.received (k + 1)).length : Int)
      · rw [if_pos hover]
        refine bind_error (intAdd_overflow (fun hfits => ?_) w')
        rw [hstate] at hfits
        unfold state Fits at hfits
        omega
      · have hfits : Fits (c.state k + (got.length : Int)) := by
          rw [hstate]
          unfold state
          exact ⟨by omega, by omega⟩
        rw [if_neg hover, bind_ok (intAdd_ok hfits _), hstate, bind_ok (inspect_ok hload')]
        by_cases hdone : (c.received (k + 1)).length = c.rest
        · have hread : c.state (k + 1) = c.length := by
            unfold state
            omega
          rw [if_pos hdone, hread, if_pos (by unfold toUInt32; omega)]
          rfl
        · have hmissing : toUInt32 (c.length - c.state (k + 1)) ≠ 0 := by
            unfold state toUInt32
            omega
          rw [if_neg hdone, if_neg hmissing]
          rfl

/-- A usable length gets the function to its loop. -/
theorem usable_run (husable : c.Usable) : ∃ w, c.Going 0 w ∧
    ∀ fuel, c.run fuel = iterate .spent (ptpipReadRestBody B c.offset) fuel 4 w := by
  obtain ⟨⟨header, hheader, hlength⟩, hlonger, hlength_le, hoffset, hroom⟩ := husable
  obtain ⟨w, hopened, hrun⟩ := c.sized_run hheader hlength (by omega) hoffset
  have hdata : w.r.data = some (c.buffer.store c.offset header) := by
    rw [hopened.runtime, hheader]
    rfl
  have hfield : leValue ((c.buffer.store c.offset header).slice c.offset 4) = c.length := by
    rw [← hlength, Buffer.store_slice_self, length, hheader]
    rfl
  by_cases hkept : c.need % 4294967296 < c.buffer.size
  · rw [if_pos hkept] at hroom
    refine ⟨w, ⟨hopened.device, _, hdata, hroom, hfield⟩, fun fuel => ?_⟩
    rw [hrun, if_neg (not_le.mpr hkept), bind_ok (pure_run _ _)]
    rfl
  · rw [if_neg hkept] at hroom
    obtain ⟨hsize, hrealloc⟩ := hroom
    have hheader_le := c.header_le
    unfold intMax at hoffset hlength_le hsize
    have hdataLength : w.r.dataLength = c.buffer.size := by
      rw [hopened.runtime]
      exact c.dataLength.trans (toInt32_of_fits ⟨by omega, hsize⟩)
    rw [← hopened.reallocs] at hrealloc
    obtain ⟨v, hresize, hdevice, hdata'⟩ : ∃ v : World σ,
        ptpBufferResize B (c.need % 4294967296) w = .ok 0 v ∧ v.device = w.device ∧
          v.r.data = some ((c.buffer.store c.offset header).resize (c.need % 4294967296 + 100)) :=
      ⟨_, ptpBufferResize_ok hdata hdataLength (not_lt.mp hkept) (Nat.mod_lt _ (by decide)) hrealloc,
        rfl, rfl⟩
    refine ⟨v, ⟨hdevice.trans hopened.device, _, hdata', ?_, hfield⟩, fun fuel => ?_⟩
    · rw [Buffer.resize_size]
      unfold need at hkept ⊢
      omega
    · rw [hrun, if_pos (not_lt.mp hkept), bind_ok hresize]
      rfl

/-- A request outside the buffer ends the loop in its first round. -/
theorem loop_outside {w : World σ} (hload : w.r.loadU32 c.offset = .ok c.length)
    (houtside : w.r.load (c.offset + 4) (toInt32 (toUInt32 (c.length - 4))) = .error .undefined) :
    Finishes .spent (iterate .spent (ptpipReadRestBody B c.offset) · 4) w := by
  refine finishes_iterate (n := 1) fun t => ?_
  have hround : ∃ w', ptpipReadRestBody B c.offset 4 w = .error .undefined w' := by
    unfold ptpipReadRestBody
    rw [bind_ok (inspect_ok hload)]
    exact ⟨_, bind_error (cmdRead_undefined houtside)⟩
  obtain ⟨w', hround⟩ := hround
  rw [iterate_stop hround]
  exact fun h => by cases h

omit c in
/-- The size of the request is that of the rest of the packet, or negative. -/
theorem asks_of_nonneg {length : Nat} (hlonger : length ≠ 4) (hlt : length < 4294967296)
    (hnonneg : 0 ≤ toInt32 (toUInt32 ((length : Int) - 4))) : 4 < length ∧
      (length : Int) ≤ intMax + 4 ∧ toInt32 (toUInt32 ((length : Int) - 4)) = length - 4 := by
  unfold toInt32 toUInt32 intMax at *
  omega

/-- An unusable length ends the function at its size test or in the first round. -/
theorem sized_finishes {header : List UInt8} (hheader : c.header = some header)
    (hlength : header.length = 4) (hlonger : c.length ≠ 4)
    (hoffset : (c.offset + 4 : Int) ≤ intMax) (hunusable : ¬c.Usable) :
    Finishes .spent (fun fuel => ptpipReadPacket B fuel c.offset) c.start := by
  obtain ⟨w, hopened, hrun⟩ := c.sized_run hheader hlength hlonger hoffset
  have hload := c.opened_loadU32 hheader hlength hopened
  have hlt := c.length_lt
  have hheader_le := c.header_le
  have hdata : w.r.data = some (c.buffer.store c.offset header) := by
    rw [hopened.runtime, hheader]
    rfl
  have hdataLength : w.r.dataLength = toInt32 c.buffer.size := by
    rw [hopened.runtime]
    exact c.dataLength
  by_cases hkept : c.need % 4294967296 < c.buffer.size
  · refine Finishes.congr (t := w) (c.loop_outside hload (load_undefined hdata ?_)) fun fuel => ?_
    · rw [Buffer.store_size]
      by_contra hinside
      obtain ⟨hlonger', hlength_le, hask⟩ := asks_of_nonneg hlonger hlt (by omega)
      refine hunusable ⟨⟨header, hheader, hlength⟩, hlonger', hlength_le, hoffset, ?_⟩
      rw [if_pos hkept]
      omega
    · rw [show ptpipReadPacket B fuel c.offset c.start = _ from hrun fuel,
        if_neg (not_le.mpr hkept), bind_ok (pure_run _ _)]
      rfl
  · have hgrows := not_lt.mp hkept
    by_cases hsize : (c.buffer.size : Int) ≤ intMax
    · rw [toInt32_of_fits ⟨by omega, hsize⟩] at hdataLength
      cases hrealloc : B.realloc w.reallocs (c.need % 4294967296 + 100) with
      | false =>
          obtain ⟨v, hresize⟩ : ∃ v : World σ, ptpBufferResize B (c.need % 4294967296) w =
              .ok PtpGeneralError.outOfMem v :=
            ⟨_, ptpBufferResize_outOfMem hdataLength hgrows (Nat.mod_lt _ (by decide)) hrealloc⟩
          refine .of_ok (a := PtpGeneralError.outOfMem) (t := v) ⟨0, fun fuel _ => ?_⟩
          refine (hrun fuel).trans ?_
          rw [if_pos hgrows, bind_ok hresize, if_pos (by decide)]
          rfl
      | true =>
          obtain ⟨v, hresize, hdata'⟩ : ∃ v : World σ,
              ptpBufferResize B (c.need % 4294967296) w = .ok 0 v ∧ v.r.data =
                some ((c.buffer.store c.offset header).resize (c.need % 4294967296 + 100)) :=
            ⟨_, ptpBufferResize_ok hdata hdataLength hgrows (Nat.mod_lt _ (by decide)) hrealloc, rfl⟩
          have hload' : v.r.loadU32 c.offset = .ok c.length := by
            have hvalue := loadLe_some hdata' 4 c.offset (by
              rw [Buffer.resize_size]
              omega)
            rw [Buffer.resize_slice, ← hlength, Buffer.store_slice_self, hlength] at hvalue
            rw [length, hheader]
            exact hvalue
          refine Finishes.congr (t := v) (c.loop_outside hload' (load_undefined hdata' ?_))
            fun fuel => ?_
          · by_contra hinside
            obtain ⟨hlonger', hlength_le, _⟩ := asks_of_nonneg hlonger hlt (by omega)
            refine hunusable ⟨⟨header, hheader, hlength⟩, hlonger', hlength_le, hoffset, ?_⟩
            rw [if_neg hkept]
            exact ⟨hsize, hopened.reallocs ▸ hrealloc⟩
          · rw [show ptpipReadPacket B fuel c.offset c.start = _ from hrun fuel, if_pos hgrows,
              bind_ok hresize]
            rfl
    · have hpanic : ∃ message, ptpBufferResize B (c.need % 4294967296) w =
          .error (.panic message) w := by
        have hdown : c.need % 4294967296 < toSize w.r.dataLength := by
          rw [hdataLength]
          exact not_le.mp fun h => hsize (c.fits_of_grow (Nat.mod_lt _ (by decide)) h)
        exact ⟨_, if_pos hdown⟩
      obtain ⟨message, hpanic⟩ := hpanic
      refine .of_error (e := .panic message) (t := w) ⟨0, fun fuel _ => ?_⟩ (by simp)
      refine (hrun fuel).trans ?_
      rw [if_pos hgrows, bind_error hpanic]

/-- Without a usable length, the function ends by itself. -/
theorem unusable_finishes (hunusable : ¬c.Usable) :
    Finishes .spent (fun fuel => ptpipReadPacket B fuel c.offset) c.start := by
  obtain ⟨u, hopened', hopen⟩ := c.header_run
  cases hheader : c.header with
  | none =>
      rw [hheader] at hopen
      exact .of_ok ⟨0, fun fuel _ => hopen fuel⟩
  | some header =>
      rw [hheader] at hopen
      have hle := c.header_length_le
      rw [hheader, Option.getD_some] at hle
      by_cases hshort : header.length < 4
      · refine .of_ok (a := PtpGeneralError.ioErr) (t := u) ⟨0, fun fuel _ => (hopen fuel).trans ?_⟩
        dsimp only
        exact if_pos hshort
      have hlength : header.length = 4 := by omega
      by_cases hbare : c.length = 4
      · obtain ⟨v, _, hrun⟩ := c.bare_run hheader hlength hbare
        exact .of_ok ⟨0, fun fuel _ => hrun fuel⟩
      by_cases hoffset : (c.offset + 4 : Int) ≤ intMax
      · exact c.sized_finishes hheader hlength hbare hoffset hunusable
      have hload := c.opened_loadU32 hheader hlength hopened'
      have hlt := c.length_lt
      refine .of_error (e := .undefined) (t := u) ⟨0, fun fuel _ => (hopen fuel).trans ?_⟩ (by decide)
      dsimp only
      rw [if_neg (by omega)]
      unfold ptpipReadRest
      rw [bind_ok (inspect_ok hload), if_neg (by unfold toUInt32; omega)]
      exact bind_error (intAdd_overflow (fun hfits => hoffset hfits.2) u)

/-- The loop ends exactly if a read fails, completes the packet or overflows the count. -/
theorem finishes_iff :
    Finishes .spent (fun fuel => ptpipReadPacket B fuel c.offset) c.start ↔ c.Progresses := by
  by_cases husable : c.Usable
  · obtain ⟨w₀, hgoing₀, hrun₀⟩ := c.usable_run husable
    have hstart : (4 + (c.received 0).length : Int) ≤ intMax :=
      (by decide : (4 + (0 : Nat) : Int) ≤ intMax)
    -- a round goes on unless it ends the loop
    let goesOn (k : Nat) : Prop := ¬(c.results k = none ∨ (c.received (k + 1)).length = c.rest ∨
      intMax < 4 + (c.received (k + 1)).length)
    have hstep : ∀ k i w, (i = c.state k ∧ c.Going k w ∧
        (4 + (c.received k).length : Int) ≤ intMax) → goesOn k →
        ∃ j w', ptpipReadRestBody B c.offset i w = .ok (.inl j) w' ∧ j = c.state (k + 1) ∧
          c.Going (k + 1) w' ∧ (4 + (c.received (k + 1)).length : Int) ≤ intMax := by
      rintro k _ w ⟨rfl, hgoing, hcount⟩ hgoesOn
      obtain ⟨hresult, hmissing, hfits⟩ : c.results k ≠ none ∧
          (c.received (k + 1)).length ≠ c.rest ∧
          ¬intMax < 4 + ((c.received (k + 1)).length : Int) := by
        simpa only [goesOn, not_or] using hgoesOn
      obtain ⟨w', hgoing', hround⟩ := c.going_round husable.longer husable.length_le hgoing hcount
      rw [if_neg hresult, if_neg hfits, if_neg hmissing] at hround
      exact ⟨_, w', hround, rfl, hgoing', not_lt.mp hfits⟩
    have hreaches : ∀ n, (∀ k < n, goesOn k) → ∃ w, c.Going n w ∧
        (4 + (c.received n).length : Int) ≤ intMax ∧ ∀ fuel, c.run (n + fuel) =
          iterate .spent (ptpipReadRestBody B c.offset) fuel (c.state n) w := by
      intro n hgoesOn
      obtain ⟨j, w, ⟨rfl, hgoing, hcount⟩, hrest⟩ := iterate_reaches Halt.spent
        (fun k i w => i = c.state k ∧ c.Going k w ∧ (4 + (c.received k).length : Int) ≤ intMax)
        goesOn hstep (i := 4) (s := w₀) ⟨rfl, hgoing₀, hstart⟩ n hgoesOn
      exact ⟨w, hgoing, hcount, fun fuel => (hrun₀ _).trans (hrest fuel)⟩
    constructor
    · intro hfinishes _
      by_contra hnever
      refine not_finishes (fun fuel => ?_) hfinishes
      obtain ⟨w, _, _, hrun⟩ := hreaches fuel fun k _ => not_exists.mp hnever k
      exact ⟨w, hrun 0⟩
    · intro hprogresses
      obtain ⟨n, hn, hleast⟩ := Nat.findX (hprogresses husable)
      obtain ⟨w, hgoing, hcount, hrun⟩ := hreaches n hleast
      obtain ⟨w', _, hround⟩ := c.going_round husable.longer husable.length_le hgoing hcount
      refine Finishes.congr (t := w₀) (finishes_iterate (n := n + 1) fun t => ?_) hrun₀
      rw [← hrun₀, hrun 1]
      split at hround
      next =>
        rw [iterate_done hround]
        exact fun h => by cases h
      next hresult =>
        split at hround
        next =>
          rw [iterate_stop hround]
          exact fun h => by cases h
        next hfits =>
          rw [if_pos ((hn.resolve_left hresult).resolve_right hfits)] at hround
          rw [iterate_done hround]
          exact fun h => by cases h
  · exact iff_of_true (c.unusable_finishes husable) fun h => absurd h husable

end PacketCall

/-! ### Whole receives -/

theorem ptpipReadPacket_steady (B : Backend σ) (offset : Int) :
    Steady .spent fun fuel => ptpipReadPacket B fuel offset := by
  refine (steady_const _).bind fun r => (steady_const _).bind fun rc =>
    (steady_const _).bind fun _ => ?_
  cases rc with
  | none => exact steady_const _
  | some count =>
      refine (steady_const _).ite _ ((steady_const _).bind fun length => ?_)
      refine (steady_const _).ite _ ((steady_const _).bind fun front =>
        (steady_const _).bind fun r => (steady_const _).bind fun rc => ?_)
      exact (steady_const _).ite _ (steady_iterate _ _ _)

theorem ptpipReceiveBulkPackets_steady (B : Backend σ) :
    Steady .spent (ptpipReceiveBulkPackets B) := by
  have hresponse : ∀ third, Steady .spent fun fuel => ptpipReceiveResponse B fuel third :=
    fun third => (ptpipReadPacket_steady B third).bind fun rc => steady_const _
  refine (ptpipReadPacket_steady B 0).bind fun rc => (steady_const _).ite _ ?_
  refine (steady_const _).bind fun type => Steady.ite _ ?_ (steady_const _)
  refine (ptpipReadPacket_steady B rc).bind fun rc' => (steady_const _).ite _ ?_
  refine (steady_const _).bind fun type' => (steady_const _).ite _ ?_
  exact (steady_const _).bind fun length => (steady_const _).bind fun third => hresponse third

/-- The read is no loop. -/
def Loopless {α : Type} (read : Except Halt α) : Prop := read ≠ .error .spent

theorem Loopless.bind {α β : Type} {read : Except Halt α} {next : α → Except Halt β}
    (hread : Loopless read) (hnext : ∀ a, Loopless (next a)) : Loopless (read >>= next) := by
  cases read with
  | ok a => exact hnext a
  | error reason =>
      intro hspent
      exact hread (congrArg Except.error (Except.error.inj hspent))

theorem loopless_pure {α : Type} (a : α) : Loopless (pure a) := fun h => by cases h

theorem loopless_loadLe (r : PtpRuntime) (size : Nat) (offset : Int) :
    Loopless (r.loadLe size offset) := by
  unfold Loopless PtpRuntime.loadLe PtpRuntime.load
  cases r.data with
  | none => exact fun h => by cases h
  | some buffer =>
      dsimp only
      split
      · exact fun h => by cases h
      · exact fun h => by cases h

theorem loopless_getResponsePacket (r : PtpRuntime) : Loopless (ptpipGetResponsePacket r) := by
  refine (loopless_loadLe _ _ _).bind fun startType => ?_
  split
  · exact loopless_pure _
  split
  · exact fun h => by cases h
  refine (loopless_loadLe _ _ _).bind fun startLength => (loopless_loadLe _ _ _).bind fun endType => ?_
  split
  · exact fun h => by cases h
  refine (loopless_loadLe _ _ _).bind fun endLength => (loopless_loadLe _ _ _).bind fun type => ?_
  split
  · exact fun h => by cases h
  · exact loopless_pure _

theorem loopless_getReturnCode (r : PtpRuntime) : Loopless (ptpGetReturnCode r) := by
  have hbulk : Loopless (bulkResponse r) := by
    refine (loopless_loadLe _ _ _).bind fun type => ?_
    split
    · exact (loopless_loadLe _ _ _).bind fun _ => loopless_pure _
    · exact loopless_pure _
  unfold ptpGetReturnCode
  split
  · exact (loopless_getResponsePacket r).bind fun _ => (loopless_loadLe _ _ _).bind fun _ =>
      loopless_pure _
  · exact hbulk.bind fun _ => (loopless_loadLe _ _ _).bind fun _ => loopless_pure _

theorem finishes_pure {α : Type} (a : α) (w : World σ) :
    Finishes .spent (fun _ => (pure a : M σ α)) w := .of_ok (settles_const _)

theorem finishes_inspect {α β : Type} {read : PtpRuntime → Except Halt α}
    {next : Nat → α → M σ β} {w : World σ} (hread : Loopless (read w.r))
    (hnext : ∀ a, read w.r = .ok a → Finishes .spent (fun fuel => next fuel a) w) :
    Finishes .spent (fun fuel => inspect read >>= next fuel) w := by
  cases hrun : read w.r with
  | ok a => exact (hnext a hrun).congr fun fuel => bind_ok (inspect_ok hrun)
  | error reason =>
      have hstop : inspect read w = .error reason w := by
        unfold inspect
        rw [hrun]
      refine .of_error (e := reason) (t := w) ⟨0, fun fuel _ => bind_error hstop⟩ ?_
      rintro rfl
      exact hread hrun

section Receive

variable {w : World σ} {fuel : Nat}

/-- A stop of a call of `ptpip_read_packet` is a stop of the receive. -/
theorem stop_of_reached {offset : Int} {start : World σ}
    (hreached : Reached B fuel w offset start) {reason : Halt} {t : World σ}
    (hstop : ptpipReadPacket B fuel offset start = .error reason t) :
    ptpipReceiveBulkPackets B fuel w = .error reason t := by
  cases hreached with
  | first => exact bind_error hstop
  | second hrun hrc htype =>
      unfold ptpipReceiveBulkPackets
      rw [bind_ok hrun, if_neg (not_lt.mpr hrc), bind_ok (inspect_ok htype), if_pos rfl]
      exact bind_error hstop
  | third hrun hrc htype hrun' hrc' hend hlength hfits =>
      unfold ptpipReceiveBulkPackets
      rw [bind_ok hrun, if_neg (not_lt.mpr hrc), bind_ok (inspect_ok htype), if_pos rfl]
      unfold ptpipReceiveData
      rw [bind_ok hrun', if_neg (not_lt.mpr hrc'), bind_ok (inspect_ok hend),
        if_neg (not_not.mpr rfl), bind_ok (inspect_ok hlength), bind_ok (intAdd_ok hfits _)]
      exact bind_error hstop

/-- More fuel reaches the same calls. -/
theorem Reached.mono {offset : Int} {start : World σ} (hreached : Reached B fuel w offset start)
    {more : Nat} (hle : fuel ≤ more) : Reached B more w offset start := by
  have hsame : ∀ {o : Int} {v u : World σ} {rc : Int}, ptpipReadPacket B fuel o v = .ok rc u →
      ptpipReadPacket B more o v = .ok rc u := by
    intro o v u rc hrun
    rw [← hrun]
    exact ptpipReadPacket_steady B o v fuel more hle fun t ht => by cases hrun.symm.trans ht
  cases hreached with
  | first => exact .first
  | second hrun hrc htype => exact .second (hsame hrun) hrc htype
  | third hrun hrc htype hrun' hrc' hend hlength hfits =>
      exact .third (hsame hrun) hrc htype (hsame hrun') hrc' hend hlength hfits

theorem receiveResponse_finishes {c : PacketCall B} (hprogresses : c.Progresses) :
    Finishes .spent (fun fuel => ptpipReceiveResponse B fuel c.offset) c.start := by
  refine (c.finishes_iff.mpr hprogresses).bind fun rc v _ => ?_
  by_cases hneg : rc < 0
  · simp only [if_pos hneg]
    exact finishes_pure rc v
  simp only [if_neg hneg]
  refine finishes_inspect (loopless_loadLe _ _ _) fun type _ => ?_
  by_cases hresponse : type ≠ ptpipCommandResponse
  · simp only [if_pos hresponse]
    exact finishes_pure _ v
  · simp only [if_neg hresponse]
    exact finishes_inspect (loopless_getReturnCode _) fun _ _ => finishes_pure _ v

/-- The packets behind a start-data packet. -/
theorem receiveData_finishes {c : PacketCall B} {front : List UInt8} (hbehind : c.Behind front)
    (hprogresses : c.Progresses)
    (hthird : ∀ (next : PacketCall B) (rc : Int) (length fuel : Nat),
      c.run fuel = .ok rc next.start → 0 ≤ rc →
      next.start.r.loadU32 (c.offset + 4) = .ok ptpipDataPacketEnd →
      next.start.r.loadU32 c.offset = .ok length → Fits (c.offset + toInt32 length) →
      next.offset = c.offset + toInt32 length → next.Progresses) :
    Finishes .spent (fun fuel => ptpipReceiveData B fuel c.offset) c.start := by
  refine (c.finishes_iff.mpr hprogresses).bind fun rc v hsettles => ?_
  obtain ⟨enough, hrun⟩ := hsettles
  replace hrun : c.run enough = .ok rc v := hrun enough le_rfl
  by_cases hneg : rc < 0
  · simp only [if_pos hneg]
    exact finishes_pure rc v
  simp only [if_neg hneg]
  refine finishes_inspect (loopless_loadLe _ _ _) fun type htype => ?_
  by_cases hend : type ≠ ptpipDataPacketEnd
  · simp only [if_pos hend]
    exact finishes_pure _ v
  simp only [if_neg hend]
  refine finishes_inspect (loopless_loadLe _ _ _) fun length hlength => ?_
  by_cases hfits : Fits (c.offset + toInt32 length)
  · obtain ⟨next, rfl, hoffset⟩ :=
      PacketCall.next_of_length hbehind hrun (not_lt.mp hneg) htype hlength hfits
    refine Finishes.congr ?_ fun fuel => bind_ok (intAdd_ok hfits next.start)
    have hnext := hthird next rc length enough hrun (not_lt.mp hneg)
      (by rw [htype, not_not.mp hend]) hlength hfits hoffset
    rw [← hoffset]
    exact receiveResponse_finishes hnext
  · exact .of_error (e := .undefined) (t := v)
      ⟨0, fun fuel _ => bind_error (intAdd_overflow hfits v)⟩ (by decide)

/-- A receive ends exactly if all its calls of `ptpip_read_packet` do. -/
theorem receiveBulk_finishes_iff {buffer : Buffer} (hready : w.r.Ready buffer) :
    Finishes .spent (ptpipReceiveBulkPackets B) w ↔
      ∀ fuel, ∀ c : PacketCall B, Reached B fuel w c.offset c.start → c.Progresses := by
  constructor
  · intro hfinishes fuel c hreached
    obtain ⟨enough, hstopped⟩ := (ptpipReceiveBulkPackets_steady B).finishes_iff.mp hfinishes
    have hmore := hreached.mono (le_max_left fuel enough)
    have hsame := ptpipReceiveBulkPackets_steady B w enough (max fuel enough)
      (le_max_right fuel enough) hstopped
    refine c.finishes_iff.mp ((ptpipReadPacket_steady B c.offset).finishes_iff.mpr
      ⟨max fuel enough, fun t ht => hstopped t ?_⟩)
    rw [← hsame]
    exact stop_of_reached hmore ht
  · intro hcalls
    have hfirst : (PacketCall.first B w hready).Progresses := hcalls 0 _ .first
    refine Finishes.bind (x := fun fuel => ptpipReadPacket B fuel 0)
      ((PacketCall.first B w hready).finishes_iff.mpr hfirst) fun rc v hsettles => ?_
    obtain ⟨enough, hrun⟩ := hsettles
    replace hrun : (PacketCall.first B w hready).run enough = .ok rc v := hrun enough le_rfl
    by_cases hneg : rc < 0
    · simp only [if_pos hneg]
      exact finishes_pure rc v
    simp only [if_neg hneg]
    refine finishes_inspect (loopless_loadLe _ _ _) fun type htype => ?_
    by_cases hstart : type = ptpipDataPacketStart
    · simp only [if_pos hstart]
      obtain ⟨next, front, rfl, rfl, hbehind⟩ :=
        PacketCall.next_of_first hready hrun (not_lt.mp hneg)
      have htype' : next.start.r.loadU32 4 = .ok ptpipDataPacketStart := hstart ▸ htype
      refine receiveData_finishes hbehind
        (hcalls enough next (.second hrun (not_lt.mp hneg) htype')) ?_
      intro third rc' length fuel hrun' hrc' hend hlength hfits hthird
      -- both packets are received with enough fuel for each
      have hrun_max := (ptpipReadPacket_steady B 0 w enough (max enough fuel) (le_max_left _ _)
        fun t ht => by cases hrun.symm.trans ht).trans hrun
      have hrun_max' := (ptpipReadPacket_steady B next.offset next.start fuel (max enough fuel)
        (le_max_right _ _) fun t ht => by cases hrun'.symm.trans ht).trans hrun'
      refine hcalls (max enough fuel) third ?_
      rw [hthird]
      exact .third hrun_max (not_lt.mp hneg) htype' hrun_max' hrc' hend hlength hfits
    simp only [if_neg hstart]
    by_cases hresponse : type = ptpipCommandResponse
    · simp only [if_pos hresponse]
      exact finishes_inspect (loopless_getReturnCode _) fun _ _ => finishes_pure _ v
    · simp only [if_neg hresponse]
      exact finishes_pure _ v

end Receive

/-! ## All loops -/

/-- Which calls of the transport functions end, for any backend: sending, if a write
fails or the writes add up; receiving a packet, if a read fails or the reads add up; a
PTP/IP receive, if all its packets do; a receive over USB-style framing in any case. -/
theorem transport_loops_end_iff (B : Backend σ) :
    (∀ c : SendCall B,
      Finishes .spent (fun fuel => ptpSendPacket B fuel c.length) c.start ↔ c.Progresses) ∧
    (∀ c : PacketCall B,
      Finishes .spent (fun fuel => ptpipReadPacket B fuel c.offset) c.start ↔ c.Progresses) ∧
    (∀ (w : World σ) (buffer : Buffer), w.r.Ready buffer →
      (Finishes .spent (ptpipReceiveBulkPackets B) w ↔
        ∀ fuel, ∀ c : PacketCall B, Reached B fuel w c.offset c.start → c.Progresses)) ∧
    (∀ c : BulkCall B, 1 ≤ c.start.r.responseWaitDefault →
      Finishes .spent (ptpusbReadAllPackets B) c.start) :=
  ⟨fun c => c.finishes_iff, fun c => c.finishes_iff,
    fun _ _ hready => receiveBulk_finishes_iff hready, fun c hwait => c.finishes hwait⟩

/-- A response over PTP/IP. -/
def socketResponse : List UInt8 := [14, 0, 0, 0, 7, 0, 0, 0, 1, 0x20, 1, 0, 0, 0]

/-- A device that takes what it is sent, a response that arrives in pieces, and a peer that is
silent from the start. -/
theorem transport_loops_end_silent :
    Finishes .spent (fun fuel => ptpSendPacket scripted fuel 600) (scriptedWorld 512 []) ∧
    Finishes .spent (fun fuel => ptpipReadPacket limited fuel 0)
      (ipWorld (socketResponse, [3, 1, 4, 2])) ∧
    Finishes .spent (ptpipReceiveBulkPackets limited) (ipWorld ([], [])) ∧
    Finishes .spent (ptpusbReadAllPackets scripted)
      (scriptedWorld 512 [some (okResponse.take 5), some [], some (okResponse.drop 5)]) := by
  refine ⟨?_, ?_, ?_, (transport_loops_end_iff scripted).2.2.2 (scriptedCall 512 _) (by decide)⟩
  · let c : SendCall scripted := ⟨scriptedWorld 512 [], ⟨ptpDefaultSize, fun _ => 0⟩, .usb, 600,
      rfl, rfl, by decide, by decide⟩
    have hsent : c.length ≤ c.sent 2 := by decide +kernel
    exact ((transport_loops_end_iff scripted).1 c).mpr ⟨1, .inr hsent⟩
  · let c : PacketCall limited :=
      .first limited (ipWorld (socketResponse, [3, 1, 4, 2])) (ipWorld_ready _)
    have hreceived : (c.received 3).length = c.rest := by decide +kernel
    exact ((transport_loops_end_iff limited).2.1 c).mpr fun _ => ⟨2, .inr (.inl hreceived)⟩
  have hsilent : ∀ fuel rc v, 0 ≤ rc →
      ptpipReadPacket limited fuel 0 (ipWorld ([], [])) ≠ .ok rc v := by
    intro fuel rc v hrc hrun
    obtain ⟨header, hheader, hlength⟩ :=
      (PacketCall.first limited (ipWorld ([], [])) (ipWorld_ready _)).header_of_run hrun hrc
    obtain rfl : [] = header := Option.some.inj hheader
    cases hlength
  refine ((transport_loops_end_iff limited).2.2.1 _ _ (ipWorld_ready _)).mpr fun fuel c hreached => ?_
  generalize hoffset : (c.offset : Int) = offset at hreached
  generalize hstart : c.start = start at hreached
  cases hreached with
  | first =>
      intro husable
      obtain ⟨header, hheader, hlength⟩ := husable.announced
      unfold PacketCall.header at hheader
      rw [hstart] at hheader
      obtain rfl : [] = header := Option.some.inj hheader
      cases hlength
  | second hrun hrc => exact absurd hrun (hsilent _ _ _ hrc)
  | third hrun hrc => exact absurd hrun (hsilent _ _ _ hrc)

/-- A socket that is closed behind the length field of a packet delivers nothing more, and
the loop for the rest of the packet goes on. -/
theorem ptpipReadPacket_stalls :
    (∀ size, limited.readResult .socket size ([], []) = some []) ∧
    ¬Finishes .spent (fun fuel => ptpipReadPacket limited fuel 0) (ipWorld ([8, 0, 0, 0], [])) := by
  refine ⟨fun size => congrArg some List.take_nil, fun hfinishes => ?_⟩
  let c : PacketCall limited := .first limited (ipWorld ([8, 0, 0, 0], [])) (ipWorld_ready _)
  have hlength : c.length = 8 := by decide
  have hneed : c.need % 4294967296 = 12 := by decide
  have hbuffer : c.buffer.size = 1000000 := rfl
  have hoffset : c.offset = 0 := rfl
  have husable : c.Usable := by
    refine ⟨⟨[8, 0, 0, 0], rfl, rfl⟩, by omega, by rw [hlength]; decide, by rw [hoffset]; decide, ?_⟩
    rw [if_pos (by omega)]
    omega
  have hfill : ∀ k, limited.fill c.rest c.device k = ([], ([], [])) := by
    intro k
    induction k with
    | zero => rfl
    | succ k ih =>
        unfold Backend.fill
        rw [ih]
        rfl
  have hreceived : ∀ k, c.received k = [] := fun k => congrArg Prod.fst (hfill k)
  obtain ⟨k, hfailed | hdone | hover⟩ := c.finishes_iff.mp hfinishes husable
  · unfold PacketCall.results at hfailed
    rw [hfill k] at hfailed
    cases hfailed
  · rw [hreceived] at hdone
    unfold PacketCall.rest at hdone
    rw [hlength] at hdone
    cases hdone
  · rw [hreceived] at hover
    exact absurd hover (by decide)

end Libpict
