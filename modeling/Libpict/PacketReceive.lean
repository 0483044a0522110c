import Libpict.Traffic
import Libpict.RuntimeLaws

/-! # Runs of `ptpip_read_packet`

A PTP/IP packet is read in two phases: up to `wait_for_response` reads for the four
bytes of its length field, and a loop that reads the rest. `PacketCall` is a call of
the function on a runtime whose buffer is known; `Opened` describes the world after
the length field, and `At` the world after `k` rounds of the loop. The loop is only
entered when there is `Room` for the packet.
-/

namespace Libpict

open Bytes CInt Exec PtpRuntime

variable {σ : Type}

/-! ## What the socket delivers -/

/-- The last of up to `tries` reads, which stop at the first one that delivers, and the
device after them. -/
def Backend.firstRead (B : Backend σ) (size : Nat) :
    Nat → Option (List UInt8) → σ → Option (List UInt8) × σ
  | 0, last, device => (last, device)
  | tries + 1, _, device =>
      let got := B.readResult .socket size device
      let device := (B.cmdRead .socket size device).2
      if got.getD [] = [] then B.firstRead size tries got device else (got, device)

/-- The bytes of the first `k` of the reads that ask for what is still missing of `total`
bytes, and the device after them. -/
def Backend.fill (B : Backend σ) (total : Nat) (device : σ) : Nat → List UInt8 × σ
  | 0 => ([], device)
  | k + 1 =>
      let (got, device) := B.fill total device k
      (got ++ (B.readResult .socket (total - got.length) device).getD [],
        (B.cmdRead .socket (total - got.length) device).2)

theorem Backend.fill_length_le (B : Backend σ) (total : Nat) (device : σ) (k : Nat) :
    (B.fill total device k).1.length ≤ total := by
  induction k with
  | zero => exact Nat.zero_le _
  | succ k ih =>
      have hread := B.readResult_length_le .socket (total - (B.fill total device k).1.length)
        (B.fill total device k).2
      unfold Backend.fill
      rw [List.length_append]
      omega

/-- The size of a buffer with room for `need` bytes, and a little extra space. -/
def roomFor (size need : Nat) : Nat := if need < size then size else need + 100

theorem lt_roomFor (size need : Nat) : need < roomFor size need := by
  unfold roomFor
  split_ifs <;> omega

theorem roomFor_le (size need : Nat) : roomFor size need ≤ max size (need + 100) := by
  unfold roomFor
  split_ifs <;> omega

/-- A call of `ptpip_read_packet`: the world it starts in, with a buffer that has room
for the length field and whose length the runtime knows up to overflow. -/
structure PacketCall (B : Backend σ) where
  start : World σ
  offset : Nat
  buffer : Buffer
  data : start.r.data = some buffer
  dataLength : start.r.dataLength = toInt32 buffer.size
  size_le : (buffer.size : Int) ≤ intMax + 104
  offset_le : (offset : Int) ≤ intMax
  header_le : offset + 4 ≤ buffer.size

namespace PacketCall

variable {B : Backend σ} (c : PacketCall B)

def run (fuel : Nat) : EStateM.Result Halt (World σ) Int := ptpipReadPacket B fuel c.offset c.start

/-! ## The length field -/

/-- The result of the last read for the length field. -/
def header : Option (List UInt8) :=
  (B.firstRead 4 c.start.r.waitForResponse (some []) c.start.device).1

/-- The device after the reads for the length field. -/
def device : σ := (B.firstRead 4 c.start.r.waitForResponse (some []) c.start.device).2

def length : Nat := leValue (c.header.getD [])

/-- The packet size that the reads for the length field leave. -/
def packet : Int :=
  if c.start.r.waitForResponse = 0 then c.start.r.maxPacketSize else c.start.r.packetSize .socket

/-- The reads for the length field. -/
def HeaderCalls (calls : List Call) : Prop :=
  readBytes calls = c.header.getD [] ∧
    ∀ call ∈ calls, ∃ got, call = .read .socket c.offset 4 c.start.r.dataLength got

/-- The world after the reads for the length field. -/
structure Opened (w : World σ) : Prop where
  runtime : w.r = { c.start.r with
    data := some (c.buffer.store c.offset (c.header.getD []))
    waitForResponse := c.start.r.responseWaitDefault
    maxPacketSize := c.packet }
  device : w.device = c.device
  reallocs : w.reallocs = c.start.reallocs
  log : ∃ calls, w.log = c.start.log ++ calls ∧ c.HeaderCalls calls

theorem readLength_run {w : World σ} {buffer : Buffer} (hdata : w.r.data = some buffer)
    (offset : Nat) (hle : offset + 4 ≤ buffer.size) (tries : Nat) (last : Option (List UInt8))
    (hlast : last.getD [] = []) :
    ∃ calls left,
      readBytes calls = (B.firstRead 4 tries last w.device).1.getD [] ∧
      (∀ call ∈ calls, ∃ got, call = .read .socket offset 4 w.r.dataLength got) ∧
      ptpipReadLength B offset tries (last.map List.length) w =
        .ok ((B.firstRead 4 tries last w.device).1.map List.length)
          { w with
            r := { w.r with
              data := some (buffer.store offset ((B.firstRead 4 tries last w.device).1.getD []))
              waitForResponse := left
              maxPacketSize :=
                if tries = 0 then w.r.maxPacketSize else w.r.packetSize .socket }
            device := (B.firstRead 4 tries last w.device).2
            log := w.log ++ calls } := by
  induction tries generalizing w buffer last with
  | zero =>
      refine ⟨[], w.r.waitForResponse, hlast.symm, by simp, ?_⟩
      simp only [Backend.firstRead, hlast, Buffer.store_nil, List.append_nil, ← hdata]
      rfl
  | succ tries ih =>
      have hread := cmdRead_ok (B := B) hdata .socket offset 4 hle
      rw [Nat.cast_ofNat] at hread
      have hlength : ((B.readResult .socket 4 w.device).map List.length).getD 0 =
          ((B.readResult .socket 4 w.device).getD []).length := by
        cases B.readResult .socket 4 w.device <;> rfl
      have hstep := bind_ok (f := fun rc => do
        updateRuntime fun r => { r with waitForResponse := tries }
        if 0 < rc.getD 0 then pure rc else ptpipReadLength B offset tries rc) hread
      rw [bind_ok (updateRuntime_run _ _), hlength] at hstep
      by_cases hnil : (B.readResult .socket 4 w.device).getD [] = []
      · -- nothing arrived, and nothing was stored
        have hfirst : B.firstRead 4 (tries + 1) last w.device = B.firstRead 4 tries
            (B.readResult .socket 4 w.device) (B.cmdRead .socket 4 w.device).2 := if_pos hnil
        rw [hnil, if_neg (by simp), Buffer.store_nil] at hstep
        rw [hfirst]
        obtain ⟨calls, left, hcalls, hreads, hrun⟩ := ih
          (w := { w with
            r := { w.r.initComm .socket with data := some buffer, waitForResponse := tries }
            device := (B.cmdRead .socket 4 w.device).2
            log := w.log ++ [.read .socket offset 4 w.r.dataLength
              (B.readResult .socket 4 w.device)] }) rfl hle (B.readResult .socket 4 w.device) hnil
        refine ⟨.read .socket offset 4 w.r.dataLength (B.readResult .socket 4 w.device) :: calls,
          left, ?_, ?_, ?_⟩
        · have hcons : readBytes (.read .socket offset 4 w.r.dataLength
              (B.readResult .socket 4 w.device) :: calls) =
              (B.readResult .socket 4 w.device).getD [] ++ readBytes calls := rfl
          rw [hcons, hnil, List.nil_append]
          exact hcalls
        · intro call hcall
          rcases List.mem_cons.mp hcall with rfl | hcall
          · exact ⟨_, rfl⟩
          · exact hreads call hcall
        · rw [show ptpipReadLength B offset (tries + 1) (last.map List.length) w = _ from hstep,
            hrun]
          have hpacket : (if tries = 0 then w.r.packetSize .socket else
              (w.r.initComm .socket).packetSize .socket) = w.r.packetSize .socket := by
            rw [PtpRuntime.packetSize_initComm, ite_self]
          simp only [List.append_assoc, List.singleton_append, if_neg (Nat.succ_ne_zero tries)]
          conv_rhs => rw [← hpacket]
          rfl
      · have hfirst : B.firstRead 4 (tries + 1) last w.device =
            (B.readResult .socket 4 w.device, (B.cmdRead .socket 4 w.device).2) := if_neg hnil
        rw [if_pos (List.length_pos_iff.mpr hnil)] at hstep
        rw [hfirst]
        refine ⟨[.read .socket offset 4 w.r.dataLength (B.readResult .socket 4 w.device)], tries,
          List.append_nil _, ?_, hstep⟩
        intro call hcall
        exact ⟨_, List.mem_singleton.mp hcall⟩

/-- The first phase: without the four bytes, the function returns. -/
theorem header_run : ∃ w, c.Opened w ∧ ∀ fuel, c.run fuel =
    match c.header with
    | none => .ok PtpGeneralError.commandIgnored w
    | some bytes =>
        if bytes.length < 4 then .ok PtpGeneralError.ioErr w
        else ptpipReadRest B fuel c.offset w := by
  obtain ⟨calls, left, hcalls, hreads, hrun⟩ := readLength_run (B := B) c.data c.offset
    c.header_le c.start.r.waitForResponse (some []) rfl
  refine ⟨{ c.start with
    r := { c.start.r with
      data := some (c.buffer.store c.offset (c.header.getD []))
      waitForResponse := c.start.r.responseWaitDefault
      maxPacketSize := c.packet }
    device := c.device
    log := c.start.log ++ calls }, ⟨rfl, rfl, rfl, calls, rfl, hcalls, hreads⟩, fun fuel => ?_⟩
  have hnone : (some 0 : Option Nat) = (some ([] : List UInt8)).map List.length := rfl
  unfold run ptpipReadPacket
  rw [bind_ok (runtime_run _), hnone, bind_ok hrun, bind_ok (updateRuntime_run _ _)]
  unfold header device
  cases (B.firstRead 4 c.start.r.waitForResponse (some []) c.start.device).1 with
  | none => rfl
  | some bytes =>
      dsimp only [Option.map_some]
      by_cases hshort : bytes.length < 4
      · rw [if_pos hshort, if_pos hshort]
        rfl
      · rw [if_neg hshort, if_neg hshort]
        rfl

/-! ## The rest of the packet -/

/-- How many bytes follow the length field. -/
def rest : Nat := c.length - 4

/-- The bytes received in the first `k` rounds. -/
def received (k : Nat) : List UInt8 := (B.fill c.rest c.device k).1

/-- The result of the read of the `k`-th round. -/
def results (k : Nat) : Option (List UInt8) :=
  B.readResult .socket (c.rest - (c.received k).length) (B.fill c.rest c.device k).2

/-- The bytes of the packet after `k` rounds. -/
def bytes (k : Nat) : List UInt8 := c.header.getD [] ++ c.received k

/-- The room that the function asks for: four bytes more than the packet takes. -/
def need : Nat := c.offset + 4 + c.length

/-- The buffer size during the loop. -/
def size : Nat := roomFor c.buffer.size c.need

/-- The length field and the buffer let the loop read the whole packet. -/
structure Room : Prop where
  length_gt : 4 < c.length
  length_le : (c.length : Int) ≤ intMax
  offset_le : (c.offset + 4 : Int) ≤ intMax
  grows : c.buffer.size ≤ c.need →
    (c.buffer.size : Int) ≤ intMax ∧ B.realloc c.start.reallocs (c.need + 100) = true

/-- The value that the `k`-th round returns. -/
def outcome (k : Nat) : Option Int :=
  if c.results k = none then some PtpGeneralError.ioErr
  else if (c.received (k + 1)).length = c.rest then some c.length
  else none

/-- The loop state after `k` rounds that went on. -/
def state (k : Nat) : Int := 4 + (c.received k).length

/-- The backend call of the `k`-th round. -/
def call (k : Nat) : Call :=
  .read .socket (c.offset + (4 + (c.received k).length) : Nat)
    (c.rest - (c.received k).length : Nat) (toInt32 c.size) (c.results k)

def calls (k : Nat) : List Call := (List.range k).map c.call

/-- The world after `k` rounds. -/
structure At (k : Nat) (w : World σ) : Prop where
  runtime : ∃ buffer, buffer.size = c.size ∧
    buffer.slice 0 c.offset = c.buffer.slice 0 c.offset ∧
    buffer.slice c.offset (4 + (c.received k).length) = c.bytes k ∧
    w.r = { c.start.r with
      data := some buffer
      dataLength := toInt32 c.size
      waitForResponse := c.start.r.responseWaitDefault
      maxPacketSize := c.packet }
  device : w.device = (B.fill c.rest c.device k).2
  reallocs : w.reallocs = c.start.reallocs + if c.need < c.buffer.size then 0 else 1
  log : ∃ front, c.HeaderCalls front ∧ w.log = c.start.log ++ (front ++ c.calls k)

theorem received_succ (k : Nat) :
    c.received (k + 1) = c.received k ++ (c.results k).getD [] := rfl

theorem received_length_succ (k : Nat) : (c.received (k + 1)).length =
    (c.received k).length + ((c.results k).getD []).length := by
  rw [received_succ, List.length_append]

theorem received_le (k : Nat) : (c.received k).length ≤ c.rest := B.fill_length_le _ _ k

theorem calls_succ (k : Nat) : c.calls (k + 1) = c.calls k ++ [c.call k] := by
  simp [calls, List.range_succ]

theorem readBytes_calls (k : Nat) : readBytes (c.calls k) = c.received k := by
  induction k with
  | zero => rfl
  | succ k ih =>
      rw [calls_succ, readBytes_append, ih, received_succ]
      simp [readBytes, call]

theorem header_length_le : (c.header.getD []).length ≤ 4 := by
  have hfirst : ∀ tries (last : Option (List UInt8)) device, (last.getD []).length ≤ 4 →
      ((B.firstRead 4 tries last device).1.getD []).length ≤ 4 := by
    intro tries
    induction tries with
    | zero => exact fun _ _ h => h
    | succ tries ih =>
        intro last device hlast
        have hread := B.readResult_length_le .socket 4 device
        unfold Backend.firstRead
        dsimp only
        split_ifs
        · exact ih _ _ hread
        · exact hread
  exact hfirst _ _ _ (Nat.zero_le _)

theorem length_lt : c.length < 4294967296 :=
  (leValue_lt _).trans_le (Nat.pow_le_pow_right (by decide) c.header_length_le)

theorem size_lt : c.buffer.size < 4294967296 := by
  have hle := c.size_le
  unfold intMax at hle
  omega

theorem header_le_size : c.offset + 4 ≤ c.size := by
  have hheader := c.header_le
  unfold size roomFor need
  split_ifs <;> omega

theorem toUInt32_need {offset length : Nat} (hoffset : (offset + 4 : Int) ≤ intMax)
    (hlength : (length : Int) ≤ intMax) :
    toUInt32 ((offset + 4 : Int) + length) = offset + 4 + length := by
  unfold intMax at hoffset hlength
  have hnonneg := toUInt32_of_nonneg (x := (offset + 4 : Int) + length) (by omega) (by omega)
  omega

theorem offset_length_le_size : c.offset + c.length ≤ c.size := by
  have hroom := lt_roomFor c.buffer.size c.need
  unfold need at hroom
  unfold size need
  omega

section Header

variable {header : List UInt8} (hheader : c.header = some header) (hlength : header.length = 4)

include hheader hlength

/-- The reads behind the length field leave the packet size alone. -/
theorem packetSize_eq {r : PtpRuntime} (hkill : r.ioKillSwitch = c.start.r.ioKillSwitch)
    (hpacket : r.maxPacketSize = c.packet) : r.packetSize .socket = c.packet := by
  have hwait : c.start.r.waitForResponse ≠ 0 := by
    intro hzero
    unfold PacketCall.header at hheader
    rw [hzero] at hheader
    cases hheader
    cases hlength
  have hleft : c.packet = c.start.r.packetSize .socket := if_neg hwait
  unfold PtpRuntime.packetSize at hleft ⊢
  rw [hkill, hpacket, hleft]
  split_ifs <;> rfl

theorem opened_loadU32 {w : World σ} (hopened : c.Opened w) :
    w.r.loadU32 c.offset = .ok c.length := by
  have hslice : (c.buffer.store c.offset header).slice c.offset 4 = header := by
    rw [← hlength, Buffer.store_slice_self]
  have hload := loadLe_some (r := w.r) (b := c.buffer.store c.offset header)
    (by rw [hopened.runtime, hheader]; rfl) 4 c.offset c.header_le
  rw [hslice] at hload
  rw [length, hheader]
  exact hload

theorem at_loadU32 {k : Nat} {w : World σ} (hat : c.At k w) :
    w.r.loadU32 c.offset = .ok c.length := by
  obtain ⟨buffer, hsize, _, hslice, hr⟩ := hat.runtime
  have hload := loadLe_some (r := w.r) (b := buffer) (by rw [hr]) 4 c.offset
    (hsize ▸ c.header_le_size)
  have hfront : buffer.slice c.offset 4 = header := by
    rw [Buffer.slice_add, bytes, hheader] at hslice
    exact (List.append_inj hslice (by rw [Buffer.slice_length, Option.getD_some, hlength])).1
  rw [hfront] at hload
  rw [length, hheader]
  exact hload

/-- A packet that is no longer than its length field. -/
theorem bare_run (hbare : c.length = 4) : ∃ w, c.Opened w ∧ ∀ fuel, c.run fuel = .ok 4 w := by
  obtain ⟨w, hopened, hrun⟩ := c.header_run
  refine ⟨w, hopened, fun fuel => ?_⟩
  have hload := c.opened_loadU32 hheader hlength hopened
  rw [hrun, hheader]
  dsimp only
  rw [if_neg (by omega)]
  unfold ptpipReadRest
  rw [bind_ok (inspect_ok hload), hbare, if_pos (by decide)]
  rfl

/-- With room for the packet, the function gets to its loop. -/
theorem rest_run (hroom : c.Room) : ∃ w, c.At 0 w ∧ ∀ fuel, c.run fuel =
    iterate .spent (ptpipReadRestBody B c.offset) fuel 4 w := by
  obtain ⟨hlength_gt, hlength_le, hoffset_le, hgrows⟩ := hroom
  obtain ⟨w, hopened, hrun⟩ := c.header_run
  have hload := c.opened_loadU32 hheader hlength hopened
  obtain ⟨front, hlog, hfront⟩ := hopened.log
  have hr := hopened.runtime
  have hheader_le := c.header_le
  have hsize_le := c.size_le
  unfold intMax at hlength_le hoffset_le hsize_le
  have hneed : toUInt32 ((c.offset + 4 : Int) + c.length) = c.need := by
    unfold toUInt32 need
    omega
  have hlength_field := toUInt32_toInt32 c.size_lt
  have hdata : w.r.data = some (c.buffer.store c.offset header) := by
    rw [hr, hheader]
    rfl
  have hfront_slice : (c.buffer.store c.offset header).slice 0 c.offset =
      c.buffer.slice 0 c.offset :=
    Buffer.store_slice_disjoint _ _ _ _ _ (.inl (by omega))
  have hheader_slice : (c.buffer.store c.offset header).slice c.offset (4 + 0) = c.bytes 0 := by
    rw [Nat.add_zero, ← hlength, Buffer.store_slice_self, bytes, hheader]
    exact (List.append_nil _).symm
  have hgrown : ∃ w', c.At 0 w' ∧
      (if toUInt32 ((c.offset + 4 : Int) + c.length) ≥ toUInt32 w.r.dataLength then
        ptpBufferResize B (toUInt32 ((c.offset + 4 : Int) + c.length)) else pure 0) w =
        .ok 0 w' := by
    rw [hneed, hr]
    dsimp only
    rw [c.dataLength, hlength_field]
    by_cases hgrow : c.need < c.buffer.size
    · have hsize : c.size = c.buffer.size := if_pos hgrow
      rw [if_neg (by omega)]
      refine ⟨w, ⟨⟨c.buffer.store c.offset header, hsize.symm, hfront_slice, hheader_slice, ?_⟩, ?_,
        ?_, front, hfront, ?_⟩, rfl⟩
      · rw [hr, hsize, hheader, ← c.dataLength]
        rfl
      · exact hopened.device
      · rw [hopened.reallocs, if_pos hgrow]
        rfl
      · rw [hlog]
        simp [calls]
    · have hsize : c.size = c.need + 100 := if_neg hgrow
      obtain ⟨hfits, hrealloc⟩ := hgrows (not_lt.mp hgrow)
      unfold intMax at hfits
      have hresize := ptpBufferResize_ok (B := B) (w := w) hdata
        (by rw [hr]; exact c.dataLength.trans (toInt32_of_fits ⟨by omega, by omega⟩))
        (not_lt.mp hgrow) (by unfold need; omega) (by rw [hopened.reallocs]; exact hrealloc)
      rw [if_pos (not_lt.mp hgrow), hresize]
      refine ⟨_, ⟨⟨(c.buffer.store c.offset header).resize (c.need + 100), ?_, hfront_slice,
        hheader_slice, ?_⟩, ?_, ?_, front, hfront, ?_⟩, rfl⟩
      · rw [Buffer.resize_size, hsize]
      · rw [hr, hsize]
        rfl
      · exact hopened.device
      · dsimp only
        rw [hopened.reallocs, if_neg hgrow]
      · dsimp only
        rw [hlog]
        simp [calls]
  obtain ⟨w', hat, hresize⟩ := hgrown
  refine ⟨w', hat, fun fuel => ?_⟩
  rw [hrun, hheader]
  dsimp only
  rw [if_neg (by omega)]
  unfold ptpipReadRest
  rw [bind_ok (inspect_ok hload), if_neg (by unfold toUInt32; omega),
    bind_ok (intAdd_ok ⟨by omega, by omega⟩ _), bind_ok (runtime_run _)]
  rw [bind_ok hresize]
  rfl

end Header

/-! ## The loop -/

/-- The loop returns `rc` in the `n`-th round. -/
structure Stops (n : Nat) (rc : Int) : Prop where
  goesOn : ∀ k < n, c.outcome k = none
  outcome : c.outcome n = some rc

/-- A loop goes on or stops in one of its rounds. -/
theorem goesOn_or_stops (fuel : Nat) :
    (∀ k < fuel, c.outcome k = none) ∨ ∃ n < fuel, ∃ rc, c.Stops n rc := by
  by_cases hall : ∀ k < fuel, c.outcome k = none
  · exact .inl hall
  · obtain ⟨n, hfirst, hleast⟩ := Nat.findX (p := fun k => ¬(k < fuel → c.outcome k = none)) (by
      obtain ⟨k, hk⟩ := not_forall.mp hall
      exact ⟨k, hk⟩)
    obtain ⟨hn, houtcome⟩ := Classical.not_imp.mp hfirst
    obtain ⟨rc, hrc⟩ := Option.ne_none_iff_exists'.mp houtcome
    refine .inr ⟨n, hn, rc, fun k hk => ?_, hrc⟩
    exact Classical.not_not.mp (hleast k hk) (hk.trans hn)

section Loop

variable {header : List UInt8} (hheader : c.header = some header) (hlength : header.length = 4)
  (hroom : c.Room)

include hheader hlength hroom

/-- What one round does: it reads once more, and returns or goes on as its outcome
says. -/
theorem round {k : Nat} {w : World σ} (hat : c.At k w) :
    ∃ w', c.At (k + 1) w' ∧ ptpipReadRestBody B c.offset (c.state k) w =
      .ok (match c.outcome k with
        | none => .inl (c.state (k + 1))
        | some rc => .inr rc) w' := by
  have hlength_gt := hroom.length_gt
  have hlength_le := hroom.length_le
  have hreceived := c.received_le k
  have hreceived' := c.received_le (k + 1)
  have hsucc := c.received_length_succ k
  have hfits := c.offset_length_le_size
  have hrest : c.rest + 4 = c.length := by unfold rest; omega
  unfold intMax at hlength_le
  obtain ⟨buffer, hsize, hfront, hslice, hr⟩ := hat.runtime
  obtain ⟨front, hcalls, hlog⟩ := hat.log
  have hdata : w.r.data = some buffer := by rw [hr]
  have hload := c.at_loadU32 hheader hlength hat
  have hask : toInt32 (toUInt32 (c.length - c.state k)) =
      (c.rest - (c.received k).length : Nat) := by
    unfold state toInt32 toUInt32
    omega
  have hoffset : (c.offset : Int) + c.state k = (c.offset + (4 + (c.received k).length) : Nat) := by
    unfold state
    push_cast
    rfl
  have hresult : B.readResult .socket (c.rest - (c.received k).length) w.device = c.results k := by
    rw [hat.device]
    rfl
  obtain ⟨w', hread, hat'⟩ : ∃ w', cmdRead B .socket (c.offset + (4 + (c.received k).length) : Nat)
      (c.rest - (c.received k).length : Nat) w = .ok ((c.results k).map List.length) w' ∧
      c.At (k + 1) w' := by
    have hread := cmdRead_ok (B := B) hdata .socket (c.offset + (4 + (c.received k).length))
      (c.rest - (c.received k).length) (by omega)
    rw [hresult] at hread
    refine ⟨_, hread, ⟨buffer.store (c.offset + (4 + (c.received k).length))
      ((c.results k).getD []), ?_, ?_, ?_, ?_⟩, ?_, hat.reallocs, front, hcalls, ?_⟩
    · rw [Buffer.store_size, hsize]
    · rw [Buffer.store_slice_disjoint _ _ _ _ _ (.inl (by omega)), hfront]
    · have hextend := buffer.store_slice_extend c.offset (4 + (c.received k).length)
        ((c.results k).getD [])
      rw [hsucc, ← Nat.add_assoc 4, hextend, hslice, bytes, bytes, received_succ,
        List.append_assoc]
    · have hpacket : w.r.packetSize .socket = c.packet :=
        c.packetSize_eq hheader hlength (by rw [hr]) (by rw [hr])
      unfold PtpRuntime.initComm
      rw [hpacket]
      simp only [hr]
    · simp only [hat.device]
      rfl
    · simp only [hlog, calls_succ, List.append_assoc, call, hr]
  refine ⟨w', hat', ?_⟩
  have hload' := c.at_loadU32 hheader hlength hat'
  unfold ptpipReadRestBody
  rw [bind_ok (inspect_ok hload), hask, hoffset, bind_ok hread, outcome]
  cases hgot : c.results k with
  | none => rfl
  | some got =>
      rw [hgot, Option.getD_some] at hsucc
      have hstate : c.state k + (got.length : Int) = c.state (k + 1) := by
        unfold state
        omega
      have hfits' : Fits (c.state k + (got.length : Int)) := by
        rw [hstate]
        unfold state
        exact ⟨by omega, by omega⟩
      have hsome : ¬(some got : Option (List UInt8)) = none := Option.some_ne_none got
      dsimp only [Option.map_some]
      rw [bind_ok (intAdd_ok hfits' _), hstate, bind_ok (inspect_ok hload'), if_neg hsome]
      by_cases hdone : (c.received (k + 1)).length = c.rest
      · have hread : c.state (k + 1) = c.length := by
          unfold state
          omega
        rw [if_pos hdone, hread, if_pos (by unfold toUInt32; omega)]
        rfl
      · have hmissing : toUInt32 (c.length - c.state (k + 1)) ≠ 0 := by
          unfold state toUInt32
          omega
        rw [if_neg hdone, if_neg hmissing]
        rfl

/-- Rounds that go on lead to the world described by `At`. -/
theorem run_reaches {n : Nat} (hgoesOn : ∀ k < n, c.outcome k = none) :
    ∃ w, c.At n w ∧ ∀ fuel, c.run (n + fuel) =
      iterate .spent (ptpipReadRestBody B c.offset) fuel (c.state n) w := by
  have hstep : ∀ k i w, i = c.state k ∧ c.At k w → c.outcome k = none →
      ∃ j w', ptpipReadRestBody B c.offset i w = .ok (.inl j) w' ∧
        j = c.state (k + 1) ∧ c.At (k + 1) w' := by
    rintro k i w ⟨rfl, hat⟩ houtcome
    obtain ⟨w', hat', hrun⟩ := c.round hheader hlength hroom hat
    rw [houtcome] at hrun
    exact ⟨_, w', hrun, rfl, hat'⟩
  obtain ⟨w₀, hat₀, hrun₀⟩ := c.rest_run hheader hlength hroom
  obtain ⟨j, w, ⟨rfl, hat⟩, hrest⟩ := iterate_reaches Halt.spent
    (fun k i w => i = c.state k ∧ c.At k w) (fun k => c.outcome k = none) hstep
    (i := 4) ⟨rfl, hat₀⟩ n hgoesOn
  exact ⟨w, hat, fun fuel => (hrun₀ _).trans (hrest fuel)⟩

theorem run_stops {n : Nat} {rc : Int} (hstops : c.Stops n rc) :
    ∃ w, c.At (n + 1) w ∧ ∀ fuel > n, c.run fuel = .ok rc w := by
  obtain ⟨w, hat, hrest⟩ := c.run_reaches hheader hlength hroom hstops.goesOn
  obtain ⟨w', hat', hround⟩ := c.round hheader hlength hroom hat
  rw [hstops.outcome] at hround
  refine ⟨w', hat', fun fuel hfuel => ?_⟩
  obtain ⟨extra, rfl⟩ := Nat.exists_eq_add_of_lt hfuel
  rw [Nat.add_assoc, hrest, iterate_done hround]

theorem run_spent {n : Nat} (hgoesOn : ∀ k < n, c.outcome k = none) :
    ∃ w, c.At n w ∧ c.run n = .error .spent w := by
  obtain ⟨w, hat, hrest⟩ := c.run_reaches hheader hlength hroom hgoesOn
  exact ⟨w, hat, hrest 0⟩

end Loop

/-! ## What a run that succeeds has received -/

/-- A read changes the buffer from its offset on, if anything. -/
theorem cmdRead_stores {w : World σ} {buffer : Buffer} (hdata : w.r.data = some buffer)
    (offset size : Int) : Ends (cmdRead B .socket offset size) w
      (fun _ w' => ∃ bytes, w'.r.data = some (buffer.store offset.toNat bytes)) (fun _ _ => True) := by
  refine Ends.of_match ?_
  unfold cmdRead
  cases w.r.load offset size with
  | error reason => trivial
  | ok _ =>
      dsimp only
      obtain ⟨got, device⟩ := B.cmdRead .socket size.toNat w.device
      cases got with
      | none => exact ⟨[], by rw [Buffer.store_nil]; exact hdata⟩
      | some bytes => exact ⟨bytes, by rw [hdata]; rfl⟩

/-- The length field is in the buffer, before what has been read of the rest. -/
def KeepsLength (offset length : Nat) (read : Int) (w : World σ) : Prop :=
  4 ≤ read ∧ ∃ buffer, w.r.data = some buffer ∧ offset + 4 ≤ buffer.size ∧
    leValue (buffer.slice offset 4) = length

/-- The loop leaves the length field alone, and returns nothing but the length or a
failure. -/
theorem loop_returns {w : World σ} {buffer : Buffer} (hdata : w.r.data = some buffer)
    {offset length : Nat} (hle : offset + 4 ≤ buffer.size)
    (hfield : leValue (buffer.slice offset 4) = length) (fuel : Nat) :
    Ends (iterate .spent (ptpipReadRestBody B offset) fuel 4) w
      (fun rc _ => 0 ≤ rc → rc = length ∧ 4 ≤ rc ∧ rc ≤ intMax) (fun _ _ => True) := by
  have hlt : length < 4294967296 := by
    rw [← hfield]
    exact (leValue_lt _).trans_le
      (Nat.pow_le_pow_right (by decide) (Buffer.slice_length _ _ _).le)
  have hstep : ∀ (_ : Nat) (read : Int) (v : World σ), KeepsLength offset length read v →
      Ends (ptpipReadRestBody B offset read) v
        (fun r v' => r.elim (fun next => True ∧ KeepsLength offset length next v')
          (fun rc : Int => 0 ≤ rc → rc = length ∧ 4 ≤ rc ∧ rc ≤ intMax)) (fun _ _ => True) := by
    rintro _ read v ⟨hread, buffer, hdata, hle, hfield⟩
    have hload := loadLe_some hdata 4 offset hle
    rw [hfield] at hload
    refine Ends.congr (Ends.bind ?_) (bind_ok (inspect_ok hload))
    refine (cmdRead_stores hdata _ _).mono (fun rc v' hstored => ?_) (fun _ _ h => h)
    obtain ⟨bytes, hdata'⟩ := hstored
    cases rc with
    | none => exact .pure fun hneg => absurd hneg (by decide)
    | some count =>
        have hfield' : leValue ((buffer.store (offset + read : Int).toNat bytes).slice offset 4) =
            length := by
          rw [Buffer.store_slice_disjoint _ _ _ _ _ (.inl (by omega)), hfield]
        have hload' := loadLe_some hdata' 4 offset hle
        rw [hfield'] at hload'
        by_cases hfits : Fits (read + count)
        · refine Ends.congr ?_ ((bind_ok (intAdd_ok hfits v')).trans
            (bind_ok (inspect_ok hload')))
          unfold Fits at hfits
          by_cases hdone : toUInt32 (length - (read + count)) = 0
          · rw [if_pos hdone]
            refine .pure fun _ => ?_
            unfold toUInt32 at hdone
            unfold intMax
            omega
          · rw [if_neg hdone]
            exact .pure ⟨trivial, by omega, _, hdata', hle, hfield'⟩
        · exact .error (bind_error (intAdd_overflow hfits v')) trivial
  have hloop : Ends (iterate .spent (ptpipReadRestBody B offset) fuel 4) w
      (fun rc _ => ∃ k < fuel, (∀ j < k, True) ∧ (0 ≤ rc → rc = length ∧ 4 ≤ rc ∧ rc ≤ intMax))
      (fun _ _ => True) :=
    Ends.iterate (fun _ => KeepsLength offset length) (fun _ => True)
      (fun _ (rc : Int) _ => 0 ≤ rc → rc = length ∧ 4 ≤ rc ∧ rc ≤ intMax) hstep
      ⟨le_rfl, buffer, hdata, hle, hfield⟩ (fun _ _ _ => trivial)
  refine hloop.mono (fun rc _ h => ?_) (fun _ _ h => h)
  obtain ⟨_, _, _, hreturns⟩ := h
  exact hreturns

/-- A buffer length that overflowed is taken for more than any 32-bit size. -/
theorem fits_of_grow {need : Nat} (hneed : need < 4294967296)
    (hdown : toSize (toInt32 c.buffer.size) ≤ need) : (c.buffer.size : Int) ≤ intMax := by
  have hle := c.size_le
  by_contra hover
  unfold intMax at hle hover
  have hnegative : toInt32 c.buffer.size = c.buffer.size - 4294967296 := by
    unfold toInt32
    omega
  rw [hnegative] at hdown
  unfold toSize at hdown
  omega

/-- A packet that is longer than its length field is only received with room for it. -/
theorem room_of_run {header : List UInt8} (hheader : c.header = some header)
    (hlength : header.length = 4) (hlonger : c.length ≠ 4) {fuel : Nat} {rc : Int} {w' : World σ}
    (hrun : c.run fuel = .ok rc w') (hrc : 0 ≤ rc) : c.Room := by
  obtain ⟨w, hopened, hopen⟩ := c.header_run
  have hload := c.opened_loadU32 hheader hlength hopened
  have hlt := c.length_lt
  have hsize_le := c.size_le
  have hdata : w.r.data = some (c.buffer.store c.offset header) := by
    rw [hopened.runtime, hheader]
    rfl
  have hfield : leValue ((c.buffer.store c.offset header).slice c.offset 4) = c.length := by
    rw [← hlength, Buffer.store_slice_self, length, hheader]
    rfl
  have hfield_length : w.r.dataLength = toInt32 c.buffer.size := by
    rw [hopened.runtime]
    exact c.dataLength
  rw [hopen, hheader] at hrun
  dsimp only at hrun
  rw [if_neg (by omega)] at hrun
  unfold ptpipReadRest at hrun
  rw [bind_ok (inspect_ok hload), if_neg (by unfold toUInt32; omega)] at hrun
  by_cases hoffset : Fits (c.offset + 4)
  · rw [bind_ok (intAdd_ok hoffset w), bind_ok (runtime_run w), hfield_length] at hrun
    obtain ⟨grown, v, hgrow, hloop⟩ := bind_eq_ok.mp hrun
    have hheader_le := c.header_le
    have hsize := toUInt32_toInt32 c.size_lt
    have hneed_lt : toUInt32 ((c.offset + 4 : Int) + c.length) < 4294967296 := by
      unfold toUInt32
      omega
    have hneed_eq : (c.length : Int) ≤ intMax →
        toUInt32 ((c.offset + 4 : Int) + c.length) = c.need := toUInt32_need hoffset.2
    rw [hsize] at hgrow
    by_cases hneed : toUInt32 ((c.offset + 4 : Int) + c.length) ≥ c.buffer.size
    · rw [if_pos hneed] at hgrow
      obtain ⟨hdown, hcase⟩ := ptpBufferResize_eq_ok hgrow
      rw [hfield_length] at hdown
      have hfits : (c.buffer.size : Int) ≤ intMax := c.fits_of_grow hneed_lt hdown
      have htarget : toSize (toUInt32 ((c.offset + 4 : Int) + c.length) + 100) =
          toUInt32 ((c.offset + 4 : Int) + c.length) + 100 := by
        have hnonneg := toSize_of_nonneg
          (x := (toUInt32 ((c.offset + 4 : Int) + c.length) : Int) + 100) (by omega) (by omega)
        omega
      rw [htarget] at hcase
      rcases hcase with rfl | ⟨rfl, hrealloc, hdata'⟩
      · rw [if_pos (by decide)] at hloop
        obtain ⟨rfl, _⟩ := EStateM.Result.ok.inj hloop
        exact absurd hrc (by decide)
      · rw [if_neg (by decide)] at hloop
        rw [hdata, Option.getD_some] at hdata'
        obtain ⟨rfl, hge, hle⟩ := (loop_returns hdata' (hheader_le.trans (by
          rw [Buffer.resize_size]
          omega)) hfield fuel).of_ok hloop hrc
        rw [hneed_eq hle, hopened.reallocs] at hrealloc
        exact ⟨by omega, hle, hoffset.2, fun _ => ⟨hfits, hrealloc⟩⟩
    · rw [if_neg hneed] at hgrow
      obtain ⟨rfl, rfl⟩ := EStateM.Result.ok.inj hgrow
      rw [if_neg (by decide)] at hloop
      obtain ⟨rfl, hge, hle⟩ := (loop_returns hdata hheader_le hfield fuel).of_ok hloop hrc
      refine ⟨by omega, hle, hoffset.2, fun hgrows => ?_⟩
      rw [hneed_eq hle] at hneed
      exact absurd hgrows hneed
  · rw [bind_error (intAdd_overflow hoffset w)] at hrun
    cases hrun

/-- The packet `bytes` has been received: the buffer holds it at the offset of the call,
behind what it held before, and has room for a length field after it. -/
structure Arrived (bytes : List UInt8) (w : World σ) : Prop where
  length_ge : 4 ≤ bytes.length
  length_le : (bytes.length : Int) ≤ intMax
  length_eq : bytes.length = c.length
  field : field 4 0 bytes = bytes.length
  runtime : ∃ buffer, buffer.slice 0 c.offset = c.buffer.slice 0 c.offset ∧
    buffer.slice c.offset bytes.length = bytes ∧
    (bytes.length = 4 ∧ buffer.size = c.buffer.size ∨
      4 < bytes.length ∧ buffer.size = roomFor c.buffer.size (c.offset + 4 + bytes.length)) ∧
    w.r = { c.start.r with
      data := some buffer
      dataLength := toInt32 buffer.size
      waitForResponse := c.start.r.responseWaitDefault
      maxPacketSize := c.packet }
  log : ∃ calls, w.log = c.start.log ++ calls ∧ readBytes calls = bytes

theorem opened_arrived {header : List UInt8} (hheader : c.header = some header)
    (hlength : header.length = 4) (hbare : c.length = 4) {w : World σ} (hopened : c.Opened w) :
    c.Arrived header w := by
  obtain ⟨calls, hlog, hcalls, _⟩ := hopened.log
  rw [hheader] at hcalls
  have hr := hopened.runtime
  rw [hheader] at hr
  refine ⟨hlength.ge, by rw [hlength]; decide, by rw [hlength, hbare], ?_,
    ⟨c.buffer.store c.offset header, ?_, Buffer.store_slice_self _ _ _,
    .inl ⟨hlength, rfl⟩, ?_⟩, calls, hlog, hcalls⟩
  · rw [length, hheader] at hbare
    unfold field
    rw [List.drop_zero, List.take_of_length_le hlength.le, hlength]
    exact hbare
  · exact Buffer.store_slice_disjoint _ _ _ _ _ (.inl (by omega))
  · rw [hr, Buffer.store_size, ← c.dataLength]
    rfl

theorem at_arrived {header : List UInt8} (hheader : c.header = some header)
    (hlength : header.length = 4) (hroom : c.Room) {k : Nat} {w : World σ} (hat : c.At k w)
    (hdone : (c.received k).length = c.rest) : c.Arrived (c.bytes k) w := by
  obtain ⟨buffer, hsize, hfront, hslice, hr⟩ := hat.runtime
  obtain ⟨front, ⟨hcalls, _⟩, hlog⟩ := hat.log
  have hlength_gt := hroom.length_gt
  have hbytes : (c.bytes k).length = 4 + (c.received k).length := by
    rw [bytes, hheader, Option.getD_some, List.length_append, hlength]
  have htotal : (c.bytes k).length = c.length := by
    rw [hbytes, hdone]
    unfold rest
    omega
  refine ⟨by omega, by rw [htotal]; exact hroom.length_le, htotal, ?_, ⟨buffer, hfront,
    by rw [hbytes]; exact hslice, .inr ⟨by omega, ?_⟩, ?_⟩,
    front ++ c.calls k, hlog, ?_⟩
  · rw [htotal, bytes, hheader, Option.getD_some, field_append 4 0 _ _ (by omega)]
    unfold field length
    rw [List.drop_zero, List.take_of_length_le hlength.le, hheader]
    rfl
  · rw [hsize, htotal]
    rfl
  · rw [hr, hsize]
  · rw [readBytes_append, hcalls, c.readBytes_calls]
    rfl

/-- A run that succeeds has received the four bytes of the length field at once. -/
theorem header_of_run {fuel : Nat} {rc : Int} {w : World σ} (hrun : c.run fuel = .ok rc w)
    (hrc : 0 ≤ rc) : ∃ header, c.header = some header ∧ header.length = 4 := by
  obtain ⟨v, _, hopen⟩ := c.header_run
  cases hheader : c.header with
  | none =>
      rw [hopen, hheader] at hrun
      obtain ⟨rfl, _⟩ := EStateM.Result.ok.inj hrun
      exact absurd hrc (by decide)
  | some header =>
      by_cases hshort : header.length < 4
      · rw [hopen, hheader] at hrun
        dsimp only at hrun
        rw [if_pos hshort] at hrun
        obtain ⟨rfl, _⟩ := EStateM.Result.ok.inj hrun
        exact absurd hrc (by decide)
      · have hle := c.header_length_le
        rw [hheader, Option.getD_some] at hle
        exact ⟨header, rfl, by omega⟩

/-- A run that succeeds has received the packet whose length it returns. -/
theorem arrived_of_run {fuel : Nat} {rc : Int} {w : World σ} (hrun : c.run fuel = .ok rc w)
    (hrc : 0 ≤ rc) : ∃ bytes, c.Arrived bytes w ∧ rc = bytes.length := by
  obtain ⟨header, hheader, hlength⟩ := c.header_of_run hrun hrc
  by_cases hbare : c.length = 4
  · obtain ⟨u, hopened, hreturns⟩ := c.bare_run hheader hlength hbare
    rw [hreturns] at hrun
    obtain ⟨rfl, rfl⟩ := EStateM.Result.ok.inj hrun
    exact ⟨header, c.opened_arrived hheader hlength hbare hopened, by rw [hlength]; rfl⟩
  · have hroom := c.room_of_run hheader hlength hbare hrun hrc
    rcases c.goesOn_or_stops fuel with hgoesOn | ⟨n, hn, rc', hstops⟩
    · obtain ⟨u, _, hspent⟩ := c.run_spent hheader hlength hroom hgoesOn
      rw [hspent] at hrun
      cases hrun
    · obtain ⟨u, hat, hreturns⟩ := c.run_stops hheader hlength hroom hstops
      rw [hreturns fuel hn] at hrun
      obtain ⟨rfl, rfl⟩ := EStateM.Result.ok.inj hrun
      have houtcome := hstops.outcome
      unfold outcome at houtcome
      split_ifs at houtcome with hfailed hdone
      · obtain rfl := Option.some.inj houtcome
        exact absurd hrc (by decide)
      · refine ⟨_, c.at_arrived hheader hlength hroom hat hdone, ?_⟩
        obtain rfl := Option.some.inj houtcome
        rw [bytes, List.length_append, hheader, Option.getD_some, hlength, hdone]
        have hlength_gt := hroom.length_gt
        unfold rest
        omega

end PacketCall

end Libpict
