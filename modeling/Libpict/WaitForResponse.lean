import Libpict.BulkReassembly
import Libpict.PacketReassembly

/-! # Waiting for a response

The device may let some reads pass before it starts to deliver a reply. The USB-style loop
takes the number of attempts from `response_wait_default`, and leaves what is left of them
behind; `ptpip_read_packet` takes it from `wait_for_response` and resets it.
-/

namespace Libpict

open Bytes CInt Exec PtpRuntime

variable {σ : Type} {B : Backend σ}

/-- The reply is received, and the next operation waits as long as it does by default. -/
def Honoured (B : Backend σ) (w : World σ) : Prop :=
  ∃ w', (∃ enough, ∀ fuel ≥ enough, ptpReceiveAllPackets B fuel w = .ok 0 w') ∧
    w'.r.waitForResponse = w'.r.responseWaitDefault

/-! ## USB-style framing -/

namespace BulkCall

/-- The device delivers the reply behind some reads that fail or bring nothing. -/
structure Starts (c : BulkCall B) (idle : Nat) (reply : UsbReply) (chunks : List (List UInt8)) :
    Prop where
  silent : ∀ k < idle, ReadStream.chunk c.results k = []
  fits : (reply.bytes.length : Int) ≤ intMax
  whole : chunks.flatten = reply.bytes
  nonempty : ∀ chunk ∈ chunks, chunk ≠ []
  results : ∀ k (hk : k < chunks.length), c.results (idle + k) = some chunks[k]

variable {c : BulkCall B} {idle : Nat} {reply : UsbReply} {chunks : List (List UInt8)}
  (hstarts : c.Starts idle reply chunks)

include hstarts

theorem Starts.outcome_idle {k : Nat} (hk : k < idle) : c.outcome k =
    if k < c.wait ∨ c.wait = 0 ∧ c.results k ≠ none then none
    else if c.results k = none then some PtpGeneralError.ioErr
    else some PtpGeneralError.commandIgnored := by
  have hchunk := hstarts.silent k hk
  obtain ⟨_, hquiet⟩ := ReadStream.idle_reads (k := k) fun j hj => hstarts.silent j (by omega)
  obtain ⟨hreceived, _⟩ := ReadStream.idle_reads (k := k + 1) fun j hj => hstarts.silent j (by omega)
  have hquiet' : c.quiet k = k := hquiet
  have hverdict : verdictOf (c.received (k + 1)) = .more := by
    rw [received, hreceived]
    rfl
  rw [outcome, hverdict, hquiet']
  by_cases hlt : k < c.wait
  · rw [if_pos ⟨hchunk, hlt⟩, if_pos (.inl hlt)]
  · rw [if_neg (fun h => hlt h.2)]
    by_cases hfailed : c.results k = none
    · rw [if_pos hfailed, if_neg (by simp [hlt, hfailed]), if_pos hfailed]
    · rw [if_neg hfailed]
      by_cases hzero : c.wait = 0
      · rw [if_neg (fun h => h.1 hzero), if_pos (.inr ⟨hzero, hfailed⟩)]
      · rw [if_pos ⟨hzero, by omega⟩, if_neg (by simp [hlt, hzero]), if_neg hfailed]

/-- While the reply is delivered, the reads that passed are all that was quiet. -/
theorem Starts.delivered {k : Nat} (hk : k ≤ chunks.length) :
    c.received (idle + k) = (chunks.take k).flatten ∧ c.quiet (idle + k) = idle := by
  obtain ⟨hreceived, hquiet⟩ := ReadStream.idle_reads hstarts.silent
  rw [received, quiet, ReadStream.received_add, ReadStream.quiet_add, hreceived, hquiet,
    ReadStream.received_of_chunks hstarts.results hk,
    ReadStream.quiet_of_chunks hstarts.results hstarts.nonempty hk]
  exact ⟨rfl, rfl⟩

theorem Starts.outcome_delivering {k : Nat} (hk : k < chunks.length) : c.outcome (idle + k) =
    if c.wait ≠ 0 ∧ c.wait ≤ idle then some PtpGeneralError.commandIgnored
    else if k + 1 = chunks.length then some 0 else none := by
  have hresult := hstarts.results k hk
  have hchunk : ReadStream.chunk c.results (idle + k) ≠ [] := by
    rw [ReadStream.chunk, hresult, Option.getD_some]
    exact hstarts.nonempty _ (List.getElem_mem hk)
  have hread : c.results (idle + k) ≠ none := by
    rw [hresult]
    exact Option.some_ne_none _
  obtain ⟨_, hquiet⟩ := hstarts.delivered hk.le
  obtain ⟨hreceived, _⟩ := hstarts.delivered (k := k + 1) hk
  rw [outcome, if_neg (fun h => hchunk h.1), if_neg hread, hquiet]
  by_cases hignored : c.wait ≠ 0 ∧ c.wait ≤ idle
  · rw [if_pos hignored, if_pos hignored]
  rw [if_neg hignored, if_neg hignored, Nat.add_assoc, hreceived]
  by_cases hlast : k + 1 = chunks.length
  · rw [if_pos hlast, hlast, List.take_length, hstarts.whole, reply.verdictOf_bytes hstarts.fits]
  · rw [if_neg hlast]
    have hsplit : (chunks.take (k + 1)).flatten ++ (chunks.drop (k + 1)).flatten = reply.bytes := by
      rw [← List.flatten_append, List.take_append_drop, hstarts.whole]
    have hrest : (chunks.drop (k + 1)).flatten ≠ [] := by
      rw [List.drop_eq_getElem_cons (by omega), List.flatten_cons]
      intro hnil
      exact hstarts.nonempty _ (List.getElem_mem _) (List.append_eq_nil_iff.mp hnil).1
    rw [reply.verdictOf_prefix hstarts.fits hsplit hrest]

theorem Starts.length_pos : 0 < chunks.length := by
  rw [List.length_pos_iff]
  rintro rfl
  have hwhole := congrArg List.length hstarts.whole
  rw [reply.bytes_length] at hwhole
  simp at hwhole
  omega

/-- The attempts are there: none is needed, or an empty read does not use one. -/
def Unhurried (c : BulkCall B) (idle : Nat) : Prop :=
  idle = 0 ∨ c.wait = 0 ∧ ∀ k < idle, c.results k ≠ none

omit hstarts in
theorem receive_eq (c : BulkCall B) (fuel : Nat) :
    ptpReceiveAllPackets B fuel c.start = c.run fuel := by
  have hendpoint := c.endpoint_eq
  unfold ptpReceiveAllPackets run
  rw [bind_ok (runtime_run c.start)]
  cases hconn : c.start.r.connectionType with
  | usb => rfl
  | ipUsb => rfl
  | ip =>
      rw [hconn] at hendpoint
      cases hendpoint
  | ble =>
      rw [hconn] at hendpoint
      cases hendpoint

/-- The round that stops with 0 is the one that reads the last chunk. -/
theorem Starts.stops_iff {n : Nat} : c.Stops n 0 ↔ n + 1 = idle + chunks.length ∧
    (∀ k ≤ n, c.FitsAt k ∧ c.Allocates k) ∧
    (∀ k < idle, k < c.wait ∨ c.wait = 0 ∧ c.results k ≠ none) ∧
    ¬(c.wait ≠ 0 ∧ c.wait ≤ idle) := by
  have hpos := hstarts.length_pos
  constructor
  · intro hstops
    have hgoes : ∀ k < idle, k ≤ n → k < c.wait ∨ c.wait = 0 ∧ c.results k ≠ none := by
      intro k hk hle
      by_contra hcond
      have houtcome := hstarts.outcome_idle hk
      rw [if_neg hcond] at houtcome
      rcases Nat.lt_or_eq_of_le hle with hlt | rfl
      · rw [(hstops.goesOn k hlt).2.2] at houtcome
        split_ifs at houtcome
      · rw [hstops.outcome] at houtcome
        split_ifs at houtcome <;> exact absurd houtcome (by decide)
    have hidle : idle ≤ n := by
      by_contra hlt
      have houtcome := hstarts.outcome_idle (k := n) (by omega)
      rw [if_pos (hgoes n (by omega) le_rfl), hstops.outcome] at houtcome
      cases houtcome
    obtain ⟨i, rfl⟩ := Nat.exists_eq_add_of_le hidle
    have hi : i < chunks.length := by
      by_contra hge
      have houtcome := hstarts.outcome_delivering (k := chunks.length - 1) (by omega)
      rw [(hstops.goesOn _ (by omega)).2.2] at houtcome
      split_ifs at houtcome with _ hlast
      exact hlast (by omega)
    have houtcome := hstarts.outcome_delivering hi
    rw [hstops.outcome] at houtcome
    by_cases hignored : c.wait ≠ 0 ∧ c.wait ≤ idle
    · rw [if_pos hignored] at houtcome
      exact absurd houtcome (by decide)
    · rw [if_neg hignored] at houtcome
      have hlast : i + 1 = chunks.length := by
        by_contra hne
        rw [if_neg hne] at houtcome
        cases houtcome
      refine ⟨by omega, ?_, fun k hk => hgoes k hk (by omega), hignored⟩
      intro k hk
      rcases Nat.lt_or_eq_of_le hk with hlt | rfl
      · exact ⟨(hstops.goesOn k hlt).1, (hstops.goesOn k hlt).2.1⟩
      · exact ⟨hstops.fits, hstops.allocates⟩
  · rintro ⟨hn, hroom, hgoes, hignored⟩
    have houtcome : ∀ k < n, c.outcome k = none := by
      intro k hk
      by_cases hidle : k < idle
      · rw [hstarts.outcome_idle hidle, if_pos (hgoes k hidle)]
      · obtain ⟨i, rfl⟩ := Nat.exists_eq_add_of_le (not_lt.mp hidle)
        rw [hstarts.outcome_delivering (by omega), if_neg hignored, if_neg (by omega)]
    refine ⟨fun k hk => ⟨(hroom k hk.le).1, (hroom k hk.le).2, houtcome k hk⟩,
      (hroom n le_rfl).1, (hroom n le_rfl).2, ?_⟩
    obtain ⟨i, rfl⟩ := Nat.exists_eq_add_of_le (show idle ≤ n by omega)
    rw [hstarts.outcome_delivering (by omega), if_neg hignored, if_pos (by omega)]

/-- The USB-style loop only honours the wait that it does not need. -/
theorem Starts.honoured_iff : Honoured B c.start ↔
    c.Unhurried idle ∧ ∀ k < idle + chunks.length, c.FitsAt k ∧ c.Allocates k := by
  have hpos := hstarts.length_pos
  obtain ⟨_, hquiet⟩ := hstarts.delivered le_rfl
  have hleft : ∀ {n w}, n + 1 = idle + chunks.length → c.At (n + 1) w →
      (w.r.waitForResponse = w.r.responseWaitDefault ↔ c.wait - idle = c.wait) := by
    intro n w hn hat
    obtain ⟨buffer, _, _, hr⟩ := hat.runtime
    rw [hn, hquiet] at hr
    rw [hr]
    exact Iff.rfl
  constructor
  · rintro ⟨w', ⟨enough, hrun⟩, hwait⟩
    have hreturns := hrun enough le_rfl
    rw [c.receive_eq] at hreturns
    rcases c.ends_of_run hreturns with ⟨n, _, hstops, hat⟩ | ⟨hmemory, _⟩
    · obtain ⟨hn, hroom, hgoes, hignored⟩ := hstarts.stops_iff.mp hstops
      have hsame := (hleft hn hat).mp hwait
      refine ⟨?_, fun k hk => hroom k (by omega)⟩
      by_cases hzero : c.wait = 0
      · refine .inr ⟨hzero, fun k hk => ?_⟩
        rcases hgoes k hk with hlt | ⟨_, hread⟩
        · omega
        · exact hread
      · exact .inl (by omega)
    · exact absurd hmemory (by decide)
  · rintro ⟨hunhurried, hroom⟩
    have hignored : ¬(c.wait ≠ 0 ∧ c.wait ≤ idle) := by
      rcases hunhurried with rfl | ⟨hzero, _⟩ <;> omega
    have hgoes : ∀ k < idle, k < c.wait ∨ c.wait = 0 ∧ c.results k ≠ none := by
      intro k hk
      rcases hunhurried with rfl | ⟨hzero, hreads⟩
      · omega
      · exact .inr ⟨hzero, hreads k hk⟩
    obtain ⟨n, hn⟩ : ∃ n, idle + chunks.length = n + 1 :=
      Nat.exists_eq_succ_of_ne_zero (by omega)
    obtain ⟨w, hat, hreturns⟩ := c.run_stops
      (hstarts.stops_iff.mpr ⟨hn.symm, fun k hk => hroom k (by omega), hgoes, hignored⟩)
    refine ⟨w, ⟨n + 1, fun fuel hfuel => ?_⟩, (hleft hn.symm hat).mpr ?_⟩
    · rw [c.receive_eq]
      exact hreturns fuel hfuel
    · rcases hunhurried with rfl | ⟨hzero, _⟩ <;> omega

end BulkCall

/-! ## PTP/IP framing -/

/-- The wait counter and its default stay. -/
def SameWait (w w' : World σ) : Prop :=
  w'.r.waitForResponse = w.r.waitForResponse ∧ w'.r.responseWaitDefault = w.r.responseWaitDefault

instance : IsPreorder (World σ) SameWait where
  refl _ := ⟨rfl, rfl⟩
  trans _ _ _ h h' := ⟨h'.1.trans h.1, h'.2.trans h.2⟩

/-- A normal end with the counter at its default. -/
abbrev Resets {α : Type} (x : M σ α) (w : World σ) : Prop :=
  Ends x w (fun _ v => v.r.waitForResponse = v.r.responseWaitDefault) fun _ _ => True

theorem cmdRead_sameWait (endpoint : Endpoint) (offset size : Int) :
    Moves SameWait (cmdRead B endpoint offset size) := by
  intro w
  refine Ends.of_match ?_
  unfold cmdRead
  cases w.r.load offset size with
  | error reason => exact ⟨rfl, rfl⟩
  | ok bytes =>
      dsimp only
      obtain ⟨got, device⟩ := B.cmdRead endpoint size.toNat w.device
      cases got with
      | none => exact ⟨rfl, rfl⟩
      | some bytes => exact ⟨rfl, rfl⟩

theorem ptpBufferResize_sameWait (size : Nat) : Moves SameWait (ptpBufferResize B size) := by
  intro w
  refine Ends.of_match ?_
  unfold ptpBufferResize
  by_cases hdown : size < toSize w.r.dataLength
  · rw [if_pos hdown]
    exact refl_of SameWait w
  · rw [if_neg hdown]
    dsimp only
    cases B.realloc w.reallocs (toSize (size + 100)) with
    | true => exact ⟨rfl, rfl⟩
    | false => exact ⟨rfl, rfl⟩

theorem ptpipReadRestBody_sameWait (offset read : Int) :
    Moves SameWait (ptpipReadRestBody B offset read) := by
  refine (moves_inspect _).bind fun length => ?_
  refine (cmdRead_sameWait .socket _ _).bind fun rc => ?_
  cases rc with
  | none => exact Moves.pure _
  | some count =>
      refine (moves_intAdd _ _).bind fun read => ?_
      refine (moves_inspect _).bind fun length => ?_
      split
      · exact Moves.pure _
      · exact Moves.pure _

theorem ptpipReadRest_sameWait (fuel : Nat) (offset : Int) :
    Moves SameWait (ptpipReadRest B fuel offset) := by
  refine (moves_inspect _).bind fun length => ?_
  split
  · exact Moves.pure _
  · refine (moves_intAdd _ _).bind fun front => moves_runtime.bind fun r => ?_
    refine Moves.bind ?_ fun rc => ?_
    · split
      · exact ptpBufferResize_sameWait _
      · exact Moves.pure _
    · split
      · exact Moves.pure _
      · exact Moves.iterate (ptpipReadRestBody_sameWait offset) fuel 4

/-- What leaves the counter alone leaves it at its default. -/
theorem SameWait.resets {α : Type} {x : M σ α} (hx : Moves SameWait x) {w : World σ}
    (hw : w.r.waitForResponse = w.r.responseWaitDefault) : Resets x w := by
  refine (hx w).mono (fun _ v hsame => ?_) fun _ _ _ => trivial
  rw [hsame.1, hsame.2, hw]

theorem ptpipReadPacket_resets (fuel : Nat) (offset : Int) (w : World σ) :
    Resets (ptpipReadPacket B fuel offset) w := by
  refine Ends.bind (.ok (runtime_run w) (Ends.bind ?_))
  refine (ptpipReadLength_onlyReads B offset _ _ w).mono (fun rc v _ => ?_) fun _ _ _ => trivial
  refine Ends.bind (.ok (updateRuntime_run _ _) ?_)
  cases rc with
  | none => exact .pure rfl
  | some count =>
      dsimp only
      split
      · exact .pure rfl
      · exact SameWait.resets (ptpipReadRest_sameWait fuel offset) rfl

/-- Behind the last packet nothing changes the counter. -/
theorem inspect_resets {α β : Type} {read : PtpRuntime → Except Halt α} {next : α → M σ β}
    (hnext : ∀ a w, w.r.waitForResponse = w.r.responseWaitDefault → Resets (next a) w)
    {w : World σ} (hw : w.r.waitForResponse = w.r.responseWaitDefault) :
    Resets (inspect read >>= next) w := by
  refine Ends.bind ?_
  cases hread : read w.r with
  | error reason => exact .error (by rw [inspect, hread]) trivial
  | ok a => exact .ok (inspect_ok hread) (hnext a w hw)

theorem ptpipReceiveResponse_resets (fuel : Nat) (third : Int) (w : World σ) :
    Resets (ptpipReceiveResponse B fuel third) w := by
  refine Ends.bind ((ptpipReadPacket_resets fuel third w).mono (fun rc v hv => ?_)
    fun _ _ _ => trivial)
  split
  · exact .pure hv
  refine inspect_resets (fun type u hu => ?_) hv
  split
  · exact .pure hu
  · exact inspect_resets (fun _ _ h => .pure h) hu

theorem ptpipReceiveData_resets (fuel : Nat) (second : Int) (w : World σ) :
    Resets (ptpipReceiveData B fuel second) w := by
  refine Ends.bind ((ptpipReadPacket_resets fuel second w).mono (fun rc v hv => ?_)
    fun _ _ _ => trivial)
  split
  · exact .pure hv
  refine inspect_resets (fun type u hu => ?_) hv
  split
  · exact .pure hu
  refine inspect_resets (fun length u hu => ?_) hu
  refine Ends.bind ((moves_intAdd (R := SameWait) _ _ u).mono (fun third t _ => ?_)
    fun _ _ _ => trivial)
  exact ptpipReceiveResponse_resets fuel third t

theorem ptpipReceiveBulkPackets_resets (fuel : Nat) (w : World σ) :
    Resets (ptpipReceiveBulkPackets B fuel) w := by
  refine Ends.bind ((ptpipReadPacket_resets fuel 0 w).mono (fun rc v hv => ?_)
    fun _ _ _ => trivial)
  split
  · exact .pure hv
  refine inspect_resets (fun type u hu => ?_) hv
  split
  · exact ptpipReceiveData_resets fuel rc u
  split
  · exact inspect_resets (fun _ _ h => .pure h) hu
  · exact .pure hu

/-! ### Reads that pass -/

/-- The world behind a read for the length field that gets nothing. -/
def passed (B : Backend σ) (w : World σ) : World σ :=
  { w with
    r := { w.r.initComm .socket with waitForResponse := w.r.waitForResponse - 1 }
    device := (B.cmdRead .socket 4 w.device).2
    log := w.log ++ [.read .socket 0 4 w.r.dataLength (B.readResult .socket 4 w.device)] }

variable {w : World σ} {buffer : Buffer}

/-- As long as there are attempts left, such a read might not have been made. -/
theorem ptpipReadPacket_passed (hdata : w.r.data = some buffer) (hroom : 4 ≤ buffer.size)
    (hwait : 2 ≤ w.r.waitForResponse) (hnil : (B.readResult .socket 4 w.device).getD [] = [])
    (fuel : Nat) : ptpipReadPacket B fuel 0 w = ptpipReadPacket B fuel 0 (passed B w) := by
  obtain ⟨tries, htries⟩ := Nat.exists_eq_add_of_le hwait
  have hread := cmdRead_ok (B := B) hdata .socket 0 4 (by omega)
  rw [Nat.cast_zero, Nat.cast_ofNat, hnil, Buffer.store_nil, ← hdata] at hread
  have hcount : ((B.readResult .socket 4 w.device).map List.length).getD 0 = 0 := by
    cases hresult : B.readResult .socket 4 w.device with
    | none => rfl
    | some got =>
        rw [hresult] at hnil
        exact congrArg List.length hnil
  have hlength : ptpipReadLength B 0 w.r.waitForResponse (some 0) w =
      ptpipReadLength B 0 (passed B w).r.waitForResponse (some 0) (passed B w) := by
    have hleft : (passed B w).r.waitForResponse = tries + 1 := by
      change w.r.waitForResponse - 1 = tries + 1
      omega
    rw [hleft, htries, Nat.add_comm, ptpipReadLength, bind_ok hread, bind_ok (updateRuntime_run _ _),
      hcount, if_neg (Nat.lt_irrefl 0)]
    unfold passed
    rw [htries, show 2 + tries - 1 = tries + 1 by omega]
    rfl
  rw [ptpipReadPacket, bind_ok (runtime_run w), bind_ok (runtime_run (passed B w))]
  simp only [bind_run, hlength]

/-- The world behind some of these reads. -/
def passedBy (B : Backend σ) (w : World σ) : Nat → World σ
  | 0 => w
  | k + 1 => passed B (passedBy B w k)

theorem passedBy_eq (k : Nat) :
    (passedBy B w k).r = { w.r with
        waitForResponse := w.r.waitForResponse - k
        maxPacketSize := (passedBy B w k).r.maxPacketSize } ∧
      (passedBy B w k).device = B.afterReads .socket (fun _ => 4) w.device k ∧
      (passedBy B w k).reallocs = w.reallocs := by
  induction k with
  | zero => exact ⟨rfl, rfl, rfl⟩
  | succ k ih =>
      obtain ⟨hr, hdevice, hreallocs⟩ := ih
      refine ⟨?_, ?_, hreallocs⟩
      · rw [passedBy, passed, hr, Nat.sub_sub]
        rfl
      · rw [passedBy, passed, hdevice]
        rfl

theorem ptpipReceiveBulkPackets_passedBy (hdata : w.r.data = some buffer) (hroom : 4 ≤ buffer.size)
    (fuel : Nat) {idle : Nat} (hidle : idle < w.r.waitForResponse)
    (hsilent : ∀ k < idle, (B.reads .socket (fun _ => 4) w.device k).getD [] = []) :
    ptpipReceiveBulkPackets B fuel w = ptpipReceiveBulkPackets B fuel (passedBy B w idle) := by
  induction idle with
  | zero => rfl
  | succ idle ih =>
      obtain ⟨hr, hdevice, _⟩ := passedBy_eq (B := B) (w := w) idle
      have hnil := hsilent idle (Nat.lt_succ_self idle)
      have hdata' : (passedBy B w idle).r.data = some buffer := by
        rw [hr]
        exact hdata
      have hpacket := ptpipReadPacket_passed hdata' hroom (by rw [hr]; dsimp only; omega)
        (by rw [hdevice]; exact hnil) fuel
      rw [ih (by omega) fun k hk => hsilent k (by omega), passedBy, ptpipReceiveBulkPackets,
        bind_run, bind_run, hpacket]

/-- The packet-wise loop honours the wait for the first packet, if it can take the packets. -/
theorem ipHonoured_iff {stream : σ → List UInt8} (hB : B.Delivers stream) (hready : w.r.Ready buffer)
    (hconn : w.r.connectionType = .ip) (reply : IpReply) {more : List UInt8} {idle : Nat}
    (hidle : idle < w.r.waitForResponse)
    (hsilent : ∀ k < idle, (B.reads .socket (fun _ => 4) w.device k).getD [] = [])
    (hstream : stream (B.afterReads .socket (fun _ => 4) w.device idle) = reply.bytes ++ more) :
    Honoured B w ↔ TakesAll B w.r.responseWaitDefault (w.r.waitForResponse - idle) 0 buffer.size
      w.reallocs (B.afterReads .socket (fun _ => 4) w.device idle) reply.packets := by
  obtain ⟨hr, hdevice, hreallocs⟩ := passedBy_eq (B := B) (w := w) idle
  have hroom : 4 ≤ buffer.size := le_trans (by decide) hready.2.2.2
  have hsame : ∀ fuel, ptpReceiveAllPackets B fuel w =
      ptpipReceiveBulkPackets B fuel (passedBy B w idle) := by
    intro fuel
    rw [← ptpipReceiveBulkPackets_passedBy hready.1 hroom fuel hidle hsilent]
    unfold ptpReceiveAllPackets
    rw [bind_ok (runtime_run w), hconn]
  have hready' : (passedBy B w idle).r.Ready buffer := by
    rw [hr]
    exact hready
  have hconn' : (passedBy B w idle).r.connectionType = .ip := by
    rw [hr]
    exact hconn
  rw [← hdevice] at hstream
  have htakes : (PacketCall.first B _ hready').TakesAll reply.packets ↔
      TakesAll B w.r.responseWaitDefault (w.r.waitForResponse - idle) 0 buffer.size w.reallocs
        (B.afterReads .socket (fun _ => 4) w.device idle) reply.packets := by
    rw [← hdevice, ← hreallocs]
    unfold PacketCall.TakesAll PacketCall.first
    rw [hr]
  rw [← htakes]
  constructor
  · rintro ⟨w', ⟨enough, hrun⟩, _⟩
    have hreturns := hrun _ (le_max_left enough (reply.bytes.length + 1))
    rw [hsame] at hreturns
    exact takes_of_receives hready' hB reply hstream
      (lt_of_lt_of_le (Nat.lt_succ_self _) (le_max_right _ _)) hreturns
  · intro htaken
    obtain ⟨w', _, hrun⟩ := receives_of_takes hready' hB hconn' reply hstream htaken
    refine ⟨w', ⟨reply.bytes.length + 1, fun fuel hfuel => (hsame fuel).trans (hrun fuel hfuel)⟩, ?_⟩
    exact (ptpipReceiveBulkPackets_resets _ _).of_ok (hrun _ (Nat.lt_succ_self _))

/-- When `wait_for_response` is honoured, in both framings. -/
theorem wait_for_response_iff {stream : σ → List UInt8} (hB : B.Delivers stream) :
    (∀ (c : BulkCall B) (idle : Nat) (reply : UsbReply) (chunks : List (List UInt8)),
      c.Starts idle reply chunks → (Honoured B c.start ↔
        c.Unhurried idle ∧ ∀ k < idle + chunks.length, c.FitsAt k ∧ c.Allocates k)) ∧
    ∀ (w : World σ) (buffer : Buffer) (reply : IpReply) (more : List UInt8) (idle : Nat),
      w.r.Ready buffer → w.r.connectionType = .ip → idle < w.r.waitForResponse →
      (∀ k < idle, (B.reads .socket (fun _ => 4) w.device k).getD [] = []) →
      stream (B.afterReads .socket (fun _ => 4) w.device idle) = reply.bytes ++ more →
      (Honoured B w ↔ TakesAll B w.r.responseWaitDefault (w.r.waitForResponse - idle) 0
        buffer.size w.reallocs (B.afterReads .socket (fun _ => 4) w.device idle) reply.packets) :=
  ⟨fun _ _ _ _ hstarts => hstarts.honoured_iff,
    fun _ _ reply _ _ hready hconn hidle hsilent hstream =>
      ipHonoured_iff hB hready hconn reply hidle hsilent hstream⟩

/-- A call of the USB-style loop on a device that delivers a response at once. -/
theorem promptBuffer_le : ((⟨ptpDefaultSize, fun _ => 0⟩ : Buffer).size : Int) ≤ intMax := by decide

def promptCall : BulkCall limited where
  start := { ipWorld (okResponse, []) with
    r := { (ipWorld (okResponse, ([] : List Nat))).r with connectionType := .usb } }
  buffer := ⟨ptpDefaultSize, fun _ => 0⟩
  endpoint := .usb
  data := rfl
  dataLength := rfl
  size_le := promptBuffer_le
  endpoint_eq := rfl
  packet_nonneg := by decide

theorem wait_for_response_prompt : Honoured limited promptCall.start ∧
    Honoured limited (ipWorld (twoBytesReply.bytes, [3, 1, 4, 8, 3, 5])) := by
  obtain ⟨husb, hip⟩ := wait_for_response_iff limited_delivers
  refine ⟨(husb promptCall 0 ⟨none, ⟨0x2001, 0, []⟩⟩ [okResponse] ?_).mpr ⟨.inl rfl, ?_⟩,
    (hip _ _ twoBytesReply [] 0 (ipWorld_ready _) rfl (by decide) (by simp)
      (List.append_nil _).symm).mpr
    ⟨⟨by decide, by decide, by decide, by decide, by decide⟩,
      ⟨by decide, by decide, by decide, by decide, by decide⟩,
      ⟨by decide, by decide, by decide, by decide, by decide⟩, trivial⟩⟩
  · exact ⟨by simp, by decide, by decide, by decide, by decide⟩
  · decide

/-- A camera that lets one read pass, while the caller would have waited for ten. -/
def patientCall : BulkCall scripted :=
  { scriptedCall 512 [none, some okResponse] with
    start := { scriptedWorld 512 [none, some okResponse] with
      r := { (scriptedWorld 512 [none, some okResponse]).r with waitForResponse := 10 } }
    data := rfl
    dataLength := rfl
    endpoint_eq := rfl
    packet_nonneg := by decide }

theorem wait_for_response_patient : ¬∀ (c : BulkCall scripted) (idle : Nat) (reply : UsbReply)
    (chunks : List (List UInt8)), c.Starts idle reply chunks →
      idle < c.start.r.waitForResponse → c.start.r.waitForResponse ≤ 255 →
      (∀ k < idle + chunks.length, c.FitsAt k ∧ c.Allocates k) → Honoured scripted c.start := by
  intro hall
  have hstarts : patientCall.Starts 1 ⟨none, ⟨0x2001, 0, []⟩⟩ [okResponse] :=
    ⟨by decide, by decide, by decide, by decide, by decide⟩
  have hhonoured := hall patientCall 1 _ _ hstarts (by decide) (by decide) (by decide)
  rcases (hstarts.honoured_iff.mp hhonoured).1 with hnone | ⟨hzero, _⟩
  · exact absurd hnone (by decide)
  · exact absurd hzero (by decide)

end Libpict
