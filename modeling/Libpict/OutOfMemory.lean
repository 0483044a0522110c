import Libpict.Scripted
import Libpict.Transaction

/-! # Refused reallocations

`ptp_buffer_resize` overwrites the buffer and its length before it looks at what `realloc`
has returned. The receive functions pass the error on, with the buffer lost; `ptp_send_data`
does not look at it, and builds its first packet at NULL.
-/

namespace Libpict

open Bytes CInt Exec

section Sites

variable {σ : Type} (B : Backend σ)

/-- `ptp_buffer_resize` gets as far as a reallocation to the size, and it is refused. -/
def Refuses (size : Nat) (w : World σ) : Prop :=
  toSize w.r.dataLength ≤ size ∧ B.realloc w.reallocs (toSize (size + 100)) = false

/-- What a refused reallocation leaves: no buffer, and the length that it was to have. -/
def bereft (size : Nat) (w : World σ) : World σ :=
  { w with
    r := { w.r with data := none, dataLength := toInt32 (size + 100) }
    reallocs := w.reallocs + 1 }

/-- The rounds of the loop of `ptpusb_read_all_packets` lead from one state to another. -/
inductive RoundsTo : BulkRead → World σ → BulkRead → World σ → Prop
  | here (s : BulkRead) (w : World σ) : RoundsTo s w s w
  | round {s s' last : BulkRead} {w w' v : World σ} (hround : ptpusbReadBody B s w = .ok (.inl s') w')
      (hrest : RoundsTo s' w' last v) : RoundsTo s w last v

/-- Where the buffer is resized: in `ptp_buffer_resize` itself, for the data of
`ptp_send_data`, in a round of `ptpusb_read_all_packets`, and behind the length field that
`ptpip_read_packet` has read. -/
inductive ResizeSite
  | resize (size : Nat)
  | sendData (cmd : PtpCommand) (data : List UInt8)
  | readAllPackets
  | readPacket (offset : Int)

/-- The call gets from `w` to its resize in `v`, and the reallocation is refused there. -/
def ResizeSite.Struck (w v : World σ) : ResizeSite → Prop
  | resize size => v = w ∧ Refuses B size v
  | sendData _ data =>
      w.r.operationKillSwitch = false ∧ Fits (data.length + 50) ∧
        w.r.dataLength < data.length + 50 ∧ Fits (100 + data.length) ∧
        v = { locked w with r := { (locked w).r with dataPhaseLength := data.length } } ∧
        Refuses B (toSize (100 + data.length)) v
  | readAllPackets => ∃ s,
      RoundsTo B ⟨0, 0⟩ { w with r := { w.r with waitForResponse := w.r.responseWaitDefault } } s v ∧
        Fits (s.read + v.r.maxPacketSize) ∧ v.r.dataLength < s.read + v.r.maxPacketSize ∧
        Refuses B (toSize (s.read + v.r.maxPacketSize)) v
  | readPacket offset => ∃ count length u,
      ptpipReadLength B offset w.r.waitForResponse (some 0) w = .ok (some count) u ∧ 4 ≤ count ∧
        v = { u with r := { u.r with waitForResponse := u.r.responseWaitDefault } } ∧
        v.r.loadU32 offset = .ok length ∧ toUInt32 (length - 4) ≠ 0 ∧ Fits (offset + 4) ∧
        toUInt32 v.r.dataLength ≤ toUInt32 (offset + 4 + length) ∧
        Refuses B (toUInt32 (offset + 4 + length)) v

/-- The buffer and its length are still those that the resize has found. -/
def KeptBuffer (v u : World σ) : Prop := u.r.data = v.r.data ∧ u.r.dataLength = v.r.dataLength

/-- The resize says that there is no memory, and the operation that needs it returns an error;
the buffer is as it was. -/
def ResizeSite.Intact (w v : World σ) : ResizeSite → Prop
  | resize size => ∃ u, ptpBufferResize B size w = .ok PtpGeneralError.outOfMem u ∧ KeptBuffer v u
  | sendData cmd data => ∃ enough, ∀ fuel ≥ enough, ∃ rc u,
      ptpSendData B fuel cmd data w = .ok rc u ∧ rc < 0 ∧ KeptBuffer v u
  | readAllPackets => ∃ enough, ∀ fuel ≥ enough, ∃ rc u,
      ptpusbReadAllPackets B fuel w = .ok rc u ∧ rc < 0 ∧ KeptBuffer v u
  | readPacket offset => ∃ enough, ∀ fuel ≥ enough, ∃ rc u,
      ptpipReadPacket B fuel offset w = .ok rc u ∧ rc < 0 ∧ KeptBuffer v u

/-- A resize has nothing to lose if there is no buffer, of just that length. No operation comes
to its resize like that. -/
def ResizeSite.Spared (w : World σ) : ResizeSite → Prop
  | resize size => w.r.data = none ∧ w.r.dataLength = toInt32 (size + 100)
  | _ => False

variable {B} {w v : World σ}

theorem ptpBufferResize_refused {size : Nat} (hrefuses : Refuses B size w) :
    ptpBufferResize B size w = .ok PtpGeneralError.outOfMem (bereft size w) := by
  obtain ⟨hgrows, hrealloc⟩ := hrefuses
  simp only [ptpBufferResize, if_neg (not_lt.mpr hgrows), hrealloc, Bool.false_eq_true, if_false]
  rfl

theorem resize_intact_iff {size : Nat} (hstruck : (ResizeSite.resize size).Struck B w v) :
    (ResizeSite.resize size).Intact B w v ↔ (ResizeSite.resize size).Spared w := by
  obtain ⟨rfl, hrefuses⟩ := hstruck
  have hrun := ptpBufferResize_refused hrefuses
  constructor
  · rintro ⟨u, hresize, hdata, hlength⟩
    rw [hrun] at hresize
    cases hresize
    exact ⟨hdata.symm, hlength.symm⟩
  · rintro ⟨hdata, hlength⟩
    exact ⟨_, hrun, hdata.symm, hlength.symm⟩

/-! ## Sending -/

/-- The first packet of the command has no buffer to be built in. -/
theorem ptpSendData_struck {cmd : PtpCommand} {data : List UInt8}
    (hstruck : (ResizeSite.sendData cmd data).Struck B w v) (fuel : Nat) :
    ∃ reason u, ptpSendData B fuel cmd data w = .error reason u := by
  obtain ⟨hkill, hneed, hgrow, hsize, rfl, hrefuses⟩ := hstruck
  have hprepare : ∃ v, prepareData B data (locked w) = .ok () v ∧ v.r.data = none := by
    refine ⟨bereft (toSize (100 + data.length)) { locked w with
      r := { (locked w).r with dataPhaseLength := data.length } }, ?_, rfl⟩
    unfold prepareData
    rw [bind_ok (updateRuntime_run _ _), bind_ok (runtime_run _), bind_ok (intAdd_ok hneed _)]
    dsimp only
    rw [if_pos (show (data.length : Int) + 50 > (locked w).r.dataLength from hgrow),
      bind_ok (intAdd_ok hsize _)]
    exact bind_ok (ptpBufferResize_refused hrefuses)
  obtain ⟨v, hprepare, hdata⟩ := hprepare
  obtain ⟨reason, hsend⟩ := transmitCmd_noBuffer (B := B) fuel hdata cmd
  have hattempt : ptpSendDataTry B fuel cmd data v = .error reason v := by
    unfold ptpSendDataTry
    rw [sendThen_eq]
    exact bind_error hsend
  exact ⟨reason, v, (ptpTransaction_run hkill).trans
    ((bind_ok hprepare).trans (bind_error hattempt))⟩

/-! ## Receiving -/

/-- The loop goes from round to round, and what is left of it runs from where it has come. -/
theorem RoundsTo.run {s last : BulkRead} {v : World σ} (hrounds : RoundsTo B s w last v) :
    ∃ rounds, ∀ fuel, iterate .spent (ptpusbReadBody B) (fuel + rounds) s w =
      iterate .spent (ptpusbReadBody B) fuel last v := by
  -- on the rounds that lead to the resize
  induction hrounds with
  | here s w => exact ⟨0, fun _ => rfl⟩
  | round hround _ ih =>
      obtain ⟨rounds, hrest⟩ := ih
      refine ⟨rounds + 1, fun fuel => ?_⟩
      rw [← Nat.add_assoc, iterate_next hround, hrest]

/-- The receive over USB-style framing returns the error, without its buffer. -/
theorem readAllPackets_struck (hstruck : ResizeSite.readAllPackets.Struck B w v) :
    ∃ enough size, (∀ fuel ≥ enough,
      ptpusbReadAllPackets B fuel w = .ok PtpGeneralError.outOfMem (bereft size v)) ∧
        ¬KeptBuffer v (bereft size v) := by
  obtain ⟨s, hrounds, hneed, hgrow, hrefuses⟩ := hstruck
  have hbody : ptpusbReadBody B s v = .ok (.inr PtpGeneralError.outOfMem)
      (bereft (toSize (s.read + v.r.maxPacketSize)) v) := by
    unfold ptpusbReadBody
    rw [bind_ok (runtime_run v), bind_ok (intAdd_ok hneed v), if_pos hgrow,
      bind_ok (ptpBufferResize_refused hrefuses), if_pos (by decide)]
    rfl
  obtain ⟨rounds, hrun⟩ := hrounds.run
  refine ⟨rounds + 1, toSize (s.read + v.r.maxPacketSize), fun fuel hfuel => ?_, ?_⟩
  · -- the fuel for the rounds and for the one that is refused
    obtain ⟨extra, rfl⟩ := Nat.exists_eq_add_of_le hfuel
    have hloop := (hrun (extra + 1)).trans (iterate_done hbody extra)
    rw [show extra + 1 + rounds = rounds + 1 + extra by omega] at hloop
    exact (bind_ok (updateRuntime_run _ w)).trans hloop
  · -- a length that was 100 bytes more than the need would not have been grown
    rintro ⟨_, hlength⟩
    have hsize := hrefuses.1
    change toInt32 (toSize (s.read + v.r.maxPacketSize) + 100) = v.r.dataLength at hlength
    generalize s.read + v.r.maxPacketSize = need at *
    unfold Fits at hneed
    unfold toInt32 toSize at *
    omega

/-- So does the receive of a packet over PTP/IP. -/
theorem readPacket_struck {offset : Int} (hstruck : (ResizeSite.readPacket offset).Struck B w v) :
    ∃ size, (∀ fuel,
      ptpipReadPacket B fuel offset w = .ok PtpGeneralError.outOfMem (bereft size v)) ∧
        ¬KeptBuffer v (bereft size v) := by
  obtain ⟨count, length, u, hread, hcount, rfl, hlength, hmore, hfront, hgrow, hrefuses⟩ := hstruck
  refine ⟨toUInt32 (offset + 4 + length), fun fuel => ?_, ?_⟩
  · have hrest : ptpipReadRest B fuel offset
        { u with r := { u.r with waitForResponse := u.r.responseWaitDefault } } =
          .ok PtpGeneralError.outOfMem (bereft (toUInt32 (offset + 4 + length))
            { u with r := { u.r with waitForResponse := u.r.responseWaitDefault } }) := by
      unfold ptpipReadRest
      rw [bind_ok (inspect_ok hlength), if_neg hmore, bind_ok (intAdd_ok hfront _),
        bind_ok (runtime_run _), if_pos hgrow, bind_ok (ptpBufferResize_refused hrefuses),
        if_pos (by decide)]
      rfl
    unfold ptpipReadPacket
    rw [bind_ok (runtime_run w), bind_ok hread, bind_ok (updateRuntime_run _ u)]
    exact (congrFun (if_neg (not_lt.mpr hcount)) _).trans hrest
  · -- the length field has been read from a buffer
    rintro ⟨hdata, _⟩
    unfold PtpRuntime.loadU32 PtpRuntime.loadLe PtpRuntime.load at hlength
    rw [← hdata] at hlength
    cases hlength

end Sites

/-- Where a reallocation is refused, the runtime comes away unharmed exactly if it is in
`ptp_buffer_resize` itself, with no buffer to lose: the operations lose theirs. -/
theorem outOfMemory_iff {σ : Type} (B : Backend σ) (w v : World σ) (site : ResizeSite)
    (hstruck : site.Struck B w v) : site.Intact B w v ↔ site.Spared w := by
  cases site with
  | resize size => exact resize_intact_iff hstruck
  | sendData cmd data =>
      refine iff_of_false ?_ id
      rintro ⟨enough, hreturns⟩
      obtain ⟨rc, u, hok, -⟩ := hreturns enough le_rfl
      obtain ⟨reason, u', herror⟩ := ptpSendData_struck hstruck enough
      rw [hok] at herror
      exact nomatch herror
  | readAllPackets =>
      refine iff_of_false ?_ id
      rintro ⟨enough, hreturns⟩
      obtain ⟨enough', size, hrun, hlost⟩ := readAllPackets_struck hstruck
      obtain ⟨rc, u, hok, -, hkept⟩ := hreturns (max enough enough') (le_max_left _ _)
      rw [hrun _ (le_max_right _ _)] at hok
      obtain ⟨_, rfl⟩ := EStateM.Result.ok.inj hok
      exact hlost hkept
  | readPacket offset =>
      refine iff_of_false ?_ id
      rintro ⟨enough, hreturns⟩
      obtain ⟨size, hrun, hlost⟩ := readPacket_struck hstruck
      obtain ⟨rc, u, hok, -, hkept⟩ := hreturns enough le_rfl
      rw [hrun enough] at hok
      obtain ⟨_, rfl⟩ := EStateM.Result.ok.inj hok
      exact hlost hkept

/-- A scripted device on a host without memory to spare. -/
def outOfMemory : Backend (List (Option (List UInt8))) := { scripted with realloc := fun _ _ => false }

/-- A runtime without a buffer. -/
def bufferless : World (List (Option (List UInt8))) :=
  { scriptedWorld 512 [] with r := { (scriptedWorld 512 []).r with data := none, dataLength := 0 } }

/-- A runtime without a buffer has nothing to lose to a size that wraps to 0; packets of 2000000
bytes need a larger buffer than the one they lose. -/
theorem outOfMemory_packets :
    (ResizeSite.resize 4294967196).Intact outOfMemory bufferless bufferless ∧
    ∃ v, ¬ResizeSite.readAllPackets.Intact outOfMemory (scriptedWorld 2000000 []) v := by
  refine ⟨(outOfMemory_iff outOfMemory _ _ (.resize 4294967196) ⟨rfl, by decide +kernel, rfl⟩).mpr
    ⟨rfl, by decide⟩, _, fun hintact => (outOfMemory_iff outOfMemory _ _ .readAllPackets
      ⟨_, .here _ _, by decide +kernel, by decide +kernel, by decide +kernel, rfl⟩).mp hintact⟩

/-- The fresh buffer of 1000000 bytes is lost, and 1000100 bytes are accounted for. -/
theorem outOfMemory_resize :
    (ResizeSite.resize 1000000).Struck outOfMemory (scriptedWorld 512 []) (scriptedWorld 512 []) ∧
    ¬(ResizeSite.resize 1000000).Intact outOfMemory (scriptedWorld 512 []) (scriptedWorld 512 []) := by
  have hstruck : (ResizeSite.resize 1000000).Struck outOfMemory (scriptedWorld 512 [])
      (scriptedWorld 512 []) := ⟨rfl, by decide +kernel, rfl⟩
  refine ⟨hstruck, fun hintact => ?_⟩
  obtain ⟨hdata, -⟩ := (resize_intact_iff hstruck).mp hintact
  exact nomatch hdata

end Libpict
