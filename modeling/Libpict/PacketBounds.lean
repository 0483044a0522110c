import Libpict.PacketReassembly
import Libpict.Transaction

/-! # Where PTP/IP reads go

The peer chooses every length field. A packet whose length can be honoured is read
into the buffer and nowhere else; any other length makes the next read leave the
buffer, unless the allocator refuses the memory first.
-/

namespace Libpict

open Bytes CInt Exec PtpRuntime

variable {σ : Type} {B : Backend σ}

/-- The request lies inside the buffer, as long as the runtime knows it to be. -/
def Call.InBounds : Call → Prop
  | .read _ offset size dataLength _ => 0 ≤ offset ∧ 0 ≤ size ∧ offset + size ≤ dataLength
  | .write .. => True

/-- All calls since `w` ask for bytes inside the buffer. -/
def Bounded (w w' : World σ) : Prop :=
  ∃ calls, w'.log = w.log ++ calls ∧ ∀ call ∈ calls, call.InBounds

instance : IsPreorder (World σ) Bounded where
  refl w := ⟨[], (List.append_nil _).symm, by simp⟩
  trans w w' w'' := by
    rintro ⟨first, hfirst, hall⟩ ⟨second, hsecond, hall'⟩
    refine ⟨first ++ second, by rw [hsecond, hfirst, List.append_assoc], fun call hcall => ?_⟩
    rcases List.mem_append.mp hcall with hcall | hcall
    · exact hall call hcall
    · exact hall' call hcall

theorem Bounded.of_log {w w' w'' : World σ} (hbounded : Bounded w w') (hlog : w''.log = w'.log) :
    Bounded w w'' := by
  obtain ⟨calls, hcalls, hall⟩ := hbounded
  exact ⟨calls, hlog.trans hcalls, hall⟩

/-- A call out of bounds stays in the log. -/
theorem not_bounded_of_logged {w w' : World σ} {call : Call} {front : List Call}
    (hlog : w.log ++ (front ++ [call]) <+: w'.log) (hcall : ¬call.InBounds) : ¬Bounded w w' := by
  rintro ⟨calls, hcalls, hall⟩
  rw [hcalls] at hlog
  obtain ⟨rest, hrest⟩ := (List.prefix_append_right_inj _).mp hlog
  refine hcall (hall call ?_)
  rw [← hrest]
  simp

/-- Every read is logged, whatever comes of it. -/
theorem cmdRead_logs (endpoint : Endpoint) (offset size : Int) (w : World σ) :
    EndsIn (cmdRead B endpoint offset size) w
      (fun w' => ∃ got, w'.log = w.log ++ [.read endpoint offset size w.r.dataLength got]) := by
  refine Ends.of_match ?_
  unfold cmdRead
  cases w.r.load offset size with
  | error reason => exact ⟨_, rfl⟩
  | ok _ =>
      dsimp only
      obtain ⟨got, device⟩ := B.cmdRead endpoint size.toNat w.device
      cases got <;> exact ⟨_, rfl⟩

namespace PacketCall

variable (c : PacketCall B)

/-- The length field has arrived. -/
def Announced : Prop := ∃ header, c.header = some header ∧ header.length = 4

/-- The length is that of a packet that fits in the buffer, or in what the buffer can
grow to. -/
def Honourable : Prop :=
  c.length = 4 ∨ 4 < c.length ∧ (c.need < c.buffer.size ∨ (c.need + 100 : Int) ≤ intMax)

/-- The function asks for more memory and does not get it. The size that it asks for is
a 32-bit sum. -/
def OutOfMemory : Prop :=
  c.length ≠ 4 ∧ c.buffer.size ≤ c.need % 4294967296 ∧
    B.realloc c.start.reallocs (c.need % 4294967296 + 100) = false

/-- What the peer announces can be honoured, or is refused for lack of memory. -/
def Honoured : Prop := c.Announced → c.Honourable ∨ c.OutOfMemory

/-- All reads of the call are inside the buffer, and a length that cannot be honoured is
reported by a negative return value. -/
structure Safe : Prop where
  bounded : ∀ fuel, EndsIn (ptpipReadPacket B fuel c.offset) c.start (Bounded c.start)
  reported : c.Announced → ¬c.Honourable → ∀ fuel, ∃ rc w, c.run fuel = .ok rc w ∧ rc < 0

theorem opened_bounded (hsize : (c.buffer.size : Int) ≤ intMax) {w : World σ}
    (hopened : c.Opened w) : Bounded c.start w := by
  obtain ⟨calls, hlog, _, hcalls⟩ := hopened.log
  refine ⟨calls, hlog, fun call hcall => ?_⟩
  obtain ⟨got, rfl⟩ := hcalls call hcall
  have hheader := c.header_le
  have hlength : c.start.r.dataLength = c.buffer.size := by
    rw [c.dataLength]
    exact toInt32_of_fits ⟨by omega, hsize⟩
  exact ⟨Int.natCast_nonneg _, by decide, by rw [hlength]; omega⟩

/-! ## Lengths that can be honoured -/

theorem size_le_of_fits (hsize : (c.buffer.size : Int) ≤ intMax)
    (hfits : c.need < c.buffer.size ∨ (c.need + 100 : Int) ≤ intMax) : (c.size : Int) ≤ intMax := by
  unfold size roomFor
  split_ifs with hless
  · exact hsize
  · push_cast
    omega

section Announced

variable {header : List UInt8} (hheader : c.header = some header) (hlength : header.length = 4)

theorem at_bounded (hsize : (c.buffer.size : Int) ≤ intMax) (hgrown : (c.size : Int) ≤ intMax)
    (hlonger : 4 < c.length) {k : Nat} {w : World σ} (hat : c.At k w) : Bounded c.start w := by
  obtain ⟨front, ⟨_, hfront⟩, hlog⟩ := hat.log
  have hheader := c.header_le
  have hlength : c.start.r.dataLength = c.buffer.size := by
    rw [c.dataLength]
    exact toInt32_of_fits ⟨by omega, hsize⟩
  have hfits := c.offset_length_le_size
  refine ⟨front ++ c.calls k, hlog, fun call hcall => ?_⟩
  rcases List.mem_append.mp hcall with hcall | hcall
  · obtain ⟨got, rfl⟩ := hfront call hcall
    exact ⟨Int.natCast_nonneg _, by decide, by rw [hlength]; omega⟩
  · obtain ⟨j, _, rfl⟩ := List.mem_map.mp hcall
    have hreceived := c.received_le j
    have hrest : c.rest + 4 = c.length := by
      unfold rest
      omega
    have hsame : toInt32 c.size = c.size := toInt32_of_fits ⟨by omega, hgrown⟩
    exact ⟨Int.natCast_nonneg _, Int.natCast_nonneg _, by rw [hsame]; omega⟩

include hheader hlength

/-- With room for the packet, all reads of the loop are inside the buffer. -/
theorem room_bounded (hsize : (c.buffer.size : Int) ≤ intMax) (hgrown : (c.size : Int) ≤ intMax)
    (hroom : c.Room) (fuel : Nat) :
    EndsIn (ptpipReadPacket B fuel c.offset) c.start (Bounded c.start) := by
  rw [endsIn_iff_final]
  rcases c.goesOn_or_stops fuel with hgoesOn | ⟨n, hn, rc, hstops⟩
  · obtain ⟨w, hat, hspent⟩ := c.run_spent hheader hlength hroom hgoesOn
    rw [show ptpipReadPacket B fuel c.offset c.start = _ from hspent]
    exact c.at_bounded hsize hgrown hroom.length_gt hat
  · obtain ⟨w, hat, hreturns⟩ := c.run_stops hheader hlength hroom hstops
    rw [show ptpipReadPacket B fuel c.offset c.start = _ from hreturns fuel hn]
    exact c.at_bounded hsize hgrown hroom.length_gt hat

/-- The function gets to its size test. -/
theorem sized_run (hlonger : c.length ≠ 4) (hoffset : (c.offset + 4 : Int) ≤ intMax) :
    ∃ w, c.Opened w ∧ ∀ fuel, c.run fuel = (do
      let rc ← (if c.need % 4294967296 ≥ c.buffer.size then
        ptpBufferResize B (c.need % 4294967296) else pure 0)
      if rc ≠ 0 then pure rc
      else Exec.iterate .spent (ptpipReadRestBody B c.offset) fuel 4 : M σ Int) w := by
  obtain ⟨w, hopened, hrun⟩ := c.header_run
  have hload := c.opened_loadU32 hheader hlength hopened
  have hlt := c.length_lt
  have hneed : toUInt32 ((c.offset + 4 : Int) + c.length) = c.need % 4294967296 := by
    unfold toUInt32 need
    omega
  have hsize := toUInt32_toInt32 c.size_lt
  unfold intMax at hoffset
  refine ⟨w, hopened, fun fuel => ?_⟩
  rw [hrun, hheader]
  dsimp only
  rw [if_neg (by omega)]
  unfold ptpipReadRest
  rw [bind_ok (inspect_ok hload), if_neg (by unfold toUInt32; omega),
    bind_ok (intAdd_ok ⟨by omega, by omega⟩ _), bind_ok (runtime_run _), hneed, hopened.runtime]
  dsimp only
  rw [c.dataLength, hsize]

/-- A reallocation that fails is reported, and nothing more is read. -/
theorem outOfMemory_run (hoffset : (c.offset + 4 : Int) ≤ intMax)
    (hsize : (c.buffer.size : Int) ≤ intMax) (hmemory : c.OutOfMemory) :
    ∃ w, Bounded c.start w ∧ ∀ fuel, c.run fuel = .ok PtpGeneralError.outOfMem w := by
  obtain ⟨hlonger, hgrows, hrealloc⟩ := hmemory
  obtain ⟨w, hopened, hrun⟩ := c.sized_run hheader hlength hlonger hoffset
  have hbounded := c.opened_bounded hsize hopened
  have hdataLength : w.r.dataLength = c.buffer.size := by
    rw [hopened.runtime]
    exact c.dataLength.trans (toInt32_of_fits ⟨by omega, hsize⟩)
  rw [← hopened.reallocs] at hrealloc
  obtain ⟨v, hresize, hlog⟩ : ∃ v : World σ,
      ptpBufferResize B (c.need % 4294967296) w = .ok PtpGeneralError.outOfMem v ∧
        v.log = w.log :=
    ⟨_, ptpBufferResize_outOfMem hdataLength hgrows (Nat.mod_lt _ (by decide)) hrealloc, rfl⟩
  refine ⟨v, hbounded.of_log hlog, fun fuel => ?_⟩
  rw [hrun, if_pos hgrows, bind_ok hresize, if_pos (by decide)]
  rfl

/-- A packet that can be honoured is received inside the buffer. -/
theorem honourable_bounded (hsize : (c.buffer.size : Int) ≤ intMax) (hhonourable : c.Honourable)
    (fuel : Nat) : EndsIn (ptpipReadPacket B fuel c.offset) c.start (Bounded c.start) := by
  have hoffset : (c.offset + 4 : Int) ≤ intMax := by
    have hle := c.header_le
    omega
  rcases hhonourable with hbare | ⟨hlonger, hfits⟩
  · obtain ⟨w, hopened, hrun⟩ := c.bare_run hheader hlength hbare
    exact .ok (hrun fuel) (c.opened_bounded hsize hopened)
  · have hneed : (c.length : Int) ≤ intMax := by
      unfold need at hfits
      omega
    have hgrown := c.size_le_of_fits hsize hfits
    by_cases hmemory : c.OutOfMemory
    · obtain ⟨w, hbounded, hrun⟩ := c.outOfMemory_run hheader hlength hoffset hsize hmemory
      exact .ok (hrun fuel) hbounded
    · refine c.room_bounded hheader hlength hsize hgrown
        ⟨hlonger, hneed, hoffset, fun hgrows => ⟨hsize, ?_⟩⟩ fuel
      have hmod : c.need % 4294967296 = c.need := Nat.mod_eq_of_lt (by
        unfold intMax at hsize hfits
        omega)
      by_contra hrefused
      refine hmemory ⟨by omega, by rw [hmod]; exact hgrows, ?_⟩
      rw [hmod]
      exact Bool.not_eq_true _ ▸ hrefused

/-! ## Lengths that cannot be honoured -/

omit hheader hlength in
/-- The first read of the loop is logged, and stays in the log. -/
theorem loop_unbounded {w v : World σ} (hlog : v.log = w.log) (hopened : c.Opened w)
    (hload : v.r.loadU32 c.offset = .ok c.length)
    (hcall : ∀ got, ¬(Call.read .socket (c.offset + 4) (toInt32 (toUInt32 (c.length - 4)))
      v.r.dataLength got).InBounds) (fuel : Nat) :
    EndsIn (Exec.iterate .spent (ptpipReadRestBody B c.offset) (fuel + 1) 4) v
      (fun w' => ¬Bounded c.start w') := by
  obtain ⟨front, hfront, _⟩ := hopened.log
  -- the call is in the log from the first read on, whatever follows
  let logged (u : World σ) : Prop := ∃ got, c.start.log ++ (front ++ [.read .socket (c.offset + 4)
    (toInt32 (toUInt32 (c.length - 4))) v.r.dataLength got]) <+: u.log
  have hstays : ∀ u u' : World σ, logged u → Extends u u' → logged u' := by
    rintro u u' ⟨got, hu⟩ hextends
    exact ⟨got, hu.trans hextends⟩
  have hbody : EndsIn (ptpipReadRestBody B c.offset 4) v logged := by
    refine Ends.congr (Ends.bind ?_) (bind_ok (inspect_ok hload))
    have hread := cmdRead_logs (B := B) .socket (c.offset + 4)
      (toInt32 (toUInt32 (c.length - 4))) v
    have hfirst : ∀ u : World σ, (∃ got, u.log = v.log ++ [.read .socket (c.offset + 4)
        (toInt32 (toUInt32 (c.length - 4))) v.r.dataLength got]) → logged u := by
      rintro u ⟨got, hu⟩
      rw [hlog, hfront, List.append_assoc] at hu
      exact ⟨got, hu ▸ List.prefix_refl _⟩
    refine hread.mono (fun rc u hu => ?_) fun _ u hu => hfirst u hu
    have hafter : ∀ {x : M σ (Int ⊕ Int)}, Moves Extends x → EndsIn x u logged := fun hx =>
      (hx u).mono (fun _ u' h => hstays u u' (hfirst u hu) h)
        (fun _ u' h => hstays u u' (hfirst u hu) h)
    apply hafter
    cases rc with
    | none => exact Moves.pure _
    | some count =>
        refine (moves_intAdd _ _).bind fun read => (moves_inspect _).bind fun length => ?_
        split
        · exact Moves.pure _
        · exact Moves.pure _
  have hloop : EndsIn (Exec.iterate .spent (ptpipReadRestBody B c.offset) (fuel + 1) 4) v logged := by
    refine Ends.bind (hbody.mono (fun r u hu => ?_) fun _ _ hu => hu)
    cases r with
    | inr rc => exact .pure hu
    | inl read =>
        have hrest : Moves OnlyReads
            (Exec.iterate Halt.spent (ptpipReadRestBody B c.offset) fuel read) :=
          Moves.iterate (ptpipReadRestBody_onlyReads B c.offset) fuel read
        exact (hrest u).mono (fun _ u' h => hstays u u' hu h.extends)
          (fun _ u' h => hstays u u' hu h.extends)
  refine hloop.mono (fun _ u hu => ?_) fun _ u hu => ?_
  · obtain ⟨got, hu⟩ := hu
    exact not_bounded_of_logged hu (hcall got)
  · obtain ⟨got, hu⟩ := hu
    exact not_bounded_of_logged hu (hcall got)

omit hheader hlength in
/-- With the buffer as it is, the request leaves it. -/
theorem unresized_outside (hsize : (c.buffer.size : Int) ≤ intMax) (hlonger : c.length ≠ 4)
    (hdishonour : ¬c.Honourable) (hkept : c.need % 4294967296 < c.buffer.size)
    (got : Option (List UInt8)) : ¬(Call.read .socket (c.offset + 4)
      (toInt32 (toUInt32 (c.length - 4))) c.buffer.size got).InBounds := by
  rintro ⟨_, hnonneg, hinside⟩
  have hlt := c.length_lt
  have hheader := c.header_le
  unfold intMax at hsize
  have hsame : toInt32 (toUInt32 ((c.length : Int) - 4)) = c.length - 4 := by
    unfold toInt32 toUInt32 at hnonneg ⊢
    omega
  rw [hsame] at hnonneg hinside
  have hbig : ¬(c.need < c.buffer.size ∨ (c.need + 100 : Int) ≤ intMax) := fun hfits =>
    hdishonour (.inr ⟨by omega, hfits⟩)
  unfold need at hkept hbig
  omega

omit hheader hlength in
/-- With the buffer resized, its length has overflowed, or the size is negative. -/
theorem resized_outside (hsize : (c.buffer.size : Int) ≤ intMax) (hlonger : c.length ≠ 4)
    (hdishonour : ¬c.Honourable) (hgrows : c.buffer.size ≤ c.need % 4294967296)
    (got : Option (List UInt8)) : ¬(Call.read .socket (c.offset + 4)
      (toInt32 (toUInt32 (c.length - 4))) (toInt32 (c.need % 4294967296 + 100 : Nat)) got).InBounds := by
  rintro ⟨_, hnonneg, hinside⟩
  have hlt := c.length_lt
  have hheader := c.header_le
  have hsame : toInt32 (toUInt32 ((c.length : Int) - 4)) = c.length - 4 := by
    unfold toInt32 toUInt32 at hnonneg ⊢
    omega
  rw [hsame] at hnonneg hinside
  have hbig : ¬(c.need < c.buffer.size ∨ (c.need + 100 : Int) ≤ intMax) := fun hfits =>
    hdishonour (.inr ⟨by omega, hfits⟩)
  have hneed : c.need = c.offset + 4 + c.length := rfl
  have hmod : c.need % 4294967296 = c.need := by
    unfold intMax at hsize
    omega
  rw [hmod] at hinside
  unfold toInt32 at hinside
  unfold intMax at hbig
  omega

/-- A length that cannot be honoured makes the function read outside the buffer. -/
theorem dishonoured_run (hsize : (c.buffer.size : Int) ≤ intMax) (hdishonour : ¬c.Honourable)
    (hmemory : ¬c.OutOfMemory) (fuel : Nat) :
    EndsIn (ptpipReadPacket B (fuel + 1) c.offset) c.start (fun w => ¬Bounded c.start w) := by
  have hlonger : c.length ≠ 4 := fun hbare => hdishonour (.inl hbare)
  have hoffset : (c.offset + 4 : Int) ≤ intMax := by
    have hle := c.header_le
    omega
  obtain ⟨w, hopened, hrun⟩ := c.sized_run hheader hlength hlonger hoffset
  have hload := c.opened_loadU32 hheader hlength hopened
  have hdataLength : w.r.dataLength = c.buffer.size := by
    rw [hopened.runtime]
    exact c.dataLength.trans (toInt32_of_fits ⟨by omega, hsize⟩)
  have hdata : w.r.data = some (c.buffer.store c.offset header) := by
    rw [hopened.runtime, hheader]
    rfl
  refine Ends.congr ?_ (hrun (fuel + 1))
  by_cases hgrows : c.buffer.size ≤ c.need % 4294967296
  · have hrealloc : B.realloc w.reallocs (c.need % 4294967296 + 100) = true := by
      by_contra hrefused
      rw [hopened.reallocs] at hrefused
      exact hmemory ⟨hlonger, hgrows, Bool.not_eq_true _ ▸ hrefused⟩
    obtain ⟨v, hresize, hlog, hsame, hlength_eq⟩ : ∃ v : World σ,
        ptpBufferResize B (c.need % 4294967296) w = .ok 0 v ∧ v.log = w.log ∧
          v.r.data = some ((c.buffer.store c.offset header).resize (c.need % 4294967296 + 100)) ∧
          v.r.dataLength = toInt32 (c.need % 4294967296 + 100) :=
      ⟨_, ptpBufferResize_ok hdata hdataLength hgrows (Nat.mod_lt _ (by decide)) hrealloc,
        rfl, rfl, rfl⟩
    have hload' : v.r.loadU32 c.offset = .ok c.length := by
      have hheader_le := c.header_le
      have hvalue := loadLe_some hsame 4 c.offset (by
        rw [Buffer.resize_size]
        omega)
      rw [Buffer.resize_slice, ← hlength, Buffer.store_slice_self] at hvalue
      rw [hlength] at hvalue
      rw [length, hheader]
      exact hvalue
    rw [if_pos hgrows]
    refine Ends.congr ?_ (bind_ok hresize)
    rw [if_neg (by decide)]
    refine c.loop_unbounded hlog hopened hload' (fun got => ?_) fuel
    rw [hlength_eq]
    exact c.resized_outside hsize hlonger hdishonour hgrows got
  · rw [if_neg hgrows]
    refine Ends.congr ?_ (bind_ok (pure_run _ _))
    rw [if_neg (by decide)]
    refine c.loop_unbounded rfl hopened hload (fun got => ?_) fuel
    rw [hdataLength]
    exact c.unresized_outside hsize hlonger hdishonour (not_le.mp hgrows) got

end Announced

/-- Without the length field, the function returns. -/
theorem unannounced_run (hsize : (c.buffer.size : Int) ≤ intMax) (hsilent : ¬c.Announced) :
    ∃ w rc, Bounded c.start w ∧ rc < 0 ∧ ∀ fuel, c.run fuel = .ok rc w := by
  obtain ⟨w, hopened, hrun⟩ := c.header_run
  have hbounded := c.opened_bounded hsize hopened
  cases hheader : c.header with
  | none =>
      refine ⟨w, PtpGeneralError.commandIgnored, hbounded, by decide, fun fuel => ?_⟩
      rw [hrun, hheader]
  | some header =>
      have hle := c.header_length_le
      rw [hheader, Option.getD_some] at hle
      have hshort : header.length < 4 :=
        lt_of_le_of_ne hle fun hfour => hsilent ⟨header, hheader, hfour⟩
      refine ⟨w, PtpGeneralError.ioErr, hbounded, by decide, fun fuel => ?_⟩
      rw [hrun, hheader]
      exact if_pos hshort

/-- A call is safe exactly if what the peer announces is honoured. -/
theorem safe_iff (hsize : (c.buffer.size : Int) ≤ intMax) : c.Safe ↔ c.Honoured := by
  have hoffset : (c.offset + 4 : Int) ≤ intMax := by
    have hle := c.header_le
    omega
  constructor
  · rintro hsafe ⟨header, hheader, hlength⟩
    by_contra hneither
    obtain ⟨hdishonour, hmemory⟩ := not_or.mp hneither
    obtain ⟨_, hbounded, hunbounded⟩ := (hsafe.bounded 1).meet
      (c.dishonoured_run hheader hlength hsize hdishonour hmemory 0)
    exact hunbounded hbounded
  · intro hhonoured
    by_cases hannounced : c.Announced
    · obtain ⟨header, hheader, hlength⟩ := id hannounced
      rcases hhonoured hannounced with hhonourable | hmemory
      · exact ⟨c.honourable_bounded hheader hlength hsize hhonourable,
          fun _ hdishonour => absurd hhonourable hdishonour⟩
      · obtain ⟨w, hbounded, hrun⟩ := c.outOfMemory_run hheader hlength hoffset hsize hmemory
        exact ⟨fun fuel => .ok (hrun fuel) hbounded,
          fun _ _ fuel => ⟨_, w, hrun fuel, by decide⟩⟩
    · obtain ⟨w, rc, hbounded, _, hrun⟩ := c.unannounced_run hsize hannounced
      exact ⟨fun fuel => .ok (hrun fuel) hbounded, fun h => absurd h hannounced⟩

end PacketCall

/-! ## Whole receives -/

/-- The calls of `ptpip_read_packet` in a run of `ptpip_receive_bulk_packets`: the offset
and the world that each starts in. -/
inductive Reached (B : Backend σ) (fuel : Nat) (w : World σ) : Int → World σ → Prop
  | first : Reached B fuel w 0 w
  | second {rc : Int} {v : World σ} : ptpipReadPacket B fuel 0 w = .ok rc v → 0 ≤ rc →
      v.r.loadU32 4 = .ok ptpipDataPacketStart → Reached B fuel w rc v
  | third {rc rc' : Int} {v u : World σ} {length : Nat} :
      ptpipReadPacket B fuel 0 w = .ok rc v → 0 ≤ rc →
      v.r.loadU32 4 = .ok ptpipDataPacketStart → ptpipReadPacket B fuel rc v = .ok rc' u →
      0 ≤ rc' → u.r.loadU32 (rc + 4) = .ok ptpipDataPacketEnd → u.r.loadU32 rc = .ok length →
      Fits (rc + toInt32 length) → Reached B fuel w (rc + toInt32 length) u

section Receive

variable {w : World σ} {fuel : Nat}

namespace PacketCall

/-- Behind a packet that was honoured, the buffer length still fits. -/
theorem Arrived.size_le {c : PacketCall B} {bytes : List UInt8} {v : World σ}
    (harrived : c.Arrived bytes v) (hsize : (c.buffer.size : Int) ≤ intMax)
    (hhonourable : c.Honourable) {buffer : Buffer} (hdata : v.r.data = some buffer) :
    (buffer.size : Int) ≤ intMax := by
  obtain ⟨buffer', _, _, hkept, hr⟩ := harrived.runtime
  rw [hr] at hdata
  obtain rfl := Option.some.inj hdata
  have hlength := harrived.length_eq
  rcases hkept with ⟨_, hsame⟩ | ⟨hlonger, hgrown⟩
  · rw [hsame]
    exact hsize
  · rcases hhonourable with hbare | ⟨_, hfits⟩
    · omega
    · rw [hgrown, hlength]
      exact c.size_le_of_fits hsize hfits

/-- A call that succeeds has been honoured. -/
theorem honourable_of_run {c : PacketCall B} (hsize : (c.buffer.size : Int) ≤ intMax)
    (hhonoured : c.Honoured) {rc : Int} {v : World σ} (hrun : c.run fuel = .ok rc v)
    (hrc : 0 ≤ rc) : c.Honourable := by
  obtain ⟨header, hheader, hlength⟩ := c.header_of_run hrun hrc
  rcases hhonoured ⟨header, hheader, hlength⟩ with hhonourable | hmemory
  · exact hhonourable
  · have hoffset : (c.offset + 4 : Int) ≤ intMax := by
      have hle := c.header_le
      omega
    obtain ⟨u, _, hrefused⟩ := c.outOfMemory_run hheader hlength hoffset hsize hmemory
    rw [hrefused] at hrun
    obtain ⟨rfl, _⟩ := EStateM.Result.ok.inj hrun
    exact absurd hrc (by decide)

end PacketCall

/-- Reading a packet, then going on, stays inside the buffer if both parts do. -/
theorem bounded_readPacket {c : PacketCall B} (hbounded : c.Safe) {next : Int → M σ Int}
    (hnext : ∀ rc v, c.run fuel = .ok rc v → EndsIn (next rc) v (Bounded v)) :
    EndsIn (ptpipReadPacket B fuel c.offset >>= next) c.start (Bounded c.start) := by
  refine Ends.bind ⟨fun {rc v} hrun => ?_, fun hrun => (hbounded.bounded fuel).of_error hrun⟩
  have hfirst := (hbounded.bounded fuel).of_ok hrun
  exact (hnext rc v hrun).mono (fun _ _ h => trans_of Bounded hfirst h)
    (fun _ _ h => trans_of Bounded hfirst h)

theorem receiveResponse_bounded {c : PacketCall B} (hbounded : c.Safe) :
    EndsIn (ptpipReceiveResponse B fuel c.offset) c.start (Bounded c.start) := by
  refine bounded_readPacket hbounded fun rc v _ => ?_
  have hrest : Moves Bounded (if rc < 0 then pure rc
      else do
        let type ← inspect (·.loadU32 (c.offset + 4))
        if type ≠ ptpipCommandResponse then pure PtpGeneralError.ioErr
        else do
          let _ ← inspect ptpGetReturnCode
          pure 0 : M σ Int) := by
    split
    · exact Moves.pure _
    refine (moves_inspect _).bind fun type => ?_
    split
    · exact Moves.pure _
    · exact (moves_inspect _).bind fun _ => Moves.pure _
  exact hrest v

theorem bounded_inspect {α β : Type} {read : PtpRuntime → Except Halt α} {next : α → M σ β}
    {v : World σ} (hnext : ∀ a, read v.r = .ok a → EndsIn (next a) v (Bounded v)) :
    EndsIn (inspect read >>= next) v (Bounded v) := by
  cases hread : read v.r with
  | ok a => exact (hnext a hread).congr (bind_ok (inspect_ok hread))
  | error reason =>
      have hstop : inspect read v = .error reason v := by
        unfold inspect
        rw [hread]
      exact .error (bind_error hstop) (refl_of Bounded v)

/-- The packets behind a start-data packet. -/
theorem receiveData_bounded {c : PacketCall B} {front : List UInt8} (hbehind : c.Behind front)
    (hsize : (c.buffer.size : Int) ≤ intMax) (hhonoured : c.Honoured)
    (hthird : ∀ (next : PacketCall B) (rc : Int) (length : Nat),
      c.run fuel = .ok rc next.start → 0 ≤ rc →
      next.start.r.loadU32 (c.offset + 4) = .ok ptpipDataPacketEnd →
      next.start.r.loadU32 c.offset = .ok length → Fits (c.offset + toInt32 length) →
      next.offset = c.offset + toInt32 length → next.Honoured) :
    EndsIn (ptpipReceiveData B fuel c.offset) c.start (Bounded c.start) := by
  refine bounded_readPacket ((c.safe_iff hsize).mpr hhonoured) fun rc v hrun => ?_
  by_cases hneg : rc < 0
  · rw [if_pos hneg]
    exact .pure (refl_of Bounded v)
  rw [if_neg hneg]
  obtain ⟨bytes, harrived, hrc⟩ := c.arrived_of_run hrun (not_lt.mp hneg)
  have hhonourable := PacketCall.honourable_of_run hsize hhonoured hrun (not_lt.mp hneg)
  refine bounded_inspect fun type htype => ?_
  by_cases hend : type ≠ ptpipDataPacketEnd
  · rw [if_pos hend]
    exact .pure (refl_of Bounded v)
  rw [if_neg hend]
  refine bounded_inspect fun length hlength => ?_
  by_cases hfits : Fits (c.offset + toInt32 length)
  · refine Ends.congr ?_ (bind_ok (intAdd_ok hfits v))
    obtain ⟨next, rfl, hoffset⟩ :=
      PacketCall.next_of_length hbehind hrun (not_lt.mp hneg) htype hlength hfits
    have hnext := hthird next rc length hrun (not_lt.mp hneg) (by rw [htype, not_not.mp hend])
      hlength hfits hoffset
    have hnext_size := harrived.size_le hsize hhonourable next.data
    rw [← hoffset]
    exact receiveResponse_bounded ((next.safe_iff hnext_size).mpr hnext)
  · exact .error (bind_error (intAdd_overflow hfits v)) (refl_of Bounded v)

/-- If every length announced in a receive is honoured, all its reads are inside the
buffer. -/
theorem receiveBulk_bounded {buffer : Buffer} (hready : w.r.Ready buffer)
    (hhonoured : ∀ c : PacketCall B, Reached B fuel w c.offset c.start → c.Honoured) :
    EndsIn (ptpipReceiveBulkPackets B fuel) w (Bounded w) := by
  have hfirst : (PacketCall.first B w hready).Honoured := hhonoured _ .first
  have hsize : ((PacketCall.first B w hready).buffer.size : Int) ≤ intMax := hready.2.2.1
  refine bounded_readPacket (c := .first B w hready)
    (((PacketCall.first B w hready).safe_iff hsize).mpr hfirst) fun rc v hrun => ?_
  by_cases hneg : rc < 0
  · rw [if_pos hneg]
    exact .pure (refl_of Bounded v)
  rw [if_neg hneg]
  have hbehind := PacketCall.first_behind (B := B) hready
  obtain ⟨bytes, harrived, hrc⟩ :=
    (PacketCall.first B w hready).arrived_of_run hrun (not_lt.mp hneg)
  have hhonourable := PacketCall.honourable_of_run hsize hfirst hrun (not_lt.mp hneg)
  refine bounded_inspect fun type htype => ?_
  by_cases hstart : type = ptpipDataPacketStart
  · rw [if_pos hstart]
    obtain ⟨next, front, rfl, rfl, hnext⟩ := PacketCall.next_of_first hready hrun (not_lt.mp hneg)
    have htype' : next.start.r.loadU32 4 = .ok ptpipDataPacketStart := hstart ▸ htype
    have hrun' : ptpipReadPacket B fuel 0 w = .ok (next.offset : Int) next.start := hrun
    refine receiveData_bounded hnext (harrived.size_le hsize hhonourable next.data)
      (hhonoured next (.second hrun' (Int.natCast_nonneg _) htype')) ?_
    intro third rc' length hrun'' hrc' hend hlength hfits hthird
    refine hhonoured third ?_
    rw [hthird]
    exact .third hrun' (Int.natCast_nonneg _) htype' hrun'' hrc' hend hlength hfits
  rw [if_neg hstart]
  have hrest : Moves Bounded (if type = ptpipCommandResponse then do
        let _ ← inspect ptpGetReturnCode
        pure 0
      else pure PtpGeneralError.ioErr : M σ Int) := by
    split
    · exact (moves_inspect _).bind fun _ => Moves.pure _
    · exact Moves.pure _
  exact hrest v

/-- As long as calls are honoured, the buffer length fits at every call. -/
theorem reached_size {buffer : Buffer} (hready : w.r.Ready buffer)
    (hcalls : ∀ c : PacketCall B, Reached B fuel w c.offset c.start →
      (c.buffer.size : Int) ≤ intMax → c.Honoured)
    {offset : Int} {start : World σ} (hreached : Reached B fuel w offset start) {after : Buffer}
    (hafter : start.r.data = some after) : (after.size : Int) ≤ intMax := by
  have hsize : ((PacketCall.first B w hready).buffer.size : Int) ≤ intMax := hready.2.2.1
  have hfirst : (PacketCall.first B w hready).Honoured := hcalls _ .first hsize
  have hbehind := PacketCall.first_behind (B := B) hready
  cases hreached with
  | first =>
      obtain rfl := Option.some.inj (hready.1.symm.trans hafter)
      exact hsize
  | second hrun hrc _ =>
      obtain ⟨bytes, harrived, _⟩ := (PacketCall.first B w hready).arrived_of_run hrun hrc
      exact harrived.size_le hsize (PacketCall.honourable_of_run hsize hfirst hrun hrc) hafter
  | third hrun hrc hstart hrun' hrc' hend hlength hfits =>
      obtain ⟨bytes, harrived, _⟩ := (PacketCall.first B w hready).arrived_of_run hrun hrc
      obtain ⟨next, _, rfl, rfl, _⟩ := PacketCall.next_of_first hready hrun hrc
      have hnext_size := harrived.size_le hsize
        (PacketCall.honourable_of_run hsize hfirst hrun hrc) next.data
      have hsecond : next.Honoured := hcalls next (.second hrun hrc hstart) hnext_size
      obtain ⟨bytes', harrived', _⟩ := next.arrived_of_run hrun' hrc'
      exact harrived'.size_le hnext_size
        (PacketCall.honourable_of_run hnext_size hsecond hrun' hrc') hafter

/-- The calls of a receive are safe exactly if the lengths announced to them are
honoured. -/
theorem reached_safe_iff {buffer : Buffer} (hready : w.r.Ready buffer) :
    (∀ c : PacketCall B, Reached B fuel w c.offset c.start → c.Safe) ↔
      ∀ c : PacketCall B, Reached B fuel w c.offset c.start → c.Honoured := by
  constructor
  · intro hsafe c hreached
    refine (c.safe_iff ?_).mp (hsafe c hreached)
    exact reached_size hready (fun d hd hsize => (d.safe_iff hsize).mp (hsafe d hd)) hreached c.data
  · intro hhonoured c hreached
    refine (c.safe_iff ?_).mpr (hhonoured c hreached)
    exact reached_size hready (fun d hd _ => hhonoured d hd) hreached c.data

end Receive

/-! ## Initialisation -/

/-- The initialisation request, as `ptpip_init_command_request` lays it out. -/
def initPacket : List UInt8 :=
  leBytes 4 36 ++ leBytes 4 ptpipInitCommandReq ++ List.replicate 16 0xff ++
    List.replicate 8 0 ++ leBytes 2 0 ++ leBytes 2 1

/-- The buffer with the request for the given name. -/
def initBuffer (buffer : Buffer) (deviceName : List UInt8) : Buffer :=
  ((buffer.store 0 initPacket).store 24 (deviceName.flatMap fun char => [char, 0])).store
    (24 + deviceName.length * 2 + 1) [0]

/-- The device, once the request has been written. -/
def initDevice (B : Backend σ) (w : World σ) (buffer : Buffer) (deviceName : List UInt8) : σ :=
  (B.cmdWrite .socket ((initBuffer buffer deviceName).slice 0 36) w.device).2

/-- The backend takes the request as a whole. -/
def initSent (B : Backend σ) (w : World σ) (buffer : Buffer) (deviceName : List UInt8) : Prop :=
  (B.cmdWrite .socket ((initBuffer buffer deviceName).slice 0 36) w.device).1.map
    (toUInt32 ·) = some 36

/-- The length that `ptpip_init_command_request` finds after its first read: what the
peer sent of it, over the length of the request itself. -/
structure InitAnnounced (B : Backend σ) (w : World σ) (buffer : Buffer) (deviceName : List UInt8)
    (length : Nat) : Prop where
  room : 26 + 2 * deviceName.length ≤ buffer.size
  written : initSent B w buffer deviceName
  read : ∃ got, B.readResult .socket 4 (initDevice B w buffer deviceName) = some got ∧
    length = leValue (((initBuffer buffer deviceName).store 0 got).slice 0 4)

/-- All reads of the initialisation are inside the buffer, and a length that cannot be
honoured is reported by a negative return value. -/
structure InitSafe (B : Backend σ) (w : World σ) (buffer : Buffer) (deviceName : List UInt8) :
    Prop where
  bounded : EndsIn (ptpipInitCommandRequest B deviceName) w (Bounded w)
  reported : ∀ length, InitAnnounced B w buffer deviceName length →
    ¬(4 ≤ length ∧ length ≤ buffer.size) →
      ∃ rc w', ptpipInitCommandRequest B deviceName w = .ok rc w' ∧ rc < 0

/-- What follows the read of the length field. -/
def initReceive (B : Backend σ) : M σ Int := do
  let length ← inspect (·.loadU32 0)
  let rc ← cmdRead B .socket 4 (toInt32 (toUInt32 (length - 4)))
  if rc.isNone then pure PtpGeneralError.ioErr
  else do
    let type ← inspect (·.loadU32 4)
    if type = ptpipInitFail then pure PtpGeneralError.checkCode else pure 0

section Init

variable {w : World σ} {buffer : Buffer} (hready : w.r.Ready buffer) (deviceName : List UInt8)

@[simp] theorem initBuffer_size : (initBuffer buffer deviceName).size = buffer.size := rfl

theorem initBuffer_field : leValue ((initBuffer buffer deviceName).slice 0 4) = 36 := by
  unfold initBuffer
  rw [Buffer.store_slice_disjoint _ _ _ _ _ (.inl (by omega)),
    Buffer.store_slice_disjoint _ _ _ _ _ (.inl (by omega)),
    Buffer.store_slice_take _ _ _ _ (by simp [initPacket])]
  decide

theorem unicode_length : (deviceName.flatMap fun char => [char, 0]).length =
    2 * deviceName.length := by
  simp [List.length_flatMap, Nat.mul_comm]

include hready

/-- The function gets to its write. -/
theorem init_stored (hroom : 26 + 2 * deviceName.length ≤ buffer.size) :
    ptpipInitCommandRequest B deviceName w = (do
      let rc ← cmdWrite B .socket 0 36
      if rc.map (toUInt32 ·) ≠ some 36 then pure PtpGeneralError.ioErr
      else do
        let rc ← cmdRead B .socket 0 4
        if rc.isNone then pure PtpGeneralError.ioErr else initReceive B : M σ Int)
      { w with r := { w.r with data := some (initBuffer buffer deviceName) } } := by
  have hdefault : 1000000 ≤ buffer.size := hready.2.2.2
  have hlength := unicode_length deviceName
  have hpacket : storeData 0 initPacket w =
      .ok () { w with r := { w.r with data := some (buffer.store 0 initPacket) } } :=
    storeData_ok hready.1 0 initPacket rfl (by
      change 0 + 36 ≤ buffer.size
      omega)
  have hstring : storeData 24 (deviceName.flatMap fun char => [char, 0])
      { w with r := { w.r with data := some (buffer.store 0 initPacket) } } =
      .ok () { w with r := { w.r with data := some ((buffer.store 0 initPacket).store 24
        (deviceName.flatMap fun char => [char, 0])) } } :=
    storeData_ok rfl 24 _ rfl (by
      rw [hlength, Buffer.store_size]
      omega)
  have hend : storeData (24 + (deviceName.length : Int) * 2 + 1) [0]
      { w with r := { w.r with data := some ((buffer.store 0 initPacket).store 24
        (deviceName.flatMap fun char => [char, 0])) } } =
      .ok () { w with r := { w.r with data := some (initBuffer buffer deviceName) } } :=
    storeData_ok rfl (24 + deviceName.length * 2 + 1) [0] (by push_cast; rfl) (by
      rw [Buffer.store_size, Buffer.store_size, List.length_singleton]
      omega)
  have hload : { w.r with data := some (initBuffer buffer deviceName) }.loadU32 0 = .ok 36 := by
    have hvalue := loadLe_some (r := { w.r with data := some (initBuffer buffer deviceName) }) rfl
      4 0 (by change 0 + 4 ≤ buffer.size; omega)
    rw [initBuffer_field] at hvalue
    exact hvalue
  have hname : ptpWriteUnicodeString 24 deviceName
      { w with r := { w.r with data := some (buffer.store 0 initPacket) } } =
      .ok (deviceName.length : Int)
        { w with r := { w.r with data := some (initBuffer buffer deviceName) } } := by
    unfold ptpWriteUnicodeString
    rw [bind_ok hstring, bind_ok hend, pure_run]
  unfold ptpipInitCommandRequest
  change (storeData 0 initPacket >>= _) w = _
  rw [bind_ok hpacket, bind_ok hname, bind_ok (inspect_ok hload)]
  rfl

/-- The function gets to its first read if the backend takes the request. -/
theorem init_written (hroom : 26 + 2 * deviceName.length ≤ buffer.size) :
    ∃ v : World σ, v.r.data = some (initBuffer buffer deviceName) ∧
      v.r.dataLength = buffer.size ∧ v.device = initDevice B w buffer deviceName ∧ Bounded w v ∧
      (initSent B w buffer deviceName → ptpipInitCommandRequest B deviceName w = (do
        let rc ← cmdRead B .socket 0 4
        if rc.isNone then pure PtpGeneralError.ioErr else initReceive B : M σ Int) v) ∧
      (¬initSent B w buffer deviceName →
        ptpipInitCommandRequest B deviceName w = .ok PtpGeneralError.ioErr v) := by
  have hdefault : 1000000 ≤ buffer.size := hready.2.2.2
  obtain ⟨v, hwrite, hdata, hlength, hdevice, hlog⟩ : ∃ v : World σ,
      cmdWrite B .socket 0 36 { w with r := { w.r with data := some (initBuffer buffer deviceName) } }
        = .ok (B.cmdWrite .socket ((initBuffer buffer deviceName).slice 0 36) w.device).1 v ∧
      v.r.data = some (initBuffer buffer deviceName) ∧ v.r.dataLength = buffer.size ∧
      v.device = initDevice B w buffer deviceName ∧
      v.log = w.log ++ [.write .socket ((initBuffer buffer deviceName).slice 0 36)
        (B.cmdWrite .socket ((initBuffer buffer deviceName).slice 0 36) w.device).1] :=
    ⟨_, cmdWrite_ok rfl .socket 0 36 (by rw [initBuffer_size]; omega), rfl, hready.2.1, rfl, rfl⟩
  have hrun := init_stored (B := B) hready deviceName hroom
  refine ⟨v, hdata, hlength, hdevice, ⟨_, hlog, ?_⟩, fun hsent => ?_, fun hsent => ?_⟩
  · intro call hcall
    obtain rfl := List.mem_singleton.mp hcall
    exact trivial
  · unfold initSent at hsent
    rw [hrun, bind_ok hwrite, if_neg (not_not.mpr hsent)]
  · unfold initSent at hsent
    rw [hrun, bind_ok hwrite, if_pos hsent]
    rfl

/-- The read of the length field stays inside the buffer. -/
theorem init_read (hroom : 26 + 2 * deviceName.length ≤ buffer.size)
    (hsent : initSent B w buffer deviceName) :
    ∃ v : World σ, v.r.data = some ((initBuffer buffer deviceName).store 0
        ((B.readResult .socket 4 (initDevice B w buffer deviceName)).getD [])) ∧
      v.r.dataLength = buffer.size ∧ Bounded w v ∧
      ptpipInitCommandRequest B deviceName w =
        (if (B.readResult .socket 4 (initDevice B w buffer deviceName)).isNone then
          pure PtpGeneralError.ioErr
        else initReceive B : M σ Int) v := by
  have hdefault : 1000000 ≤ buffer.size := hready.2.2.2
  obtain ⟨u, hdata, hlength, hdevice, hbounded, hrun, _⟩ :=
    init_written (B := B) hready deviceName hroom
  obtain ⟨v, hread, hdata', hlength', hlog⟩ : ∃ v : World σ,
      cmdRead B .socket 0 4 u =
        .ok ((B.readResult .socket 4 (initDevice B w buffer deviceName)).map List.length) v ∧
      v.r.data = some ((initBuffer buffer deviceName).store 0
        ((B.readResult .socket 4 (initDevice B w buffer deviceName)).getD [])) ∧
      v.r.dataLength = buffer.size ∧
      v.log = u.log ++ [.read .socket 0 4 u.r.dataLength
        (B.readResult .socket 4 (initDevice B w buffer deviceName))] := by
    rw [← hdevice]
    exact ⟨_, cmdRead_ok hdata .socket 0 4 (by rw [initBuffer_size]; omega), rfl, hlength, rfl⟩
  refine ⟨v, hdata', hlength', trans_of Bounded hbounded ⟨_, hlog, ?_⟩, ?_⟩
  · intro call hcall
    obtain rfl := List.mem_singleton.mp hcall
    exact ⟨le_rfl, by decide, by rw [hlength]; omega⟩
  · rw [hrun hsent, bind_ok hread, Option.isNone_map]

omit hready in
/-- A name that does not fit is not stored as a whole. -/
theorem unicode_outside {v : World σ} {b : Buffer} (hdata : v.r.data = some b)
    (hroom : b.size < 26 + 2 * deviceName.length) :
    Ends (ptpWriteUnicodeString 24 deviceName) v (fun _ _ => False) (fun _ u => u.log = v.log) := by
  have hlength := unicode_length deviceName
  have houtside : ∀ {u : World σ} {c : Buffer} {at_ : Int} {bytes : List UInt8},
      u.r.data = some c → ¬(at_ + bytes.length ≤ c.size) →
      storeData at_ bytes u = .error .undefined u := by
    intro u c at_ bytes hdata hover
    unfold storeData PtpRuntime.store
    rw [hdata]
    dsimp only
    rw [if_neg fun h => hover h.2]
  by_cases hstring : 24 + 2 * deviceName.length ≤ b.size
  · have hstore : storeData 24 (deviceName.flatMap fun char => [char, 0]) v =
        .ok () { v with r := { v.r with data := some (b.store 24
          (deviceName.flatMap fun char => [char, 0])) } } :=
      storeData_ok hdata 24 _ rfl (by rw [hlength]; exact hstring)
    refine Ends.congr ?_ (bind_ok hstore)
    refine Ends.error (bind_error (houtside rfl ?_)) rfl
    rw [Buffer.store_size, List.length_singleton]
    omega
  · refine Ends.error (bind_error (houtside hdata ?_)) rfl
    rw [hlength]
    omega

/-- Without the length field of an answer, nothing is read outside the buffer. -/
theorem init_unannounced (hsilent : ∀ length, ¬InitAnnounced B w buffer deviceName length) :
    EndsIn (ptpipInitCommandRequest B deviceName) w (Bounded w) := by
  by_cases hroom : 26 + 2 * deviceName.length ≤ buffer.size
  · by_cases hsent : initSent B w buffer deviceName
    · obtain ⟨v, _, _, hbounded, hrun⟩ := init_read (B := B) hready deviceName hroom hsent
      cases hgot : B.readResult .socket 4 (initDevice B w buffer deviceName) with
      | none =>
          rw [hgot] at hrun
          exact .ok hrun hbounded
      | some got => exact absurd ⟨hroom, hsent, got, hgot, rfl⟩ (hsilent _)
    · obtain ⟨v, _, _, _, hbounded, _, hrun⟩ := init_written (B := B) hready deviceName hroom
      exact .ok (hrun hsent) hbounded
  · have hdefault : 1000000 ≤ buffer.size := hready.2.2.2
    have hpacket : storeData 0 initPacket w =
        .ok () { w with r := { w.r with data := some (buffer.store 0 initPacket) } } :=
      storeData_ok hready.1 0 initPacket rfl (by
        change 0 + 36 ≤ buffer.size
        omega)
    refine Ends.congr (Ends.bind ?_) (bind_ok hpacket)
    refine (unicode_outside (b := buffer.store 0 initPacket) deviceName rfl
      (not_le.mp hroom)).mono (fun _ _ h => h.elim) ?_
    exact fun _ u hlog => (refl_of Bounded w).of_log hlog

/-- The function gets to the rest of the answer. -/
theorem init_announced {length : Nat}
    (hannounced : InitAnnounced B w buffer deviceName length) :
    ∃ v : World σ, ∃ grown : Buffer, v.r.data = some grown ∧ grown.size = buffer.size ∧
      leValue (grown.slice 0 4) = length ∧ v.r.dataLength = buffer.size ∧ Bounded w v ∧
      ptpipInitCommandRequest B deviceName w = initReceive B v := by
  obtain ⟨hroom, hsent, got, hgot, rfl⟩ := hannounced
  obtain ⟨v, hdata, hlength, hbounded, hrun⟩ := init_read (B := B) hready deviceName hroom hsent
  rw [hgot] at hdata hrun
  exact ⟨v, _, hdata, rfl, rfl, hlength, hbounded, hrun⟩

omit hready in
/-- Behind the read come a test of its result and a look at the type. -/
theorem initCheck_moves {R : World σ → World σ → Prop} [IsPreorder (World σ) R] (rc : Option Nat) :
    Moves R (if rc.isNone then pure PtpGeneralError.ioErr
      else do
        let type ← inspect (·.loadU32 4)
        if type = ptpipInitFail then pure PtpGeneralError.checkCode else pure 0 : M σ Int) := by
  split
  · exact Moves.pure _
  · refine (moves_inspect _).bind fun type => ?_
    split
    · exact Moves.pure _
    · exact Moves.pure _

/-- The read of the rest of the answer asks for four bytes less than announced. -/
theorem initReceive_bounded_iff {v : World σ} {grown : Buffer} (hdata : v.r.data = some grown)
    (hsize : grown.size = buffer.size) (hlength : v.r.dataLength = buffer.size)
    (hbounded : Bounded w v) : EndsIn (initReceive B) v (Bounded w) ↔
      4 ≤ leValue (grown.slice 0 4) ∧ leValue (grown.slice 0 4) ≤ buffer.size := by
  have hdefault : 1000000 ≤ buffer.size := hready.2.2.2
  have hmax : (buffer.size : Int) ≤ 2147483647 := hready.2.2.1
  have hload : v.r.loadU32 0 = .ok (leValue (grown.slice 0 4)) :=
    loadLe_some hdata 4 0 (by omega)
  have hlt : leValue (grown.slice 0 4) < 4294967296 := by
    have hbound := leValue_lt (grown.slice 0 4)
    rw [Buffer.slice_length] at hbound
    exact hbound
  generalize leValue (grown.slice 0 4) = length at hload hlt ⊢
  have hread := cmdRead_logs (B := B) .socket 4 (toInt32 (toUInt32 ((length : Int) - 4))) v
  constructor
  · intro hends
    have hlogged : EndsIn (initReceive B) v (fun u => ∃ got, v.log ++ [.read .socket 4
        (toInt32 (toUInt32 ((length : Int) - 4))) v.r.dataLength got] <+: u.log) := by
      refine Ends.congr (Ends.bind ?_) (bind_ok (inspect_ok hload))
      refine hread.mono (fun rc u hu => ?_) fun _ u hu => ?_
      · obtain ⟨got, hu⟩ := hu
        exact (initCheck_moves (R := Extends) rc u).mono (fun _ u' h => ⟨got, hu ▸ h⟩)
          (fun _ u' h => ⟨got, hu ▸ h⟩)
      · obtain ⟨got, hu⟩ := hu
        exact ⟨got, hu ▸ List.prefix_refl _⟩
    obtain ⟨front, hfront, _⟩ := hbounded
    obtain ⟨u, hinside, got, hu⟩ := hends.meet hlogged
    rw [hfront, List.append_assoc] at hu
    by_contra hdishonour
    refine not_bounded_of_logged hu ?_ hinside
    rintro ⟨_, hnonneg, hinside⟩
    rw [hlength] at hinside
    unfold toInt32 toUInt32 at hnonneg hinside
    omega
  · rintro ⟨hlow, hhigh⟩
    refine Ends.congr (Ends.bind ?_) (bind_ok (inspect_ok hload))
    have hfirst : ∀ u : World σ, (∃ got, u.log = v.log ++ [.read .socket 4
        (toInt32 (toUInt32 ((length : Int) - 4))) v.r.dataLength got]) → Bounded w u := by
      rintro u ⟨got, hu⟩
      refine trans_of Bounded hbounded ⟨_, hu, fun call hcall => ?_⟩
      obtain rfl := List.mem_singleton.mp hcall
      have hsame : toInt32 (toUInt32 ((length : Int) - 4)) = length - 4 := by
        unfold toInt32 toUInt32
        omega
      exact ⟨by decide, by rw [hsame]; omega, by rw [hsame, hlength]; omega⟩
    refine hread.mono (fun rc u hu => ?_) fun _ u hu => hfirst u hu
    exact (initCheck_moves rc u).mono (fun _ u' h => trans_of Bounded (hfirst u hu) h)
      (fun _ u' h => trans_of Bounded (hfirst u hu) h)

/-- The initialisation is safe exactly if the announced length can be honoured. -/
theorem init_safe_iff : InitSafe B w buffer deviceName ↔
    ∀ length, InitAnnounced B w buffer deviceName length → 4 ≤ length ∧ length ≤ buffer.size := by
  constructor
  · intro hsafe length hannounced
    obtain ⟨v, grown, hdata, hsize, hvalue, hlength, hbounded, hrun⟩ :=
      init_announced (B := B) hready deviceName hannounced
    rw [← hvalue]
    refine (initReceive_bounded_iff (B := B) hready hdata hsize hlength hbounded).mp ?_
    exact hsafe.bounded.congr hrun.symm
  · intro hhonoured
    refine ⟨?_, fun length hannounced hdishonour => absurd (hhonoured length hannounced) hdishonour⟩
    by_cases hannounced : ∃ length, InitAnnounced B w buffer deviceName length
    · obtain ⟨length, hannounced⟩ := hannounced
      obtain ⟨v, grown, hdata, hsize, hvalue, hlength, hbounded, hrun⟩ :=
        init_announced (B := B) hready deviceName hannounced
      refine Ends.congr ?_ hrun
      refine (initReceive_bounded_iff hready hdata hsize hlength hbounded).mpr ?_
      rw [hvalue]
      exact hhonoured length hannounced
    · exact init_unannounced hready deviceName (not_exists.mp hannounced)

end Init

/-! ## The peer and the buffer -/

/-- A PTP/IP peer cannot make the library read outside its buffer exactly if every length
it announces can be honoured: in a receive and in the initialisation. -/
theorem ptpip_reads_inside_iff (B : Backend σ) {w : World σ} {buffer : Buffer}
    (hready : w.r.Ready buffer) :
    (∀ fuel, (∀ c : PacketCall B, Reached B fuel w c.offset c.start → c.Safe) ↔
      ∀ c : PacketCall B, Reached B fuel w c.offset c.start → c.Honoured) ∧
    (∀ fuel, (∀ c : PacketCall B, Reached B fuel w c.offset c.start → c.Honoured) →
      EndsIn (ptpipReceiveBulkPackets B fuel) w (Bounded w)) ∧
    (∀ deviceName, InitSafe B w buffer deviceName ↔ ∀ length,
      InitAnnounced B w buffer deviceName length → 4 ≤ length ∧ length ≤ buffer.size) :=
  ⟨fun _ => reached_safe_iff hready, fun _ hhonoured => receiveBulk_bounded hready hhonoured,
    fun deviceName => init_safe_iff hready deviceName⟩

/-- An answer of eight bytes is read inside the buffer. -/
theorem ptpip_reads_inside_answer :
    InitSafe limited (ipWorld ([8, 0, 0, 0, 2, 0, 0, 0], [])) ⟨ptpDefaultSize, fun _ => 0⟩ [] := by
  refine ((ptpip_reads_inside_iff limited (ipWorld_ready _)).2.2 []).mpr ?_
  rintro length ⟨_, _, got, hgot, rfl⟩
  obtain rfl : [8, 0, 0, 0] = got := Option.some.inj hgot
  rw [Buffer.store_slice_take _ _ _ _ (by decide)]
  decide

/-- The call that receives the length field 2. -/
def shortCall : PacketCall limited := .first limited (ipWorld ([2, 0, 0, 0], [])) (ipWorld_ready _)

/-- A length field of 2 makes the next read ask for -2 bytes. -/
theorem ptpipReadPacket_outside : ¬shortCall.Safe := by
  intro hsafe
  have hsize : (shortCall.buffer.size : Int) ≤ intMax := (by decide : (ptpDefaultSize : Int) ≤ intMax)
  have hlength : shortCall.length = 2 := by decide
  have hneed : shortCall.need % 4294967296 = 6 := by decide
  have hbuffer : shortCall.buffer.size = 1000000 := rfl
  rcases (shortCall.safe_iff hsize).mp hsafe ⟨[2, 0, 0, 0], rfl, rfl⟩ with hhonourable | hmemory
  · rcases hhonourable with hbare | ⟨hlonger, _⟩
    · omega
    · omega
  · obtain ⟨_, hgrows, _⟩ := hmemory
    omega

end Libpict
